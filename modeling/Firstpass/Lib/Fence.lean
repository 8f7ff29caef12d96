import Firstpass.Lib.Separator

/-!
# Text behind a marker

Where the first marker of a text is one that was put there, what stands before it and after it
is read back. A marker that no end of itself begins again can only be forged in one part.
-/

namespace Fence

variable {α : Type*} {a : α} {marker xs ys : List α}

/-- No end of a marker is a beginning of it, but the whole. -/
def Unbordered (marker : List α) : Prop :=
  ∀ y, y ≠ [] → y <+: marker → y <:+ marker → y = marker

theorem unbordered_concat (h : a ∉ marker) : Unbordered (marker ++ [a]) := by
  intro y hne hprefix hsuffix
  have hlast : a ∈ y := by
    obtain ⟨front, hfront⟩ := hsuffix
    have hends := congrArg List.getLast? hfront
    rw [List.getLast?_append, List.getLast?_eq_some_getLast hne, List.getLast?_concat] at hends
    rw [← Option.some.inj hends]
    exact List.getLast_mem hne
  rcases List.prefix_concat_iff.mp hprefix with heq | hshort
  · exact heq
  · exact absurd (hshort.subset hlast) h

theorem unbordered_cons (h : a ∉ marker) : Unbordered (a :: marker) := by
  intro y hne hprefix hsuffix
  have hhead : a ∈ y := by
    obtain ⟨c, y, rfl⟩ := List.exists_cons_of_ne_nil hne
    obtain ⟨back, hback⟩ := hprefix
    rw [← (List.cons.inj hback).1]
    exact List.mem_cons_self
  rcases List.suffix_cons_iff.mp hsuffix with heq | hshort
  · exact heq
  · exact absurd (hshort.subset hhead) h

variable [DecidableEq α]

/-- The text before a marker is read back exactly when it has no marker of its own. -/
theorem dropInfix?_eq_some (hmarker : Unbordered marker) (hne : marker ≠ []) :
    (xs ++ marker ++ ys).dropInfix? marker = some (xs, ys) ↔ ¬ marker <:+: xs := by
  rw [List.dropInfix?_eq_some_iff]
  constructor
  · rintro ⟨-, hfirst⟩ ⟨front, back, rfl⟩
    have hlength := hfirst front marker (back ++ marker ++ ys) (by simp) (by simp)
    have hpos := List.length_pos_iff.mpr hne
    simp only [List.length_append] at hlength
    omega
  · intro hfree
    refine ⟨⟨marker, rfl, by simp⟩, ?_⟩
    intro front marker' back heq hmarker'
    obtain rfl : marker = marker' := (eq_of_beq hmarker').symm
    by_contra hshort
    rw [List.append_assoc, List.append_assoc] at heq
    rcases List.append_eq_append_iff.mp heq with ⟨mid, hmid, -⟩ | ⟨mid, rfl, hrest⟩
    · exact hshort (by simp [hmid])
    -- A marker that begins inside `xs` ends there, or an end of it begins the real one.
    rcases List.append_eq_append_iff.mp hrest with ⟨mid', rfl, -⟩ | ⟨mid', hsplit, hover⟩
    · exact hfree ⟨front, mid', List.append_assoc ..⟩
    · have hprefix : mid' <+: marker :=
        List.prefix_of_prefix_length_le (hover ▸ List.prefix_append mid' back)
          (List.prefix_append marker ys) (by simp [hsplit])
      by_cases hend : mid' = []
      · exact hfree ⟨front, [], by simp [hsplit, hend]⟩
      · have hall := hmarker mid' hend hprefix (hsplit ▸ List.suffix_append mid mid')
        obtain rfl : mid = [] := by simpa [hall] using hsplit
        exact hshort (by simp)

theorem dropInfix?_append {text : List α} (h : text.dropInfix? marker = some (xs, ys)) :
    text = xs ++ marker ++ ys := by
  obtain ⟨⟨marker', htext, hmarker⟩, -⟩ := List.dropInfix?_eq_some_iff.mp h
  rw [htext, eq_of_beq hmarker]

/-- What stands before the first opening marker, between it and the next closing one, and after
that. -/
def read (opening closing text : List α) : Option (List α × List α × List α) :=
  (text.dropInfix? opening).bind fun p =>
    (p.2.dropInfix? closing).map fun q => (p.1, q.1, q.2)

section
variable {opening closing before inside after : List α}

theorem read_eq_some_iff {text : List α} :
    read opening closing text = some (before, inside, after) ↔
      ∃ rest, text.dropInfix? opening = some (before, rest) ∧
        rest.dropInfix? closing = some (inside, after) := by
  simp [read, Option.bind_eq_some_iff]

theorem read_append {text : List α} (h : read opening closing text = some (before, inside, after)) :
    text = before ++ opening ++ (inside ++ closing ++ after) := by
  obtain ⟨rest, hopened, hclosed⟩ := read_eq_some_iff.mp h
  rw [dropInfix?_append hopened, dropInfix?_append hclosed]

/-- What stands between two markers is read back exactly when no marker is forged: none that
opens before it, none that closes inside. -/
theorem read_eq_some (hopening : Unbordered opening) (hopen : opening ≠ [])
    (hclosing : Unbordered closing) (hclose : closing ≠ []) :
    read opening closing (before ++ opening ++ (inside ++ closing ++ after)) =
        some (before, inside, after) ↔
      ¬ opening <:+: before ∧ ¬ closing <:+: inside := by
  have hinside : (inside ++ closing ++ after).dropInfix? closing = some (inside, after) ↔
      ¬ closing <:+: inside := dropInfix?_eq_some hclosing hclose
  rw [read_eq_some_iff, ← hinside]
  constructor
  · rintro ⟨rest, hopened, hclosed⟩
    obtain rfl := List.append_cancel_left (dropInfix?_append hopened)
    exact ⟨(dropInfix?_eq_some hopening hopen).mp hopened, hclosed⟩
  · rintro ⟨hfree, hclosed⟩
    exact ⟨_, (dropInfix?_eq_some hopening hopen).mpr hfree, hclosed⟩

end

omit [DecidableEq α] in
/-- A marker that ends its line cannot lie across the end of another. -/
theorem infix_line (h : a ∉ marker) :
    (marker ++ [a]) <:+: (xs ++ a :: ys) ↔
      (marker ++ [a]) <:+: (xs ++ [a]) ∨ (marker ++ [a]) <:+: ys := by
  constructor
  · rintro ⟨front, back, heq⟩
    rw [← List.append_assoc, List.append_assoc, List.singleton_append] at heq
    rcases Separator.append_cons_eq_iff.mp heq with
      ⟨rfl, -⟩ | ⟨mid, rfl, -⟩ | ⟨mid, hsplit, rfl⟩
    · exact .inl ⟨front, [], by simp⟩
    · exact .inl ⟨front, mid ++ [a], by simp⟩
    -- The marker's own text has no line end, so here it begins after the first one.
    · rcases List.append_eq_append_iff.mp hsplit with ⟨mid', -, rfl⟩ | ⟨mid', -, hmid⟩
      · simp at h
      · cases mid' with
        | nil =>
          obtain rfl : a :: mid = marker := hmid
          simp at h
        | cons c mid' =>
          obtain ⟨rfl, rfl⟩ := List.cons.inj hmid
          exact .inr ⟨mid', back, by simp⟩
  · rintro (⟨front, back, heq⟩ | ⟨front, back, rfl⟩)
    · exact ⟨front, back ++ ys, by simpa using congrArg (· ++ ys) heq⟩
    · exact ⟨xs ++ a :: front, back, by simp⟩

end Fence
