import Firstpass.Core.JsonDocument
import Mathlib.Data.List.TakeWhile

/-!
# What a reader takes of a text

A reader hands on an end of the text it was given, and the text of an object runs from an
opening brace to a closing one.
-/

namespace Firstpass.Json

variable {float : List Char → Option FloatText} {depth : Nat} {text rest : List Char}

/-- What is handed on is an end of what was given. -/
def Ends {α : Type} (read : List Char → Option (α × List Char)) : Prop :=
  ∀ text a rest, read text = some (a, rest) → rest <:+ text

theorem skip_suffix (text : List Char) : skip text <:+ text := List.dropWhile_suffix _

theorem readUnicode_ends (n : Nat) : Ends (readUnicode n) := by
  intro text c rest h
  unfold readUnicode at h
  split at h
  · cases h
  split at h
  · split at h
    · next a b c d tail =>
      obtain ⟨low, _, h⟩ := Option.bind_eq_some_iff.mp h
      split at h
      · obtain rfl : tail = rest := congrArg Prod.snd (Option.some.inj h)
        exact ⟨['\\', 'u', a, b, c, d], rfl⟩
      · cases h
    · cases h
  · cases h
    exact List.suffix_refl _

theorem readEscape_ends : Ends readEscape := by
  intro text c rest h
  unfold readEscape at h
  split at h
  · next a b c d tail =>
    obtain ⟨n, _, h⟩ := Option.bind_eq_some_iff.mp h
    exact (readUnicode_ends n _ _ _ h).trans ⟨['u', a, b, c, d], rfl⟩
  all_goals cases h
  all_goals exact List.suffix_cons _ _

theorem readString_ends (n : Nat) : Ends (readString n) := by
  intro text s rest h
  induction n generalizing text s with
  | zero => cases h
  | succ n ih =>
    cases text with
    | nil => cases h
    | cons c text =>
      rw [readString] at h
      split at h
      · cases h
        exact List.suffix_cons _ _
      · obtain ⟨⟨d, tail⟩, hchar, h⟩ := Option.bind_eq_some_iff.mp h
        obtain ⟨⟨s', rest'⟩, htail, heq⟩ := Option.map_eq_some_iff.mp h
        cases heq
        have hend : tail <:+ c :: text := by
          split at hchar
          · exact (readEscape_ends _ _ _ hchar).trans (List.suffix_cons _ _)
          split at hchar
          · cases hchar
          · cases hchar
            exact List.suffix_cons _ _
        exact (ih _ _ htail).trans hend

theorem expect_ends (literal : List Char) (v : Value) : Ends fun text => expect literal text v := by
  intro text w rest h
  obtain ⟨tail, htail, heq⟩ := Option.map_eq_some_iff.mp h
  cases heq
  obtain ⟨front, htext, -⟩ := List.dropPrefix?_eq_some_iff.mp htail
  exact ⟨front, htext.symm⟩

section
variable {value : List Char → Option (Value × List Char)} (hvalue : Ends value)
include hvalue

theorem readElems_ends (n : Nat) : Ends (readElems value n) := by
  intro text vs rest h
  induction n generalizing text vs with
  | zero => cases h
  | succ n ih =>
    obtain ⟨⟨v, tail⟩, hv, h⟩ := Option.bind_eq_some_iff.mp h
    have htail := (skip_suffix tail).trans (hvalue _ _ _ hv)
    dsimp only at h
    split at h
    · next heq =>
      cases h
      exact (List.suffix_cons _ _).trans (heq ▸ htail)
    · next heq =>
      obtain ⟨⟨ws, rest'⟩, hws, hpair⟩ := Option.map_eq_some_iff.mp h
      cases hpair
      exact (ih _ _ hws).trans ((List.suffix_cons _ _).trans (heq ▸ htail))
    · cases h

theorem readField_ends : Ends (readField value) := by
  intro text f rest h
  unfold readField at h
  split at h
  · next tail heq =>
    obtain ⟨⟨key, afterKey⟩, hkey, h⟩ := Option.bind_eq_some_iff.mp h
    dsimp only at h
    split at h
    · next afterColon hcolon =>
      obtain ⟨⟨v, rest'⟩, hv, hpair⟩ := Option.map_eq_some_iff.mp h
      cases hpair
      have hopen : tail <:+ text := (List.suffix_cons '"' tail).trans (heq ▸ skip_suffix text)
      have hclose : afterColon <:+ afterKey :=
        (List.suffix_cons ':' afterColon).trans (hcolon ▸ skip_suffix afterKey)
      exact (hvalue _ _ _ hv).trans (hclose.trans ((readString_ends _ _ _ _ hkey).trans hopen))
    · cases h
  · cases h

/-- The fields of an object are followed by a closing brace. -/
theorem readFields_closes {n : Nat} {fs : List (String × Value)}
    (h : readFields value n text = some (fs, rest)) : '\x7d' :: rest <:+ text := by
  induction n generalizing text fs with
  | zero => cases h
  | succ n ih =>
    obtain ⟨⟨f, tail⟩, hf, h⟩ := Option.bind_eq_some_iff.mp h
    have htail := (skip_suffix tail).trans (readField_ends hvalue _ _ _ hf)
    dsimp only at h
    split at h
    · next heq =>
      cases h
      exact heq ▸ htail
    · next heq =>
      obtain ⟨⟨gs, rest'⟩, hgs, hpair⟩ := Option.map_eq_some_iff.mp h
      cases hpair
      exact (ih hgs).trans ((List.suffix_cons _ _).trans (heq ▸ htail))
    · cases h

end

theorem expect_tail {literal tail : List Char} {v w : Value}
    (h : expect literal tail v = some (w, rest)) : rest <:+ tail := expect_ends literal v _ _ _ h

/-- By induction on the depth: the elements and the fields are read one level deeper. -/
theorem readValue_ends (depth : Nat) : Ends (readValue float depth) := by
  induction depth using Nat.strong_induction_on with | _ depth ih =>
  intro text v rest h
  rw [readValue] at h
  split at h
  · cases h
  next c tail heq =>
  have htail : tail <:+ text := (List.suffix_cons c tail).trans (heq ▸ skip_suffix text)
  split_ifs at h
  · exact (expect_tail h).trans htail
  · exact (expect_tail h).trans htail
  · exact (expect_tail h).trans htail
  · obtain ⟨⟨s, rest'⟩, hs, hpair⟩ := Option.map_eq_some_iff.mp h
    cases hpair
    exact (readString_ends _ _ _ _ hs).trans htail
  · split at h
    · cases h
    next depth =>
    split at h
    · next hclose =>
      cases h
      exact ((List.suffix_cons _ _).trans (hclose ▸ skip_suffix tail)).trans htail
    · obtain ⟨⟨vs, rest'⟩, hvs, hpair⟩ := Option.map_eq_some_iff.mp h
      cases hpair
      exact (readElems_ends (ih depth depth.lt_succ_self) _ _ _ _ hvs).trans htail
  · split at h
    · cases h
    next depth =>
    split at h
    · next hclose =>
      cases h
      exact ((List.suffix_cons _ _).trans (hclose ▸ skip_suffix tail)).trans htail
    · obtain ⟨⟨fs, rest'⟩, hfs, hpair⟩ := Option.map_eq_some_iff.mp h
      cases hpair
      exact ((List.suffix_cons _ _).trans
        (readFields_closes (ih depth depth.lt_succ_self) hfs)).trans htail
  · obtain ⟨n, _, hpair⟩ := Option.map_eq_some_iff.mp h
    obtain ⟨-, rfl⟩ := Prod.mk.inj hpair
    exact (List.dropWhile_suffix _).trans (heq ▸ skip_suffix text)

/-- The text of an object runs from an opening brace to a closing one. -/
theorem readValue_object_span {fs : List (String × Value)}
    (h : readValue float depth text = some (.object fs, rest)) :
    ∃ body, skip text = '\x7b' :: (body ++ '\x7d' :: rest) := by
  rw [readValue] at h
  split at h
  · cases h
  next c tail heq =>
  split_ifs at h with _ _ _ _ _ hbrace
  · cases expect_eq_some h
  · cases expect_eq_some h
  · cases expect_eq_some h
  · obtain ⟨s, _, hpair⟩ := Option.map_eq_some_iff.mp h
    cases hpair
  · split at h
    · cases h
    split at h
    · cases h
    · obtain ⟨vs, _, hpair⟩ := Option.map_eq_some_iff.mp h
      cases hpair
  · subst hbrace
    split at h
    · cases h
    next depth =>
    split at h
    · next hclose =>
      cases h
      obtain ⟨body, hbody⟩ : _ <:+ tail := hclose ▸ skip_suffix tail
      exact ⟨body, by rw [heq, ← hbody]⟩
    · obtain ⟨⟨gs, rest'⟩, hgs, hpair⟩ := Option.map_eq_some_iff.mp h
      cases hpair
      obtain ⟨body, hbody⟩ := readFields_closes (readValue_ends _) hgs
      exact ⟨body, by rw [heq, ← hbody]⟩
  · obtain ⟨n, _, hpair⟩ := Option.map_eq_some_iff.mp h
    cases hpair

theorem canonicalize_eq_object {v : Value} {fs : List (String × Value)}
    (h : canonicalize v = .object fs) : ∃ gs, v = .object gs := by
  cases v with
  | object gs => exact ⟨gs, rfl⟩
  | _ => simp [canonicalize] at h

/-- A text with no space at its ends is read as an object only if braces are there. -/
theorem readText_object_braces {s : String} {fs : List (String × Value)}
    (h : readText float s = some (.object fs)) (hfirst : ∀ c ∈ s.toList.head?, isSpace c = false)
    (hlast : ∀ c ∈ s.toList.getLast?, isSpace c = false) :
    ∃ body, s.toList = '\x7b' :: (body ++ ['\x7d']) := by
  obtain ⟨v, hv, hcanonical⟩ := Option.map_eq_some_iff.mp h
  obtain ⟨gs, rfl⟩ := canonicalize_eq_object hcanonical
  obtain ⟨⟨w, rest⟩, hread, hrest⟩ := Option.bind_eq_some_iff.mp hv
  dsimp only at hrest
  split at hrest
  · next hspace =>
    cases hrest
    obtain ⟨body, hbody⟩ := readValue_object_span hread
    have hskip : skip s.toList = s.toList := by
      cases hs : s.toList with
      | nil => rfl
      | cons c tail => simp [skip, hfirst c (by simp [hs])]
    rw [hskip] at hbody
    have hnil : rest = [] := by
      by_contra hne
      have hend : rest.getLast hne ∈ s.toList.getLast? := by
        simp [hbody, List.getLast?_append, List.getLast?_cons, List.getLast?_eq_some_getLast hne]
      have hall := List.dropWhile_eq_nil_iff.mp hspace _ (List.getLast_mem hne)
      simp [hlast _ hend] at hall
    exact ⟨body, hnil ▸ hbody⟩
  · cases hrest

end Firstpass.Json
