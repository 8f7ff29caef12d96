import Mathlib.Data.List.Basic
import Mathlib.Data.List.Flatten
import Mathlib.Data.List.Forall2

/-!
# What a translation carries

A translation that gives, for each item, some of the item's pieces in order
carries every piece of the list of items exactly if it gives all pieces of each.
-/

namespace Carry

variable {α β : Type*} {given pieces : α → List β} {items : List α}

/-- Pieces lost at one item are not made up for at another. -/
theorem flatMap_eq_iff (h : ∀ x ∈ items, (given x).Sublist (pieces x)) :
    items.flatMap given = items.flatMap pieces ↔ ∀ x ∈ items, given x = pieces x := by
  induction items with
  | nil => exact ⟨fun _ x hx => absurd hx List.not_mem_nil, fun _ => rfl⟩
  | cons x items ih =>
    obtain ⟨hx, hitems⟩ := List.forall_mem_cons.mp h
    have hrest := (List.Sublist.flatMap_right items hitems).length_le
    rw [List.forall_mem_cons, List.flatMap_cons, List.flatMap_cons, ← ih hitems]
    constructor
    · intro heq
      have hlength := congrArg List.length heq
      rw [List.length_append, List.length_append] at hlength
      have hfront : given x = pieces x := hx.eq_of_length (by have := hx.length_le; omega)
      rw [hfront] at heq
      exact ⟨hfront, List.append_cancel_left heq⟩
    · rintro ⟨hfront, hback⟩
      rw [hfront, hback]

theorem filterMap_eq_iff {given pieces : α → Option β}
    (h : ∀ x, given x = none ∨ given x = pieces x) :
    items.filterMap given = items.filterMap pieces ↔ ∀ x ∈ items, given x = pieces x := by
  have hsublist : ∀ x, (given x).toList.Sublist (pieces x).toList := by
    intro x
    rcases h x with hx | hx
    · rw [hx]
      exact List.nil_sublist _
    · rw [hx]
  rw [List.filterMap_eq_flatMap_toList, List.filterMap_eq_flatMap_toList,
    flatMap_eq_iff fun x _ => hsublist x]
  refine forall₂_congr fun x _ => ?_
  cases given x <;> cases pieces x <;> simp

theorem isSome_mapM {f : α → Option β} :
    (items.mapM f).isSome ↔ ∀ x ∈ items, (f x).isSome := by
  induction items with
  | nil => exact iff_of_true rfl fun x hx => absurd hx List.not_mem_nil
  | cons x items ih =>
    rw [List.mapM_cons, List.forall_mem_cons, ← ih]
    cases f x with
    | none => exact iff_of_false Bool.false_ne_true fun h => Bool.false_ne_true h.1
    | some y => cases items.mapM f <;> simp

theorem mapM_eq_filterMap {f : α → Option β} {ys : List β} (h : items.mapM f = some ys) :
    ys = items.filterMap f := by
  induction items generalizing ys with
  | nil => exact (Option.some.inj h).symm
  | cons x items ih =>
    rw [List.mapM_cons] at h
    obtain ⟨y, hy, h⟩ := Option.bind_eq_some_iff.mp h
    obtain ⟨zs, hzs, h⟩ := Option.bind_eq_some_iff.mp h
    cases h
    rw [List.filterMap_cons, hy, ih hzs]

/-- A translation that skips what it does not know says each item in turn exactly if it knows
and says each. -/
theorem forall₂_filterMap_iff {f : α → Option β} {R : α → β → Prop} :
    List.Forall₂ R items (items.filterMap f) ↔ ∀ x ∈ items, ∃ y, f x = some y ∧ R x y := by
  induction items with
  | nil => exact iff_of_true .nil fun x hx => absurd hx List.not_mem_nil
  | cons x items ih =>
    rw [List.forall_mem_cons, List.filterMap_cons, ← ih]
    cases f x with
    | none =>
      refine iff_of_false (fun h => ?_) (by simp)
      have hlength : items.length + 1 = (items.filterMap f).length := h.length_eq
      have hle := List.length_filterMap_le f items
      omega
    | some y => simp [List.forall₂_cons]

/-- A condition on every place of a list and what follows it. -/
theorem forall_suffix_cons {p : α → List α → Prop} {x : α} {xs : List α} :
    (∀ y rest, y :: rest <:+ x :: xs → p y rest) ↔
      p x xs ∧ ∀ y rest, y :: rest <:+ xs → p y rest := by
  constructor
  · intro h
    exact ⟨h x xs List.suffix_rfl, fun y rest hs => h y rest (hs.trans (List.suffix_cons x xs))⟩
  · rintro ⟨hx, hxs⟩ y rest hs
    rcases List.suffix_cons_iff.mp hs with heq | hs
    · cases heq
      exact hx
    · exact hxs y rest hs

theorem forall_suffix_nil {p : α → List α → Prop} : ∀ y rest, y :: rest <:+ [] → p y rest :=
  fun _ _ hs => absurd (List.suffix_nil.mp hs) (List.cons_ne_nil _ _)

/-- Two lists with the same keys in the same order, each once, match place by place. -/
theorem matched_iff {γ δ κ : Type*} {xs : List α} {ks : List β} {ys : List γ} {ts : List δ}
    {f : β → κ} {g : δ → κ} (hxs : xs.length = ks.length) (hys : ys.length = ts.length)
    (hkeys : ks.map f = ts.map g) (hnodup : (ks.map f).Nodup) (p : α → γ → Prop) :
    (∀ xk ∈ xs.zip ks, ∀ yt ∈ ys.zip ts, g yt.2 = f xk.2 → p xk.1 yt.1) ↔
      ∀ xy ∈ xs.zip ys, p xy.1 xy.2 := by
  induction ks generalizing xs ys ts with
  | nil =>
    rw [List.length_eq_zero_iff.mp hxs]
    exact iff_of_true (fun _ h => absurd h List.not_mem_nil) fun _ h => absurd h List.not_mem_nil
  | cons k ks ih =>
    obtain ⟨x, xs, rfl⟩ := List.exists_cons_of_length_eq_add_one hxs
    obtain ⟨t, ts, rfl⟩ : ∃ t ts', ts = t :: ts' := by
      cases ts with
      | nil => cases hkeys
      | cons t ts => exact ⟨t, ts, rfl⟩
    obtain ⟨y, ys, rfl⟩ := List.exists_cons_of_length_eq_add_one hys
    obtain ⟨hkey, hkeys⟩ := List.cons_eq_cons.mp hkeys
    obtain ⟨hfresh, hnodup⟩ := List.nodup_cons.mp hnodup
    have hrest := ih (Nat.succ.inj hxs) (Nat.succ.inj hys) hkeys hnodup
    simp only [List.zip_cons_cons, List.forall_mem_cons]
    rw [← hrest]
    constructor
    · rintro ⟨⟨hhead, -⟩, htail⟩
      exact ⟨hhead hkey.symm, fun xk hxk => (htail xk hxk).2⟩
    · rintro ⟨hhead, htail⟩
      refine ⟨⟨fun _ => hhead, fun yt hyt heq => ?_⟩, fun xk hxk => ⟨fun heq => ?_, htail xk hxk⟩⟩
      · refine absurd ?_ hfresh
        rw [hkeys, ← heq]
        exact List.mem_map_of_mem (List.of_mem_zip hyt).2
      · refine absurd ?_ hfresh
        rw [hkey, heq]
        exact List.mem_map_of_mem (List.of_mem_zip hxk).2

end Carry
