import Mathlib.Logic.Basic
import Mathlib.Data.List.Basic

/-!
# Checks in a row

A validator that stops at the first check that fails. Each lemma reads the success of a
combinator as what it has checked.
-/

namespace Firstpass.Checks

variable {ε ε' α β : Type}

/-- Go on if `p` holds, and fail with `e` otherwise. -/
def require (p : Prop) [Decidable p] (e : ε) : Except ε Unit := if p then .ok () else .error e

/-- Check what is there, if anything is. -/
def onSome (o : Option α) (check : α → Except ε Unit) : Except ε Unit :=
  match o with
  | none => .ok ()
  | some a => check a

/-- Check every element, with its position counted from `i`. -/
def each (check : Nat → α → Except ε Unit) : Nat → List α → Except ε Unit
  | _, [] => .ok ()
  | i, x :: xs => do
    check i x
    each check (i + 1) xs

/-- Check every element, and that no key comes twice. -/
def eachFresh [DecidableEq β] (key : α → β) (check : α → Except ε Unit) (twice : α → ε) :
    List β → List α → Except ε Unit
  | _, [] => .ok ()
  | seen, x :: xs => do
    check x
    require (key x ∉ seen) (twice x)
    eachFresh key check twice (key x :: seen) xs

theorem bind_ok {x : Except ε α} {f : α → Except ε β} {b : β} :
    x >>= f = .ok b ↔ ∃ a, x = .ok a ∧ f a = .ok b := by
  cases x <;> simp [bind, Except.bind]

/-- Both checks succeed. -/
theorem then_ok {x : Except ε Unit} {y : Except ε β} {b : β} :
    (x >>= fun _ => y) = .ok b ↔ x = .ok () ∧ y = .ok b := by
  cases x <;> simp [bind, Except.bind]

@[simp] theorem require_ok {p : Prop} [Decidable p] {e : ε} :
    require p e = .ok () ↔ p := by
  unfold require
  split <;> simp_all

@[simp] theorem onSome_ok {o : Option α} {check : α → Except ε Unit} :
    onSome o check = .ok () ↔ ∀ a, o = some a → check a = .ok () := by
  cases o <;> simp [onSome]

@[simp] theorem mapError_ok {x : Except ε Unit} {f : ε → ε'} :
    x.mapError f = .ok () ↔ x = .ok () := by
  cases x <;> simp [Except.mapError]

theorem each_ok {check : Nat → α → Except ε Unit} {xs : List α} :
    each check i xs = .ok () ↔ ∀ j x, xs[j]? = some x → check (i + j) x = .ok () := by
  induction xs generalizing i with
  | nil => simp [each]
  | cons x xs ih =>
    rw [each, then_ok, ih]
    constructor
    · rintro ⟨hx, hxs⟩ j y hy
      cases j with
      | zero =>
        cases hy
        exact hx
      | succ j =>
        rw [← Nat.succ_add_eq_add_succ]
        exact hxs j y hy
    · rintro h
      refine ⟨h 0 x rfl, fun j y hy => ?_⟩
      have hnext := h (j + 1) y hy
      rwa [← Nat.succ_add_eq_add_succ] at hnext

/-- The position of an element does not matter to its check. -/
theorem each_mem {check : Nat → α → Except ε Unit} {xs : List α}
    (h : each check i xs = .ok ()) : ∀ x ∈ xs, ∃ j, check j x = .ok () := by
  rintro x hx
  obtain ⟨j, hj⟩ := List.mem_iff_getElem?.mp hx
  exact ⟨i + j, each_ok.mp h j x hj⟩

theorem eachFresh_ok [DecidableEq β] {key : α → β} {check : α → Except ε Unit} {twice : α → ε}
    {seen : List β} {xs : List α} :
    eachFresh key check twice seen xs = .ok () ↔
      (∀ x ∈ xs, check x = .ok ()) ∧ (xs.map key).Nodup ∧ ∀ x ∈ xs, key x ∉ seen := by
  induction xs generalizing seen with
  | nil => simp [eachFresh]
  | cons x xs ih =>
    rw [eachFresh, then_ok, then_ok, require_ok, ih]
    rw [List.forall_mem_cons, List.forall_mem_cons, List.map_cons, List.nodup_cons]
    simp only [List.mem_map, List.mem_cons, not_or, not_exists, not_and, forall_and]
    constructor
    · rintro ⟨hx, hfresh, hxs, hnodup, hne, hseen⟩
      exact ⟨⟨hx, hxs⟩, ⟨hne, hnodup⟩, hfresh, hseen⟩
    · rintro ⟨⟨hx, hxs⟩, ⟨hne, hnodup⟩, hfresh, hseen⟩
      exact ⟨hx, hfresh, hxs, hnodup, hne, hseen⟩

end Firstpass.Checks
