import Mathlib.Algebra.BigOperators.Group.List.Basic
import Mathlib.Algebra.Order.BigOperators.Group.List
import Mathlib.Algebra.Order.Field.Basic
import Mathlib.Tactic.Linarith
import Mathlib.Tactic.Ring

/-!
# Finitely supported distributions

A distribution is a list of values with weights that sum to one, over any
ordered field, so that an expected value can be computed. `iid n` draws a list
of `n` independent values; what holds of it is proved draw by draw.
-/

namespace Firstpass.FiniteProbability

-- ---------------------------------------------------------------------------
-- Weighted sums
-- ---------------------------------------------------------------------------

section
variable {F : Type*} [Field F] {α : Type*}

def weighted (atoms : List (α × F)) (f : α → F) : F := (atoms.map fun a => a.2 * f a.1).sum

@[simp] theorem weighted_nil (f : α → F) : weighted [] f = 0 := rfl

@[simp] theorem weighted_cons (a : α × F) (atoms : List (α × F)) (f : α → F) :
    weighted (a :: atoms) f = a.2 * f a.1 + weighted atoms f := by
  rw [weighted, List.map_cons, List.sum_cons, weighted]

theorem weighted_append (atoms atoms' : List (α × F)) (f : α → F) :
    weighted (atoms ++ atoms') f = weighted atoms f + weighted atoms' f := by
  rw [weighted, List.map_append, List.sum_append, weighted, weighted]

theorem weighted_add (atoms : List (α × F)) (f g : α → F) :
    weighted atoms (fun x => f x + g x) = weighted atoms f + weighted atoms g := by
  induction atoms with
  | nil => simp
  | cons a atoms ih =>
    rw [weighted_cons, weighted_cons, weighted_cons, ih]
    ring

theorem weighted_mul_left (atoms : List (α × F)) (c : F) (f : α → F) :
    weighted atoms (fun x => c * f x) = c * weighted atoms f := by
  induction atoms with
  | nil => simp
  | cons a atoms ih =>
    rw [weighted_cons, weighted_cons, ih]
    ring

theorem weighted_map {β : Type*} (atoms : List (α × F)) (g : α → β) (f : β → F) :
    weighted (atoms.map fun a => (g a.1, a.2)) f = weighted atoms fun x => f (g x) := by
  rw [weighted, List.map_map]
  rfl

end

-- ---------------------------------------------------------------------------
-- Distributions
-- ---------------------------------------------------------------------------

variable {F : Type*} [Field F] [LinearOrder F] {α β : Type*}

structure FinDist (F : Type*) [Field F] [LinearOrder F] (α : Type*) where
  atoms : List (α × F)
  nonneg : ∀ a ∈ atoms, 0 ≤ a.2
  total : weighted atoms (fun _ => 1) = 1

namespace FinDist

variable (D : FinDist F α)

def expect (f : α → F) : F := weighted D.atoms f

def prob (p : α → Prop) [DecidablePred p] : F := D.expect fun x => if p x then 1 else 0

/-- A value that is drawn with positive probability. -/
def Possible (x : α) : Prop := ∃ w, 0 < w ∧ (x, w) ∈ D.atoms

theorem expect_add (f g : α → F) :
    D.expect (fun x => f x + g x) = D.expect f + D.expect g := weighted_add _ _ _

theorem expect_mul_left (c : F) (f : α → F) : D.expect (fun x => c * f x) = c * D.expect f :=
  weighted_mul_left _ _ _

theorem expect_mul_right (f : α → F) (c : F) : D.expect (fun x => f x * c) = D.expect f * c := by
  simp only [mul_comm _ c]
  exact D.expect_mul_left c f

@[simp] theorem expect_const (c : F) : D.expect (fun _ => c) = c := by
  have hmul := D.expect_mul_left c fun _ => 1
  simp only [mul_one] at hmul
  rw [hmul, expect, D.total, mul_one]

theorem expect_sub (f g : α → F) :
    D.expect (fun x => f x - g x) = D.expect f - D.expect g := by
  have hadd := D.expect_add f fun x => -1 * g x
  rw [D.expect_mul_left] at hadd
  simp only [neg_mul, one_mul, ← sub_eq_add_neg] at hadd
  exact hadd

section
variable [IsStrictOrderedRing F]

theorem expect_mono {f g : α → F} (h : ∀ x, D.Possible x → f x ≤ g x) :
    D.expect f ≤ D.expect g := by
  apply List.sum_le_sum
  rintro ⟨x, w⟩ ha
  rcases (D.nonneg _ ha).eq_or_lt with hzero | hpos
  · rw [← hzero, zero_mul, zero_mul]
  · exact mul_le_mul_of_nonneg_left (h x ⟨w, hpos, ha⟩) hpos.le

theorem expect_congr {f g : α → F} (h : ∀ x, D.Possible x → f x = g x) :
    D.expect f = D.expect g :=
  le_antisymm (D.expect_mono fun x hx => (h x hx).le) (D.expect_mono fun x hx => (h x hx).ge)

theorem expect_nonneg {f : α → F} (h : ∀ x, D.Possible x → 0 ≤ f x) : 0 ≤ D.expect f := by
  have hmono := D.expect_mono h
  rwa [D.expect_const] at hmono

theorem prob_mono {p q : α → Prop} [DecidablePred p] [DecidablePred q]
    (h : ∀ x, D.Possible x → p x → q x) : D.prob p ≤ D.prob q := by
  apply D.expect_mono
  intro x hx
  by_cases hp : p x
  · rw [if_pos hp, if_pos (h x hx hp)]
  · rw [if_neg hp]
    split_ifs
    · exact zero_le_one
    · exact le_rfl

theorem expect_eq_zero {f : α → F} (hnonneg : ∀ x, 0 ≤ f x) (h : D.expect f = 0)
    (hx : D.Possible x) : f x = 0 := by
  obtain ⟨w, hpos, hmem⟩ := hx
  have hterms : ∀ y ∈ D.atoms.map (fun a => a.2 * f a.1), 0 ≤ y := by
    intro y hy
    obtain ⟨a, ha, rfl⟩ := List.mem_map.mp hy
    exact mul_nonneg (D.nonneg a ha) (hnonneg a.1)
  have hle := List.single_le_sum hterms _ (List.mem_map_of_mem hmem)
  have hzero : w * f x ≤ 0 := hle.trans h.le
  exact le_antisymm (nonpos_of_mul_nonpos_right hzero hpos) (hnonneg x)

theorem exists_possible : ∃ x, D.Possible x := by
  by_contra hnone
  have hzero : D.expect (fun _ => 1) = D.expect fun _ => 0 :=
    D.expect_congr fun x hx => absurd ⟨x, hx⟩ hnone
  rw [D.expect_const, D.expect_const] at hzero
  exact one_ne_zero hzero

theorem prob_nonneg (p : α → Prop) [DecidablePred p] : 0 ≤ D.prob p :=
  D.expect_nonneg fun x _ => by split_ifs <;> simp

theorem prob_pos {p : α → Prop} [DecidablePred p] (hx : D.Possible x) (hp : p x) :
    0 < D.prob p := by
  rcases (D.prob_nonneg p).lt_or_eq with hpos | hzero
  · exact hpos
  · have hind := D.expect_eq_zero (fun y => by split_ifs <;> simp) hzero.symm hx
    rw [if_pos hp] at hind
    exact absurd hind one_ne_zero

theorem prob_le_one (p : α → Prop) [DecidablePred p] : D.prob p ≤ 1 := by
  have hle := D.expect_mono (f := fun x => if p x then (1 : F) else 0) (g := fun _ => 1)
    fun x _ => by split_ifs <;> simp
  rwa [D.expect_const] at hle

/-- A quantity that is at most `c` is `c` on average only if it always is. -/
theorem expect_eq_const {f : α → F} {c : F} (hle : ∀ x, f x ≤ c) :
    D.expect f = c ↔ ∀ x, D.Possible x → f x = c := by
  constructor
  · intro h x hx
    have hgap : D.expect (fun x => c - f x) = 0 := by
      rw [D.expect_sub, D.expect_const, h, sub_self]
    exact (sub_eq_zero.mp (D.expect_eq_zero (fun y => sub_nonneg.mpr (hle y)) hgap hx)).symm
  · intro h
    rw [D.expect_congr h, D.expect_const]

end

-- ---------------------------------------------------------------------------
-- Draws that depend on draws
-- ---------------------------------------------------------------------------

theorem weighted_flatMap (atoms : List (α × F)) (K : α → FinDist F β) (f : β → F) :
    weighted (atoms.flatMap fun a => (K a.1).atoms.map fun b => (b.1, a.2 * b.2)) f =
      weighted atoms fun x => (K x).expect f := by
  induction atoms with
  | nil => rfl
  | cons a atoms ih =>
    rw [List.flatMap_cons, weighted_append, ih, weighted_cons]
    congr 1
    rw [expect, ← weighted_mul_left, weighted, weighted, List.map_map]
    congr 1
    apply List.map_congr_left
    rintro b -
    exact (mul_assoc _ _ _).trans (mul_left_comm _ _ _)

def map (f : α → β) : FinDist F β where
  atoms := D.atoms.map fun a => (f a.1, a.2)
  nonneg := by
    intro b hb
    obtain ⟨a, ha, rfl⟩ := List.mem_map.mp hb
    exact D.nonneg a ha
  total := (weighted_map D.atoms f fun _ => 1).trans D.total

@[simp] theorem expect_map (g : α → β) (f : β → F) :
    (D.map g).expect f = D.expect fun x => f (g x) := weighted_map _ _ _

theorem possible_map {f : α → β} {y : β} (h : (D.map f).Possible y) :
    ∃ x, D.Possible x ∧ f x = y := by
  obtain ⟨w, hw, hmem⟩ := h
  obtain ⟨⟨x, v⟩, ha, heq⟩ := List.mem_map.mp hmem
  cases heq
  exact ⟨x, ⟨_, hw, ha⟩, rfl⟩

variable [IsStrictOrderedRing F]

def pure (x : α) : FinDist F α := ⟨[(x, 1)], by simp, by simp⟩

def bind (K : α → FinDist F β) : FinDist F β where
  atoms := D.atoms.flatMap fun a => (K a.1).atoms.map fun b => (b.1, a.2 * b.2)
  nonneg := by
    intro b hb
    obtain ⟨a, ha, hb⟩ := List.mem_flatMap.mp hb
    obtain ⟨c, hc, rfl⟩ := List.mem_map.mp hb
    exact mul_nonneg (D.nonneg a ha) ((K a.1).nonneg c hc)
  total := by
    rw [weighted_flatMap]
    exact (congrArg (weighted D.atoms) (funext fun x => (K x).total)).trans D.total

@[simp] theorem expect_pure (x : α) (f : α → F) : (pure x : FinDist F α).expect f = f x := by
  simp [expect, pure]

@[simp] theorem expect_bind (K : α → FinDist F β) (f : β → F) :
    (D.bind K).expect f = D.expect fun x => (K x).expect f := weighted_flatMap _ _ _

theorem possible_bind {K : α → FinDist F β} {y : β} (h : (D.bind K).Possible y) :
    ∃ x, D.Possible x ∧ (K x).Possible y := by
  obtain ⟨w, hw, hmem⟩ := h
  obtain ⟨⟨x, v⟩, ha, hb⟩ := List.mem_flatMap.mp hmem
  obtain ⟨⟨z, u⟩, hc, heq⟩ := List.mem_map.mp hb
  cases heq
  have hu := (K x).nonneg _ hc
  have hv : 0 < v := pos_of_mul_pos_left hw hu
  exact ⟨x, ⟨v, hv, ha⟩, u, pos_of_mul_pos_right hw hv.le, hc⟩

-- ---------------------------------------------------------------------------
-- Independent draws
-- ---------------------------------------------------------------------------

/-- `n` independent draws. -/
def iid : ℕ → FinDist F (List α)
  | 0 => pure []
  | n + 1 => D.bind fun x => (iid n).map (x :: ·)

@[simp] theorem expect_iid_zero (f : List α → F) : (D.iid 0).expect f = f [] := expect_pure _ _

@[simp] theorem expect_iid_succ (n : ℕ) (f : List α → F) :
    (D.iid (n + 1)).expect f = D.expect fun x => (D.iid n).expect fun xs => f (x :: xs) := by
  rw [iid, expect_bind]
  simp only [expect_map]

theorem possible_iid {n : ℕ} {xs : List α} (h : (D.iid n).Possible xs) :
    xs.length = n ∧ ∀ x ∈ xs, D.Possible x := by
  induction n generalizing xs with
  | zero =>
    obtain ⟨w, -, hmem⟩ := h
    cases List.mem_singleton.mp hmem
    exact ⟨rfl, fun x hx => absurd hx List.not_mem_nil⟩
  | succ n ih =>
    obtain ⟨x, hx, h⟩ := D.possible_bind h
    obtain ⟨rest, hrest, rfl⟩ := (D.iid n).possible_map h
    obtain ⟨hlength, hall⟩ := ih hrest
    refine ⟨congrArg (· + 1) hlength, fun y hy => ?_⟩
    rcases List.mem_cons.mp hy with rfl | hy
    · exact hx
    · exact hall y hy

theorem expect_iid_sum (n : ℕ) (f : α → F) :
    (D.iid n).expect (fun xs => (xs.map f).sum) = n * D.expect f := by
  induction n with
  | zero => simp
  | succ n ih =>
    simp only [expect_iid_succ, List.map_cons, List.sum_cons, expect_add, expect_const, ih]
    rw [Nat.cast_succ, add_mul, one_mul, add_comm]

/-- Factors of independent draws multiply on average. -/
theorem expect_iid_prod (n : ℕ) (f : α → F) :
    (D.iid n).expect (fun xs => (xs.map f).prod) = D.expect f ^ n := by
  induction n with
  | zero => simp
  | succ n ih =>
    simp only [expect_iid_succ, List.map_cons, List.prod_cons, expect_mul_left, ih,
      expect_mul_right]
    exact (pow_succ' _ _).symm

theorem expect_iid_none (p : α → Bool) (n : ℕ) :
    (D.iid n).expect (fun xs => if xs.countP p = 0 then 1 else 0) =
      (1 - D.prob fun x => p x = true) ^ n := by
  have hnone : D.expect (fun x => if p x = true then 0 else (1 : F)) =
      1 - D.prob fun x => p x = true := by
    rw [prob, ← D.expect_const 1, ← D.expect_sub, D.expect_const]
    congr 1
    funext x
    split_ifs <;> simp
  induction n with
  | zero => simp
  | succ n ih =>
    have hcons : ∀ x, (D.iid n).expect (fun xs => if (x :: xs).countP p = 0 then 1 else 0) =
        (if p x = true then 0 else 1) * (1 - D.prob fun x => p x = true) ^ n := by
      intro x
      rw [← ih]
      cases hx : p x with
      | true => simp [hx]
      | false => simp only [List.countP_cons_of_neg, hx, Bool.false_eq_true, not_false_eq_true,
          if_false, one_mul]
    calc (D.iid (n + 1)).expect (fun xs => if xs.countP p = 0 then 1 else 0)
        = D.expect fun x =>
            (if p x = true then 0 else 1) * (1 - D.prob fun x => p x = true) ^ n :=
          (D.expect_iid_succ n _).trans (congrArg D.expect (funext hcons))
      _ = (1 - D.prob fun x => p x = true) ^ (n + 1) := by
          rw [D.expect_mul_right, hnone, pow_succ']

/-- What is drawn together with a quantity that is zero off `p` has its own
draw counted: by symmetry it may be taken to be the first. -/
theorem expect_iid_sum_count (p : α → Bool) {g : α → F} (hg : ∀ x, p x = false → g x = 0)
    (n : ℕ) (u : ℕ → F) :
    (D.iid (n + 1)).expect (fun xs => (xs.map g).sum * u (xs.countP p)) =
      (n + 1 : ℕ) * D.expect g * (D.iid n).expect fun xs => u (xs.countP p + 1) := by
  induction n generalizing u with
  | zero =>
    have hfirst : ∀ x, g x * u (if p x then 1 else 0) = g x * u 1 := by
      intro x
      cases hx : p x with
      | true => rfl
      | false => rw [hg x hx, zero_mul, zero_mul]
    simp [List.countP_cons, hfirst, expect_mul_right]
  | succ n ih =>
    have hfirst : ∀ x, ∀ k : ℕ, g x * u (k + if p x then 1 else 0) = g x * u (k + 1) := by
      intro x k
      cases hx : p x with
      | true => rfl
      | false => rw [hg x hx, zero_mul, zero_mul]
    have hshift : ∀ x, (D.iid (n + 1)).expect (fun xs =>
        (xs.map g).sum * u (xs.countP p + if p x then 1 else 0)) =
          (n + 1 : ℕ) * D.expect g * (D.iid n).expect fun xs =>
            u (xs.countP p + 1 + if p x then 1 else 0) :=
      fun x => ih fun k => u (k + if p x then 1 else 0)
    rw [expect_iid_succ]
    simp only [List.map_cons, List.sum_cons, List.countP_cons, add_mul, expect_add, hfirst, hshift,
      expect_mul_left, expect_mul_right]
    have hdraw : (D.expect fun x => (D.iid n).expect fun xs =>
        u (xs.countP p + 1 + if p x then 1 else 0)) =
          (D.iid (n + 1)).expect fun xs => u (xs.countP p + 1) := by
      rw [expect_iid_succ]
      simp only [List.countP_cons, Nat.add_right_comm]
    rw [hdraw]
    push_cast
    ring

end FinDist

end Firstpass.FiniteProbability
