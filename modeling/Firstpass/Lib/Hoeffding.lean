import Firstpass.Lib.FiniteProbability
import Mathlib.Probability.Moments.SubGaussian

/-!
# Hoeffding's bound for a finite distribution

Independent draws are all kept, and fewer of them fail than the rate of failure among the
kept ones suggests, with a probability that falls exponentially in their number.
-/

namespace Firstpass.Hoeffding

open FiniteProbability MeasureTheory ProbabilityTheory

-- ---------------------------------------------------------------------------
-- One trial
-- ---------------------------------------------------------------------------

/-- One with probability `p`, zero otherwise. -/
noncomputable def coin (p : ℝ) : Measure ℝ :=
  ENNReal.ofReal (1 - p) • Measure.dirac 0 + ENNReal.ofReal p • Measure.dirac 1

section
variable {p : ℝ} (h0 : 0 ≤ p) (h1 : p ≤ 1)
include h0 h1

theorem isProbabilityMeasure_coin : IsProbabilityMeasure (coin p) where
  measure_univ := by
    have hq := sub_nonneg.mpr h1
    simp [coin, ← ENNReal.ofReal_add hq h0]

theorem integral_coin (f : ℝ → ℝ) : ∫ x, f x ∂coin p = (1 - p) * f 0 + p * f 1 := by
  have hq := sub_nonneg.mpr h1
  have hint (c : ℝ) (x : ℝ) : Integrable f (ENNReal.ofReal c • Measure.dirac x) :=
    (integrable_dirac (by simp)).smul_measure ENNReal.ofReal_ne_top
  rw [coin, integral_add_measure (hint _ _) (hint _ _), integral_smul_measure,
    integral_smul_measure, integral_dirac, integral_dirac, ENNReal.toReal_ofReal hq,
    ENNReal.toReal_ofReal h0]
  rfl

/-- Hoeffding's lemma for one trial. -/
theorem trial_le (s : ℝ) : 1 - p + p * Real.exp (-s) ≤ Real.exp (-s * p + s ^ 2 / 8) := by
  have := isProbabilityMeasure_coin h0 h1
  have hrange : ∀ᵐ x ∂coin p, x ∈ Set.Icc (0 : ℝ) 1 := by
    rw [coin, ae_add_measure_iff]
    constructor
    · exact Measure.ae_smul_measure (by simp) _
    · exact Measure.ae_smul_measure (by simp) _
  have hmgf := (hasSubgaussianMGF_of_mem_Icc (X := id) aemeasurable_id hrange).mgf_le (-s)
  have hmean : ∫ x, id x ∂coin p = p := by
    rw [integral_coin h0 h1]
    simp
  rw [mgf, hmean, integral_coin h0 h1] at hmgf
  have hfactor : (1 - p) * Real.exp (-s * (id 0 - p)) + p * Real.exp (-s * (id 1 - p)) =
      (1 - p + p * Real.exp (-s)) * Real.exp (s * p) := by
    rw [show -s * (id 0 - p) = s * p by simp, show -s * (id 1 - p) = -s + s * p by simp; ring,
      Real.exp_add]
    ring
  have hexponent : (((‖(1 : ℝ) - 0‖₊ / 2) ^ 2 : NNReal) : ℝ) * (-s) ^ 2 / 2 = s ^ 2 / 8 := by
    norm_num
    ring
  rw [hfactor, hexponent] at hmgf
  calc 1 - p + p * Real.exp (-s)
      = (1 - p + p * Real.exp (-s)) * Real.exp (s * p) * Real.exp (-s * p) := by
        rw [mul_assoc, ← Real.exp_add, neg_mul, add_neg_cancel, Real.exp_zero, mul_one]
    _ ≤ Real.exp (s ^ 2 / 8) * Real.exp (-s * p) := by gcongr
    _ = Real.exp (-s * p + s ^ 2 / 8) := by rw [← Real.exp_add, add_comm]

end

-- ---------------------------------------------------------------------------
-- Independent trials
-- ---------------------------------------------------------------------------

variable {X : Type*} (D : FinDist ℝ X) (kept fails : X → Bool) {α : ℝ}

/-- The exponential weight of one draw, zero for one that is not kept. -/
noncomputable def weight (s c : ℝ) (x : X) : ℝ :=
  if kept x then Real.exp (s * (c - if fails x then 1 else 0)) else 0

/-- One draw weighs at most what it would with the failure rate `α`. -/
theorem expect_weight_le (h0 : 0 ≤ α) (h1 : α ≤ 1)
    (hrate : α * D.prob (kept · = true) ≤ D.prob fun x => kept x = true ∧ fails x = true)
    {s : ℝ} (hs : 0 ≤ s) (c : ℝ) :
    D.expect (weight kept fails s c) ≤ Real.exp (s * (c - α) + s ^ 2 / 8) := by
  have hsplit : weight kept fails s c = fun x => Real.exp (s * c) *
      ((if kept x = true then 1 else 0) -
        (1 - Real.exp (-s)) * if kept x = true ∧ fails x = true then 1 else 0) := by
    funext x
    unfold weight
    cases kept x <;> cases fails x <;> simp [← Real.exp_add, mul_add, sub_eq_add_neg]
  have hshrink : 0 ≤ 1 - Real.exp (-s) := by simpa using hs
  have hone := D.prob_le_one (kept · = true)
  have hnonneg := D.prob_nonneg (kept · = true)
  rw [hsplit, D.expect_mul_left, D.expect_sub, D.expect_mul_left]
  calc Real.exp (s * c) * (D.prob (kept · = true) -
        (1 - Real.exp (-s)) * D.prob fun x => kept x = true ∧ fails x = true)
      ≤ Real.exp (s * c) * (D.prob (kept · = true) -
        (1 - Real.exp (-s)) * (α * D.prob (kept · = true))) := by gcongr
    _ = Real.exp (s * c) * ((1 - α + α * Real.exp (-s)) * D.prob (kept · = true)) := by ring
    _ ≤ Real.exp (s * c) * (1 - α + α * Real.exp (-s)) := by
        gcongr
        exact mul_le_of_le_one_right (by nlinarith [Real.exp_pos (-s)]) hone
    _ ≤ Real.exp (s * c) * Real.exp (-s * α + s ^ 2 / 8) := by
        gcongr
        exact trial_le h0 h1 s
    _ = Real.exp (s * (c - α) + s ^ 2 / 8) := by
        rw [← Real.exp_add]
        congr 1
        ring

theorem prod_weight {xs : List X} (hkept : ∀ x ∈ xs, kept x = true) (s c : ℝ) :
    (xs.map (weight kept fails s c)).prod =
      Real.exp (s * (xs.length * c - (xs.countP fails : ℕ))) := by
  induction xs with
  | nil => simp
  | cons x xs ih =>
    obtain ⟨hx, hkept⟩ := List.forall_mem_cons.mp hkept
    rw [List.map_cons, List.prod_cons, ih hkept, weight, if_pos hx, ← Real.exp_add,
      List.length_cons, List.countP_cons]
    congr 1
    push_cast
    ring

theorem weight_nonneg (s c : ℝ) (x : X) : 0 ≤ weight kept fails s c x := by
  unfold weight
  split_ifs <;> positivity

theorem prod_weight_nonneg (xs : List X) (s c : ℝ) :
    0 ≤ (xs.map (weight kept fails s c)).prod := by
  apply List.prod_nonneg
  intro w hw
  obtain ⟨x, _, rfl⟩ := List.mem_map.mp hw
  exact weight_nonneg kept fails s c x

open Classical in
/-- All draws are kept and at most a share of `α - ε` of them fails. -/
theorem prob_le (h0 : 0 ≤ α) (h1 : α ≤ 1)
    (hrate : α * D.prob (kept · = true) ≤ D.prob fun x => kept x = true ∧ fails x = true)
    (n : ℕ) {ε : ℝ} (hε : 0 ≤ ε) :
    (D.iid n).prob (fun xs => (∀ x ∈ xs, kept x = true) ∧
      (xs.countP fails : ℝ) ≤ n * (α - ε)) ≤ Real.exp (-(2 * n * ε ^ 2)) := by
  have hs : (0 : ℝ) ≤ 4 * ε := by positivity
  calc (D.iid n).prob (fun xs => (∀ x ∈ xs, kept x = true) ∧ (xs.countP fails : ℝ) ≤ n * (α - ε))
      ≤ (D.iid n).expect fun xs => (xs.map (weight kept fails (4 * ε) (α - ε))).prod := by
        apply FinDist.expect_mono
        intro xs hxs
        split_ifs with hevent
        · obtain ⟨hkept, hfew⟩ := hevent
          rw [prod_weight kept fails hkept, (D.possible_iid hxs).1, Real.one_le_exp_iff]
          exact mul_nonneg hs (sub_nonneg.mpr hfew)
        · exact prod_weight_nonneg kept fails xs _ _
    _ = D.expect (weight kept fails (4 * ε) (α - ε)) ^ n := D.expect_iid_prod n _
    _ ≤ Real.exp (4 * ε * (α - ε - α) + (4 * ε) ^ 2 / 8) ^ n := by
        gcongr
        · exact D.expect_nonneg fun x _ => weight_nonneg kept fails _ _ x
        · exact expect_weight_le D kept fails h0 h1 hrate hs _
    _ = Real.exp (-(2 * n * ε ^ 2)) := by
        rw [← Real.exp_nat_mul]
        congr 1
        ring

end Firstpass.Hoeffding
