import Firstpass.Core.ConformalSweep
import Firstpass.Core.LttGuarantee
import Firstpass.Lib.Hoeffding

/-!
# What the conformal bound guarantees

Hoeffding's bound is for one prefix of the sample. The sweep takes the longest prefix that
meets it, so the guarantee holds where only the whole sample can meet it, and fails where
the sweep has a choice.
-/

namespace Firstpass.Conformal

open Descending FiniteProbability
open Ltt (trueRisk badThresholds badSets badSets_risk serves incorrect coinPairs coinAtoms)

-- ---------------------------------------------------------------------------
-- The bad event
-- ---------------------------------------------------------------------------

/-- A threshold is reported whose served answers are incorrect more often than `alpha`. -/
def FalselyFeasible (D : FinDist ℝ (ℝ × Bool)) (alpha : ℝ) (result : ConformalResult ℝ) : Prop :=
  result.feasible = true ∧ ∃ t : ℝ, result.threshold = t ∧ alpha < trueRisk D t

/-- A prefix shorter than the sample cannot be certified, even without a failure in it. -/
def WholeSampleOnly (n minN : ℕ) (alpha delta : ℝ) : Prop :=
  ∀ k, minN ≤ k → k < n → alpha < ucb (hoeffding delta) 0 k

variable {D : FinDist ℝ (ℝ × Bool)} {alpha delta : ℝ} {n minN : ℕ} {pairs : List (ℝ × Bool)}

theorem exp_hoeffding (h0 : 0 < delta) (h1 : delta < 1) :
    Real.exp (-(2 * hoeffding delta ^ 2)) = delta := by
  have hlog : 0 ≤ Real.log (1 / delta) := Real.log_nonneg (one_le_one_div h0 h1.le)
  have hsquare : hoeffding delta ^ 2 = Real.log (1 / delta) / 2 := by
    have hdef : hoeffding delta = Real.sqrt (Real.log (1 / delta) / 2) := by
      simp only [hoeffding, Analytic.sqrt, Analytic.ln]
      norm_num
    rw [hdef, Real.sq_sqrt (by positivity)]
  rw [hsquare, mul_div_cancel₀ _ two_ne_zero, one_div, Real.log_inv, neg_neg, Real.exp_log h0]

/-- What the sweep reports is the score of a pair that ends a prefix that meets the bound. -/
theorem feasible_prefix {t : ℝ} (hfeasible : (calibrate pairs alpha delta minN).feasible = true)
    (hthreshold : (calibrate pairs alpha delta minN).threshold = t) :
    ∃ i p, (sortDesc Prod.fst pairs)[i]? = some p ∧ p.1 = t ∧
      Meets (hoeffding delta) alpha minN (sortDesc Prod.fst pairs) (i + 1) := by
  obtain ⟨served, fails, hsweep, -⟩ := feasible_sweep hfeasible hthreshold
  have hlast := sweep_sorted (hoeffding delta) alpha minN (sortDesc Prod.fst pairs)
  rw [hsweep] at hlast
  cases hlast with
  | last hi hp hmeets => exact ⟨_, _, hp, rfl, hmeets⟩

theorem ucb_zero_le (slack : ℝ) (fails served : ℕ) : ucb slack 0 served ≤ ucb slack fails served := by
  unfold ucb
  gcongr
  exact Nat.zero_le fails

/-- Where only the whole sample can be certified, all of it is at or above the threshold. -/
theorem falselyFeasible_whole (hwhole : WholeSampleOnly pairs.length minN alpha delta)
    (hfalse : FalselyFeasible D alpha (calibrate pairs alpha delta minN)) :
    ∃ p ∈ pairs, alpha < trueRisk D p.1 ∧ (∀ q ∈ pairs, p.1 ≤ q.1) ∧
      ucb (hoeffding delta) (failures pairs) pairs.length ≤ alpha := by
  obtain ⟨hfeasible, t, hthreshold, hrisk⟩ := hfalse
  obtain ⟨i, p, hp, rfl, hmin, hucb⟩ := feasible_prefix hfeasible hthreshold
  have hperm := sortDesc_perm Prod.fst pairs
  have hlt : i < (sortDesc Prod.fst pairs).length := (List.getElem?_eq_some_iff.mp hp).1
  have hend : i + 1 = (sortDesc Prod.fst pairs).length := by
    refine le_antisymm hlt (not_lt.mp fun hshort => ?_)
    have hover := hwhole (i + 1) hmin (hperm.length_eq ▸ hshort)
    exact absurd ((ucb_zero_le _ _ _).trans hucb) hover.not_ge
  rw [hend, List.take_length, failures_perm hperm, hperm.length_eq] at hucb
  refine ⟨p, hperm.mem_iff.mp (List.mem_of_getElem? hp), hrisk, fun q hq => ?_, hucb⟩
  obtain ⟨j, hj, rfl⟩ := List.getElem_of_mem (hperm.mem_iff.mpr hq)
  obtain ⟨_, rfl⟩ := List.getElem?_eq_some_iff.mp hp
  rcases (show j ≤ i by omega).eq_or_lt with rfl | hji
  · exact le_rfl
  · exact List.pairwise_iff_getElem.mp (desc_sortDesc Prod.fst pairs) j i hj hlt hji

-- ---------------------------------------------------------------------------
-- Its probability
-- ---------------------------------------------------------------------------

/-- A drawn score that is a bad threshold is one of the distribution's. -/
theorem mem_badThresholds {p : ℝ × Bool} (hp : D.Possible p) (hrisk : alpha < trueRisk D p.1) :
    p.1 ∈ badThresholds D alpha := by
  obtain ⟨w, _, hmem⟩ := hp
  refine (sortDesc_perm id _).mem_iff.mpr (List.mem_filter.mpr ⟨?_, decide_eq_true hrisk⟩)
  exact List.mem_map.mpr ⟨(p, w), hmem, rfl⟩

/-- The bound, as one on the number of failures. -/
theorem few_of_ucb {slack : ℝ} {fails served : ℕ} (hserved : 0 < served)
    (h : ucb slack fails served ≤ alpha) :
    (fails : ℝ) ≤ served * (alpha - slack / Real.sqrt served) := by
  have hpos : (0 : ℝ) < served := Nat.cast_pos.mpr hserved
  have hrate : (fails : ℝ) / served ≤ alpha - slack / Real.sqrt served := le_sub_iff_add_le.mpr h
  rwa [div_le_iff₀' hpos] at hrate

open Classical in
/-- The sample is at or above the lowest bad threshold, with as few failures as the bound
asks for: Hoeffding's bound for the whole sample. -/
theorem guarantee_whole (D : FinDist ℝ (ℝ × Bool)) (halpha : 0 < alpha) (halpha1 : alpha < 1)
    (hdelta : 0 < delta) (hdelta1 : delta < 1) (hwhole : WholeSampleOnly n minN alpha delta)
    (hn : 0 < n) {a : ℝ} (ha : a ∈ badThresholds D alpha) (hlow : ∀ b ∈ badThresholds D alpha, a ≤ b) :
    (D.iid n).prob (fun pairs => FalselyFeasible D alpha (calibrate pairs alpha delta minN)) ≤
      delta := by
  have hpos : (0 : ℝ) < n := Nat.cast_pos.mpr hn
  have hmargin : 0 ≤ hoeffding delta / Real.sqrt n :=
    div_nonneg (hoeffding_nonneg delta) (Real.sqrt_nonneg _)
  calc (D.iid n).prob (fun pairs => FalselyFeasible D alpha (calibrate pairs alpha delta minN))
      ≤ (D.iid n).prob fun pairs => (∀ p ∈ pairs, serves a p = true) ∧
          (pairs.countP incorrect : ℝ) ≤ n * (alpha - hoeffding delta / Real.sqrt n) := by
        apply FinDist.prob_mono
        intro pairs hpairs hfalse
        obtain ⟨hlength, hdrawn⟩ := D.possible_iid hpairs
        obtain ⟨p, hp, hrisk, hmin, hucb⟩ := falselyFeasible_whole (hlength ▸ hwhole) hfalse
        refine ⟨fun q hq => decide_eq_true ?_, ?_⟩
        · exact (hlow _ (mem_badThresholds (hdrawn p hp) hrisk)).trans (hmin q hq)
        · exact hlength ▸ few_of_ucb (hlength ▸ hn) hucb
    _ ≤ Real.exp (-(2 * n * (hoeffding delta / Real.sqrt n) ^ 2)) :=
        Hoeffding.prob_le D (serves a) incorrect halpha.le halpha1.le
          (badSets_risk D alpha halpha _ (List.mem_map_of_mem ha)) n hmargin
    _ = delta := by
        rw [div_pow, Real.sq_sqrt hpos.le, show 2 * (n : ℝ) * (hoeffding delta ^ 2 / n) =
          2 * hoeffding delta ^ 2 by field_simp, exp_hoeffding hdelta hdelta1]

/-- A fair coin: heads scores one and is correct, tails scores zero and is not. -/
def isCorrect (p : ℝ × Bool) : Bool := p.2

theorem coin_possible {p : ℝ × Bool} (h : coinPairs.Possible p) :
    p = (if isCorrect p then 1 else 0, isCorrect p) := by
  obtain ⟨w, _, hmem⟩ := h
  simp only [coinPairs, coinAtoms, List.mem_cons, Prod.mk.injEq, List.not_mem_nil, or_false] at hmem
  rcases hmem with ⟨rfl, _⟩ | ⟨rfl, _⟩ <;> rfl

theorem trueRisk_coin : trueRisk coinPairs 0 = 1 / 2 := by
  norm_num [trueRisk, FinDist.prob, FinDist.expect, coinPairs, coinAtoms, weighted]

theorem prob_correct : coinPairs.prob (isCorrect · = true) = 1 / 2 := by
  norm_num [isCorrect, FinDist.prob, FinDist.expect, coinPairs, coinAtoms, weighted]

/-- The sorted sample: heads first. -/
theorem sorted_coins (hpairs : ∀ p ∈ pairs, coinPairs.Possible p) :
    sortDesc Prod.fst pairs = List.replicate (pairs.countP isCorrect) (1, true) ++
      List.replicate (pairs.countP (!isCorrect ·)) (0, false) := by
  have hheads : pairs.filter isCorrect = List.replicate (pairs.countP isCorrect) (1, true) := by
    refine List.eq_replicate_iff.mpr ⟨List.countP_eq_length_filter.symm, fun p hp => ?_⟩
    obtain ⟨hmem, hcorrect⟩ := List.mem_filter.mp hp
    rw [coin_possible (hpairs p hmem), hcorrect]
    rfl
  have htails : pairs.filter (!isCorrect ·) =
      List.replicate (pairs.countP (!isCorrect ·)) (0, false) := by
    refine List.eq_replicate_iff.mpr ⟨List.countP_eq_length_filter.symm, fun p hp => ?_⟩
    obtain ⟨hmem, hcorrect⟩ := List.mem_filter.mp hp
    rw [coin_possible (hpairs p hmem), show isCorrect p = false by simpa using hcorrect]
    rfl
  rw [← hheads, ← htails]
  have hperm : (pairs.filter isCorrect ++ pairs.filter (!isCorrect ·)).Perm pairs :=
    List.filter_append_perm _ _
  refine ((sortDesc_perm Prod.fst pairs).trans hperm.symm).eq_of_pairwise ?_
    (desc_sortDesc Prod.fst pairs) ?_
  · intro a b ha hb hab hba
    have ha := coin_possible (hpairs a ((sortDesc_perm _ _).mem_iff.mp ha))
    have hb := coin_possible (hpairs b (hperm.mem_iff.mp hb))
    have hscore : a.1 = b.1 := le_antisymm hba hab
    rw [ha, hb] at hscore ⊢
    revert hscore
    cases isCorrect a <;> cases isCorrect b <;> simp
  · rw [hheads, htails, List.pairwise_append]
    refine ⟨List.pairwise_replicate.mpr (.inr le_rfl), List.pairwise_replicate.mpr (.inr le_rfl), ?_⟩
    intro a ha b hb
    rw [List.eq_of_mem_replicate ha, List.eq_of_mem_replicate hb]
    exact zero_le_one

theorem meets_first_tail {heads : ℕ} (tails : ℕ) (hheads : 3 ≤ heads) (htails : 0 < tails) :
    Meets (3 / 10 : ℝ) (2 / 5) 1
      (List.replicate heads (1, true) ++ List.replicate tails (0, false)) (heads + 1) := by
  refine ⟨Nat.le_add_left 1 heads, ?_⟩
  have hfails : failures ((List.replicate heads ((1 : ℝ), true) ++
      List.replicate tails (0, false)).take (heads + 1)) = 1 := by
    obtain ⟨rest, rfl⟩ := Nat.exists_eq_succ_of_ne_zero htails.ne'
    simp [List.take_append, failures, List.replicate_succ, List.countP_replicate]
  have hlarge : (4 : ℝ) ≤ (heads + 1 : ℕ) := by exact_mod_cast Nat.succ_le_succ hheads
  have hroot : 2 ≤ Real.sqrt (heads + 1 : ℕ) := by
    rw [show (2 : ℝ) = Real.sqrt 4 by rw [show (4 : ℝ) = 2 ^ 2 by norm_num, Real.sqrt_sq two_pos.le]]
    exact Real.sqrt_le_sqrt hlarge
  rw [hfails, ucb]
  calc ((1 : ℕ) : ℝ) / (heads + 1 : ℕ) + 3 / 10 / Real.sqrt (heads + 1 : ℕ)
      ≤ 1 / 4 + 3 / 10 / 2 := by
        rw [Nat.cast_one]
        gcongr
    _ = 2 / 5 := by norm_num

/-- With three heads or more, a prefix that ends in the first of the tails is certified, so the
reported threshold serves tails. -/
theorem coins_certified (hslack : hoeffding delta = 3 / 10) (hlength : pairs.length = 8)
    (hpairs : ∀ p ∈ pairs, coinPairs.Possible p) (hheads : 3 ≤ pairs.countP isCorrect)
    (htails : pairs.countP isCorrect < 8) :
    FalselyFeasible coinPairs (2 / 5) (calibrate pairs (2 / 5) delta 1) := by
  have hcount : pairs.countP isCorrect + pairs.countP (!isCorrect ·) = 8 := by
    rw [← hlength, List.length_eq_countP_add_countP isCorrect]
    congr 1
    exact List.countP_congr fun p _ => by simp
  have hmeets := meets_first_tail (pairs.countP (!isCorrect ·)) hheads (by omega)
  rw [← sorted_coins hpairs, ← hslack] at hmeets
  have hsorted : (sortDesc Prod.fst pairs).length = 8 :=
    (sortDesc_perm Prod.fst pairs).length_eq.trans hlength
  have hsweep := sweep_sorted (hoeffding delta) (2 / 5) 1 (sortDesc Prod.fst pairs)
  rw [hsorted] at hsweep
  cases hresult : sweep (hoeffding delta) (2 / 5) 1 (sortDesc Prod.fst pairs) 0 0 none with
  | none =>
    rw [hresult] at hsweep
    cases hsweep with
    | nothing hnone => exact absurd hmeets (hnone _ (Nat.succ_pos _) htails)
  | some best =>
    rw [hresult] at hsweep
    cases hsweep with
    | @last i p hi hp _ hlast =>
      have hpast : pairs.countP isCorrect ≤ i := by
        by_contra hbefore
        exact hlast _ (by omega) htails hmeets
      obtain rfl : p = (0, false) := by
        rw [sorted_coins hpairs, List.getElem?_append_right (by simpa using hpast)] at hp
        exact List.eq_of_mem_replicate (List.mem_of_getElem? hp)
      refine ⟨?_, 0, ?_, ?_⟩
      · simp [calibrate, calibrateWith, hresult]
      · simp [calibrate, calibrateWith, hresult]
      · rw [trueRisk_coin]
        norm_num

end Firstpass.Conformal
