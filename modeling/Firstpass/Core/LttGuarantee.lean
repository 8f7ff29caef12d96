import Firstpass.Core.LttWalk
import Firstpass.Lib.NestedTests
import Mathlib.Analysis.SpecialFunctions.Log.Basic

/-!
# The family-wise guarantee

Over independent pairs, the probability that the walk certifies a threshold
that serves failures more often than `alpha` is at most `delta`. The tests of
the walk are those of the first such threshold that serves enough pairs.
-/

namespace Firstpass.Ltt

open Descending FiniteProbability NestedTests Trials

-- ---------------------------------------------------------------------------
-- The binomial tail
-- ---------------------------------------------------------------------------

/-- The probability of `i` successes in `n` trials. -/
noncomputable def binomialTerm (n : ℕ) (p : ℝ) (i : ℕ) : ℝ := n.choose i * p ^ i * (1 - p) ^ (n - i)

theorem binomialTerm_pos {n i : ℕ} {p : ℝ} (hp : 0 < p) (hp1 : p < 1) (hi : i ≤ n) :
    0 < binomialTerm n p i := by
  have hq := sub_pos.mpr hp1
  have hchoose : (0 : ℝ) < n.choose i := Nat.cast_pos.mpr (Nat.choose_pos hi)
  exact mul_pos (mul_pos hchoose (pow_pos hp i)) (pow_pos hq _)

theorem binomialTerm_succ {n i : ℕ} {p : ℝ} (hp1 : p < 1) (hi : i < n) :
    binomialTerm n p (i + 1) = binomialTerm n p i * ((n - i : ℕ) / (i + 1 : ℕ) * (p / (1 - p))) := by
  have hq : 1 - p ≠ 0 := (sub_pos.mpr hp1).ne'
  have hchoose : ((n.choose (i + 1) : ℝ)) * (i + 1 : ℕ) = n.choose i * (n - i : ℕ) := by
    exact_mod_cast Nat.choose_succ_right_eq n i
  have hsucc : ((i + 1 : ℕ) : ℝ) ≠ 0 := Nat.cast_ne_zero.mpr i.succ_ne_zero
  have hpow : (1 - p) ^ (n - i) = (1 - p) ^ (n - (i + 1)) * (1 - p) := by
    rw [← pow_succ]
    congr 1
    omega
  rw [binomialTerm, binomialTerm, hpow, pow_succ]
  field_simp
  linear_combination p ^ i * p * hchoose

theorem nextLogTerm_log {n i : ℕ} {p : ℝ} (hp : 0 < p) (hp1 : p < 1) (hi : i < n) :
    nextLogTerm n (Real.log p - Real.log (1 - p)) (Real.log (binomialTerm n p i)) (i + 1) =
      Real.log (binomialTerm n p (i + 1)) := by
  have hq := sub_pos.mpr hp1
  have hterm := binomialTerm_pos hp hp1 hi.le
  have hleft : (0 : ℝ) < (n - i : ℕ) := Nat.cast_pos.mpr (Nat.sub_pos_of_lt hi)
  have hsucc : (0 : ℝ) < (i + 1 : ℕ) := Nat.cast_pos.mpr i.succ_pos
  have hindex : n - (i + 1) + 1 = n - i := by omega
  rw [binomialTerm_succ hp1 hi, Real.log_mul hterm.ne' (by positivity),
    Real.log_mul (by positivity) (by positivity), Real.log_div hleft.ne' hsucc.ne',
    Real.log_div hp.ne' hq.ne', nextLogTerm, hindex]
  rfl

theorem scanl_logTerms {n : ℕ} {p : ℝ} (hp : 0 < p) (hp1 : p < 1) (m i : ℕ) (h : i + m ≤ n) :
    (List.range' (i + 1) m).scanl (nextLogTerm n (Real.log p - Real.log (1 - p)))
        (Real.log (binomialTerm n p i)) =
      (List.range' i (m + 1)).map fun j => Real.log (binomialTerm n p j) := by
  induction m generalizing i with
  | zero => simp
  | succ m ih =>
    rw [List.range'_succ, List.scanl_cons, nextLogTerm_log hp hp1 (by omega), ih (i + 1) (by omega)]
    rfl

theorem logTerms_eq {n k : ℕ} {p : ℝ} (hp : 0 < p) (hp1 : p < 1) (hk : k ≤ n) :
    logTerms n k p = (List.range (k + 1)).map fun i => Real.log (binomialTerm n p i) := by
  have hseed : (n : ℝ) * Real.log (1 - p) = Real.log (binomialTerm n p 0) := by
    simp [binomialTerm]
  rw [List.range_eq_range', ← scanl_logTerms hp hp1 k 0 (by omega), ← hseed]
  rfl

theorem maxLog_cons (l : ℝ) (terms : List ℝ) : ∃ m : ℝ, maxLog (l :: terms) = m := by
  have hfold : ∀ (terms : List ℝ) (m : ℝ), ∃ m' : ℝ,
      terms.foldl (fun (m : WithBot ℝ) l => max m (l : WithBot ℝ)) (m : WithBot ℝ) = m' := by
    intro terms
    induction terms with
    | nil => exact fun m => ⟨m, rfl⟩
    | cons t terms ih => exact fun m => ih (max m t)
  exact hfold terms l

theorem sum_binomialTerm {n k : ℕ} (p : ℝ) (hk : k ≤ n) :
    ((List.range (k + 1)).map (binomialTerm n p)).sum = tail n p k := by
  have hterm : ∀ i, (n.choose i : ℝ) * p ^ i * (1 - p) ^ (n - i) * (if 0 + i ≤ k then 1 else 0) =
      if i ∈ Finset.range (k + 1) then binomialTerm n p i else 0 := by
    intro i
    simp only [Nat.zero_add, Finset.mem_range, Nat.lt_succ_iff, mul_ite, mul_one, mul_zero]
    rfl
  have hinter : Finset.range (n + 1) ∩ Finset.range (k + 1) = Finset.range (k + 1) :=
    Finset.inter_eq_right.mpr (Finset.range_mono (by omega))
  rw [tail, mean_replicate]
  simp only [hterm]
  rw [Finset.sum_ite_mem, hinter]
  rfl

/-- The logarithms, the shift by their maximum and the cap change nothing. -/
theorem binomialCdf_eq_tail {n k : ℕ} {p : ℝ} (hp : 0 < p) (hp1 : p < 1) (hk : k ≤ n) :
    binomialCdf n k p = tail n p k := by
  rw [binomialCdf, if_neg hp.not_ge, if_neg hp1.not_ge]
  split_ifs with hall
  · exact (tail_eq_one hall).symm
  · obtain ⟨m, hm⟩ : ∃ m : ℝ, maxLog (logTerms n k p) = m := by
      rw [logTerms_eq hp hp1 hk, List.range_succ_eq_map, List.map_cons]
      exact maxLog_cons _ _
    have hexp : ∀ i ∈ List.range (k + 1),
        Real.exp (Real.log (binomialTerm n p i) - m) * Real.exp m = binomialTerm n p i := by
      intro i hi
      have hle : i ≤ n := (Nat.lt_succ_iff.mp (List.mem_range.mp hi)).trans hk
      rw [← Real.exp_add, sub_add_cancel, Real.exp_log (binomialTerm_pos hp hp1 hle)]
    have hsum : ((logTerms n k p).map fun l => Real.exp (l - m)).sum * Real.exp m = tail n p k := by
      rw [logTerms_eq hp hp1 hk, List.map_map, ← List.sum_map_mul_right, ← sum_binomialTerm p hk]
      exact congrArg List.sum (List.map_congr_left hexp)
    have hle : tail n p k ≤ 1 := by
      have hmono := tail_mono n ⟨hp.le, hp1.le⟩ hk
      rwa [tail_eq_one le_rfl] at hmono
    rw [hm]
    change min (((logTerms n k p).map fun l => Real.exp (l - m)).sum * Real.exp m) 1 = _
    rw [hsum, min_eq_left hle]

/-- The tail that the code computes is the sum of the terms: a probability, which grows with `k`
up to 1. -/
theorem binomialCdf_exact {n k : ℕ} {p : ℝ} (hp : 0 < p) (hp1 : p < 1) (hk : k ≤ n) :
    binomialCdf n k p =
        ∑ i ∈ Finset.range (k + 1), (n.choose i : ℝ) * p ^ i * (1 - p) ^ (n - i) ∧
      (0 ≤ binomialCdf n k p ∧ binomialCdf n k p ≤ 1) ∧
      (∀ j ≤ k, binomialCdf n j p ≤ binomialCdf n k p) ∧ binomialCdf n n p = 1 := by
  have hone : binomialCdf n n p = 1 := by
    rw [binomialCdf_eq_tail hp hp1 le_rfl, tail_eq_one le_rfl]
  have hmono : ∀ j l, j ≤ l → l ≤ n → binomialCdf n j p ≤ binomialCdf n l p := by
    intro j l hjl hl
    rw [binomialCdf_eq_tail hp hp1 (hjl.trans hl), binomialCdf_eq_tail hp hp1 hl]
    exact tail_mono n ⟨hp.le, hp1.le⟩ hjl
  have hsum : binomialCdf n k p = ∑ i ∈ Finset.range (k + 1), binomialTerm n p i := by
    rw [binomialCdf_eq_tail hp hp1 hk, ← sum_binomialTerm p hk]
    rfl
  refine ⟨hsum, ⟨?_, (hmono k n hk le_rfl).trans_eq hone⟩, fun j hjk => hmono j k hjk hk, hone⟩
  rw [hsum]
  refine Finset.sum_nonneg fun i hi => ?_
  have hi : i ≤ n := (Nat.lt_succ_iff.mp (Finset.mem_range.mp hi)).trans hk
  exact (binomialTerm_pos hp hp1 hi).le

theorem binomialCdf_exact_four : binomialCdf 4 2 (1 / 2 : ℝ) = 11 / 16 ∧
    binomialCdf 4 1 (1 / 2 : ℝ) ≤ binomialCdf 4 2 (1 / 2) ∧ binomialCdf 4 4 (1 / 2 : ℝ) = 1 := by
  obtain ⟨hsum, -, hmono, hone⟩ := binomialCdf_exact (n := 4) (k := 2) (p := 1 / 2)
    (by norm_num) (by norm_num) (by norm_num)
  refine ⟨hsum.trans ?_, hmono 1 (by norm_num), hone⟩
  norm_num [Finset.sum_range_succ, Nat.choose]

-- ---------------------------------------------------------------------------
-- Bad thresholds
-- ---------------------------------------------------------------------------

section
variable (D : FinDist ℝ (ℝ × Bool)) (alpha : ℝ)

/-- The probability that a served answer is incorrect. -/
noncomputable def trueRisk (lambda : ℝ) : ℝ :=
  D.prob (fun p => lambda ≤ p.1 ∧ p.2 = false) / D.prob fun p => lambda ≤ p.1

noncomputable def badThresholds : List ℝ :=
  sortDesc id ((D.atoms.map fun a => a.1.1).filter (alpha < trueRisk D ·))

noncomputable def serves (t : ℝ) (p : ℝ × Bool) : Bool := t ≤ p.1

noncomputable def badSets : List (ℝ × Bool → Bool) := (badThresholds D alpha).map serves

def incorrect (p : ℝ × Bool) : Bool := !p.2

theorem nested_badSets : Nested (badSets D alpha) := by
  rw [badSets, Nested, List.pairwise_map]
  refine (desc_sortDesc id _).imp fun {t u} htu p hp => ?_
  exact decide_eq_true ((show u ≤ t from htu).trans (of_decide_eq_true hp))

theorem badSets_risk (halpha : 0 < alpha) : ∀ s ∈ badSets D alpha,
    alpha * D.prob (s · = true) ≤ D.prob fun p => s p = true ∧ incorrect p = true := by
  intro s hs
  obtain ⟨t, ht, rfl⟩ := List.mem_map.mp hs
  have hbad : alpha < trueRisk D t := by
    simpa using (List.mem_filter.mp ((sortDesc_perm id _).mem_iff.mp ht)).2
  have hpos : 0 < D.prob fun p => t ≤ p.1 := by
    rcases (D.prob_nonneg fun p => t ≤ p.1).lt_or_eq with hpos | hzero
    · exact hpos
    · rw [trueRisk, ← hzero, div_zero] at hbad
      exact absurd hbad halpha.not_gt
  have hle := ((lt_div_iff₀ hpos).mp hbad).le
  simpa [serves, incorrect] using hle

variable {D alpha} (tests : ∀ n, Test n alpha delta) {pairs : List (ℝ × Bool)} {minN : ℕ}

theorem reject_serves (t : ℝ) (pairs : List (ℝ × Bool)) :
    reject tests incorrect (serves t) pairs =
      (tests (servedAt t pairs).length).reject (failures (servedAt t pairs)) := by
  have hfailures : failures (servedAt t pairs) =
      pairs.countP fun p => serves t p && incorrect p := by
    rw [failures, servedAt, atLeast, List.countP_filter]
    exact List.countP_congr fun p _ => by simp [serves, incorrect, and_comm]
  rw [reject, List.countP_eq_length_filter, hfailures]
  rfl

/-- The first bad threshold that serves enough is at least as high as any other. -/
theorem exists_firstReject {thresholds : List ℝ} (hdesc : thresholds.Pairwise fun t u => u ≤ t)
    (hmem : lambda ∈ thresholds) (hlarge : minN ≤ (servedAt lambda pairs).length) :
    ∃ t, lambda ≤ t ∧ minN ≤ (servedAt t pairs).length ∧
      firstReject tests incorrect minN (thresholds.map serves) pairs =
        (tests (servedAt t pairs).length).reject (failures (servedAt t pairs)) := by
  have hcount : ∀ t, pairs.countP (serves t) = (servedAt t pairs).length := fun t =>
    List.countP_eq_length_filter
  induction thresholds with
  | nil => cases hmem
  | cons t thresholds ih =>
    obtain ⟨hfirst, hdesc⟩ := List.pairwise_cons.mp hdesc
    rw [List.map_cons, firstReject, hcount]
    split_ifs with ht
    · refine ⟨t, ?_, ht, reject_serves tests t pairs⟩
      rcases List.mem_cons.mp hmem with rfl | hmem
      · exact le_rfl
      · exact hfirst _ hmem
    · rcases List.mem_cons.mp hmem with rfl | hmem
      · exact absurd hlarge ht
      · exact ih hdesc hmem

-- ---------------------------------------------------------------------------
-- The walk
-- ---------------------------------------------------------------------------

/-- A threshold that serves something serves what the lowest served score does. -/
theorem exists_lowest {t : ℝ} (h : servedAt t pairs ≠ []) :
    ∃ p ∈ pairs, t ≤ p.1 ∧ servedAt p.1 pairs = servedAt t pairs := by
  obtain ⟨p, hp, hmin⟩ := (servedAt t pairs).toFinset.exists_min_image Prod.fst
    (List.toFinset_nonempty_iff _ |>.mpr h)
  obtain ⟨hp, ht⟩ := List.mem_filter.mp (List.mem_toFinset.mp hp)
  have ht := of_decide_eq_true ht
  refine ⟨p, hp, ht, List.filter_congr fun q hq => decide_eq_decide.mpr ⟨ht.trans, fun hq' => ?_⟩⟩
  exact hmin q (List.mem_toFinset.mpr (List.mem_filter.mpr ⟨hq, decide_eq_true hq'⟩))

/-- Before the walk certifies a threshold, it passes the test of every higher
one that serves enough. -/
theorem tail_le_of_certified {row : LttDiagnostic ℝ} (hpos : 0 < alpha) (hlt : alpha < 1)
    (hminN : 1 ≤ minN) (hrow : row ∈ (calibrate pairs alpha delta minN).diagnostics)
    (hcertified : row.certified = true) (ht : row.lambda ≤ t)
    (hlarge : minN ≤ (servedAt t pairs).length) :
    tail (servedAt t pairs).length alpha (failures (servedAt t pairs)) ≤ delta := by
  have hdesc := desc_sortDesc Prod.fst pairs
  have hsound := sound_walk alpha delta minN pairs
  rw [calibrate_eq_report, report_diagnostics] at hrow
  have hne : servedAt t pairs ≠ [] := List.length_pos_iff.mp (Nat.lt_of_lt_of_le hminN hlarge)
  obtain ⟨p, hp, htp, hserved⟩ := exists_lowest hne
  have hgrid : p.1 ∈ (walk alpha delta minN pairs).diagnostics.map (·.lambda) := by
    rw [hsound.grid, mem_candidates hdesc]
    exact ⟨p, (sortDesc_perm _ _).mem_iff.mpr hp, rfl⟩
  obtain ⟨lowest, hlowest, hlambda⟩ := List.mem_map.mp hgrid
  obtain ⟨before, after, hsplit⟩ := List.append_of_mem hlowest
  have hexact := hsound.rows lowest hlowest
  have hn : lowest.nServed = (servedAt t pairs).length := by
    rw [hexact.nServed, hlambda, hserved]
  have hvalue : lowest.pValue =
      tail (servedAt t pairs).length alpha (failures (servedAt t pairs)) := by
    rw [hexact.pValue, hn, if_neg hlarge.not_gt, hlambda, hserved]
    exact binomialCdf_eq_tail hpos hlt List.countP_le_length
  by_contra hfail
  rw [← hvalue, not_le] at hfail
  have hstrict : ((walk alpha delta minN pairs).diagnostics.map (·.lambda)).Pairwise (· > ·) :=
    hsound.grid ▸ candidates_descending hdesc
  have hnone := stop_of_run hstrict hsound.run hsplit (hn ▸ hlarge) hfail
  have hlater : row ∈ lowest :: after := by
    rw [hsplit] at hrow hstrict
    rcases List.mem_append.mp hrow with hbefore | hlater
    · rw [List.map_append, List.pairwise_append] at hstrict
      have hgt := hstrict.2.2 _ (List.mem_map_of_mem hbefore) lowest.lambda
        (List.mem_map_of_mem List.mem_cons_self)
      exact absurd (ht.trans htp) (hlambda ▸ hgt).not_ge
    · exact hlater
  rw [hnone row hlater] at hcertified
  cases hcertified

end

/-- The walk certified a threshold whose true risk is above `alpha`. -/
def FalselyCertifies (D : FinDist ℝ (ℝ × Bool)) (alpha : ℝ) (result : LttResult ℝ) : Prop :=
  ∃ row ∈ result.diagnostics, row.certified = true ∧ alpha < trueRisk D row.lambda

theorem firstReject_of_falselyCertifies {D : FinDist ℝ (ℝ × Bool)} {pairs : List (ℝ × Bool)}
    {tests : ∀ n, Test n alpha delta} (hsure : ∀ n k, tail n alpha k ≤ delta →
      (tests n).reject k = 1) (hpos : 0 < alpha) (hlt : alpha < 1) (hminN : 1 ≤ minN)
    (hpairs : ∀ p ∈ pairs, D.Possible p)
    (h : FalselyCertifies D alpha (calibrate pairs alpha delta minN)) :
    firstReject tests incorrect minN (badSets D alpha) pairs = 1 := by
  obtain ⟨row, hrow, hcertified, hbad⟩ := h
  have hsound := sound_walk alpha delta minN pairs
  have hmem := hrow
  rw [calibrate_eq_report, report_diagnostics] at hmem
  have hlarge : minN ≤ (servedAt row.lambda pairs).length := by
    have hrun : row ∈ Ltt.certified (walk alpha delta minN pairs).diagnostics :=
      List.mem_filter.mpr ⟨hmem, hcertified⟩
    rw [hsound.run] at hrun
    have hqualified := (List.takeWhile_sublist _).subset hrun
    rw [← (hsound.rows row hmem).nServed]
    simpa using (List.mem_filter.mp hqualified).2
  have hthreshold : row.lambda ∈ badThresholds D alpha := by
    have hgrid := List.mem_map_of_mem (f := (·.lambda)) hmem
    rw [hsound.grid, mem_candidates (desc_sortDesc _ _)] at hgrid
    obtain ⟨p, hp, hlambda⟩ := hgrid
    obtain ⟨w, -, hatom⟩ := hpairs p ((sortDesc_perm _ _).mem_iff.mp hp)
    rw [badThresholds, (sortDesc_perm _ _).mem_iff, List.mem_filter]
    refine ⟨List.mem_map.mpr ⟨(p, w), hatom, hlambda⟩, decide_eq_true hbad⟩
  have hdesc : (badThresholds D alpha).Pairwise fun t u => u ≤ t := desc_sortDesc id _
  obtain ⟨t, ht, hserved, hfirst⟩ := exists_firstReject tests hdesc hthreshold hlarge
  rw [badSets, hfirst]
  exact hsure _ _ (tail_le_of_certified hpos hlt hminN hrow hcertified ht hserved)

open Classical in
/-- Over `n` independent pairs, the walk certifies a threshold whose true risk is
above `alpha` at most with probability `delta`. -/
theorem calibrate_family_wise (D : FinDist ℝ (ℝ × Bool)) (n minN : ℕ) (alpha delta : ℝ)
    (hminN : 1 ≤ minN) (halpha : 0 < alpha) (halpha1 : alpha < 1) (hdelta : 0 < delta)
    (hdelta1 : delta < 1) :
    (D.iid n).prob (fun pairs => FalselyCertifies D alpha (calibrate pairs alpha delta minN)) ≤
      delta := by
  choose tests hsure using fun n => exists_test n ⟨halpha.le, halpha1.le⟩ hdelta hdelta1
  calc (D.iid n).prob (fun pairs => FalselyCertifies D alpha (calibrate pairs alpha delta minN))
      ≤ (D.iid n).expect (firstReject tests incorrect minN (badSets D alpha)) := by
        apply FinDist.expect_mono
        intro pairs hpairs
        split_ifs with hfalse
        · have hpossible := (D.possible_iid hpairs).2
          exact (firstReject_of_falselyCertifies hsure halpha halpha1 hminN hpossible hfalse).ge
        · exact firstReject_nonneg tests incorrect minN _ pairs
    _ ≤ delta := expect_firstReject_le tests incorrect minN halpha halpha1.le hdelta.le
        (nested_badSets D alpha) (badSets_risk D alpha halpha) n

/-- A score of zero or one, correct as often as not. -/
noncomputable def coinAtoms : List ((ℝ × Bool) × ℝ) :=
  [((1, true), 1 / (1 + 1)), ((0, false), 1 / (1 + 1))]

theorem coinAtoms_nonneg : ∀ a ∈ coinAtoms, 0 ≤ a.2 := by norm_num [coinAtoms]

theorem coinAtoms_total : weighted coinAtoms (fun _ => 1) = 1 := by norm_num [coinAtoms]

noncomputable def coinPairs : FinDist ℝ (ℝ × Bool) := ⟨coinAtoms, coinAtoms_nonneg, coinAtoms_total⟩

open Classical in
theorem calibrate_family_wise_coin : (coinPairs.iid 3).prob (fun pairs =>
    FalselyCertifies coinPairs (1 / 4) (calibrate pairs (1 / 4) (1 / 2) 1)) ≤ 1 / 2 :=
  calibrate_family_wise coinPairs 3 1 (1 / 4) (1 / 2) le_rfl (by norm_num) (by norm_num)
    (by norm_num) (by norm_num)

end Firstpass.Ltt
