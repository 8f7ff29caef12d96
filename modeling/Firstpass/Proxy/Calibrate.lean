import Firstpass.Core.ConformalSweep
import Mathlib.Algebra.Order.Field.Basic

/-!
# What a calibration certifies

The sweep judges the prefixes of the sorted pairs, and serving takes all pairs
from a threshold up. The two agree where no prefix that meets the target cuts a
tie for good.
-/

namespace Firstpass.Conformal

open Descending

-- ---------------------------------------------------------------------------
-- Failures
-- ---------------------------------------------------------------------------

theorem sub_correct_le_failures_take (xs : List (α × Bool)) (hj : j ≤ xs.length) :
    j - xs.countP (·.2) ≤ failures (xs.take j) := by
  have hlen := List.length_eq_countP_add_countP (·.2) (l := xs.take j)
  have hle : (xs.take j).countP (·.2) ≤ xs.countP (·.2) := (List.take_sublist j xs).countP_le
  rw [List.length_take_of_le hj] at hlen
  have hfail : (xs.take j).countP (fun p => decide ¬ p.2 = true) = failures (xs.take j) :=
    List.countP_congr fun p _ => by simp
  omega

-- ---------------------------------------------------------------------------
-- A tie with its correct pairs first
-- ---------------------------------------------------------------------------

def correctFirst (pairs : List (α × Bool)) : List (α × Bool) :=
  pairs.filter (·.2) ++ pairs.filter (!·.2)

theorem correctFirst_perm (pairs : List (α × Bool)) : (correctFirst pairs).Perm pairs :=
  List.filter_append_perm _ _

theorem failures_take_correctFirst (pairs : List (α × Bool)) (hj : j ≤ pairs.length) :
    failures ((correctFirst pairs).take j) = j - pairs.countP (·.2) := by
  have hlen := List.length_eq_countP_add_countP (·.2) (l := pairs)
  have hright : failures ((pairs.filter (·.2)).take j) = 0 := by
    refine List.countP_eq_zero.mpr fun p hp => ?_
    simpa using (List.mem_filter.mp (List.mem_of_mem_take hp)).2
  have hwrong : ∀ n,
      failures ((pairs.filter (!·.2)).take n) = ((pairs.filter (!·.2)).take n).length :=
    fun n => List.countP_eq_length.mpr fun p hp =>
      (List.mem_filter.mp (List.mem_of_mem_take hp)).2
  have hwrongs : (pairs.filter (!·.2)).length = pairs.countP (fun p => decide ¬ p.2 = true) := by
    rw [← List.countP_eq_length_filter]
    exact List.countP_congr fun p _ => by simp
  rw [correctFirst, List.take_append, failures_append, hright, hwrong, List.length_take, hwrongs,
    ← List.countP_eq_length_filter]
  omega

/-- The pairs in descending order, with the correct ones first at `t`. -/
def arrange [LinearOrder α] (t : α) (pairs : List (α × Bool)) : List (α × Bool) :=
  sortDesc Prod.fst (above Prod.fst t pairs) ++
    (correctFirst (tied Prod.fst t pairs) ++ sortDesc Prod.fst (below Prod.fst t pairs))

theorem arrange_perm [LinearOrder α] (t : α) (pairs : List (α × Bool)) :
    (arrange t pairs).Perm pairs := by
  refine List.Perm.trans ?_ (split_perm Prod.fst t pairs)
  exact (sortDesc_perm _ _).append ((correctFirst_perm _).append (sortDesc_perm _ _))

theorem desc_arrange [LinearOrder α] (t : α) (pairs : List (α × Bool)) :
    Desc Prod.fst (arrange t pairs) := by
  have habove : ∀ p ∈ sortDesc Prod.fst (above Prod.fst t pairs), t < p.1 := fun p hp =>
    of_decide_eq_true (List.mem_filter.mp ((sortDesc_perm _ _).mem_iff.mp hp)).2
  have htied : ∀ p ∈ correctFirst (tied Prod.fst t pairs), p.1 = t := fun p hp =>
    of_decide_eq_true (List.mem_filter.mp ((correctFirst_perm _).mem_iff.mp hp)).2
  have hbelow : ∀ p ∈ sortDesc Prod.fst (below Prod.fst t pairs), p.1 < t := fun p hp =>
    of_decide_eq_true (List.mem_filter.mp ((sortDesc_perm _ _).mem_iff.mp hp)).2
  refine List.pairwise_append.mpr ⟨desc_sortDesc _ _, List.pairwise_append.mpr
    ⟨List.pairwise_of_forall_mem_list fun p hp q hq => ?_, desc_sortDesc _ _, fun p hp q hq => ?_⟩,
    fun p hp q hq => ?_⟩
  · rw [htied p hp, htied q hq]
  · rw [htied p hp]
    exact (hbelow q hq).le
  · cases List.mem_append.mp hq with
    | inl hq =>
      rw [htied q hq]
      exact (habove p hp).le
    | inr hq =>
      exact ((hbelow q hq).trans (habove p hp)).le

theorem failures_take_arrange [LinearOrder α] (t : α) (pairs : List (α × Bool))
    (hj : j ≤ (tied Prod.fst t pairs).length) :
    failures ((arrange t pairs).take ((above Prod.fst t pairs).length + j)) =
      failures (above Prod.fst t pairs) + (j - (tied Prod.fst t pairs).countP (·.2)) := by
  have habove := sortDesc_perm Prod.fst (above Prod.fst t pairs)
  have hcut : j ≤ (correctFirst (tied Prod.fst t pairs)).length := by
    rwa [(correctFirst_perm _).length_eq]
  rw [arrange, ← habove.length_eq, List.take_length_add_append, failures_append,
    failures_perm habove, List.take_append_of_le_length hcut, failures_take_correctFirst _ hj]

-- ---------------------------------------------------------------------------
-- The report
-- ---------------------------------------------------------------------------

structure CalibrationReport (F : Type) where
  nPairs : Nat
  conformal : ConformalResult F
  empiricalServedFailure : F
  nServed : Nat

section

variable {F : Type} [Field F] [LinearOrder F] [Analytic F]

/-- `calibrate_pairs`, for any slack. -/
def calibratePairsWith (slack : F) (pairs : List (F × Bool)) (alpha delta : F) (minN : Nat) :
    CalibrationReport F :=
  let result := calibrateWith slack pairs alpha delta minN
  let (empiricalServedFailure, nServed) := servedFailureRate pairs result.threshold
  { nPairs := pairs.length, conformal := result, empiricalServedFailure, nServed }

def calibratePairs (pairs : List (F × Bool)) (alpha delta : F) (minN : Nat) :
    CalibrationReport F := calibratePairsWith (hoeffding delta) pairs alpha delta minN

/-- A feasible result is about the pairs that are served at its threshold. -/
structure Certifies (slack alpha : F) (minN : Nat) (pairs : List (F × Bool)) (t : F)
    (report : CalibrationReport F) : Prop where
  size : minN ≤ (servedAt t pairs).length
  bound : ucb slack (failures (servedAt t pairs)) (servedAt t pairs).length ≤ alpha
  nServed : report.nServed = (servedAt t pairs).length
  servedFrac : report.conformal.servedFrac = (servedAt t pairs).length / (max pairs.length 1 : Nat)
  calibRisk : report.conformal.calibRisk =
    failures (servedAt t pairs) / (servedAt t pairs).length

/-- Wherever a prefix that cuts a tie meets the target, at best, a threshold at
the tie or below it meets it with all it serves. -/
def TieSafe (slack alpha : F) (minN : Nat) (pairs : List (F × Bool)) : Prop :=
  ∀ p ∈ pairs, ∀ j, 0 < j → j < (tied Prod.fst p.1 pairs).length →
    minN ≤ (above Prod.fst p.1 pairs).length + j →
    ucb slack (failures (above Prod.fst p.1 pairs) + (j - (tied Prod.fst p.1 pairs).countP (·.2)))
      ((above Prod.fst p.1 pairs).length + j) ≤ alpha →
    ∃ q ∈ pairs, q.1 ≤ p.1 ∧
      ucb slack (failures (servedAt q.1 pairs)) (servedAt q.1 pairs).length ≤ alpha

-- ---------------------------------------------------------------------------
-- A tie-safe list
-- ---------------------------------------------------------------------------

variable {slack alpha : F} {minN : Nat} {s : List (F × Bool)}

theorem TieSafe.perm {pairs pairs' : List (F × Bool)} (h : pairs.Perm pairs')
    (hsafe : TieSafe slack alpha minN pairs) : TieSafe slack alpha minN pairs' := by
  intro p hp j hj hlt hmin hucb
  have habove : (above Prod.fst p.1 pairs).Perm (above Prod.fst p.1 pairs') := h.filter _
  have htied : (tied Prod.fst p.1 pairs).Perm (tied Prod.fst p.1 pairs') := h.filter _
  rw [← failures_perm habove, ← habove.length_eq, ← htied.countP_eq] at hucb
  obtain ⟨q, hq, hle, hok⟩ := hsafe p (h.mem_iff.mpr hp) j hj (htied.length_eq ▸ hlt)
    (habove.length_eq ▸ hmin) hucb
  refine ⟨q, h.mem_iff.mp hq, hle, ?_⟩
  rwa [failures_perm (servedAt_perm h q.1), (servedAt_perm h q.1).length_eq] at hok

def MeetsAt (slack alpha : F) (minN : Nat) (pairs : List (F × Bool)) (t : F) : Prop :=
  minN ≤ (servedAt t pairs).length ∧
    ucb slack (failures (servedAt t pairs)) (servedAt t pairs).length ≤ alpha

theorem MeetsAt.perm {pairs pairs' : List (F × Bool)} (h : pairs.Perm pairs') :
    MeetsAt slack alpha minN pairs t ↔ MeetsAt slack alpha minN pairs' t := by
  rw [MeetsAt, MeetsAt, failures_perm (servedAt_perm h t), (servedAt_perm h t).length_eq]

inductive Best (slack alpha : F) (minN : Nat) (pairs : List (F × Bool)) :
    Option (F × Nat × Nat) → Prop
  | nothing : (∀ q ∈ pairs, ¬ MeetsAt slack alpha minN pairs q.1) → Best slack alpha minN pairs none
  | least : p ∈ pairs → MeetsAt slack alpha minN pairs p.1 →
      (∀ q ∈ pairs, MeetsAt slack alpha minN pairs q.1 → p.1 ≤ q.1) →
      Best slack alpha minN pairs
        (some (p.1, (servedAt p.1 pairs).length, failures (servedAt p.1 pairs)))

theorem meets_servedAt (hs : Desc Prod.fst s) (t : F) :
    Meets slack alpha minN s (servedAt t s).length ↔ MeetsAt slack alpha minN s t := by
  rw [Meets, take_servedAt hs, MeetsAt]

theorem Best.perm {pairs pairs' : List (F × Bool)} (h : pairs.Perm pairs')
    {best : Option (F × Nat × Nat)} (hb : Best slack alpha minN pairs best) :
    Best slack alpha minN pairs' best := by
  cases hb with
  | nothing hnone =>
    exact .nothing fun q hq hm => hnone q (h.mem_iff.mpr hq) ((MeetsAt.perm h).mpr hm)
  | least hp hmeets hleast =>
    rw [(servedAt_perm h _).length_eq, failures_perm (servedAt_perm h _)]
    exact .least (h.mem_iff.mp hp) ((MeetsAt.perm h).mp hmeets) fun q hq hm =>
      hleast q (h.mem_iff.mpr hq) ((MeetsAt.perm h).mpr hm)

theorem Best.unique {pairs : List (F × Bool)} {best best' : Option (F × Nat × Nat)}
    (h : Best slack alpha minN pairs best) (h' : Best slack alpha minN pairs best') :
    best = best' := by
  cases h with
  | nothing hnone =>
    cases h' with
    | nothing _ => rfl
    | least hp hmeets _ => exact absurd hmeets (hnone _ hp)
  | least hp hmeets hleast =>
    cases h' with
    | nothing hnone => exact absurd hmeets (hnone _ hp)
    | least hp' hmeets' hleast' =>
      rw [le_antisymm (hleast _ hp' hmeets') (hleast' _ hp hmeets)]

omit [Analytic F] in
theorem servedFailureRate_snd (pairs : List (F × Bool)) (t : F) :
    (servedFailureRate pairs t).2 = (servedAt t pairs).length := by
  have hserved : (pairs.filter fun p => (t : WithTop F) ≤ p.1) = servedAt t pairs :=
    List.filter_congr fun p _ => by simp
  rw [servedFailureRate, hserved]
  split_ifs with hnone
  · simpa using congrArg List.length hnone.symm
  · exact List.length_map _

variable [IsStrictOrderedRing F]

theorem ucb_mono (h : fails ≤ fails') (served : Nat) :
    ucb slack fails served ≤ ucb slack fails' served := by
  unfold ucb
  gcongr

/-- In a tie-safe list a prefix that cuts a tie is not the last to meet the target. -/
theorem TieSafe.later (hsafe : TieSafe slack alpha minN s) (hs : Desc Prod.fst s)
    (hp : s[i]? = some p) (hmeets : Meets slack alpha minN s (i + 1))
    (hcut : i + 1 ≠ (servedAt p.1 s).length) :
    ∃ q ∈ s, MeetsAt slack alpha minN s q.1 ∧ i + 1 < (servedAt q.1 s).length := by
  obtain ⟨j, hj, hjle, hij, htake⟩ := take_of_getElem? hs hp
  have hend : (servedAt p.1 s).length =
      (above Prod.fst p.1 s).length + (tied Prod.fst p.1 s).length := length_atLeast _ _ _
  have hfails : failures (above Prod.fst p.1 s) +
      (j - (tied Prod.fst p.1 s).countP (·.2)) ≤ failures (s.take (i + 1)) := by
    rw [htake, failures_append]
    exact Nat.add_le_add_left (sub_correct_le_failures_take _ hjle) _
  have hbest := (ucb_mono hfails (i + 1)).trans hmeets.2
  obtain ⟨q, hq, hle, hok⟩ := hsafe p (List.mem_of_getElem? hp) j hj (by omega)
    (hij ▸ hmeets.1) (hij ▸ hbest)
  have hgrow : (servedAt p.1 s).length ≤ (servedAt q.1 s).length :=
    (atLeast_sublist Prod.fst hle s).length_le
  have hcover : i + 1 < (servedAt q.1 s).length := by omega
  exact ⟨q, hq, ⟨hmeets.1.trans hcover.le, hok⟩, hcover⟩

theorem LastMeets.best (hs : Desc Prod.fst s) (hsafe : TieSafe slack alpha minN s)
    {best : Option (F × Nat × Nat)} (h : LastMeets slack alpha minN s s.length best) :
    Best slack alpha minN s best := by
  cases h with
  | nothing hnone =>
    refine .nothing fun q hq hmeets => ?_
    exact hnone _ (servedAt_pos hq) (List.length_filter_le _ _) ((meets_servedAt hs q.1).mpr hmeets)
  | @last i p hi hp hmeets hlast =>
    have hlater : ∀ q ∈ s, MeetsAt slack alpha minN s q.1 → (servedAt q.1 s).length ≤ i + 1 := by
      intro q hq hm
      by_contra hlt
      exact hlast _ (not_le.mp hlt) (List.length_filter_le _ _) ((meets_servedAt hs q.1).mpr hm)
    have hend : i + 1 = (servedAt p.1 s).length := by
      by_contra hcut
      obtain ⟨q, hq, hm, hlt⟩ := hsafe.later hs hp hmeets hcut
      exact absurd (hlater q hq hm) (not_le.mpr hlt)
    rw [hend] at hmeets hlater ⊢
    rw [take_servedAt hs]
    refine .least (List.mem_of_getElem? hp) ((meets_servedAt hs p.1).mp hmeets) fun q hq hm => ?_
    by_contra hlt
    exact absurd (hlater q hq hm) (not_le.mpr (length_atLeast_lt hq (not_le.mp hlt)))

theorem TieSafe.best {pairs : List (F × Bool)} (h : TieSafe slack alpha minN pairs) :
    Best slack alpha minN pairs (sweep slack alpha minN (sortDesc Prod.fst pairs) 0 0 none) := by
  have hperm := sortDesc_perm Prod.fst pairs
  exact ((sweep_sorted slack alpha minN _).best (desc_sortDesc _ _) (h.perm hperm.symm)).perm hperm

theorem TieSafe.certifies {pairs : List (F × Bool)} (h : TieSafe slack alpha minN pairs)
    (delta t : F) (hf : (calibrateWith slack pairs alpha delta minN).feasible = true)
    (ht : (calibrateWith slack pairs alpha delta minN).threshold = t) :
    Certifies slack alpha minN pairs t (calibratePairsWith slack pairs alpha delta minN) := by
  obtain ⟨n, f, hsweep, hresult⟩ := feasible_sweep hf ht
  have hbest := h.best
  rw [hsweep] at hbest
  have hserved := servedFailureRate_snd pairs t
  unfold calibratePairsWith
  rw [hresult]
  cases hbest with
  | least hp hmeets hleast =>
    exact ⟨hmeets.1, hmeets.2, hserved, rfl, rfl⟩

theorem TieSafe.calibrate_perm {pairs pairs' : List (F × Bool)} (h : TieSafe slack alpha minN pairs)
    (hp : pairs.Perm pairs') (delta : F) :
    calibrateWith slack pairs' alpha delta minN = calibrateWith slack pairs alpha delta minN := by
  have hsweep := ((h.perm hp).best.perm hp.symm).unique h.best
  rw [calibrateWith, calibrateWith, hsweep, hp.length_eq]

/-- What a calibration promises of its input: a feasible result is about the pairs
that are served, and the order of the pairs does not matter. -/
def Promise (slack alpha delta : F) (minN : Nat) (pairs : List (F × Bool)) : Prop :=
  (∀ t : F, (calibrateWith slack pairs alpha delta minN).feasible = true →
    (calibrateWith slack pairs alpha delta minN).threshold = t →
      Certifies slack alpha minN pairs t (calibratePairsWith slack pairs alpha delta minN)) ∧
  ∀ pairs', pairs.Perm pairs' →
    calibrateWith slack pairs' alpha delta minN = calibrateWith slack pairs alpha delta minN

omit [IsStrictOrderedRing F] in
theorem feasible_of_meets (delta : F) (hs : Desc Prod.fst s) (hn : 0 < n) (hle : n ≤ s.length)
    (hmeets : Meets slack alpha minN s n) :
    ∃ p ∈ s, ∃ i, n ≤ i + 1 ∧ (calibrateWith slack s alpha delta minN).feasible = true ∧
      (calibrateWith slack s alpha delta minN).threshold = p.1 ∧
      (calibrateWith slack s alpha delta minN).servedFrac =
        (i + 1 : Nat) / (max s.length 1 : Nat) := by
  have hlast := sweep_sorted slack alpha minN s
  unfold calibrateWith
  rw [sortDesc_of_desc hs]
  cases hsweep : sweep slack alpha minN s 0 0 none with
  | none =>
    rw [hsweep] at hlast
    cases hlast with
    | nothing hnone => exact absurd hmeets (hnone n hn hle)
  | some r =>
    rw [hsweep] at hlast
    cases hlast with
    | @last i p hi hp _ hafter =>
      refine ⟨p, List.mem_of_getElem? hp, i, ?_, rfl, rfl, rfl⟩
      by_contra hlt
      exact hafter n (not_le.mp hlt) hle hmeets

theorem Promise.tieSafe {pairs : List (F × Bool)} {delta : F}
    (h : Promise slack alpha delta minN pairs) : TieSafe slack alpha minN pairs := by
  intro p hp j hj hlt hmin hucb
  have hperm := arrange_perm p.1 pairs
  have hlen : (above Prod.fst p.1 pairs).length + j ≤ (arrange p.1 pairs).length := by
    have hparts := (split_perm Prod.fst p.1 pairs).length_eq
    rw [List.length_append, List.length_append] at hparts
    rw [hperm.length_eq]
    omega
  have hmeets :
      Meets slack alpha minN (arrange p.1 pairs) ((above Prod.fst p.1 pairs).length + j) := by
    refine ⟨hmin, ?_⟩
    rwa [failures_take_arrange p.1 pairs hlt.le]
  obtain ⟨q, hq, i, hi, hf, ht, hfrac⟩ := feasible_of_meets delta
    (desc_arrange p.1 pairs) (Nat.add_pos_right _ hj) hlen hmeets
  rw [h.2 _ hperm.symm] at hf ht hfrac
  have hcert := h.1 q.1 hf ht
  refine ⟨q, hperm.mem_iff.mp hq, ?_, hcert.bound⟩
  -- What is reported as served is what is served, so the threshold cannot lie above the tie.
  have hserved : i + 1 = (servedAt q.1 pairs).length := by
    have hne : ((max pairs.length 1 : Nat) : F) ≠ 0 := Nat.cast_ne_zero.mpr (by omega)
    rw [hperm.length_eq] at hfrac
    exact Nat.cast_injective ((div_left_inj' hne).mp (hfrac.symm.trans hcert.servedFrac))
  by_contra habove
  have hle := (atLeast_sublist_above Prod.fst (not_le.mp habove) pairs).length_le
  unfold servedAt at hserved
  omega

end

/-- A calibration keeps its promise exactly on the tie-safe inputs. -/
theorem promise_iff_tieSafe (slack alpha delta : ℝ) (minN : Nat) (pairs : List (ℝ × Bool)) :
    Promise slack alpha delta minN pairs ↔ TieSafe slack alpha minN pairs :=
  ⟨Promise.tieSafe, fun h => ⟨h.certifies delta, fun _ hp => h.calibrate_perm hp delta⟩⟩

-- ---------------------------------------------------------------------------
-- A tie that is cut
-- ---------------------------------------------------------------------------

noncomputable def tiedPairs : List (ℝ × Bool) := [(0.5, true), (0.5, false)]

theorem hoeffding_le : hoeffding (0.99 : ℝ) ≤ 0.3 := by
  have hlog : Real.log (1.0 / 0.99) ≤ 1.0 / 0.99 - 1 := Real.log_le_sub_one_of_pos (by norm_num)
  refine Real.sqrt_le_iff.mpr ⟨by norm_num, ?_⟩
  calc Real.log (1.0 / 0.99) / 2.0 ≤ (1.0 / 0.99 - 1) / 2.0 := by gcongr
    _ ≤ 0.3 ^ 2 := by norm_num

theorem sweep_tiedPairs :
    sweep (hoeffding 0.99) 0.3 1 tiedPairs 0 0 none = some ((0.5 : ℝ), 1, 0) := by
  have hfirst : ucb (hoeffding 0.99) 0 1 ≤ (0.3 : ℝ) := by
    have hone : Analytic.sqrt ((1 : Nat) : ℝ) = 1 := by
      rw [Nat.cast_one]
      exact Real.sqrt_one
    rw [ucb, hone, Nat.cast_zero, zero_div, zero_add, div_one]
    exact hoeffding_le
  have hboth : ¬ ucb (hoeffding 0.99) 1 2 ≤ (0.3 : ℝ) := by
    have hslack : 0 ≤ hoeffding 0.99 / Analytic.sqrt ((2 : Nat) : ℝ) :=
      div_nonneg (hoeffding_nonneg _) (Real.sqrt_nonneg _)
    rw [ucb, not_le]
    refine lt_of_lt_of_le ?_ (le_add_of_nonneg_right hslack)
    norm_num
  simp [tiedPairs, sweep, hfirst, hboth]

theorem calibrate_tiedPairs :
    calibrate tiedPairs 0.3 0.99 1 =
      { alpha := 0.3
        delta := 0.99
        threshold := (0.5 : ℝ)
        servedFrac := (1 : Nat) / (2 : Nat)
        calibRisk := (0 : Nat) / (1 : Nat)
        feasible := true } := by
  have hdesc : Desc Prod.fst tiedPairs := by simp [Desc, tiedPairs]
  rw [calibrate, calibrateWith, sortDesc_of_desc hdesc, sweep_tiedPairs]
  rfl

/-- The correct one of two tied pairs is certified, and both are served. -/
theorem tie_cut :
    (calibrate tiedPairs 0.3 0.99 1).feasible = true ∧
      (calibrate tiedPairs 0.3 0.99 1).threshold = (0.5 : ℝ) ∧
      (calibrate tiedPairs 0.3 0.99 1).calibRisk = 0 ∧
      servedAt 0.5 tiedPairs = tiedPairs ∧ failures tiedPairs = 1 ∧
      ¬ Promise (hoeffding 0.99) 0.3 0.99 1 tiedPairs := by
  have hserved : servedAt 0.5 tiedPairs = tiedPairs := by simp [servedAt, atLeast, tiedPairs]
  have hfails : failures tiedPairs = 1 := rfl
  have hfeasible : (calibrate tiedPairs 0.3 0.99 1).feasible = true := by
    rw [calibrate_tiedPairs]
  have hthreshold : (calibrate tiedPairs 0.3 0.99 1).threshold = (0.5 : ℝ) := by
    rw [calibrate_tiedPairs]
  have hrisk : (calibrate tiedPairs 0.3 0.99 1).calibRisk = 0 := by
    rw [calibrate_tiedPairs]
    simp
  refine ⟨hfeasible, hthreshold, hrisk, hserved, hfails, fun h => ?_⟩
  have hcert := h.1 0.5 hfeasible hthreshold
  have hreported : ((0 : Nat) : ℝ) / (1 : Nat) = (1 : Nat) / (2 : Nat) := by
    have hrate := hcert.calibRisk
    rw [hserved, hfails] at hrate
    exact (congrArg ConformalResult.calibRisk calibrate_tiedPairs).symm.trans hrate
  norm_num at hreported

end Firstpass.Conformal
