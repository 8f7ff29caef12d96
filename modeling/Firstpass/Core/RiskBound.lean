import Firstpass.Core.RiskControl
import Firstpass.Lib.EProcess

/-!
# The family-wise error bound

The e-value of a bad threshold is a bet on rounds that are fair or worse, so it
reaches the level with probability at most `delta / n`, and the thresholds share
`delta` between them.
-/

namespace Firstpass.RiskControl

open MeasureTheory EProcess

section Runs

variable {F : Type} [Field F] [LinearOrder F] {Ω : Type*}

/-- The controller after the first `n` served items. -/
def EProcessRiskControl.after (c : EProcessRiskControl F) (item : ℕ → Ω → F × Bool) :
    ℕ → Ω → EProcessRiskControl F
  | 0, _ => c
  | n + 1, ω => (c.after item n ω).observeServed (item n ω).1 (item n ω).2

def eValueAt (c : EProcessRiskControl F) (item : ℕ → Ω → F × Bool) (threshold : F) : ℕ → Ω → F
  | 0, _ => 1
  | n + 1, ω => bump c (item n ω).1 (item n ω).2 threshold (eValueAt c item threshold n ω)

/-- What holds of a controller after `n` served items. -/
structure AfterInv (c : EProcessRiskControl F) (item : ℕ → Ω → F × Bool) (n : ℕ) (ω : Ω) :
    Prop where
  grid : (c.after item n ω).grid = c.grid
  level : (c.after item n ω).crossingLevel = c.crossingLevel
  bump : bump (c.after item n ω) = bump c
  eValues : (c.after item n ω).eValues = c.grid.map fun threshold => eValueAt c item threshold n ω

theorem afterInv (alpha delta : F) (bet : Option F) (cap : F) (grid : List (Option F))
    (item : ℕ → Ω → F × Bool) (n : ℕ) (ω : Ω) :
    AfterInv (withCap alpha delta bet cap grid) item n ω := by
  induction n with
  | zero => exact ⟨rfl, rfl, rfl, (List.map_const' ..).symm⟩
  | succ n ih =>
    refine ⟨ih.grid, ih.level, ih.bump, ?_⟩
    simp only [EProcessRiskControl.after, EProcessRiskControl.observeServed, ih.bump, ih.grid,
      ih.eValues, List.zipWith_map_right, List.zipWith_self]
    rfl

theorem mem_zip_map {α β γ : Type*} {f : α → β} {as : List α} {cs : List γ} {p : α × β × γ}
    (h : p ∈ as.zip ((as.map f).zip cs)) : p.1 ∈ as ∧ p.2.1 = f p.1 := by
  induction as generalizing cs with
  | nil => simp at h
  | cons a as ih =>
    cases cs with
    | nil => simp at h
    | cons c cs =>
      rcases List.mem_cons.mp h with rfl | h
      · exact ⟨List.mem_cons_self, rfl⟩
      · obtain ⟨hmem, heq⟩ := ih h
        exact ⟨List.mem_cons_of_mem a hmem, heq⟩

theorem certifiedThreshold_some {c : EProcessRiskControl F} {item : ℕ → Ω → F × Bool}
    (h : AfterInv c item n ω) (hc : (c.after item n ω).certifiedThreshold = some cert) :
    cert.threshold ∈ c.grid ∧ reaches (eValueAt c item cert.threshold n ω) c.crossingLevel := by
  obtain ⟨p, hfind, rfl⟩ := Option.map_eq_some_iff.mp hc
  rw [h.grid, h.level, h.eValues] at hfind
  have hreach := List.find?_some hfind
  obtain ⟨hmem, heq⟩ := mem_zip_map (List.mem_of_find?_eq_some hfind)
  refine ⟨hmem, ?_⟩
  rw [← heq]
  exact of_decide_eq_true hreach

end Runs

-- ---------------------------------------------------------------------------
-- The bet of one threshold
-- ---------------------------------------------------------------------------

variable {Ω : Type*} {m0 : MeasurableSpace Ω} {μ : Measure Ω} {ℱ : Filtration ℕ m0} {N : ℕ}
variable {item : ℕ → Ω → ℝ × Bool} {alpha delta cap : ℝ} {bet : Option ℝ} {grid : List (Option ℝ)}

/-- The failure of a threshold that serves the item, above `alpha`. -/
noncomputable def excess (alpha threshold : ℝ) (item : ℕ → Ω → ℝ × Bool) (n : ℕ) (ω : Ω) : ℝ :=
  (if threshold ≤ (item n ω).1 then 1 else 0) * (errOf (item n ω).2 - alpha)

theorem maxBet_pos (alpha : ℝ) : 0 < maxBet alpha := by
  have heps : (0 : ℝ) < epsilon := by norm_num [epsilon]
  exact div_pos (by norm_num) (heps.trans_le (le_max_right _ _))

theorem clampBet_range (alpha : ℝ) (bet : Option ℝ) :
    clampBet alpha bet ∈ Set.Icc 0 (maxBet alpha) := by
  have hpos := maxBet_pos alpha
  cases bet with
  | some bet => exact ⟨le_max_left _ _, max_le hpos.le (min_le_right _ _)⟩
  | none => exact ⟨le_min (by norm_num [defaultBet]) hpos.le, min_le_right _ _⟩

theorem clampBet_mul_le (hα : alpha < 1) (bet : Option ℝ) :
    clampBet alpha bet * (1 - alpha) ≤ 1 / 2 := by
  have hα' : 0 < 1 - alpha := sub_pos.mpr hα
  have hmax : 0 < max (1 - alpha) epsilon := hα'.trans_le (le_max_left _ _)
  calc clampBet alpha bet * (1 - alpha)
      ≤ maxBet alpha * max (1 - alpha) epsilon :=
        mul_le_mul (clampBet_range alpha bet).2 (le_max_left _ _) hα'.le (maxBet_pos alpha).le
    _ = 1 / 2 := by
        rw [maxBet, div_mul_cancel₀ _ hmax.ne']
        norm_num

theorem errOf_range (wasCorrect : Bool) : (errOf wasCorrect : ℝ) ∈ Set.Icc 0 1 := by
  cases wasCorrect <;> norm_num [errOf]

theorem factor_nonneg (h0 : 0 < alpha) (h1 : alpha < 1) (bet : Option ℝ) (wasCorrect : Bool) :
    0 ≤ 1 + clampBet alpha bet * (alpha - errOf wasCorrect) := by
  have hbet := (clampBet_range alpha bet).1
  have hlose := clampBet_mul_le h1 bet
  have hworst :
      clampBet alpha bet * (alpha - 1) ≤ clampBet alpha bet * (alpha - errOf wasCorrect) :=
    mul_le_mul_of_nonneg_left (sub_le_sub_left (errOf_range wasCorrect).2 alpha) hbet
  linarith

structure Valid (alpha delta cap : ℝ) : Prop where
  alpha_pos : 0 < alpha
  alpha_lt : alpha < 1
  delta_pos : 0 < delta
  cap_nonneg : 0 ≤ cap

theorem crossingLevel_nonneg {c : EProcessRiskControl ℝ} (h : c.crossingLevel = some level) :
    0 ≤ level := by
  unfold EProcessRiskControl.crossingLevel at h
  split_ifs at h with hnone
  obtain rfl := Option.some.inj h
  exact div_nonneg (Nat.cast_nonneg _) (not_le.mp (not_or.mp hnone).2).le

theorem capped_range (hcap : 0 ≤ cap) {level : Option ℝ} (hlevel : ∀ l, level = some l → 0 ≤ l)
    {x : ℝ} (hx : 0 ≤ x) : capped cap level x ∈ Set.Icc 0 x := by
  cases level with
  | none => exact ⟨hx, le_rfl⟩
  | some l => exact ⟨le_min hx (mul_nonneg hcap (hlevel l rfl)), min_le_left _ _⟩

theorem Valid.bump_range (h : Valid alpha delta cap) (bet : Option ℝ) {e : ℝ} (he : 0 ≤ e)
    (n : ℕ) (ω : Ω) (threshold : ℝ) :
    bump (withCap alpha delta bet cap grid) (item n ω).1 (item n ω).2 threshold e ∈
      Set.Icc 0 (e * (1 + clampBet alpha bet * -excess alpha threshold item n ω)) := by
  have hfactor := factor_nonneg h.alpha_pos h.alpha_lt bet (item n ω).2
  unfold bump excess
  by_cases hserve : (item n ω).1 < threshold
  · simp [hserve, not_le.mpr hserve, he]
  · obtain ⟨hnonneg, hle⟩ := capped_range h.cap_nonneg
      (fun _ => crossingLevel_nonneg (c := withCap alpha delta bet cap grid))
      (mul_nonneg he (le_max_right (1 + clampBet alpha bet * (alpha - errOf (item n ω).2)) 0))
    simp only [hserve, if_false, not_lt.mp hserve, if_true, one_mul, neg_sub]
    exact ⟨hnonneg, hle.trans (mul_le_mul_of_nonneg_left (max_le le_rfl hfactor) he)⟩

theorem Valid.eValueAt_nonneg (h : Valid alpha delta cap) (bet : Option ℝ) (threshold : ℝ)
    (n : ℕ) (ω : Ω) : 0 ≤ eValueAt (withCap alpha delta bet cap grid) item threshold n ω := by
  induction n with
  | zero => exact zero_le_one
  | succ n ih => exact (h.bump_range bet ih n ω threshold).1

theorem measurable_errOf : Measurable (errOf : Bool → ℝ) := measurable_from_top

theorem measurable_excess (hitem : ∀ n, Measurable[ℱ (n + 1)] (item n)) (alpha threshold : ℝ)
    (n : ℕ) : StronglyMeasurable[ℱ (n + 1)] (excess alpha threshold item n) := by
  have hscore := measurable_fst.comp (hitem n)
  have herr := measurable_errOf.comp (measurable_snd.comp (hitem n))
  exact ((Measurable.ite (measurableSet_le measurable_const hscore) measurable_const
    measurable_const).mul (herr.sub_const alpha)).stronglyMeasurable

theorem abs_excess_le (h : Valid alpha delta cap) (threshold : ℝ) (n : ℕ) (ω : Ω) :
    |excess alpha threshold item n ω| ≤ 1 := by
  obtain ⟨herr0, herr1⟩ := errOf_range (item n ω).2
  have hα0 := h.alpha_pos
  have hα1 := h.alpha_lt
  unfold excess
  rw [abs_le]
  split_ifs <;> constructor <;> linarith

theorem measurable_eValueAt (c : EProcessRiskControl ℝ)
    (hitem : ∀ n, Measurable[ℱ (n + 1)] (item n)) (threshold : ℝ) (n : ℕ) :
    StronglyMeasurable[ℱ n] (eValueAt c item threshold n) := by
  induction n with
  | zero => exact stronglyMeasurable_const
  | succ n ih =>
    have hscore := measurable_fst.comp (hitem n)
    have herr := measurable_errOf.comp (measurable_snd.comp (hitem n))
    have hold := (ih.mono (ℱ.mono n.le_succ)).measurable
    have hfactor : Measurable[ℱ (n + 1)] fun ω =>
        max (1 + c.bet * (c.alpha - errOf (item n ω).2)) 0 :=
      (((herr.const_sub c.alpha).const_mul c.bet).const_add 1).max measurable_const
    refine (Measurable.ite (measurableSet_lt hscore measurable_const) hold ?_).stronglyMeasurable
    unfold capped
    cases c.crossingLevel with
    | none => exact hold.mul hfactor
    | some level => exact (hold.mul hfactor).min measurable_const

variable [IsProbabilityMeasure μ]

theorem isEProcess_eValueAt (h : Valid alpha delta cap) (bet : Option ℝ)
    (grid : List (Option ℝ)) (hitem : ∀ n, Measurable[ℱ (n + 1)] (item n)) {threshold : ℝ}
    (hbad : ∀ n < N, 0 ≤ᵐ[μ] μ[excess alpha threshold item n | ℱ n]) :
    IsEProcess μ ℱ N 1 (eValueAt (withCap alpha delta bet cap grid) item threshold) := by
  have hbets : Bets μ ℱ N (eValueAt (withCap alpha delta bet cap grid) item threshold)
      (fun _ _ => clampBet alpha bet) (fun n => -excess alpha threshold item n) (maxBet alpha)
      1 := {
    adapted := measurable_eValueAt _ hitem threshold
    nonneg := h.eValueAt_nonneg bet threshold
    start := fun ω => rfl
    stakeAdapted := fun n => stronglyMeasurable_const
    stakeRange := fun n ω => clampBet_range alpha bet
    gainMeasurable := fun n => ((measurable_excess hitem alpha threshold n).mono (ℱ.le _)).neg
    gainRange := fun n ω => (abs_neg _).trans_le (abs_excess_le h threshold n ω)
    grows := fun n ω => (h.bump_range bet (h.eValueAt_nonneg bet threshold n ω) n ω threshold).2
    fair := fun n hn => by
      filter_upwards [condExp_neg (excess alpha threshold item n) (ℱ n), hbad n hn] with ω hω hle
      rw [hω]
      exact neg_nonpos.mpr hle }
  exact hbets.isEProcess

theorem mem_of_mem_candidates {threshold : ℝ} (h : threshold ∈ candidates grid) :
    some threshold ∈ grid := by
  have hsorted := (List.destutter_sublist (· ≠ ·) _).subset h
  obtain ⟨g, hg, hid⟩ := List.mem_filterMap.mp (List.mem_mergeSort.mp hsorted)
  rwa [← show g = some threshold from hid]

theorem Valid.crossingLevel (h : Valid alpha delta cap) (bet : Option ℝ) (grid : List (Option ℝ)) :
    (withCap alpha delta bet cap grid).crossingLevel =
      if candidates grid = [] then none else some ((candidates grid).length / delta) := by
  simp [EProcessRiskControl.crossingLevel, withCap, not_le.mpr h.delta_pos]

/-- One bad threshold is ever certified with probability at most `delta / n`. -/
theorem prob_reaches_le (h : Valid alpha delta cap) (bet : Option ℝ)
    (hitem : ∀ n, Measurable[ℱ (n + 1)] (item n)) {threshold : ℝ}
    (hbad : ∀ n < N, 0 ≤ᵐ[μ] μ[excess alpha threshold item n | ℱ n]) :
    μ.real {ω | ∃ n ≤ N, reaches (eValueAt (withCap alpha delta bet cap grid) item threshold n ω)
      (withCap alpha delta bet cap grid).crossingLevel} ≤ delta / (candidates grid).length := by
  rw [h.crossingLevel]
  split_ifs with hnone
  · simp [reaches, hnone]
  · have hlen : 0 < ((candidates grid).length : ℝ) :=
      Nat.cast_pos.mpr (List.length_pos_of_ne_nil hnone)
    have hville := (isEProcess_eValueAt h bet grid hitem hbad).ville
      (div_pos hlen h.delta_pos)
    rwa [one_div_div] at hville

/-- The family-wise error bound: whatever the served items depend on, a threshold
of `bad` is ever certified with probability at most `delta`. -/
theorem false_certification_le (μ : Measure Ω) [IsProbabilityMeasure μ] (ℱ : Filtration ℕ m0)
    (h : Valid alpha delta cap) (bet : Option ℝ) (grid : List (Option ℝ))
    (hitem : ∀ n, Measurable[ℱ (n + 1)] (item n)) (bad : Set ℝ) (N : ℕ)
    (hbad : ∀ threshold ∈ bad, some threshold ∈ grid →
      ∀ n < N, 0 ≤ᵐ[μ] μ[excess alpha threshold item n | ℱ n]) :
    μ.real {ω | ∃ n ≤ N, ∃ cert, cert.threshold ∈ bad ∧
      ((withCap alpha delta bet cap grid).after item n ω).certifiedThreshold = some cert} ≤
        delta := by
  classical
  let c := withCap alpha delta bet cap grid
  let atRisk := (candidates grid).toFinset.filter (· ∈ bad)
  let falsely : ℝ → Set Ω := fun threshold =>
    {ω | ∃ n ≤ N, reaches (eValueAt c item threshold n ω) c.crossingLevel}
  have hcover : {ω | ∃ n ≤ N, ∃ cert, cert.threshold ∈ bad ∧
      (c.after item n ω).certifiedThreshold = some cert} ⊆
        ⋃ threshold ∈ atRisk, falsely threshold := by
    rintro ω ⟨n, hn, cert, hcert, hsome⟩
    obtain ⟨hgrid, hreach⟩ :=
      certifiedThreshold_some (afterInv alpha delta bet cap grid item n ω) hsome
    refine Set.mem_biUnion (x := cert.threshold) ?_ ⟨n, hn, hreach⟩
    exact Finset.mem_coe.mpr (Finset.mem_filter.mpr ⟨List.mem_toFinset.mpr hgrid, hcert⟩)
  have heach : ∀ threshold ∈ atRisk,
      μ.real (falsely threshold) ≤ delta / (candidates grid).length := by
    intro threshold hmem
    obtain ⟨hgrid, hb⟩ := Finset.mem_filter.mp hmem
    exact prob_reaches_le h bet hitem
      (hbad threshold hb (mem_of_mem_candidates (List.mem_toFinset.mp hgrid)))
  have hcard : (atRisk.card : ℝ) ≤ (candidates grid).length :=
    Nat.cast_le.mpr ((Finset.card_filter_le _ _).trans (List.toFinset_card_le _))
  calc _ ≤ μ.real (⋃ threshold ∈ atRisk, falsely threshold) :=
        measureReal_mono hcover (measure_ne_top μ _)
    _ ≤ ∑ threshold ∈ atRisk, μ.real (falsely threshold) := measureReal_biUnion_finset_le _ _
    _ ≤ atRisk.card • (delta / (candidates grid).length) := Finset.sum_le_card_nsmul _ _ _ heach
    _ ≤ delta := by
      rw [nsmul_eq_mul, mul_div_left_comm]
      exact mul_le_of_le_one_right h.delta_pos.le (div_le_one_of_le₀ hcard (Nat.cast_nonneg _))

def sampleFiltration : Filtration ℕ (inferInstance : MeasurableSpace Unit) := ⊤

theorem false_certification_le_const :
    (Measure.dirac ()).real {ω : Unit | ∃ n ≤ 100, ∃ cert, cert.threshold ∈ Set.univ ∧
      ((withCap (0.1 : ℝ) 0.05 (some 0.5) 10 [some 0.5, some 0.9]).after
        (fun _ _ => (1, false)) n ω).certifiedThreshold = some cert} ≤ 0.05 := by
  have hvalid : Valid 0.1 0.05 10 := by constructor <;> norm_num
  refine false_certification_le (Measure.dirac ()) sampleFiltration hvalid (some 0.5) _
    (fun n => measurable_const) Set.univ 100 fun threshold _ _ n _ => ?_
  have hconst : excess 0.1 threshold (fun _ _ => (1, false)) n =
      fun _ : Unit => (if threshold ≤ 1 then 1 else 0) * (errOf false - 0.1) := rfl
  rw [hconst, condExp_const (sampleFiltration.le n)]
  refine .of_forall fun ω => ?_
  split_ifs <;> norm_num [errOf]

end Firstpass.RiskControl
