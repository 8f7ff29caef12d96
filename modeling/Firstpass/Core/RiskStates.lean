import Firstpass.Core.RiskBound

/-!
# What holds of a controller at every round

The grid never changes and stays parallel to its e-values, evidence is never
annihilated, and a certification that is contradicted long enough is withdrawn.
-/

namespace Firstpass.RiskControl

section

variable {F : Type} [Field F] [LinearOrder F]

inductive Reachable (start : EProcessRiskControl F) : EProcessRiskControl F → Prop
  | start : Reachable start start
  | observed (score : F) (wasCorrect : Bool) {c : EProcessRiskControl F} :
      Reachable start c → Reachable start (c.observeServed score wasCorrect)

namespace EProcessRiskControl

/-- The controller after one failure at each of the scores. -/
def failAll (c : EProcessRiskControl F) (scores : List F) : EProcessRiskControl F :=
  scores.foldl (fun c score => c.observeServed score false) c

/-- `n / delta`, the level where the grid is not empty. -/
def level (c : EProcessRiskControl F) : F := c.grid.length / c.delta

/-- The thresholds whose e-value stands at the level. -/
def standing (c : EProcessRiskControl F) : Set F :=
  {threshold | ∃ (i : Nat) (e : F), c.grid[i]? = some threshold ∧ c.eValues[i]? = some e ∧
    c.level ≤ e}

/-- What a failure multiplies an e-value by. -/
def failFactor (c : EProcessRiskControl F) : F := 1 - c.bet * (1 - c.alpha)

end EProcessRiskControl

end

variable {c start : EProcessRiskControl ℝ} {alpha delta cap score threshold e : ℝ}
variable {bet : Option ℝ} {grid : List (Option ℝ)} {wasCorrect : Bool} {i : Nat}

-- ---------------------------------------------------------------------------
-- The parameters
-- ---------------------------------------------------------------------------

structure Tuned (c : EProcessRiskControl ℝ) : Prop where
  alpha_pos : 0 < c.alpha
  delta_pos : 0 < c.delta
  delta_lt : c.delta < 1
  cap_pos : 0 < c.cap
  bet_nonneg : 0 ≤ c.bet
  failFactor_ge : 1 / 2 ≤ c.failFactor
  failFactor_le : c.failFactor ≤ 1

theorem tuned_withCap (hα : 0 < alpha) (hα1 : alpha < 1) (hδ : 0 < delta) (hδ1 : delta < 1)
    (hcap : 0 < cap) (bet : Option ℝ) (grid : List (Option ℝ)) :
    Tuned (withCap alpha delta bet cap grid) := by
  have hbet := (clampBet_range alpha bet).1
  have hlose := clampBet_mul_le hα1 bet
  refine ⟨hα, hδ, hδ1, hcap, hbet, ?_, ?_⟩
  · change 1 / 2 ≤ 1 - clampBet alpha bet * (1 - alpha)
    linarith
  · change 1 - clampBet alpha bet * (1 - alpha) ≤ 1
    linarith [mul_nonneg hbet (sub_nonneg.mpr hα1.le)]

namespace Tuned

/-- The level of a grid with a threshold is out of reach of an e-value of one. -/
theorem one_lt_level (h : Tuned c) (hi : c.grid[i]? = some threshold) : 1 < c.level := by
  have hlen : 0 < c.grid.length := Nat.zero_lt_of_lt (List.getElem?_eq_some_iff.mp hi).1
  have hone : (1 : ℝ) ≤ c.grid.length := Nat.one_le_cast.mpr hlen
  rw [EProcessRiskControl.level, lt_div_iff₀ h.delta_pos]
  linarith [h.delta_lt]

theorem crossingLevel (h : Tuned c) (hi : c.grid[i]? = some threshold) :
    c.crossingLevel = some c.level := by
  have hne : c.grid ≠ [] := by
    rintro hnil
    simp [hnil] at hi
  simp [EProcessRiskControl.crossingLevel, EProcessRiskControl.level, hne, h.delta_pos]

theorem ceiling_pos (h : Tuned c) (hi : c.grid[i]? = some threshold) : 0 < c.cap * c.level :=
  mul_pos h.cap_pos (one_pos.trans (h.one_lt_level hi))

/-- What an outcome multiplies an e-value by, before the cap. -/
theorem factor_ge (h : Tuned c) (wasCorrect : Bool) :
    1 / 2 ≤ max (1 + c.bet * (c.alpha - errOf wasCorrect)) 0 := by
  refine le_max_of_le_left ?_
  cases wasCorrect with
  | true =>
    have hgain := mul_nonneg h.bet_nonneg h.alpha_pos.le
    simp only [errOf, if_true, sub_zero]
    linarith
  | false =>
    have hhalf := h.failFactor_ge
    simp only [errOf, EProcessRiskControl.failFactor] at hhalf ⊢
    norm_num
    linarith

theorem factor_failed (h : Tuned c) :
    max (1 + c.bet * (c.alpha - errOf false)) 0 = c.failFactor := by
  have hhalf := h.failFactor_ge
  have heq : 1 + c.bet * (c.alpha - errOf false) = c.failFactor := by
    simp [errOf, EProcessRiskControl.failFactor]
    ring
  rw [heq]
  exact max_eq_left (by linarith)

end Tuned

-- ---------------------------------------------------------------------------
-- One e-value through one outcome
-- ---------------------------------------------------------------------------

theorem bump_above (h : score < threshold) : bump c score wasCorrect threshold e = e := by
  simp [bump, h]

theorem Tuned.bump_served (h : Tuned c) (hi : c.grid[i]? = some threshold)
    (hserve : threshold ≤ score) :
    bump c score wasCorrect threshold e =
      min (e * max (1 + c.bet * (c.alpha - errOf wasCorrect)) 0) (c.cap * c.level) := by
  simp [bump, not_lt.mpr hserve, h.crossingLevel hi, capped]

/-- An outcome leaves at least half of an e-value, or the ceiling. -/
theorem Tuned.le_bump (h : Tuned c) (hi : c.grid[i]? = some threshold) (he : 0 < e) :
    min (e / 2) (c.cap * c.level) ≤ bump c score wasCorrect threshold e := by
  rcases lt_or_ge score threshold with hlt | hserve
  · rw [bump_above hlt]
    exact (min_le_left _ _).trans (by linarith)
  · have hhalf := mul_le_mul_of_nonneg_left (h.factor_ge wasCorrect) he.le
    rw [h.bump_served hi hserve]
    exact min_le_min (by linarith) le_rfl

theorem Tuned.bump_le (h : Tuned c) (hi : c.grid[i]? = some threshold)
    (he : e ≤ max 1 (c.cap * c.level)) :
    bump c score wasCorrect threshold e ≤ max 1 (c.cap * c.level) := by
  rcases lt_or_ge score threshold with hlt | hserve
  · rwa [bump_above hlt]
  · rw [h.bump_served hi hserve]
    exact (min_le_right _ _).trans (le_max_right _ _)

theorem Tuned.bump_failed_le (h : Tuned c) (hi : c.grid[i]? = some threshold)
    (hserve : threshold ≤ score) : bump c score false threshold e ≤ e * c.failFactor := by
  rw [h.bump_served hi hserve, h.factor_failed]
  exact min_le_left _ _

-- ---------------------------------------------------------------------------
-- One outcome
-- ---------------------------------------------------------------------------

@[simp] theorem observeServed_level (c : EProcessRiskControl ℝ) (score : ℝ) (wasCorrect : Bool) :
    (c.observeServed score wasCorrect).level = c.level := rfl

theorem Tuned.observeServed (h : Tuned c) (score : ℝ) (wasCorrect : Bool) :
    Tuned (c.observeServed score wasCorrect) :=
  ⟨h.alpha_pos, h.delta_pos, h.delta_lt, h.cap_pos, h.bet_nonneg, h.failFactor_ge, h.failFactor_le⟩

theorem eValue_observeServed {e' : ℝ}
    (h : (c.observeServed score wasCorrect).eValues[i]? = some e') :
    ∃ threshold e, c.grid[i]? = some threshold ∧ c.eValues[i]? = some e ∧
      e' = bump c score wasCorrect threshold e := by
  rw [EProcessRiskControl.observeServed, List.getElem?_zipWith_eq_some] at h
  obtain ⟨threshold, e, hthreshold, he, rfl⟩ := h
  exact ⟨threshold, e, hthreshold, he, rfl⟩

theorem getElem?_zipWith3 {α β γ δ : Type*} (f : α → β → γ → δ) (as : List α) (bs : List β)
    (cs : List γ) (i : Nat) :
    (List.zipWith3 f as bs cs)[i]? =
      as[i]?.bind fun a => bs[i]?.bind fun b => cs[i]?.map fun c => f a b c := by
  induction as generalizing bs cs i with
  | nil => simp [List.zipWith3]
  | cons a as ih =>
    cases bs with
    | nil => cases i <;> simp [List.zipWith3]
    | cons b bs =>
      cases cs with
      | nil => cases i <;> simp [List.zipWith3]
      | cons c cs =>
        cases i with
        | zero => rfl
        | succ i => simpa [List.zipWith3] using ih bs cs i

theorem length_zipWith3 {α β γ δ : Type*} (f : α → β → γ → δ) {as : List α} {bs : List β}
    {cs : List γ} (hbs : bs.length = as.length) (hcs : cs.length = as.length) :
    (List.zipWith3 f as bs cs).length = as.length := by
  induction as generalizing bs cs with
  | nil => rfl
  | cons a as ih =>
    cases bs with
    | nil => simp at hbs
    | cons b bs =>
      cases cs with
      | nil => simp at hcs
      | cons c cs => simpa [List.zipWith3] using ih (by simpa using hbs) (by simpa using hcs)

/-- The round of the first crossing, after one more outcome. -/
theorem certifiedAt_observeServed {first : Option Nat} (hi : c.grid[i]? = some threshold)
    (he : (c.observeServed score wasCorrect).eValues[i]? = some e)
    (hfirst : c.certifiedAt[i]? = some first) :
    (c.observeServed score wasCorrect).certifiedAt[i]? =
      some (if ¬ score < threshold ∧ first = none ∧ reaches e c.crossingLevel then
        some (c.rounds + 1) else first) := by
  change (List.zipWith3 _ c.grid (c.observeServed score wasCorrect).eValues c.certifiedAt)[i]? = _
  rw [getElem?_zipWith3, hi, he, hfirst]
  rfl

-- ---------------------------------------------------------------------------
-- Every round
-- ---------------------------------------------------------------------------

structure Sound (c : EProcessRiskControl ℝ) : Prop extends Tuned c where
  ascending : c.grid.Pairwise (· < ·)
  eValues_length : c.eValues.length = c.grid.length
  certifiedAt_length : c.certifiedAt.length = c.grid.length
  eValue_pos : ∀ e ∈ c.eValues, 0 < e
  eValue_le : ∀ e ∈ c.eValues, e ≤ max 1 (c.cap * c.level)
  certified : ∀ (i : Nat) (e : ℝ), c.eValues[i]? = some e → c.level ≤ e →
    ∃ round, c.certifiedAt[i]? = some (some round)

theorem candidates_ascending (grid : List (Option ℝ)) :
    (candidates grid).Pairwise (· < ·) := by
  have hsorted : ((grid.filterMap id).mergeSort (· ≤ ·)).Pairwise (· ≤ ·) := by
    simpa using @List.pairwise_mergeSort ℝ (fun a b => decide (a ≤ b))
      (by simpa using fun a b c => le_trans) (by simpa using le_total) (grid.filterMap id)
  have hnodup : (candidates grid).Nodup := by
    rw [candidates, hsorted.destutter_eq_dedup]
    exact List.nodup_dedup _
  have hle := hsorted.sublist (List.destutter_sublist (· ≠ ·) _)
  exact (hle.and hnodup).imp fun h => lt_of_le_of_ne h.1 h.2

/-- A threshold has its e-value. -/
theorem Sound.threshold_of_eValue (h : Sound c) (he : c.eValues[i]? = some e) :
    ∃ threshold, c.grid[i]? = some threshold := by
  have hlt := (List.getElem?_eq_some_iff.mp he).1
  exact ⟨_, List.getElem?_eq_getElem (h.eValues_length ▸ hlt)⟩

theorem sound_withCap (hα : 0 < alpha) (hα1 : alpha < 1) (hδ : 0 < delta) (hδ1 : delta < 1)
    (hcap : 0 < cap) (bet : Option ℝ) (grid : List (Option ℝ)) :
    Sound (withCap alpha delta bet cap grid) := by
  have htuned := tuned_withCap hα hα1 hδ hδ1 hcap bet grid
  have hone : ∀ e ∈ (withCap alpha delta bet cap grid).eValues, e = 1 :=
    fun e he => List.eq_of_mem_replicate he
  refine { htuned with
    ascending := candidates_ascending grid
    eValues_length := List.length_replicate
    certifiedAt_length := List.length_replicate
    eValue_pos := fun e he => hone e he ▸ one_pos
    eValue_le := fun e he => hone e he ▸ le_max_left _ _
    certified := fun i e he hlevel => ?_ }
  -- an e-value of one is below the level
  obtain ⟨hi, -⟩ := List.getElem?_eq_some_iff.mp he
  have hgrid : ∃ threshold, (withCap alpha delta bet cap grid).grid[i]? = some threshold :=
    ⟨_, List.getElem?_eq_getElem (by simpa [withCap] using hi)⟩
  obtain ⟨threshold, hthreshold⟩ := hgrid
  have hlt := htuned.one_lt_level hthreshold
  rw [hone e (List.mem_of_getElem? he)] at hlevel
  exact absurd hlevel (not_le.mpr hlt)

theorem Sound.observeServed (h : Sound c) (score : ℝ) (wasCorrect : Bool) :
    Sound (c.observeServed score wasCorrect) := by
  have hlen : (c.observeServed score wasCorrect).eValues.length = c.grid.length := by
    simp [EProcessRiskControl.observeServed, h.eValues_length]
  refine { h.toTuned.observeServed score wasCorrect with
    ascending := h.ascending
    eValues_length := hlen
    certifiedAt_length := length_zipWith3 _ hlen h.certifiedAt_length
    eValue_pos := fun e' he' => ?_
    eValue_le := fun e' he' => ?_
    certified := fun i e' he' hlevel => ?_ }
  · obtain ⟨i, hi⟩ := List.mem_iff_getElem?.mp he'
    obtain ⟨threshold, e, hthreshold, he, rfl⟩ := eValue_observeServed hi
    have hpos := h.eValue_pos e (List.mem_of_getElem? he)
    exact (lt_min (half_pos hpos) (h.ceiling_pos hthreshold)).trans_le (h.le_bump hthreshold hpos)
  · obtain ⟨i, hi⟩ := List.mem_iff_getElem?.mp he'
    obtain ⟨threshold, e, hthreshold, he, rfl⟩ := eValue_observeServed hi
    exact h.bump_le hthreshold (h.eValue_le e (List.mem_of_getElem? he))
  · obtain ⟨threshold, e, hthreshold, he, rfl⟩ := eValue_observeServed he'
    have hlt := (List.getElem?_eq_some_iff.mp hthreshold).1
    obtain ⟨first, hfirst⟩ : ∃ first, c.certifiedAt[i]? = some first :=
      ⟨_, List.getElem?_eq_getElem (h.certifiedAt_length ▸ hlt)⟩
    rw [certifiedAt_observeServed hthreshold he' hfirst]
    cases first with
    | some round => exact ⟨round, by simp⟩
    | none =>
      rcases lt_or_ge score threshold with habove | hserve
      · -- the e-value is the old one, whose crossing is on record
        rw [bump_above habove] at hlevel
        obtain ⟨round, hround⟩ := h.certified i e he hlevel
        rw [hround] at hfirst
        cases hfirst
      · have hreach : reaches (bump c score wasCorrect threshold e) c.crossingLevel := by
          rw [h.crossingLevel hthreshold]
          exact hlevel
        exact ⟨c.rounds + 1, by simp [not_lt.mpr hserve, hreach]⟩

theorem Reachable.sound (hstart : Sound start) (h : Reachable start c) : Sound c := by
  induction h with
  | start => exact hstart
  | observed score wasCorrect _ ih => exact ih.observeServed score wasCorrect

/-- No outcome changes the parameters. -/
theorem Reachable.parameters (h : Reachable start c) :
    c.alpha = start.alpha ∧ c.delta = start.delta ∧ c.cap = start.cap ∧ c.bet = start.bet := by
  induction h with
  | start => exact ⟨rfl, rfl, rfl, rfl⟩
  | observed _ _ _ ih => exact ih

-- ---------------------------------------------------------------------------
-- What is certified
-- ---------------------------------------------------------------------------

theorem Tuned.reaches_iff (h : Tuned c) (hi : c.grid[i]? = some threshold) :
    reaches e c.crossingLevel ↔ c.level ≤ e := by
  rw [h.crossingLevel hi]
  rfl

theorem getElem?_rows {p : ℝ × ℝ × Option Nat} :
    (c.grid.zip (c.eValues.zip c.certifiedAt))[i]? = some p ↔
      c.grid[i]? = some p.1 ∧ c.eValues[i]? = some p.2.1 ∧ c.certifiedAt[i]? = some p.2.2 := by
  rw [List.getElem?_zip_eq_some, List.getElem?_zip_eq_some]

/-- A threshold at the level has its row. -/
theorem Sound.row (h : Sound c) (hi : c.grid[i]? = some threshold) (he : c.eValues[i]? = some e)
    (hlevel : c.level ≤ e) : ∃ round,
      (c.grid.zip (c.eValues.zip c.certifiedAt))[i]? = some (threshold, e, some round) := by
  obtain ⟨round, hround⟩ := h.certified i e he hlevel
  exact ⟨round, getElem?_rows.mpr ⟨hi, he, hround⟩⟩

theorem Sound.certifiedThreshold_none (h : Sound c) :
    c.certifiedThreshold = none ↔ c.standing = ∅ := by
  rw [EProcessRiskControl.certifiedThreshold, Option.map_eq_none_iff, List.find?_eq_none,
    Set.eq_empty_iff_forall_notMem]
  constructor
  · rintro hnone threshold ⟨i, e, hi, he, hlevel⟩
    obtain ⟨round, hrow⟩ := h.row hi he hlevel
    have hnot := hnone _ (List.mem_of_getElem? hrow)
    simp [h.reaches_iff hi, hlevel] at hnot
  · rintro hempty ⟨threshold, e, first⟩ hmem hreach
    obtain ⟨i, hrow⟩ := List.mem_iff_getElem?.mp hmem
    obtain ⟨hi, he, -⟩ := getElem?_rows.mp hrow
    exact hempty threshold ⟨i, e, hi, he, (h.reaches_iff hi).mp (of_decide_eq_true hreach)⟩

theorem Sound.certifiedThreshold_least (h : Sound c) {cert : Certification ℝ}
    (hcert : c.certifiedThreshold = some cert) :
    IsLeast c.standing cert.threshold ∧ ∃ i : Nat, c.grid[i]? = some cert.threshold ∧
      c.eValues[i]? = some cert.eValue ∧
      c.certifiedAt[i]? = some (some cert.certifiedAtRound) := by
  obtain ⟨⟨threshold, e, first⟩, hfind, rfl⟩ := Option.map_eq_some_iff.mp hcert
  obtain ⟨hreach, i, hi, hrow, hbefore⟩ := List.find?_eq_some_iff_getElem.mp hfind
  have hrow' := List.getElem?_eq_some_iff.mpr ⟨hi, hrow⟩
  obtain ⟨hthreshold, he, hfirst⟩ := getElem?_rows.mp hrow'
  have hlevel := (h.reaches_iff hthreshold).mp (of_decide_eq_true hreach)
  obtain ⟨round, hround⟩ := h.certified i e he hlevel
  obtain rfl : first = some round := by simpa using hfirst.symm.trans hround
  refine ⟨⟨⟨i, e, hthreshold, he, hlevel⟩, ?_⟩, i, hthreshold, he, hfirst⟩
  rintro other ⟨j, e', hother, he', hlevel'⟩
  rcases lt_or_ge j i with hlt | hge
  · -- the search would have stopped there
    obtain ⟨round', hrow''⟩ := h.row hother he' hlevel'
    have hnot := hbefore j hlt
    obtain ⟨hj, heq⟩ := List.getElem?_eq_some_iff.mp hrow''
    rw [heq] at hnot
    simp [h.reaches_iff hother, hlevel'] at hnot
  · obtain ⟨hj, rfl⟩ := List.getElem?_eq_some_iff.mp hother
    obtain ⟨hi', hthreshold'⟩ := List.getElem?_eq_some_iff.mp hthreshold
    rw [← hthreshold']
    rcases hge.lt_or_eq with hlt | rfl
    · exact (List.pairwise_iff_getElem.mp h.ascending i j hi' hj hlt).le
    · exact le_rfl

-- ---------------------------------------------------------------------------
-- A run of failures
-- ---------------------------------------------------------------------------

theorem Sound.failAll (h : Sound c) (scores : List ℝ) : Sound (c.failAll scores) := by
  induction scores generalizing c with
  | nil => exact h
  | cons score scores ih => exact ih (h.observeServed score false)

@[simp] theorem failAll_level (c : EProcessRiskControl ℝ) (scores : List ℝ) :
    (c.failAll scores).level = c.level := by
  induction scores generalizing c with
  | nil => rfl
  | cons score scores ih => exact (ih _).trans (observeServed_level c score false)

/-- Failures that every threshold serves shrink each e-value geometrically. -/
theorem Sound.failAll_eValue (h : Sound c) {scores : List ℝ}
    (hscores : ∀ score ∈ scores, ∀ threshold ∈ c.grid, threshold ≤ score) {e' : ℝ}
    (he' : (c.failAll scores).eValues[i]? = some e') :
    ∃ e, c.eValues[i]? = some e ∧ e' ≤ e * c.failFactor ^ scores.length := by
  induction scores generalizing c with
  | nil => exact ⟨e', he', by simp⟩
  | cons score scores ih =>
    have hrest : ∀ s ∈ scores, ∀ threshold ∈ (c.observeServed score false).grid, threshold ≤ s :=
      fun s hs => hscores s (List.mem_cons_of_mem score hs)
    obtain ⟨e₁, he₁, hle₁⟩ := ih (h.observeServed score false) hrest he'
    obtain ⟨threshold, e, hi, he, rfl⟩ := eValue_observeServed he₁
    have hserve := hscores score List.mem_cons_self threshold (List.mem_of_getElem? hi)
    have hfactor : 0 ≤ c.failFactor := by linarith [h.failFactor_ge]
    refine ⟨e, he, hle₁.trans ?_⟩
    calc bump c score false threshold e * c.failFactor ^ scores.length
        ≤ e * c.failFactor * c.failFactor ^ scores.length :=
          mul_le_mul_of_nonneg_right (h.bump_failed_le hi hserve) (pow_nonneg hfactor _)
      _ = e * c.failFactor ^ (score :: scores).length := by
          rw [List.length_cons, pow_succ', mul_assoc]

/-- Enough failures in a row withdraw every certification, whatever came before. -/
theorem Sound.failAll_uncertified (h : Sound c) {scores : List ℝ}
    (hscores : ∀ score ∈ scores, ∀ threshold ∈ c.grid, threshold ≤ score)
    (henough : c.cap * c.failFactor ^ scores.length < 1) :
    (c.failAll scores).certifiedThreshold = none := by
  rw [(h.failAll scores).certifiedThreshold_none, Set.eq_empty_iff_forall_notMem]
  rintro threshold ⟨i, e', -, he', hlevel⟩
  obtain ⟨e, he, hle⟩ := h.failAll_eValue hscores he'
  obtain ⟨threshold', hi⟩ := h.threshold_of_eValue he
  have hone := h.one_lt_level hi
  have hfactor : 0 ≤ c.failFactor := by linarith [h.failFactor_ge]
  have hpow : c.failFactor ^ scores.length ≤ 1 := pow_le_one₀ hfactor h.failFactor_le
  rw [failAll_level] at hlevel
  have hbelow : e * c.failFactor ^ scores.length < c.level := by
    rcases le_max_iff.mp (h.eValue_le e (List.mem_of_getElem? he)) with hsmall | hcapped
    · -- it never was above one
      calc e * c.failFactor ^ scores.length
          ≤ 1 * 1 := mul_le_mul hsmall hpow (pow_nonneg hfactor _) zero_le_one
        _ < c.level := by rwa [one_mul]
    · calc e * c.failFactor ^ scores.length
          ≤ c.cap * c.level * c.failFactor ^ scores.length :=
            mul_le_mul_of_nonneg_right hcapped (pow_nonneg hfactor _)
        _ = c.level * (c.cap * c.failFactor ^ scores.length) := by ring
        _ < c.level * 1 := mul_lt_mul_of_pos_left henough (one_pos.trans hone)
        _ = c.level := mul_one _
  exact absurd hlevel (not_le.mpr (hle.trans_lt hbelow))

-- ---------------------------------------------------------------------------
-- Together
-- ---------------------------------------------------------------------------

theorem Sound.failed_half (h : Sound c) {e' : ℝ} (he : c.eValues[i]? = some e)
    (he' : (c.observeServed score wasCorrect).eValues[i]? = some e') :
    min (e / 2) (c.cap * c.level) ≤ e' := by
  obtain ⟨threshold, e₀, hi, he₀, rfl⟩ := eValue_observeServed he'
  obtain rfl : e = e₀ := Option.some.inj (he.symm.trans he₀)
  exact h.le_bump hi (h.eValue_pos e (List.mem_of_getElem? he))

/-- With a ceiling of a half or more, no e-value is more than twice the ceiling. -/
theorem Sound.half_le_ceiling (h : Sound c) (he : e ∈ c.eValues)
    (hceiling : 1 / 2 ≤ c.cap * c.level) : e / 2 ≤ c.cap * c.level := by
  rcases le_max_iff.mp (h.eValue_le e he) with hle | hle <;> linarith

theorem Sound.untouched (h : Sound c) (hi : c.grid[i]? = some threshold)
    (habove : score < threshold) :
    (c.observeServed score wasCorrect).eValues[i]? = c.eValues[i]? ∧
      (c.observeServed score wasCorrect).certifiedAt[i]? = c.certifiedAt[i]? := by
  have hlt := (List.getElem?_eq_some_iff.mp hi).1
  obtain ⟨e, he⟩ : ∃ e, c.eValues[i]? = some e :=
    ⟨_, List.getElem?_eq_getElem (h.eValues_length ▸ hlt)⟩
  obtain ⟨first, hfirst⟩ : ∃ first, c.certifiedAt[i]? = some first :=
    ⟨_, List.getElem?_eq_getElem (h.certifiedAt_length ▸ hlt)⟩
  have he' : (c.observeServed score wasCorrect).eValues[i]? = some e := by
    simp [EProcessRiskControl.observeServed, List.getElem?_zipWith, hi, he, bump_above habove]
  rw [he', he, certifiedAt_observeServed hi he' hfirst, hfirst]
  simp [habove]

noncomputable def sampleControl : EProcessRiskControl ℝ :=
  (withCap 0.5 0.5 none 10.0 [some 0.5]).observeServed 1 true

end Firstpass.RiskControl
