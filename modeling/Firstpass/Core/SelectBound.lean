import Firstpass.Core.Select
import Firstpass.Lib.EProcess

/-!
# The error bound of an experiment

Each bet of a mixture is a bet on rounds that are fair or worse, with nothing at
stake once the experiment is decided. The mixture is their average, so Ville's
inequality bounds how often it reaches the level of a decision.
-/

namespace Firstpass.Select

open MeasureTheory EProcess

-- ---------------------------------------------------------------------------
-- The two sides of the test
-- ---------------------------------------------------------------------------

section Sides

variable {F : Type} [Field F] [LinearOrder F]

inductive Side
  | certify
  | halt
  deriving DecidableEq

instance : Fintype Side := ⟨{.certify, .halt}, fun side => by cases side <;> decide⟩

def Side.sign : Side → F
  | .certify => -1
  | .halt => 1

def Side.status : Side → Status
  | .certify => .certified
  | .halt => .halted

def Experiment.mixture (e : Experiment F) : Side → Mixture F
  | .certify => e.certify
  | .halt => e.halt

theorem mixture_observePair {e : Experiment F} (hr : inUnit x ∧ inUnit y) (side : Side) :
    (e.observePair x y).1.mixture side = if e.status = .undecided
      then (e.mixture side).step (x - y) e.margin else e.mixture side := by
  simp only [Experiment.observePair, hr, and_self, if_true, Experiment.closePair]
  cases side <;> split_ifs <;> rfl

theorem margin_observePair (e : Experiment F) (x y : F) :
    (e.observePair x y).1.margin = e.margin := by
  simp only [Experiment.observePair, Experiment.closePair]
  split_ifs <;> rfl

theorem alpha_observePair (e : Experiment F) (x y : F) :
    (e.observePair x y).1.alpha = e.alpha := by
  simp only [Experiment.observePair, Experiment.closePair]
  split_ifs <;> rfl

theorem status_observePair {e : Experiment F} (hr : inUnit x ∧ inUnit y) :
    (e.observePair x y).1.status =
      if e.status ≠ .undecided then e.status
      else if 1 / e.alpha ≤ ((e.observePair x y).1.mixture .certify).eValue then .certified
      else if 1 / e.alpha ≤ ((e.observePair x y).1.mixture .halt).eValue then .halted
      else .undecided := by
  rw [mixture_observePair hr, mixture_observePair hr]
  simp only [Experiment.observePair, hr, and_self, if_true, Experiment.closePair]
  by_cases hopen : e.status = .undecided
  · simp only [hopen, if_true, ne_eq, not_true, if_false, Experiment.mixture]
    split_ifs <;> rfl
  · simp only [hopen, if_false, ne_eq, not_false_iff, if_true]

theorem undecided_observePair {e : Experiment F} (hr : inUnit x ∧ inUnit y) :
    (e.observePair x y).1.status = .undecided ↔ e.status = .undecided ∧
      ∀ side, ((e.observePair x y).1.mixture side).eValue < 1 / e.alpha := by
  have hsides : (∀ side, ((e.observePair x y).1.mixture side).eValue < 1 / e.alpha) ↔
      ((e.observePair x y).1.mixture .certify).eValue < 1 / e.alpha ∧
        ((e.observePair x y).1.mixture .halt).eValue < 1 / e.alpha :=
    ⟨fun h => ⟨h .certify, h .halt⟩, fun h side => by cases side; exacts [h.1, h.2]⟩
  rw [hsides, status_observePair hr]
  split_ifs with hopen hcertify hhalt <;> simp_all

theorem decided_observePair {e : Experiment F} (hr : inUnit x ∧ inUnit y) {side : Side}
    (h : (e.observePair x y).1.status = side.status) :
    e.status = side.status ∨ (e.status = .undecided ∧
      1 / e.alpha ≤ ((e.observePair x y).1.mixture side).eValue) := by
  rw [status_observePair hr] at h
  split_ifs at h with hopen hcertify hhalt
  · exact .inl h
  · cases side with
    | certify => exact .inr ⟨not_not.mp hopen, hcertify⟩
    | halt => cases h
  · cases side with
    | certify => cases h
    | halt => exact .inr ⟨not_not.mp hopen, hhalt⟩
  · cases side <;> cases h

-- ---------------------------------------------------------------------------
-- A mixture holds the wealth of its bets
-- ---------------------------------------------------------------------------

/-- The bet at each `lambda` has the wealth `w lambda`. -/
structure HasWealth (m : Mixture F) (margin sign : F) (w : F → F) : Prop where
  sign_eq : m.sign = sign
  lambdas_eq : m.lambdas = lambdaGrid.map (· / worst margin sign)
  wealth_eq : m.wealth = m.lambdas.map w

theorem hasWealth_new (margin sign : F) : HasWealth (.new margin sign) margin sign fun _ => 1 where
  sign_eq := rfl
  lambdas_eq := rfl
  wealth_eq := by rw [List.map_const', Mixture.new, List.length_map]

theorem hasWealth_step {m : Mixture F} {w : F → F} (h : HasWealth m margin sign w) (d : F) :
    HasWealth (m.step d margin) margin sign
      fun lambda => w lambda * (1 + lambda * (sign * (d - margin))) where
  sign_eq := h.sign_eq
  lambdas_eq := h.lambdas_eq
  wealth_eq := by simp [Mixture.step, h.wealth_eq, h.sign_eq, List.zipWith_map_left]

theorem eValue_of_hasWealth {m : Mixture F} {w : F → F} (h : HasWealth m margin sign w) :
    m.eValue = (m.lambdas.map w).sum / m.lambdas.length := by
  rw [Mixture.eValue, h.wealth_eq, List.length_map]

-- ---------------------------------------------------------------------------
-- The wealth of one bet
-- ---------------------------------------------------------------------------

variable {Ω : Type*}

/-- The experiment after the first `n` pairs. -/
def Experiment.after (e : Experiment F) (pair : ℕ → Ω → F × F) (n : ℕ) (ω : Ω) : Experiment F :=
  e.observePairs ((List.range n).map fun i => pair i ω)

theorem after_succ (e : Experiment F) (pair : ℕ → Ω → F × F) (n : ℕ) (ω : Ω) :
    e.after pair (n + 1) ω = ((e.after pair n ω).observePair (pair n ω).1 (pair n ω).2).1 := by
  simp [Experiment.after, Experiment.observePairs, List.range_succ]

def stake (e : Experiment F) (pair : ℕ → Ω → F × F) (lambda : F) (n : ℕ) (ω : Ω) : F :=
  if (e.after pair n ω).status = .undecided then lambda else 0

def gain (margin : F) (side : Side) (pair : ℕ → Ω → F × F) (n : ℕ) (ω : Ω) : F :=
  side.sign * ((pair n ω).1 - (pair n ω).2 - margin)

def wealth (e : Experiment F) (side : Side) (pair : ℕ → Ω → F × F) (lambda : F) :
    ℕ → Ω → F
  | 0, _ => 1
  | n + 1, ω => wealth e side pair lambda n ω *
      (1 + stake e pair lambda n ω * gain e.margin side pair n ω)

/-- What holds of an experiment after `n` pairs. -/
structure AfterInv (e : Experiment F) (pair : ℕ → Ω → F × F) (n : ℕ) (ω : Ω) : Prop where
  margin : (e.after pair n ω).margin = e.margin
  alpha : (e.after pair n ω).alpha = e.alpha
  mixture : ∀ side, HasWealth ((e.after pair n ω).mixture side) e.margin side.sign
    fun lambda => wealth e side pair lambda n ω
  decided : ∀ side, (e.after pair n ω).status = side.status →
    1 / e.alpha ≤ ((e.after pair n ω).mixture side).eValue

theorem new_ok {margin alpha : F} (he : Experiment.new display margin alpha = .ok e) :
    0 < margin ∧ margin ≤ 0.5 ∧ 0 < alpha ∧ alpha < 0.5 ∧ e.margin = margin ∧ e.alpha = alpha ∧
      e.status = .undecided ∧ ∀ side, e.mixture side = .new margin side.sign := by
  unfold Experiment.new at he
  split_ifs at he with hm ha
  obtain ⟨hm0, hm1⟩ := not_or.mp hm
  obtain ⟨ha0, ha1⟩ := not_or.mp ha
  obtain rfl := Except.ok.inj he
  exact ⟨not_le.mp hm0, not_lt.mp hm1, not_le.mp ha0, not_le.mp ha1, rfl, rfl, rfl,
    fun side => by cases side <;> rfl⟩

theorem afterInv {e : Experiment F} {margin alpha : F}
    (he : Experiment.new display margin alpha = .ok e)
    {pair : ℕ → Ω → F × F} (hr : ∀ n ω, inUnit (pair n ω).1 ∧ inUnit (pair n ω).2) (n : ℕ) (ω : Ω) :
    AfterInv e pair n ω := by
  obtain ⟨_, _, _, _, rfl, rfl, hstatus, hmixture⟩ := new_ok he
  induction n with
  | zero =>
    refine ⟨rfl, rfl, fun side => ?_, fun side hside => ?_⟩
    · rw [show e.after pair 0 ω = e from rfl, hmixture side]
      exact hasWealth_new e.margin side.sign
    · rw [show e.after pair 0 ω = e from rfl, hstatus] at hside
      cases side <;> cases hside
  | succ n ih =>
    have hmix : ∀ side, HasWealth ((e.after pair (n + 1) ω).mixture side) e.margin side.sign
        fun lambda => wealth e side pair lambda (n + 1) ω := by
      intro side
      rw [after_succ, mixture_observePair (hr n ω)]
      simp only [wealth, stake]
      split_ifs with hopen
      · rw [ih.margin]
        exact hasWealth_step (ih.mixture side) _
      · simpa using ih.mixture side
    refine ⟨?_, ?_, hmix, fun side hside => ?_⟩
    · rw [after_succ, margin_observePair, ih.margin]
    · rw [after_succ, alpha_observePair, ih.alpha]
    · rw [after_succ] at hside ⊢
      rcases decided_observePair (hr n ω) hside with hkept | ⟨_, hreached⟩
      · have hclosed : (e.after pair n ω).status ≠ .undecided := by
          rw [hkept]; cases side <;> nofun
        rw [mixture_observePair (hr n ω), if_neg hclosed]
        exact ih.decided side hkept
      · rwa [ih.alpha] at hreached

end Sides

-- ---------------------------------------------------------------------------
-- The process is adapted
-- ---------------------------------------------------------------------------

variable {Ω : Type*} {m0 : MeasurableSpace Ω} {μ : Measure Ω} {ℱ : Filtration ℕ m0} {N : ℕ}
variable {pair : ℕ → Ω → ℝ × ℝ} {e : Experiment ℝ} {margin alpha : ℝ} {display : ℝ → String}

/-- The pairs are outcomes, each known after its round. -/
structure Outcomes (ℱ : Filtration ℕ m0) (pair : ℕ → Ω → ℝ × ℝ) : Prop where
  adapted : ∀ n, StronglyMeasurable[ℱ (n + 1)] (pair n)
  range : ∀ n ω, inUnit (pair n ω).1 ∧ inUnit (pair n ω).2

theorem Outcomes.gain (hp : Outcomes ℱ pair) (margin : ℝ) (side : Side) (n : ℕ) :
    StronglyMeasurable[ℱ (n + 1)] (gain margin side pair n) := by
  have hinc := continuous_fst.comp_stronglyMeasurable (hp.adapted n)
  have hch := continuous_snd.comp_stronglyMeasurable (hp.adapted n)
  exact ((hinc.sub hch).sub stronglyMeasurable_const).const_mul _

noncomputable def bets (margin : ℝ) (side : Side) : List ℝ :=
  lambdaGrid.map (· / worst margin side.sign)

theorem sum_map_apply {α : Type*} (as : List α) (M : α → ℕ → Ω → ℝ) (n : ℕ) (ω : Ω) :
    (as.map M).sum n ω = (as.map fun a => M a n ω).sum := by
  induction as with
  | nil => rfl
  | cons a as ih => simp [ih]

/-- The e-value of a side is the average of the wealth of its bets. -/
theorem eValue_after (he : Experiment.new display margin alpha = .ok e) (hp : Outcomes ℱ pair)
    (side : Side) (n : ℕ) (ω : Ω) :
    ((e.after pair n ω).mixture side).eValue =
      (((bets margin side).length : ℝ)⁻¹ •
        ((bets margin side).map (wealth e side pair)).sum) n ω := by
  have hmix := (afterInv he hp.range n ω).mixture side
  obtain ⟨_, _, _, _, rfl, -, -, -⟩ := new_ok he
  rw [eValue_of_hasWealth hmix, hmix.lambdas_eq, ← bets]
  simp only [Pi.smul_apply, smul_eq_mul, sum_map_apply]
  exact div_eq_inv_mul _ _

theorem measurable_stake {n : ℕ}
    (h : MeasurableSet[ℱ n] {ω | (e.after pair n ω).status = .undecided}) (lambda : ℝ) :
    StronglyMeasurable[ℱ n] (stake e pair lambda n) :=
  .ite h stronglyMeasurable_const stronglyMeasurable_const

theorem measurable_sum {α : Type*} {m : MeasurableSpace Ω} (as : List α) {M : α → ℕ → Ω → ℝ} {n : ℕ}
    (h : ∀ a, StronglyMeasurable[m] (M a n)) : StronglyMeasurable[m] ((as.map M).sum n) := by
  induction as with
  | nil => exact stronglyMeasurable_zero
  | cons a as ih => exact (h a).add ih

theorem adapted_after (he : Experiment.new display margin alpha = .ok e) (hp : Outcomes ℱ pair)
    (n : ℕ) : MeasurableSet[ℱ n] {ω | (e.after pair n ω).status = .undecided} ∧
      ∀ side lambda, StronglyMeasurable[ℱ n] (wealth e side pair lambda n) := by
  induction n with
  | zero =>
    obtain ⟨_, _, _, _, _, _, hopen, _⟩ := new_ok he
    refine ⟨?_, fun side lambda => stronglyMeasurable_const⟩
    rw [show {ω | (e.after pair 0 ω).status = .undecided} = Set.univ from
      Set.eq_univ_of_forall fun ω => hopen]
    exact .univ
  | succ n ih =>
    obtain ⟨hopen, hwealth⟩ := ih
    have hmono : ℱ n ≤ ℱ (n + 1) := ℱ.mono n.le_succ
    have hsucc : ∀ side lambda,
        StronglyMeasurable[ℱ (n + 1)] (wealth e side pair lambda (n + 1)) := by
      intro side lambda
      have hstake := (measurable_stake hopen lambda).mono hmono
      exact ((hwealth side lambda).mono hmono).mul
        (stronglyMeasurable_const.add (hstake.mul (hp.gain e.margin side n)))
    refine ⟨?_, hsucc⟩
    have hsplit : {ω | (e.after pair (n + 1) ω).status = .undecided} =
        {ω | (e.after pair n ω).status = .undecided} ∩
          (⋂ side, {ω | ((e.after pair (n + 1) ω).mixture side).eValue < 1 / e.alpha}) := by
      ext ω
      rw [Set.mem_ofPred_eq, after_succ, undecided_observePair (hp.range n ω),
        (afterInv he hp.range n ω).alpha]
      simp [after_succ]
    rw [hsplit]
    refine (hmono _ hopen).inter (.iInter fun side => ?_)
    simp only [eValue_after he hp]
    have hsum := (measurable_sum (bets margin side) (hsucc side)).const_smul
      ((bets margin side).length : ℝ)⁻¹
    exact measurableSet_lt hsum.measurable measurable_const

-- ---------------------------------------------------------------------------
-- The bets
-- ---------------------------------------------------------------------------

theorem lambdaGrid_range : ∀ g ∈ (lambdaGrid : List ℝ), 0 ≤ g ∧ g < 1 := by
  simp only [lambdaGrid, List.forall_mem_cons, List.not_mem_nil, false_imp_iff, implies_true]
  norm_num

theorem worst_pos (hm : 0 < margin) (hm' : margin ≤ 0.5) (side : Side) :
    0 < worst margin (side.sign : ℝ) := by
  norm_num at hm'
  cases side <;> norm_num [worst, Side.sign] <;> linarith

theorem neg_worst_le (margin : ℝ) {x y : ℝ} (hx : inUnit x) (hy : inUnit y) (side : Side) :
    -worst margin (side.sign : ℝ) ≤ side.sign * (x - y - margin) := by
  obtain ⟨hx0, hx1⟩ := hx
  obtain ⟨hy0, hy1⟩ := hy
  cases side <;> norm_num [worst, Side.sign] <;> linarith

theorem neg_worst_le_gain (margin : ℝ) (hp : Outcomes ℱ pair) (side : Side) (n : ℕ) (ω : Ω) :
    -worst margin (side.sign : ℝ) ≤ gain margin side pair n ω :=
  neg_worst_le margin (hp.range n ω).1 (hp.range n ω).2 side

theorem abs_gain_le (hm : 0 < margin) (hm' : margin ≤ 0.5) (hp : Outcomes ℱ pair) (side : Side)
    (n : ℕ) (ω : Ω) : |gain margin side pair n ω| ≤ 2 := by
  obtain ⟨⟨hx0, hx1⟩, hy0, hy1⟩ := hp.range n ω
  norm_num at hm'
  rw [abs_le]
  cases side <;> norm_num [gain, Side.sign] <;> constructor <;> linarith

theorem factor_nonneg (hm : 0 < margin) (hm' : margin ≤ 0.5) (hp : Outcomes ℱ pair) (side : Side)
    (hl : lambda ∈ bets margin side) (n : ℕ) (ω : Ω) :
    0 ≤ lambda ∧ 0 ≤ 1 + stake e pair lambda n ω * gain margin side pair n ω := by
  obtain ⟨g, hg, rfl⟩ := List.mem_map.mp hl
  obtain ⟨hg0, hg1⟩ := lambdaGrid_range g hg
  have hw := worst_pos hm hm' side
  have hl0 : 0 ≤ g / worst margin side.sign := div_nonneg hg0 hw.le
  refine ⟨hl0, ?_⟩
  unfold stake
  split_ifs
  · have hlose := mul_le_mul_of_nonneg_left (neg_worst_le_gain margin hp side n ω) hl0
    rw [mul_neg, div_mul_cancel₀ _ hw.ne'] at hlose
    linarith
  · simp

theorem wealth_nonneg (hm : 0 < e.margin) (hm' : e.margin ≤ 0.5) (hp : Outcomes ℱ pair)
    (side : Side) (hl : lambda ∈ bets e.margin side) (n : ℕ) (ω : Ω) :
    0 ≤ wealth e side pair lambda n ω := by
  induction n with
  | zero => exact zero_le_one
  | succ n ih => exact mul_nonneg ih (factor_nonneg hm hm' hp side hl n ω).2

variable [IsProbabilityMeasure μ]

theorem condExp_gain (hp : Outcomes ℱ pair) (side : Side) (n : ℕ) :
    μ[gain margin side pair n | ℱ n] =ᵐ[μ]
      fun ω => side.sign * (μ[fun ω => (pair n ω).1 - (pair n ω).2 | ℱ n] ω - margin) := by
  have hint : Integrable (fun ω => (pair n ω).1 - (pair n ω).2) μ := by
    refine .of_bound (((continuous_fst.comp_stronglyMeasurable (hp.adapted n)).sub
      (continuous_snd.comp_stronglyMeasurable (hp.adapted n))).mono
      (ℱ.le (n + 1))).aestronglyMeasurable 1 (.of_forall fun ω => ?_)
    obtain ⟨⟨hx0, hx1⟩, hy0, hy1⟩ := hp.range n ω
    rw [Real.norm_eq_abs, abs_le]
    constructor <;> linarith
  have hsub := condExp_sub hint (integrable_const margin) (ℱ n)
  rw [condExp_const (ℱ.le n)] at hsub
  refine (condExp_smul (side.sign : ℝ) _ (ℱ n)).trans ?_
  filter_upwards [hsub] with ω hω
  exact congrArg (side.sign * ·) hω

theorem isEProcess_side (he : Experiment.new display margin alpha = .ok e) (hp : Outcomes ℱ pair)
    (side : Side) (hfair : ∀ n < N, ∀ᵐ ω ∂μ,
      side.sign * (μ[fun ω => (pair n ω).1 - (pair n ω).2 | ℱ n] ω - margin) ≤ 0) :
    IsEProcess μ ℱ N 1 fun n ω => ((e.after pair n ω).mixture side).eValue := by
  obtain ⟨hm, hm', _, _, rfl, _, _, _⟩ := new_ok he
  have hne : bets e.margin side ≠ [] := by simp [bets, lambdaGrid]
  simp only [eValue_after he hp]
  refine IsEProcess.average hne fun lambda hl => Bets.isEProcess (S := lambda) (G := 2) {
    adapted := fun n => (adapted_after he hp n).2 side lambda
    nonneg := wealth_nonneg hm hm' hp side hl
    start := fun ω => rfl
    stakeAdapted := fun n => measurable_stake (adapted_after he hp n).1 lambda
    stakeRange := fun n ω => ?_
    gainMeasurable := fun n => (hp.gain _ side n).mono (ℱ.le _)
    gainRange := abs_gain_le hm hm' hp side
    grows := fun n ω => le_rfl
    fair := fun n hn => ?_ }
  · have hl0 := (factor_nonneg (e := e) hm hm' hp side hl n ω).1
    unfold stake
    split_ifs
    · exact ⟨hl0, le_rfl⟩
    · exact ⟨le_rfl, hl0⟩
  · filter_upwards [condExp_gain hp side n, hfair n hn] with ω hω hle
    rw [hω]
    exact hle

/-- The probability that a side ever leads to its decision is at most `alpha`. -/
theorem prob_decided_le (he : Experiment.new display margin alpha = .ok e) (hp : Outcomes ℱ pair)
    (side : Side) (hfair : ∀ n < N, ∀ᵐ ω ∂μ,
      side.sign * (μ[fun ω => (pair n ω).1 - (pair n ω).2 | ℱ n] ω - margin) ≤ 0) :
    μ.real {ω | ∃ n ≤ N, (e.after pair n ω).status = side.status} ≤ alpha := by
  have hville := (isEProcess_side he hp side hfair).ville (c := 1 / alpha)
  obtain ⟨_, _, ha, _, _, rfl, _, _⟩ := new_ok he
  have hreach : {ω | ∃ n ≤ N, (e.after pair n ω).status = side.status} ⊆
      {ω | ∃ n ≤ N, 1 / e.alpha ≤ ((e.after pair n ω).mixture side).eValue} := by
    rintro ω ⟨n, hn, hs⟩
    exact ⟨n, hn, (afterInv he hp.range n ω).decided side hs⟩
  calc _ ≤ _ := measureReal_mono hreach
    _ ≤ 1 / (1 / e.alpha) := hville (by positivity)
    _ = e.alpha := one_div_one_div _

/-- The error bound: a challenger that is worse by the margin is certified with
probability at most `alpha`, and one that is not is halted with at most `alpha`. -/
theorem experiment_error_bound (μ : Measure Ω) [IsProbabilityMeasure μ] (ℱ : Filtration ℕ m0)
    (he : Experiment.new display margin alpha = .ok e) (hp : Outcomes ℱ pair) (N : ℕ) :
    ((∀ n < N, ∀ᵐ ω ∂μ, margin ≤ (μ[fun ω => (pair n ω).1 - (pair n ω).2 | ℱ n]) ω) →
      μ.real {ω | ∃ n ≤ N, (e.after pair n ω).status = .certified} ≤ alpha) ∧
    ((∀ n < N, ∀ᵐ ω ∂μ, (μ[fun ω => (pair n ω).1 - (pair n ω).2 | ℱ n]) ω ≤ margin) →
      μ.real {ω | ∃ n ≤ N, (e.after pair n ω).status = .halted} ≤ alpha) := by
  refine ⟨fun h => prob_decided_le he hp .certify fun n hn => ?_,
    fun h => prob_decided_le he hp .halt fun n hn => ?_⟩
  · filter_upwards [h n hn] with ω hω
    simp only [Side.sign]
    linarith
  · filter_upwards [h n hn] with ω hω
    simp only [Side.sign]
    linarith

def sampleFiltration : Filtration ℕ (inferInstance : MeasurableSpace Unit) := ⊤

theorem experiment_error_bound_const :
    ∃ e : Experiment ℝ, Experiment.new (fun _ => "") 0.05 0.05 = .ok e ∧
      (Measure.dirac ()).real {ω : Unit | ∃ n ≤ 100,
        (e.after (fun _ _ => (0.05, 0)) n ω).status = .certified} ≤ 0.05 ∧
      (Measure.dirac ()).real {ω : Unit | ∃ n ≤ 100,
        (e.after (fun _ _ => (0.05, 0)) n ω).status = .halted} ≤ 0.05 := by
  have hnew : ∃ e : Experiment ℝ, Experiment.new (fun _ => "") 0.05 0.05 = .ok e := by
    norm_num [Experiment.new]
  obtain ⟨e, he⟩ := hnew
  have hp : Outcomes sampleFiltration fun _ _ => ((0.05 : ℝ), (0 : ℝ)) :=
    ⟨fun n => stronglyMeasurable_const, fun n ω => by norm_num [inUnit]⟩
  have hmean : ∀ n : ℕ, (Measure.dirac ())[fun _ : Unit => (0.05 : ℝ) - 0 | sampleFiltration n] =
      fun _ => 0.05 - 0 :=
    fun n => condExp_const (sampleFiltration.le n) _
  obtain ⟨hcertify, hhalt⟩ := experiment_error_bound (Measure.dirac ()) sampleFiltration he hp 100
  refine ⟨e, he, hcertify fun n _ => .of_forall fun ω => ?_,
    hhalt fun n _ => .of_forall fun ω => ?_⟩
  · rw [hmean]
    norm_num
  · rw [hmean]
    norm_num

end Firstpass.Select
