import Mathlib.MeasureTheory.Function.ConditionalExpectation.PullOut
import Mathlib.Probability.Martingale.OptionalStopping

/-!
# E-processes

A nonnegative process that starts at `w` on average and is not expected to grow
over its first `N` rounds. Ville's inequality bounds the probability that it is
ever large; bets against fair rounds and averages are such processes.
-/

namespace Firstpass.EProcess

open MeasureTheory

variable {Ω : Type*} {m0 : MeasurableSpace Ω} {μ : Measure Ω} {ℱ : Filtration ℕ m0} {N : ℕ}
  {w : ℝ}

structure IsEProcess (μ : Measure Ω) (ℱ : Filtration ℕ m0) (N : ℕ) (w : ℝ)
    (M : ℕ → Ω → ℝ) : Prop where
  adapted : ∀ n, StronglyMeasurable[ℱ n] (M n)
  integrable : ∀ n, Integrable (M n) μ
  nonneg : ∀ n ω, 0 ≤ M n ω
  start : ∫ ω, M 0 ω ∂μ ≤ w
  step : ∀ n < N, μ[M (n + 1) | ℱ n] ≤ᵐ[μ] M n

-- ---------------------------------------------------------------------------
-- Ville's inequality
-- ---------------------------------------------------------------------------

theorem IsEProcess.supermartingale [IsProbabilityMeasure μ] {M : ℕ → Ω → ℝ}
    (h : IsEProcess μ ℱ N w M) : Supermartingale (fun n => M (min n N)) ℱ μ := by
  refine supermartingale_nat (fun n => ?_) (fun n => h.integrable _) fun n => ?_
  · exact (h.adapted _).mono (ℱ.mono (min_le_left n N))
  · rcases lt_or_ge n N with hn | hn
    · rw [min_eq_left hn, min_eq_left hn.le]
      exact h.step n hn
    · rw [min_eq_right hn, min_eq_right (hn.trans n.le_succ)]
      rw [condExp_of_stronglyMeasurable (ℱ.le n) ((h.adapted N).mono (ℱ.mono hn)) (h.integrable N)]

/-- The probability that the process ever reaches `c` is at most `w / c`. -/
theorem IsEProcess.ville [IsProbabilityMeasure μ] {M : ℕ → Ω → ℝ} (h : IsEProcess μ ℱ N w M)
    {c : ℝ} (hc : 0 < c) : μ.real {ω | ∃ n ≤ N, c ≤ M n ω} ≤ w / c := by
  have hsuper := h.supermartingale
  let hit : Ω → ℕ∞ := fun ω => (hittingBtwn (fun n => M (min n N)) (Set.Ici c) 0 N ω : ℕ)
  have hstop : IsStoppingTime ℱ hit :=
    hsuper.stronglyAdapted.adapted.isStoppingTime_hittingBtwn measurableSet_Ici
  have hbound : ∀ ω, hit ω ≤ N := fun ω => Nat.cast_le.mpr (hittingBtwn_le ω)
  have hmean : ∫ ω, stoppedValue (fun n => M (min n N)) hit ω ∂μ ≤ w := by
    have hmono := hsuper.neg.expected_stoppedValue_mono (isStoppingTime_const ℱ 0) hstop
      (fun ω => bot_le) hbound
    have hneg : ∫ ω, -M 0 ω ∂μ ≤ ∫ ω, -stoppedValue (fun n => M (min n N)) hit ω ∂μ := by
      simpa [stoppedValue] using hmono
    rw [integral_neg, integral_neg, neg_le_neg_iff] at hneg
    exact hneg.trans h.start
  have hnonneg : 0 ≤ᵐ[μ] stoppedValue (fun n => M (min n N)) hit :=
    .of_forall fun ω => h.nonneg _ ω
  have hreach : {ω | ∃ n ≤ N, c ≤ M n ω} ⊆ {ω | c ≤ stoppedValue (fun n => M (min n N)) hit ω} := by
    rintro ω ⟨n, hn, hM⟩
    refine stoppedValue_hittingBtwn_mem ⟨n, ⟨zero_le, hn⟩, ?_⟩
    simpa [min_eq_left hn] using hM
  have hmarkov := mul_meas_ge_le_integral_of_nonneg hnonneg
    (integrable_stoppedValue ℕ hstop hsuper.integrable hbound) c
  rw [le_div_iff₀' hc]
  calc c * μ.real {ω | ∃ n ≤ N, c ≤ M n ω}
      ≤ c * μ.real {ω | c ≤ stoppedValue (fun n => M (min n N)) hit ω} :=
        mul_le_mul_of_nonneg_left (measureReal_mono hreach) hc.le
    _ ≤ ∫ ω, stoppedValue (fun n => M (min n N)) hit ω ∂μ := hmarkov
    _ ≤ w := hmean

-- ---------------------------------------------------------------------------
-- Bets
-- ---------------------------------------------------------------------------

/-- Wealth that a round multiplies by at most `1 + stake * gain`: the stake is set
before the round, and the gain is not expected to be positive. -/
structure Bets (μ : Measure Ω) (ℱ : Filtration ℕ m0) (N : ℕ) (M stake gain : ℕ → Ω → ℝ)
    (S G : ℝ) : Prop where
  adapted : ∀ n, StronglyMeasurable[ℱ n] (M n)
  nonneg : ∀ n ω, 0 ≤ M n ω
  start : ∀ ω, M 0 ω = 1
  stakeAdapted : ∀ n, StronglyMeasurable[ℱ n] (stake n)
  stakeRange : ∀ n ω, stake n ω ∈ Set.Icc 0 S
  gainMeasurable : ∀ n, StronglyMeasurable (gain n)
  gainRange : ∀ n ω, |gain n ω| ≤ G
  grows : ∀ n ω, M (n + 1) ω ≤ M n ω * (1 + stake n ω * gain n ω)
  fair : ∀ n < N, μ[gain n | ℱ n] ≤ᵐ[μ] 0

section Bets

variable {M stake gain : ℕ → Ω → ℝ} {S G : ℝ}

theorem Bets.le_pow (h : Bets μ ℱ N M stake gain S G) (n : ℕ) (ω : Ω) :
    M n ω ≤ (1 + S * G) ^ n := by
  induction n with
  | zero => simp [h.start]
  | succ n ih =>
    obtain ⟨hstake0, hstakeS⟩ := h.stakeRange n ω
    have hG : 0 ≤ G := (abs_nonneg _).trans (h.gainRange n ω)
    have hwin : stake n ω * gain n ω ≤ S * G :=
      (mul_le_mul_of_nonneg_left ((le_abs_self _).trans (h.gainRange n ω)) hstake0).trans
        (mul_le_mul_of_nonneg_right hstakeS hG)
    calc M (n + 1) ω ≤ M n ω * (1 + stake n ω * gain n ω) := h.grows n ω
      _ ≤ M n ω * (1 + S * G) := mul_le_mul_of_nonneg_left (by linarith) (h.nonneg n ω)
      _ ≤ (1 + S * G) ^ n * (1 + S * G) := by
        refine mul_le_mul_of_nonneg_right ih ?_
        have hS : 0 ≤ S := hstake0.trans hstakeS
        positivity
      _ = (1 + S * G) ^ (n + 1) := (pow_succ ..).symm

variable [IsProbabilityMeasure μ]

theorem Bets.integrable (h : Bets μ ℱ N M stake gain S G) (n : ℕ) : Integrable (M n) μ := by
  refine .of_bound ((h.adapted n).mono (ℱ.le n)).aestronglyMeasurable ((1 + S * G) ^ n) ?_
  refine .of_forall fun ω => ?_
  rw [Real.norm_of_nonneg (h.nonneg n ω)]
  exact h.le_pow n ω

theorem Bets.integrable_gain (h : Bets μ ℱ N M stake gain S G) (n : ℕ) :
    Integrable (gain n) μ :=
  .of_bound (h.gainMeasurable n).aestronglyMeasurable G (.of_forall fun ω => h.gainRange n ω)

theorem Bets.integrable_win (h : Bets μ ℱ N M stake gain S G) (n : ℕ) :
    Integrable (M n * stake n * gain n) μ := by
  have hmeas : StronglyMeasurable (M n * stake n) :=
    ((h.adapted n).mono (ℱ.le n)).mul ((h.stakeAdapted n).mono (ℱ.le n))
  refine (h.integrable_gain n).bdd_mul (c := (1 + S * G) ^ n * S) hmeas.aestronglyMeasurable ?_
  refine .of_forall fun ω => ?_
  obtain ⟨hstake0, hstakeS⟩ := h.stakeRange n ω
  rw [Pi.mul_apply, Real.norm_of_nonneg (mul_nonneg (h.nonneg n ω) hstake0)]
  exact mul_le_mul (h.le_pow n ω) hstakeS hstake0 ((h.nonneg n ω).trans (h.le_pow n ω))

/-- A bet against fair rounds is an e-process. -/
theorem Bets.isEProcess (h : Bets μ ℱ N M stake gain S G) : IsEProcess μ ℱ N 1 M where
  adapted := h.adapted
  integrable := h.integrable
  nonneg := h.nonneg
  start := by simp [h.start]
  step n hn := by
    have hstaked : StronglyMeasurable[ℱ n] (M n * stake n) := (h.adapted n).mul (h.stakeAdapted n)
    have hgrows : M (n + 1) ≤ M n + M n * stake n * gain n := by
      intro ω
      refine (h.grows n ω).trans_eq ?_
      simp only [Pi.add_apply, Pi.mul_apply]
      ring
    have hmono : μ[M (n + 1) | ℱ n] ≤ᵐ[μ] μ[M n + M n * stake n * gain n | ℱ n] :=
      condExp_mono (h.integrable (n + 1)) ((h.integrable n).add (h.integrable_win n))
        (.of_forall hgrows)
    have hsplit : μ[M n + M n * stake n * gain n | ℱ n] =ᵐ[μ]
        M n + M n * stake n * μ[gain n | ℱ n] := by
      refine (condExp_add (h.integrable n) (h.integrable_win n) (ℱ n)).trans ?_
      rw [condExp_of_stronglyMeasurable (ℱ.le n) (h.adapted n) (h.integrable n)]
      exact .add .rfl
        (condExp_mul_of_stronglyMeasurable_left hstaked (h.integrable_win n) (h.integrable_gain n))
    filter_upwards [hmono, hsplit, h.fair n hn] with ω hω hsplitω hfair
    rw [hsplitω] at hω
    have hlose : M n ω * stake n ω * (μ[gain n | ℱ n]) ω ≤ 0 :=
      mul_nonpos_of_nonneg_of_nonpos (mul_nonneg (h.nonneg n ω) (h.stakeRange n ω).1) hfair
    simp only [Pi.add_apply, Pi.mul_apply] at hω
    linarith

end Bets

-- ---------------------------------------------------------------------------
-- Averages
-- ---------------------------------------------------------------------------

theorem IsEProcess.zero : IsEProcess μ ℱ N 0 0 where
  adapted _ := stronglyMeasurable_zero
  integrable _ := integrable_zero _ _ _
  nonneg _ _ := le_rfl
  start := by simp
  step n _ := by
    rw [Pi.zero_apply, condExp_zero]
    exact .rfl

theorem IsEProcess.add {M M' : ℕ → Ω → ℝ} (h : IsEProcess μ ℱ N w M)
    (h' : IsEProcess μ ℱ N w' M') : IsEProcess μ ℱ N (w + w') (M + M') where
  adapted n := (h.adapted n).add (h'.adapted n)
  integrable n := (h.integrable n).add (h'.integrable n)
  nonneg n ω := add_nonneg (h.nonneg n ω) (h'.nonneg n ω)
  start := (integral_add (h.integrable 0) (h'.integrable 0)).trans_le (add_le_add h.start h'.start)
  step n hn := (condExp_add (h.integrable _) (h'.integrable _) _).trans_le
    ((h.step n hn).add_le_add (h'.step n hn))

theorem IsEProcess.smul {M : ℕ → Ω → ℝ} (h : IsEProcess μ ℱ N w M) {c : ℝ} (hc : 0 ≤ c) :
    IsEProcess μ ℱ N (c * w) (c • M) where
  adapted n := (h.adapted n).const_smul c
  integrable n := (h.integrable n).smul c
  nonneg n ω := mul_nonneg hc (h.nonneg n ω)
  start := by
    simpa only [Pi.smul_apply, smul_eq_mul, integral_const_mul] using
      mul_le_mul_of_nonneg_left h.start hc
  step n hn := by
    filter_upwards [condExp_smul c (M (n + 1)) (ℱ n), h.step n hn] with ω hω hstep
    rw [Pi.smul_apply, hω]
    exact mul_le_mul_of_nonneg_left hstep hc

theorem IsEProcess.sum {α : Type*} {M : α → ℕ → Ω → ℝ} (as : List α)
    (h : ∀ a ∈ as, IsEProcess μ ℱ N w (M a)) :
    IsEProcess μ ℱ N (as.length * w) (as.map M).sum := by
  induction as with
  | nil => simpa using IsEProcess.zero
  | cons a as ih =>
    have hsum := (h a (by simp)).add (ih fun b hb => h b (by simp [hb]))
    simpa [add_mul, add_comm] using hsum

theorem IsEProcess.average {α : Type*} {M : α → ℕ → Ω → ℝ} {as : List α} (hne : as ≠ [])
    (h : ∀ a ∈ as, IsEProcess μ ℱ N w (M a)) :
    IsEProcess μ ℱ N w ((as.length : ℝ)⁻¹ • (as.map M).sum) := by
  have hlen : (as.length : ℝ) ≠ 0 := by simpa using hne
  have hsmul := (IsEProcess.sum as h).smul (inv_nonneg.mpr as.length.cast_nonneg)
  rwa [inv_mul_cancel_left₀ hlen] at hsmul

-- ---------------------------------------------------------------------------
-- One bet on a sequence of gains
-- ---------------------------------------------------------------------------

/-- The wealth of the bet `l` after the gains `xs`. -/
def betWealth {F : Type*} [Monoid F] [Add F] (l : F) (xs : List F) : F :=
  (xs.map fun x => 1 + l * x).prod

theorem betWealth_pos {F : Type*} [Field F] [LinearOrder F] [IsStrictOrderedRing F] {l : F}
    {xs : List F} (h : ∀ x ∈ xs, 0 < 1 + l * x) : 0 < betWealth l xs := by
  refine List.prod_pos fun w hw => ?_
  obtain ⟨x, hx, rfl⟩ := List.mem_map.mp hw
  exact h x hx

/-- The logarithm is concave: a bet wins at most the exponential of its total gain. -/
theorem betWealth_le_exp {l : ℝ} {xs : List ℝ} (h : ∀ x ∈ xs, 0 < 1 + l * x) :
    betWealth l xs ≤ Real.exp (l * xs.sum) := by
  induction xs with
  | nil => simp [betWealth]
  | cons x xs ih =>
    have hx : 1 + l * x ≤ Real.exp (l * x) := by
      rw [add_comm]
      exact Real.add_one_le_exp (l * x)
    have hrest := ih fun y hy => h y (List.mem_cons_of_mem x hy)
    calc betWealth l (x :: xs) = (1 + l * x) * betWealth l xs := List.prod_cons
      _ ≤ Real.exp (l * x) * Real.exp (l * xs.sum) :=
        mul_le_mul hx hrest (betWealth_pos fun y hy => h y (List.mem_cons_of_mem x hy)).le
          (Real.exp_pos _).le
      _ = Real.exp (l * (x :: xs).sum) := by rw [← Real.exp_add, List.sum_cons, mul_add]

theorem betWealth_le_one {l : ℝ} {xs : List ℝ} (hl : 0 ≤ l) (h : ∀ x ∈ xs, 0 < 1 + l * x)
    (hsum : xs.sum ≤ 0) : betWealth l xs ≤ 1 :=
  (betWealth_le_exp h).trans (Real.exp_le_one_iff.mpr (mul_nonpos_of_nonneg_of_nonpos hl hsum))

theorem average_le_one {ws : List ℝ} (hne : ws ≠ []) (h : ∀ w ∈ ws, w ≤ 1) :
    ws.sum / ws.length ≤ 1 := by
  have hlen : (0 : ℝ) < ws.length := Nat.cast_pos.mpr (List.length_pos_iff.mpr hne)
  rw [div_le_one hlen]
  have hsum := List.sum_le_card_nsmul ws 1 h
  rwa [nsmul_one] at hsum

end Firstpass.EProcess
