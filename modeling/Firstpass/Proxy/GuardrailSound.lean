import Firstpass.Core.Guardrail
import Firstpass.Proxy.ConfigParse
import Mathlib.Data.List.DropRight

/-!
# The guardrail on every window

A guardrail that `validate` accepts does not breach on a window without a failure, breaches on
one of failures only, and is monotone in the failures between the two. Both functions are taken
in exact arithmetic.
-/

namespace Firstpass

-- ---------------------------------------------------------------------------
-- Exact arithmetic for the validator
-- ---------------------------------------------------------------------------

/-- The reals, with their own operations. No text is read from them here. -/
noncomputable local instance exactF64 : F64 ℝ where
  decLe := fun a b => Real.decidableLE a b
  decLt := fun a b => Real.decidableLT a b
  text _ := none

/-- Every number is finite, and the functions of `f64` are those of the reals. How numbers are
written in messages is left open. -/
noncomputable def exactStd (text : StdLib ℝ) : StdLib ℝ :=
  { text with
    isFinite := fun _ => true
    ln := Real.log
    sqrt := Real.sqrt
    ceil := fun x => (⌈x⌉ : ℝ) }

namespace Guardrail

variable {g : Guardrail ℝ}

/-- What `validate` asks of the parameters. -/
structure Sound (g : Guardrail ℝ) : Prop where
  alpha_pos : 0 < g.alpha
  alpha_lt_one : g.alpha < 1
  delta_pos : 0 < g.delta
  delta_lt_one : g.delta < 1
  window_pos : 0 < g.window
  room : Real.log (1 / g.delta) / (2 * g.alpha * g.alpha) < g.minN
  minN_le : g.minN ≤ g.window

theorem sound_of_validate {text : StdLib ℝ} (h : g.validate (exactStd text) = .ok ()) :
    g.Sound := by
  simp only [validate, Checks.then_ok, Checks.require_ok, exactStd] at h
  obtain ⟨⟨-, hpos, hlt⟩, ⟨-, hdpos, hdlt⟩, hwindow, hroom, hminN⟩ := h
  have hone : (1.0 : ℝ) = 1 := by norm_num
  have htwo : (2.0 : ℝ) = 2 := by norm_num
  have hlt : ¬(1.0 : ℝ) ≤ g.alpha := hlt
  have hdlt : ¬(1.0 : ℝ) ≤ g.delta := hdlt
  have hroom : ¬(g.minN : ℝ) ≤ Real.log (1.0 / g.delta) / (2.0 * g.alpha * g.alpha) :=
    Checks.require_ok.mp hroom
  rw [hone] at hlt hdlt hroom
  rw [htwo] at hroom
  exact ⟨not_le.mp hpos, not_le.mp hlt, not_le.mp hdpos, not_le.mp hdlt,
    Nat.pos_of_ne_zero hwindow, not_le.mp hroom, hminN⟩

namespace Sound

theorem log_pos (h : g.Sound) : 0 < Real.log (1 / g.delta) :=
  Real.log_pos ((one_lt_div h.delta_pos).mpr h.delta_lt_one)

theorem minN_pos (h : g.Sound) : 0 < g.minN := by
  have hfloor : 0 < Real.log (1 / g.delta) / (2 * g.alpha * g.alpha) :=
    div_pos h.log_pos (mul_pos (mul_pos two_pos h.alpha_pos) h.alpha_pos)
  exact Nat.cast_pos.mp (hfloor.trans h.room)

/-- With enough samples the slack alone leaves room under `alpha`. -/
theorem slack_lt (h : g.Sound) {n : ℕ} (hn : g.minN ≤ n) :
    Real.sqrt (Real.log (1 / g.delta) / (2 * n)) < g.alpha := by
  have hn' : (g.minN : ℝ) ≤ n := Nat.cast_le.mpr hn
  have hpos : (0 : ℝ) < n := (Nat.cast_pos.mpr h.minN_pos).trans_le hn'
  have hroom := h.room.trans_le hn'
  rw [Real.sqrt_lt' h.alpha_pos, div_lt_iff₀ (by positivity)]
  rw [div_lt_iff₀ (mul_pos (mul_pos two_pos h.alpha_pos) h.alpha_pos)] at hroom
  calc Real.log (1 / g.delta) < n * (2 * g.alpha * g.alpha) := hroom
    _ = g.alpha ^ 2 * (2 * n) := by ring

end Sound

-- ---------------------------------------------------------------------------
-- The verdict
-- ---------------------------------------------------------------------------

/-- The bound on a window of `n` outcomes with so many failures among them. -/
noncomputable def upper (g : Guardrail ℝ) (fails n : ℕ) : ℝ :=
  fails / n + Real.sqrt (max (Real.log (1 / g.delta)) 0 / (2.0 * n))

theorem recent_eq (g : Guardrail ℝ) (outcomes : List Bool) :
    outcomes.drop (outcomes.length - min outcomes.length g.window) = outcomes.rtake g.window := by
  rw [List.rtake]
  congr 1
  omega

/-- A verdict is one on the last outcomes. -/
theorem evaluate_rtake (g : Guardrail ℝ) (outcomes : List Bool) :
    g.evaluate (outcomes.rtake g.window) = g.evaluate outcomes := by
  have hrecent : (outcomes.rtake g.window).rtake g.window = outcomes.rtake g.window := by
    simp only [List.rtake, List.drop_drop, List.length_drop]
    congr 1
    omega
  simp only [evaluate, recent_eq, hrecent]

theorem breached_iff (g : Guardrail ℝ) (outcomes : List Bool) :
    (g.evaluate outcomes).breached = true ↔
      g.minN ≤ (outcomes.rtake g.window).length ∧
        g.alpha < g.upper ((outcomes.rtake g.window).count false)
          (outcomes.rtake g.window).length := by
  have hone : (1.0 : ℝ) = 1 := by norm_num
  have htwo : (2.0 : ℝ) = 2 := by norm_num
  have hfails : ((outcomes.rtake g.window).filter (!·)).length =
      (outcomes.rtake g.window).count false := by
    rw [List.count, List.countP_eq_length_filter]
    congr 1
    exact List.filter_congr fun b _ => by cases b <;> rfl
  simp only [evaluate, recent_eq]
  split
  · next hfew => simp [hfew]
  · next hfew =>
    simp only [upper, hfails, hone, htwo, not_lt.mp hfew, true_and, decide_eq_true_eq]
    rfl

theorem upper_mono (g : Guardrail ℝ) {fails fails' : ℕ} (h : fails ≤ fails') (n : ℕ) :
    g.upper fails n ≤ g.upper fails' n := by
  have hrate : (fails : ℝ) / n ≤ fails' / n :=
    div_le_div_of_nonneg_right (Nat.cast_le.mpr h) n.cast_nonneg
  exact add_le_add hrate le_rfl

theorem Sound.upper_zero (h : g.Sound) {n : ℕ} (hn : g.minN ≤ n) : g.upper 0 n < g.alpha := by
  have htwo : (2.0 : ℝ) = 2 := by norm_num
  rw [upper, htwo, Nat.cast_zero, zero_div, zero_add, max_eq_left h.log_pos.le]
  exact h.slack_lt hn

theorem Sound.upper_all (h : g.Sound) {n : ℕ} (hn : g.minN ≤ n) : g.alpha < g.upper n n := by
  have hpos : (n : ℝ) ≠ 0 := Nat.cast_ne_zero.mpr (h.minN_pos.trans_le hn).ne'
  rw [upper, div_self hpos]
  exact h.alpha_lt_one.trans_le (le_add_of_nonneg_right (Real.sqrt_nonneg _))

/-- A failure in the place of a correct answer adds one to the count or is out of the window. -/
theorem count_rtake_le (window : ℕ) (earlier later : List Bool) :
    ((earlier ++ true :: later).rtake window).count false ≤
      ((earlier ++ false :: later).rtake window).count false := by
  simp only [List.rtake, List.length_append, List.length_cons, List.drop_append,
    List.count_append]
  refine Nat.add_le_add_left ?_ _
  cases earlier.length + (later.length + 1) - window - earlier.length with
  | zero => simp
  | succ n => simp

/-- On every history the guardrail does not breach without a failure in its window, breaches on
failures alone once there are enough, keeps a breach when an answer turns out to be a failure,
and sees the last `window` outcomes only. -/
theorem evaluate_sound {text : StdLib ℝ} (h : g.validate (exactStd text) = .ok ()) :
    (∀ outcomes, (∀ ok ∈ outcomes.rtake g.window, ok = true) →
      (g.evaluate outcomes).breached = false) ∧
    (∀ outcomes, (∀ ok ∈ outcomes.rtake g.window, ok = false) → g.minN ≤ outcomes.length →
      (g.evaluate outcomes).breached = true) ∧
    (∀ earlier later, (g.evaluate (earlier ++ true :: later)).breached = true →
      (g.evaluate (earlier ++ false :: later)).breached = true) ∧
    ∀ outcomes outcomes', outcomes.rtake g.window = outcomes'.rtake g.window →
      g.evaluate outcomes = g.evaluate outcomes' := by
  have hs := sound_of_validate h
  refine ⟨?_, ?_, ?_, ?_⟩
  · intro outcomes hall
    rw [← Bool.not_eq_true, breached_iff, List.count_eq_zero.mpr fun hmem => by
      simpa using hall _ hmem]
    rintro ⟨hn, hbreach⟩
    exact absurd hbreach (hs.upper_zero hn).not_gt
  · intro outcomes hall hn
    have hcount : (outcomes.rtake g.window).count false = (outcomes.rtake g.window).length :=
      List.count_eq_length.mpr fun ok hok => (hall ok hok).symm
    have hlength : g.minN ≤ (outcomes.rtake g.window).length := by
      have hle := hs.minN_le
      simp only [List.rtake, List.length_drop]
      omega
    rw [breached_iff, hcount]
    exact ⟨hlength, hs.upper_all hlength⟩
  · intro earlier later
    have hlength : ((earlier ++ true :: later).rtake g.window).length =
        ((earlier ++ false :: later).rtake g.window).length := by
      simp [List.rtake]
    rw [breached_iff, breached_iff, hlength]
    rintro ⟨hn, hbreach⟩
    exact ⟨hn, hbreach.trans_le (g.upper_mono (count_rtake_le _ earlier later) _)⟩
  · intro outcomes outcomes' hsame
    rw [← evaluate_rtake, hsame, evaluate_rtake]

/-- Messages without their numbers. -/
def mute : StdLib ℝ where
  isFinite _ := true
  ln := id
  sqrt := id
  ceil := id
  display _ := ""
  fixed _ _ := ""
  debug := id

noncomputable def lastThree : Guardrail ℝ where
  alpha := 0.5
  delta := 0.5
  window := 3
  minN := 3
  action := .demote

theorem validate_lastThree : lastThree.validate (exactStd mute) = .ok () := by
  have hlog : Real.log (1.0 / 0.5) / (2.0 * 0.5 * 0.5) < 3 := by
    have htwo : Real.log 2 ≤ 2 - 1 := Real.log_le_sub_one_of_pos two_pos
    norm_num at htwo ⊢
    linarith
  simp only [validate, Checks.then_ok, Checks.require_ok, exactStd, lastThree]
  refine ⟨⟨trivial, ?_, ?_⟩, ⟨trivial, ?_, ?_⟩, by norm_num, ?_, Checks.require_ok.mpr le_rfl⟩
  · exact not_le.mpr (by norm_num : (0 : ℝ) < 0.5)
  · exact not_le.mpr (by norm_num : (0.5 : ℝ) < 1.0)
  · exact not_le.mpr (by norm_num : (0 : ℝ) < 0.5)
  · exact not_le.mpr (by norm_num : (0.5 : ℝ) < 1.0)
  · exact Checks.require_ok.mpr (not_le.mpr hlog)

theorem evaluate_sound_lastThree : (lastThree.evaluate [false, true, true, true]).breached = false ∧
    (lastThree.evaluate [true, false, false, false]).breached = true ∧
    ((lastThree.evaluate [false, true, false]).breached = true →
      (lastThree.evaluate [false, false, false]).breached = true) ∧
    lastThree.evaluate [true, false, true, true] = lastThree.evaluate [false, true, true] := by
  obtain ⟨hclean, hfailed, hmono, hlast⟩ := evaluate_sound validate_lastThree
  refine ⟨hclean _ ?_, hfailed _ ?_ (by simp [lastThree]), hmono [false] [false], hlast _ _ rfl⟩
  · simp [lastThree, List.rtake]
  · simp [lastThree, List.rtake]

end Guardrail

end Firstpass
