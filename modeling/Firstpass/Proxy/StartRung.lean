import Firstpass.Core.Routing
import Firstpass.Lib.EpsilonGreedy
import Firstpass.Proxy.Affinity
import Firstpass.Proxy.Bandit
import Firstpass.Proxy.Router

/-!
# The start rung and its propensity

The greedy rung, the random overlay, the floor of a promoted session and the override of
the routing mode, in this order. The propensity is taken after the second.
-/

namespace Firstpass.StartRung

open Bandit Routing

section
variable {F : Type} [Field F] [LinearOrder F] [FloorSemiring F] [Analytic F]

/-- What the choice of a start rung reads. -/
structure Inputs (F : Type) where
  ladder : List String
  onChallenger : Bool
  bandit : Option (StartRungBandit F)
  /-- The strength of the prior, where one is configured. -/
  priorStrength : Option F
  /-- What the prior answered. -/
  decisionPrior : Option (List F)
  features : Features
  prices : Prices F
  /-- `[escalation.exploration]` -/
  epsilon : Option F
  promotion : Affinity.Decision
  routingMode : RoutingMode

structure Choice (F : Type) where
  startRung : Nat
  policyId : String
  explore : Bool
  propensity : Option F

namespace Inputs

variable (s : Inputs F)

def context : ContextBucket := .fromFeatures s.features

/-- The answer of the prior, which the challenger arm does not ask. -/
def prior : Option (List F) := if s.onChallenger then none else s.decisionPrior

def greedy : Nat :=
  if s.onChallenger then 0
  else
    match s.bandit with
    | some b => b.chooseStartWithPrior s.context s.ladder s.prices s.prior
    | none =>
      match s.priorStrength, s.prior with
      | some strength, some prior =>
        { StartRungBandit.new 0 1 with priorStrength := strength }.chooseStartWithPrior s.context
          s.ladder s.prices (some prior)
      | _, _ => 0

def basePolicyId : String :=
  if s.onChallenger then "challenger-ladder@v0"
  else if s.prior.isSome then "bandit@v3-prior"
  else if 0 < s.greedy then "bandit@v1"
  else "static-ladder@v0"

def exploration : Option F := if s.onChallenger then none else s.epsilon

def arms : Nat := max s.ladder.length 1

end Inputs

def epsilonPropensity (chosen greedy : Nat) (epsilon : F) (k : Nat) : F :=
  (if chosen = greedy then 1 - epsilon else 0) + epsilon / k

namespace Inputs

variable (s : Inputs F)

/-- The rung after the random overlay, for the draw `u`. -/
def chosen (u : F) : Nat :=
  match s.exploration with
  | some epsilon =>
    if u < epsilon then min ⌊u / epsilon * s.arms⌋₊ (s.arms - 1) else s.greedy
  | none => s.greedy

/-- A floor, not an override. -/
def promoted (chosen : Nat) : Nat := max chosen s.promotion.startRung

def override (start : Nat) : Nat :=
  if s.routingMode.preset.startAtTop then s.ladder.length - 1 else start

def choose (u : F) : Choice F where
  startRung := s.override (s.promoted (s.chosen u))
  policyId := s.basePolicyId ++ if s.exploration.isSome then "+eps" else ""
  explore := s.exploration.any fun epsilon => u < epsilon
  propensity := s.exploration.map fun epsilon =>
    epsilonPropensity (s.chosen u) s.greedy epsilon s.arms

/-- Where the ladder starts for the draw `u`. -/
def started (u : F) : Nat := min (s.choose u).startRung (s.ladder.length - 1)

end Inputs

/-- It is where the engine starts. -/
theorem started_eq_startOf {ctx : EnforceCtx ℚ} {s : Inputs F} (hladder : ctx.ladder = s.ladder)
    (hstart : ctx.startRung = (s.choose u).startRung) : startOf ctx = s.started u := by
  rw [startOf, hladder, hstart]
  rfl

omit [FloorSemiring F] in
theorem greedy_lt {s : Inputs F} (h : s.ladder ≠ []) : s.greedy < s.ladder.length := by
  have hpos := List.length_pos_iff.mpr h
  unfold Inputs.greedy
  split_ifs
  · exact hpos
  · split
    · exact chooseStartWithPrior_lt _ _ h _ _
    · split
      · exact chooseStartWithPrior_lt _ _ h _ _
      · exact hpos

omit [Field F] [LinearOrder F] [FloorSemiring F] [Analytic F] in
theorem arms_eq {s : Inputs F} (h : s.ladder ≠ []) : s.arms = s.ladder.length :=
  max_eq_left (List.length_pos_iff.mpr h)

/-- The start as a function of the chosen rung. -/
def Inputs.place (s : Inputs F) (chosen : Nat) : Nat :=
  min (s.override (s.promoted chosen)) (s.ladder.length - 1)

/-- No other rung of the ladder leads to the same start: the ladder has one rung, or the
mode does not override and the floor is below the chosen rung or absent. -/
def Inputs.Undisturbed (s : Inputs F) (chosen : Nat) : Prop :=
  s.ladder.length = 1 ∨ (s.routingMode ≠ .max ∧
    (s.promotion.startRung = 0 ∨ min s.promotion.startRung (s.ladder.length - 1) < chosen))

theorem startAtTop_iff (mode : RoutingMode) : mode.preset.startAtTop ↔ mode = .max := by
  cases mode <;> simp [RoutingMode.preset]

omit [Field F] [LinearOrder F] [FloorSemiring F] [Analytic F] in
theorem place_injective_iff {s : Inputs F} (hchosen : chosen < s.ladder.length) :
    (∀ other < s.ladder.length, s.place other = s.place chosen → other = chosen) ↔
      s.Undisturbed chosen := by
  unfold Inputs.Undisturbed
  by_cases hmode : s.routingMode = .max
  · have hplace (c : Nat) : s.place c = s.ladder.length - 1 := by
      simp [Inputs.place, Inputs.override, (startAtTop_iff _).mpr hmode]
    simp only [hplace, true_implies, hmode, ne_eq, not_true_eq_false, false_and, or_false]
    constructor
    · intro hall
      have hfirst := hall 0 (by omega)
      have hlast := hall (s.ladder.length - 1) (by omega)
      omega
    · intro hone other hother
      omega
  · have htop : s.routingMode.preset.startAtTop = false := by
      rw [Bool.eq_false_iff]
      exact fun h => hmode ((startAtTop_iff _).mp h)
    have hplace (c : Nat) :
        s.place c = min (max c s.promotion.startRung) (s.ladder.length - 1) := by
      simp [Inputs.place, Inputs.override, htop, Inputs.promoted]
    simp only [hplace, ne_eq, hmode, not_false_eq_true, true_and]
    constructor
    · intro hall
      -- Below the floor the first rung and the floor itself lead to one start.
      by_contra hnot
      push Not at hnot
      obtain ⟨hlen, hfloor, hle⟩ := hnot
      have hfirst := hall 0 (by omega)
      have hother := hall (min s.promotion.startRung (s.ladder.length - 1)) (by omega)
      omega
    · intro hcases other hother heq
      omega

end

-- ---------------------------------------------------------------------------
-- A uniform draw
-- ---------------------------------------------------------------------------

open EpsilonGreedy

theorem chosen_eq_pick {s : Inputs ℝ} (h : s.exploration = some epsilon) :
    s.chosen = pick epsilon s.arms s.greedy := by
  funext u
  simp only [Inputs.chosen, h]
  rfl

/-- A recorded propensity is the probability of the rung where the ladder starts exactly
where neither the floor nor the mode sends another rung there. -/
theorem propensity_iff (s : Inputs ℝ) (u p : ℝ) (hladder : s.ladder ≠ [])
    (hepsilon : ∀ epsilon ∈ s.epsilon, 0 < epsilon ∧ epsilon ≤ 1)
    (hp : (s.choose u).propensity = some p) :
    p = prob {v | s.started v = s.started u} ↔ s.Undisturbed (s.chosen u) := by
  obtain ⟨epsilon, hexploration, rfl⟩ := Option.map_eq_some_iff.mp hp
  have hmem : s.epsilon = some epsilon := by
    unfold Inputs.exploration at hexploration
    split_ifs at hexploration
    exact hexploration
  obtain ⟨h0, h1⟩ := hepsilon epsilon hmem
  have hgreedy : s.greedy < s.arms := arms_eq hladder ▸ greedy_lt hladder
  have hdraws : {v | s.started v = s.started u} =
      {v | s.place (s.chosen v) = s.place (s.chosen u)} := rfl
  rw [hdraws, chosen_eq_pick hexploration]
  have hpick : pick epsilon s.arms s.greedy u < s.arms := pick_lt hgreedy u
  refine (weight_eq_prob_iff h0 h1 hgreedy s.place hpick).trans ?_
  rw [arms_eq hladder] at hpick ⊢
  exact place_injective_iff hpick

/-- Two rungs, and half of the draws are random. -/
noncomputable def sampleInputs (mode : RoutingMode) : Inputs ℝ where
  ladder := ["anthropic/small", "anthropic/large"]
  onChallenger := false
  bandit := none
  priorStrength := none
  decisionPrior := none
  features := ⟨3, .other, none, none, none, 0, 0, false, none, 0, 0, 0⟩
  prices := fun _ => none
  epsilon := some (1 / (1 + 1))
  promotion := .cold
  routingMode := mode

theorem propensity_iff_sample :
    epsilonPropensity ((sampleInputs .balanced).chosen 0) 0 (1 / (1 + 1)) 2 =
        prob {v | (sampleInputs .balanced).started v = (sampleInputs .balanced).started 0} ↔
      (sampleInputs .balanced).Undisturbed ((sampleInputs .balanced).chosen 0) := by
  refine propensity_iff (sampleInputs .balanced) 0 _ (List.cons_ne_nil _ _) ?_ rfl
  rintro epsilon heq
  cases heq
  norm_num

/-- The mode that starts at the top starts there for every draw. -/
theorem propensity_under_max :
    ¬ ∀ u p, 0 ≤ u → u < 1 → ((sampleInputs .max).choose u).propensity = some p →
        p = prob {v | (sampleInputs .max).started v = (sampleInputs .max).started u} := by
  intro h
  have hlate : ¬ (3 / 4 : ℝ) < 1 / (1 + 1) := by norm_num
  have hchosen : (sampleInputs .max).chosen (3 / 4) = 0 := if_neg hlate
  have hprob := h (3 / 4) (epsilonPropensity ((sampleInputs .max).chosen (3 / 4)) 0 (1 / (1 + 1)) 2)
    (by norm_num) (by norm_num) rfl
  have hall : {v | (sampleInputs .max).started v = (sampleInputs .max).started (3 / 4)} =
      Set.univ := Set.eq_univ_of_forall fun v => rfl
  rw [hall, prob, Set.inter_univ, Real.volume_real_Ico_of_le zero_le_one, hchosen] at hprob
  norm_num [epsilonPropensity] at hprob

end Firstpass.StartRung
