import Firstpass.Proxy.ConfigParse
import Firstpass.Proxy.Replay
import Mathlib.Data.List.GetD

/-!
# Rehearsing a policy

`ope_from_store` replays a candidate policy on the stored traces of a tenant and reports what it
would have cost and how often it would have failed, with an interval from a thousand resamples.
`report_bounded`: the report counts no trace twice, its shares are shares, and its intervals lie
in order between the least and the greatest value seen.

Amounts are exact.
-/

namespace Firstpass.Ope

variable {F : Type} [F64 F]

def CandidatePolicy.fromToml (std : StdLib F)
    (decode : String → Except String (ConfigFile.Config F)) (toml : String) :
    Except ConfigFile.ParseError (CandidatePolicy F) := do
  let config ← ConfigFile.Config.parse std decode toml
  .ok ⟨(config.routes.head?.map fun r => r.ladder).getD [], config.escalation.serveThreshold⟩

-- ---------------------------------------------------------------------------
-- Resampling
-- ---------------------------------------------------------------------------

/-- The next word, and the state after it. -/
def splitmix64 : StateM (BitVec 64) (BitVec 64) := fun state =>
  let state := state + 0x9E3779B97F4A7C15#64
  let z := (state ^^^ (state >>> 30)) * 0xBF58476D1CE4E5B9#64
  let z := (z ^^^ (z >>> 27)) * 0x94D049BB133111EB#64
  (z ^^^ (z >>> 31), state)

def randUsize (n : Nat) : StateM (BitVec 64) Nat := return (← splitmix64).toNat % n

/-- So many values, each drawn anew. The index is never out of bounds. -/
def drawn {α : Type} (values : List α) : Nat → StateM (BitVec 64) (List α)
  | 0 => return []
  | n + 1 => return values[← randUsize values.length]?.toList ++ (← drawn values n)

/-- The statistic of each resample, of as many values as there are. -/
def resampled {α β : Type} (values : List α) (statistic : List α → β) :
    Nat → StateM (BitVec 64) (List β)
  | 0 => return []
  | n + 1 => return statistic (← drawn values values.length) :: (← resampled values statistic n)

/-- The 2.5 and the 97.5 percentile of the resamples. -/
def percentiles (resamples : List F) : F × F :=
  let sorted := resamples.mergeSort fun a b => decide (a ≤ b)
  let n := resamples.length
  (sorted.getD (n * 25 / 1000) 0, sorted.getD (min (n * 975 / 1000) (n - 1)) 0)

def bootstrapMeanCi (values : List F) (nResamples : Nat) (seed : BitVec 64) : F × F :=
  if values = [] then (0, 0)
  else percentiles ((resampled values (fun s => F64.sum s / values.length) nResamples).run' seed)

def failures (correct : List Bool) : Nat := correct.countP fun c => !c

def bootstrapFailureCi (correct : List Bool) (nResamples : Nat) (seed : BitVec 64) : F × F :=
  if correct = [] then (0, 0)
  else percentiles
    ((resampled correct (fun s => (failures s / correct.length : F)) nResamples).run' seed)

-- ---------------------------------------------------------------------------
-- The report
-- ---------------------------------------------------------------------------

structure OpeReport (F : Type) where
  nTraces : Nat
  nEvaluable : Nat
  coverage : F
  estCostPerRequest : F
  loggedCostPerRequest : F
  estServedFailure : Option F
  nCorrectnessKnown : Nat
  escalationRate : F
  ciCost : F × F
  ciServedFailure : Option (F × F)

structure EvalPoint (F : Type) where
  candidateCost : F
  loggedCost : F
  correctness : Option Bool
  escalated : Bool

def mean (points : List (EvalPoint F)) (f : EvalPoint F → F) : F :=
  if points = [] then 0 else F64.sum (points.map f) / points.length

def buildReport (nTraces : Nat) (points : List (EvalPoint F)) : OpeReport F :=
  let nEvaluable := points.length
  let coverage : F := if nTraces = 0 then 1 else nEvaluable / nTraces
  if points = [] then ⟨nTraces, 0, coverage, 0, 0, none, 0, 0, (0, 0), none⟩
  else
    let known := points.filterMap EvalPoint.correctness
    { nTraces := nTraces
      nEvaluable := nEvaluable
      coverage := coverage
      estCostPerRequest := mean points EvalPoint.candidateCost
      loggedCostPerRequest := mean points EvalPoint.loggedCost
      estServedFailure :=
        if known = [] then none else some (failures known / known.length)
      nCorrectnessKnown := known.length
      escalationRate := (points.countP EvalPoint.escalated : F) / nEvaluable
      ciCost := bootstrapMeanCi (points.map EvalPoint.candidateCost) 1000 42
      ciServedFailure := if known = [] then none else some (bootstrapFailureCi known 1000 43) }

def isIncumbent (t : Trace F) : Bool := t.experiment.all fun e => e.arm ≠ .challenger

/-- What a trace adds to the report, for its feedback. Its last verdict says whether the answer
was right, where the candidate serves the same model. -/
def evalPoint (policy : CandidatePolicy F) (deferred : List (DeferredVerdict F)) (t : Trace F) :
    Option (EvalPoint F) :=
  match replayTrace t policy with
  | .unevaluable => none
  | .evaluated cost servedModel logged => some
    { candidateCost := cost
      loggedCost := t.final.totalCostUsd
      correctness :=
        if servedModel.isSome ∧ servedModel = logged then
          deferred.getLast?.map fun d => d.verdict = .pass
        else none
      escalated := policy.ladder.head?.any fun first => servedModel ≠ some first }

/-- The traces of the tenant are given, and how feedback is found. -/
def opeFromStore (traces : List (Trace F)) (loadDeferred : String → List (DeferredVerdict F))
    (policy : CandidatePolicy F) : OpeReport F :=
  let traces := traces.filter isIncumbent
  buildReport traces.length (traces.filterMap fun t => evalPoint policy (loadDeferred t.traceId) t)

def OpeReport.render (std : StdLib F) (r : OpeReport F) : String :=
  "traces: " ++ toString r.nTraces ++ "  evaluable: " ++ toString r.nEvaluable ++ "  coverage: " ++
    std.fixed 3 r.coverage ++ "\nn_correctness_known: " ++ toString r.nCorrectnessKnown ++
    "\nest cost/request:    $" ++ std.fixed 6 r.estCostPerRequest ++ "  (logged: $" ++
    std.fixed 6 r.loggedCostPerRequest ++ ")\ncost CI [2.5%, 97.5%]: [$" ++
    std.fixed 6 r.ciCost.1 ++ ", $" ++ std.fixed 6 r.ciCost.2 ++ "]\nescalation rate: " ++
    std.fixed 4 r.escalationRate ++ "\n" ++
    (match r.estServedFailure with
    | some f =>
      let ci := r.ciServedFailure.getD (f, f)
      "est served-failure: " ++ std.fixed 4 f ++ "  CI [" ++ std.fixed 4 ci.1 ++ ", " ++
        std.fixed 4 ci.2 ++ "]\n"
    | none =>
      "est served-failure: n/a (no deferred feedback on same-rung evaluable traces)\n") ++
    "\nreplay of logged outcomes (direct method); rungs never logged are not guessed — see " ++
    "coverage.\n"

-- ---------------------------------------------------------------------------
-- Resamples
-- ---------------------------------------------------------------------------

section resamples
variable {α β : Type} {values : List α}

/-- A resample has as many values, all of them among those it is drawn from. -/
theorem drawn_spec (hvalues : values ≠ []) (n : Nat) (state : BitVec 64) :
    ((drawn values n).run state).1.length = n ∧ ((drawn values n).run state).1 ⊆ values := by
  induction n generalizing state with
  | zero => exact ⟨rfl, List.nil_subset _⟩
  | succ n ih =>
    obtain ⟨hlength, hsubset⟩ := ih (splitmix64 state).2
    have hlt : (splitmix64 state).1.toNat % values.length < values.length :=
      Nat.mod_lt _ (List.length_pos_iff.mpr hvalues)
    have hrun : ((drawn values (n + 1)).run state).1 =
        values[(splitmix64 state).1.toNat % values.length] ::
          ((drawn values n).run (splitmix64 state).2).1 := by
      rw [← List.singleton_append, ← Option.toList_some, ← List.getElem?_eq_getElem hlt]
      rfl
    rw [hrun]
    exact ⟨congrArg Nat.succ hlength, List.cons_subset.mpr ⟨List.getElem_mem hlt, hsubset⟩⟩

theorem resampled_spec (hvalues : values ≠ []) (statistic : List α → β) (n : Nat)
    (state : BitVec 64) :
    ((resampled values statistic n).run state).1.length = n ∧
      ∀ x ∈ ((resampled values statistic n).run state).1,
        ∃ s, s.length = values.length ∧ s ⊆ values ∧ x = statistic s := by
  induction n generalizing state with
  | zero => exact ⟨rfl, fun x hx => absurd hx List.not_mem_nil⟩
  | succ n ih =>
    obtain ⟨hlength, hsubset⟩ := drawn_spec hvalues values.length state
    obtain ⟨hlength', hrest⟩ := ih ((drawn values values.length).run state).2
    refine ⟨congrArg Nat.succ hlength', fun x hx => ?_⟩
    rcases List.mem_cons.mp hx with rfl | hx
    · exact ⟨_, hlength, hsubset, rfl⟩
    · exact hrest x hx

end resamples

/-- An interval in order, inside the bounds. -/
def Inside (lo hi : ℚ) (ci : ℚ × ℚ) : Prop := lo ≤ ci.1 ∧ ci.1 ≤ ci.2 ∧ ci.2 ≤ hi

theorem percentiles_inside {resamples : List ℚ} (hne : resamples ≠ [])
    (h : ∀ x ∈ resamples, lo ≤ x ∧ x ≤ hi) : Inside lo hi (percentiles resamples) := by
  have hpos := List.length_pos_iff.mpr hne
  let sorted := resamples.mergeSort fun a b => decide (a ≤ b)
  have hlength : sorted.length = resamples.length := List.length_mergeSort _
  have hsorted : sorted.Pairwise (· ≤ ·) := by
    simpa using @List.pairwise_mergeSort ℚ (fun a b => decide (a ≤ b))
      (by simpa using fun _ _ _ => le_trans) (by simpa using le_total) resamples
  obtain ⟨hi', hj', hij⟩ : resamples.length * 25 / 1000 < sorted.length ∧
      min (resamples.length * 975 / 1000) (resamples.length - 1) < sorted.length ∧
        resamples.length * 25 / 1000 ≤
          min (resamples.length * 975 / 1000) (resamples.length - 1) := by
    omega
  have hpair : percentiles resamples = (sorted[resamples.length * 25 / 1000],
      sorted[min (resamples.length * 975 / 1000) (resamples.length - 1)]) :=
    Prod.ext (List.getD_eq_getElem _ _ hi') (List.getD_eq_getElem _ _ hj')
  have hmem (i : Nat) (hi : i < sorted.length) :=
    h sorted[i] (List.mem_mergeSort.mp (List.getElem_mem hi))
  rw [hpair]
  refine ⟨(hmem _ hi').1, ?_, (hmem _ hj').2⟩
  rcases hij.lt_or_eq with hlt | heq
  · exact List.pairwise_iff_getElem.mp hsorted _ _ hi' hj' hlt
  · simp only [heq, le_refl]

/-- An average lies between what it is taken over. -/
theorem average_bounds {xs : List ℚ} (hne : xs ≠ []) (h : ∀ x ∈ xs, lo ≤ x ∧ x ≤ hi) :
    lo ≤ F64.sum xs / xs.length ∧ F64.sum xs / xs.length ≤ hi := by
  have hpos : (0 : ℚ) < xs.length := by exact_mod_cast List.length_pos_iff.mpr hne
  have hsum : F64.sum xs = xs.sum := List.sum_eq_foldl.symm
  have hlow := List.card_nsmul_le_sum xs lo fun x hx => (h x hx).1
  have hhigh := List.sum_le_card_nsmul xs hi fun x hx => (h x hx).2
  rw [nsmul_eq_mul] at hlow hhigh
  rw [hsum, le_div_iff₀ hpos, div_le_iff₀ hpos, mul_comm lo, mul_comm hi]
  exact ⟨hlow, hhigh⟩

theorem share_bounds {a b : Nat} (h : a ≤ b) : (0 : ℚ) ≤ (a : ℚ) / b ∧ (a : ℚ) / b ≤ 1 :=
  ⟨by positivity, div_le_one_of_le₀ (by exact_mod_cast h) (Nat.cast_nonneg b)⟩

theorem bootstrapMeanCi_inside {values : List ℚ} (hne : values ≠ [])
    (h : ∀ x ∈ values, lo ≤ x ∧ x ≤ hi) {n : Nat} (hn : n ≠ 0) (seed : BitVec 64) :
    Inside lo hi (bootstrapMeanCi values n seed) := by
  obtain ⟨hlength, hmeans⟩ :=
    resampled_spec hne (fun s => F64.sum s / (values.length : ℚ)) n seed
  rw [bootstrapMeanCi, if_neg hne]
  refine percentiles_inside
    (List.ne_nil_of_length_pos ((Nat.pos_of_ne_zero hn).trans_eq hlength.symm)) fun x hx => ?_
  obtain ⟨s, hs, hsub, rfl⟩ := hmeans x hx
  rw [← hs]
  exact average_bounds (List.ne_nil_of_length_pos (hs ▸ List.length_pos_iff.mpr hne))
    fun x hx => h x (hsub hx)

theorem bootstrapFailureCi_inside {correct : List Bool} (hne : correct ≠ []) {n : Nat} (hn : n ≠ 0)
    (seed : BitVec 64) : Inside 0 1 (bootstrapFailureCi correct n seed) := by
  obtain ⟨hlength, hrates⟩ :=
    resampled_spec hne (fun s => (failures s / correct.length : ℚ)) n seed
  rw [bootstrapFailureCi, if_neg hne]
  refine percentiles_inside
    (List.ne_nil_of_length_pos ((Nat.pos_of_ne_zero hn).trans_eq hlength.symm)) fun x hx => ?_
  obtain ⟨s, hs, -, rfl⟩ := hrates x hx
  exact share_bounds (hs ▸ List.countP_le_length)

-- ---------------------------------------------------------------------------
-- The report
-- ---------------------------------------------------------------------------

/-- No trace counts twice, a share is one, and an estimate and its interval lie between the least
and the greatest value seen. -/
structure OpeReport.Bounded (r : OpeReport ℚ) (nTraces : Nat) (costs : List ℚ) : Prop where
  traces : r.nTraces ≤ nTraces
  evaluable : r.nEvaluable ≤ r.nTraces
  known : r.nCorrectnessKnown ≤ r.nEvaluable
  coverage : 0 ≤ r.coverage ∧ r.coverage ≤ 1
  escalationRate : 0 ≤ r.escalationRate ∧ r.escalationRate ≤ 1
  cost : costs ≠ [] → ∀ lo hi, (∀ c ∈ costs, lo ≤ c ∧ c ≤ hi) →
    lo ≤ r.estCostPerRequest ∧ r.estCostPerRequest ≤ hi ∧ Inside lo hi r.ciCost
  failure : ∀ f ∈ r.estServedFailure, 0 ≤ f ∧ f ≤ 1
  failureCi : r.ciServedFailure.isSome = r.estServedFailure.isSome ∧
    ∀ ci ∈ r.ciServedFailure, Inside 0 1 ci
  feedback : r.estServedFailure.isSome ↔ 0 < r.nCorrectnessKnown

theorem buildReport_bounded {n : Nat} {points : List (EvalPoint ℚ)} (h : points.length ≤ n) :
    (buildReport n points).Bounded n (points.map EvalPoint.candidateCost) := by
  have hcoverage : 0 ≤ (if n = 0 then 1 else points.length / n : ℚ) ∧
      (if n = 0 then 1 else points.length / n : ℚ) ≤ 1 := by
    split
    · exact ⟨zero_le_one, le_rfl⟩
    · exact share_bounds h
  have hknown : (points.filterMap EvalPoint.correctness).length ≤ points.length :=
    List.length_filterMap_le _ _
  by_cases hpoints : points = []
  · subst hpoints
    refine ⟨le_rfl, Nat.zero_le _, le_rfl, hcoverage, ⟨le_rfl, zero_le_one⟩, ?_, ?_, ?_, ?_⟩
    · exact fun hne => absurd rfl hne
    · simp [buildReport]
    · simp [buildReport]
    · simp [buildReport]
  · have hcosts : points.map EvalPoint.candidateCost ≠ [] := by simpa using hpoints
    rw [buildReport, if_neg hpoints]
    refine ⟨le_rfl, h, hknown, hcoverage, share_bounds List.countP_le_length, ?_, ?_, ?_, ?_⟩
    · intro _ lo hi hbounds
      have hmean := average_bounds hcosts hbounds
      rw [List.length_map] at hmean
      simp only [mean, if_neg hpoints]
      exact ⟨hmean.1, hmean.2, bootstrapMeanCi_inside hcosts hbounds (by simp) 42⟩
    · intro f hf
      simp only [Option.mem_def, Option.ite_none_left_eq_some, Option.some.injEq] at hf
      obtain ⟨-, rfl⟩ := hf
      exact share_bounds List.countP_le_length
    · generalize points.filterMap EvalPoint.correctness = known
      by_cases hknown : known = []
      · simp [hknown]
      · simp [hknown, bootstrapFailureCi_inside hknown]
    · generalize points.filterMap EvalPoint.correctness = known
      by_cases hknown : known = []
      · simp [hknown]
      · simp [hknown, List.length_pos_iff]

/-- The points of a rehearsal. -/
def evalPoints (traces : List (Trace ℚ)) (loadDeferred : String → List (DeferredVerdict ℚ))
    (policy : CandidatePolicy ℚ) : List (EvalPoint ℚ) :=
  (traces.filter isIncumbent).filterMap fun t => evalPoint policy (loadDeferred t.traceId) t

/-- Whatever is stored and whatever the candidate is. -/
theorem report_bounded (traces : List (Trace ℚ))
    (loadDeferred : String → List (DeferredVerdict ℚ)) (policy : CandidatePolicy ℚ) :
    (opeFromStore traces loadDeferred policy).Bounded traces.length
      ((evalPoints traces loadDeferred policy).map EvalPoint.candidateCost) := by
  have hbounded : (opeFromStore traces loadDeferred policy).Bounded
      (traces.filter isIncumbent).length
      ((evalPoints traces loadDeferred policy).map EvalPoint.candidateCost) :=
    buildReport_bounded (List.length_filterMap_le _ _)
  exact { hbounded with traces := hbounded.traces.trans (List.length_filter_le _ _) }

end Firstpass.Ope
