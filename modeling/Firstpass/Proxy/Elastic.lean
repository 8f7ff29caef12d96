import Firstpass.Proxy.VerifiedCache

/-!
# Elastic verification

What an answer rests on that was served without the expensive gates: the score of
the visible ones, or the rule that serves where elastic is off.
-/

namespace Firstpass

variable {F : Type} [F64 F] {ctx : EnforceCtx F}

theorem evalGates_included (ctx : EnforceCtx F) (rung : Nat) (req : ModelRequest)
    (resp : ModelResponse) (included : String → Bool) (gates : List (Gate F))
    (health : GateHealthRegistry F) :
    ∀ r ∈ (evalGates ctx rung req resp included gates health).1, included r.gateId = true := by
  induction gates generalizing health with
  | nil => simp [evalGates]
  | cons g gates ih =>
    intro r hr
    simp only [evalGates] at hr
    split at hr
    · rename_i hincluded
      split at hr
      · cases List.mem_cons.mp hr with
        | inl h => rw [h, g.evaluate_gateId]; exact hincluded
        | inr h => exact ih _ r h
      · exact ih _ r hr
    · exact ih _ r hr

/-- A pass over the gates that left the expensive ones out, under `el`. -/
structure Skipped (ctx : EnforceCtx F) (el : ElasticConfig F) (results : List (GateResult F))
    (d : ElasticDecision F) : Prop where
  elastic : ctx.elastic = some el
  visible : ∀ r ∈ results, r.gateId ∉ el.expensiveGates
  cleared : d.action = .serveSkip →
    el.lambda ≤ gateScore results (aggregateWithPolicy results (failClosedIds ctx.gates))

theorem Judged.skipped {results : List (GateResult F)} {d : ElasticDecision F}
    (h : Judged ctx idx results (some d)) (hskip : d.action ≠ .verified) :
    ∃ el, Skipped ctx el results d := by
  generalize hdecision : some d = decision at h
  cases h with
  | speculative => cases hdecision
  | serial model resp health =>
    cases hel : ctx.elastic with
    | none =>
      rw [gateSerial_of_elastic_none hel] at hdecision
      cases hdecision
    | some el =>
      have hvisible : ∀ r ∈ (evalGates ctx idx (requestFor ctx model) resp
          (fun id => !el.expensiveGates.contains id) ctx.gates health).1,
          r.gateId ∉ el.expensiveGates := by
        intro r hr
        have hincluded := evalGates_included _ _ _ _ _ _ _ r hr
        simpa using hincluded
      simp only [gateSerial, hel] at hdecision ⊢
      split at hdecision
      · rename_i hclears
        rw [if_pos hclears]
        exact ⟨el, hel, hvisible, fun _ => hclears⟩
      · rename_i hlow
        split at hdecision
        · rename_i hfloor
          rw [if_neg hlow, if_pos hfloor]
          cases hdecision
          refine ⟨el, hel, hvisible, fun hserve => ?_⟩
          cases hserve
        · cases hdecision
          exact (hskip rfl).elim

theorem serves_cases {results : List (GateResult F)} {d : ElasticDecision F}
    (h : serves ctx results (some d) = true) :
    d.action = .serveSkip ∨ shouldServe ctx.serveThreshold results
      (aggregateWithPolicy results (failClosedIds ctx.gates)) = true := by
  unfold serves at h
  split at h
  · rename_i haction
    exact .inl (Option.some.inj haction)
  · exact .inr h

theorem gateScore_bare {results : List (GateResult F)} (h : ∀ g ∈ results, g.score = none)
    (verdict : Verdict) : gateScore results verdict = if verdict = .pass then 1 else 0 := by
  have hnumeric : (results.filterMap fun g => g.score.map Score.value) = [] := by
    rw [List.filterMap_eq_nil_iff]
    intro g hg
    rw [h g hg]
    rfl
  rw [gateScore, hnumeric, if_pos rfl]

/-- Without numeric scores, and with positive thresholds, what is served has passed. -/
theorem bare_pass {results : List (GateResult F)} {lambda : F}
    (hbare : ∀ g ∈ results, g.score = none) (hlambda : ¬lambda ≤ 0)
    (hthreshold : ∀ t ∈ ctx.serveThreshold, ¬t ≤ 0)
    (h : lambda ≤ gateScore results verdict ∨
      shouldServe ctx.serveThreshold results verdict = true) : verdict = .pass := by
  by_contra hfail
  rw [gateScore_bare hbare, if_neg hfail] at h
  rcases h with h | h
  · exact hlambda h
  · unfold shouldServe at h
    split at h
    · exact hfail (of_decide_eq_true h)
    · rename_i t ht
      rw [gateScore_bare hbare, if_neg hfail] at h
      exact hthreshold t ht (of_decide_eq_true h)

/-- What was served without the expensive gates is a score that reached `lambda`, or
what the ordinary rule serves; where no visible gate gave a number, none blocked. -/
theorem elastic_skip_evidence (ctx : EnforceCtx F) (first second : Surroundings)
    (health : GateHealthRegistry F) (traceId ts : String) (d : ElasticDecision F)
    (hfrom : (routeEnforce ctx first second health traceId ts).trace.final.servedFrom = .attempt)
    (hdecision : (routeEnforce ctx first second health traceId ts).trace.elastic = some d)
    (hskip : d.action ≠ .verified) :
    ∃ el a, ctx.elastic = some el ∧
      ServedAttempt (routeEnforce ctx first second health traceId ts).trace a ∧
      (∀ g ∈ a.gates, g.gateId ∉ el.expensiveGates) ∧
      (el.lambda ≤ gateScore a.gates a.verdict ∨
        shouldServe ctx.serveThreshold a.gates a.verdict = true) ∧
      ((∀ g ∈ a.gates, g.score = none) → ¬el.lambda ≤ 0 →
        (∀ t ∈ ctx.serveThreshold, ¬t ≤ 0) →
        (∀ g ∈ a.gates, Clears ctx.gates g) ∧
          ((∃ g ∈ a.gates, g.verdict ≠ .abstain) → ∃ g ∈ a.gates, g.verdict = .pass)) := by
  obtain ⟨rung, resp, hrung, _, _, htrace⟩ := serveDecision_attempt hfrom
  obtain ⟨run, hrun, earlier, a, resp', hat, rfl, _, ⟨hverdict, hjudged⟩, hserves⟩ :=
    runLadder_served hrung
  have hsame : run.elastic = ctx.elastic ∧ run.gates = ctx.gates ∧
      run.serveThreshold = ctx.serveThreshold := by
    cases hrun <;> exact ⟨rfl, rfl, rfl⟩
  obtain ⟨helastic, hgates, hthreshold⟩ := hsame
  rw [show (runLadder ctx first second health).elastic = some d from hdecision] at hjudged hserves
  obtain ⟨el, hel, hvisible, hcleared⟩ := hjudged.skipped hskip
  have hlast : (routeEnforce ctx first second health traceId ts).trace.attempts.getLast? =
      some a := by
    rw [show (routeEnforce ctx first second health traceId ts).trace.attempts = _ from hat]
    exact List.getLast?_concat
  have hrule : el.lambda ≤ gateScore a.gates a.verdict ∨
      shouldServe ctx.serveThreshold a.gates a.verdict = true := by
    rw [hverdict, ← hthreshold]
    exact (serves_cases hserves).imp_left hcleared
  refine ⟨el, a, helastic ▸ hel, ⟨hlast, htrace⟩, hvisible, hrule, fun hbare hlambda hpos => ?_⟩
  have hpass := bare_pass hbare hlambda hpos hrule
  have hclears : ∀ g ∈ a.gates, Clears ctx.gates g := by
    rw [hverdict, hgates] at hpass
    exact aggregateWithPolicy_eq_pass.mp hpass
  refine ⟨hclears, fun ⟨g, hg, hspoke⟩ => ⟨g, hg, ?_⟩⟩
  cases hv : g.verdict with
  | pass => rfl
  | fail => exact ((hclears g hg).1 hv).elim
  | abstain => exact (hspoke hv).elim

-- ---------------------------------------------------------------------------
-- A ladder with one expensive gate
-- ---------------------------------------------------------------------------

/-- A gate with the same verdict on every answer. -/
def constantGate (id : String) (verdict : Verdict) (score : Option (Score ℚ)) : Gate ℚ where
  id := id
  evaluate _ _ _ := { GateResult.abstain id "" 0 with verdict, score, reason := none }
  abstainFailsClosed := true
  evaluate_gateId _ _ _ := rfl

def elasticCtx (visible : List (Gate ℚ)) : EnforceCtx ℚ :=
  { sampleCtx with
    gates := visible ++ [constantGate "judge" .fail none]
    speculation := 0
    elastic := some ⟨["judge"], 0.5, none, none, none⟩ }

def fullScore : Score ℚ := ⟨1, by decide, by decide⟩

def elasticTrace (visible : List (Gate ℚ)) : Trace ℚ :=
  (routeEnforce (elasticCtx visible) ⟨fun _ => 7, sampleSchedule⟩ ⟨fun _ => 7, sampleSchedule⟩
    sampleHealth "t" "now").trace

/-- A full score serves past the expensive gate, although a visible gate failed. -/
theorem elastic_skip_on_fail :
    let trace := elasticTrace
      [constantGate "schema" .fail none, constantGate "style" .pass (some fullScore)]
    trace.final.servedFrom = .attempt ∧
      trace.elastic.map ElasticDecision.action = some .serveSkip ∧
      (trace.attempts.map fun a => a.gates.map fun g => (g.gateId, g.verdict)) =
        [[("schema", .fail), ("style", .pass)]] := by
  refine ⟨by decide +kernel, by decide +kernel, by decide +kernel⟩

theorem elastic_skip_evidence_pass :
    ∃ el a, (elasticCtx [constantGate "schema" .pass none]).elastic = some el ∧
      ServedAttempt (elasticTrace [constantGate "schema" .pass none]) a ∧
      ∀ g ∈ a.gates, g.gateId ∉ el.expensiveGates := by
  have haction : (elasticTrace [constantGate "schema" .pass none]).elastic.map
      ElasticDecision.action = some .serveSkip := by decide +kernel
  obtain ⟨d, hd, hskip⟩ := Option.map_eq_some_iff.mp haction
  obtain ⟨el, a, hel, hserved, hvisible, -⟩ :=
    elastic_skip_evidence (elasticCtx [constantGate "schema" .pass none])
      ⟨fun _ => 7, sampleSchedule⟩ ⟨fun _ => 7, sampleSchedule⟩ sampleHealth "t" "now" d
      (by decide +kernel) hd (by rw [hskip]; decide)
  exact ⟨el, a, hel, hserved, hvisible⟩

end Firstpass
