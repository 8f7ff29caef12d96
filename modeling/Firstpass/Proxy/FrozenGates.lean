import Firstpass.Proxy.SteadyGates

/-!
# Gates that repeat themselves

Gates that report what others did report, whatever they are asked, serve what the others
served.
-/

namespace Firstpass.Lockstep

variable {F : Type} [F64 F]

/-- A result without its reason. -/
def unreasoned (r : GateResult F) : GateResult F := { r with reason := none }

/-- The gate that reports what `g` reports on one call. -/
def frozen (idx : Nat) (asks : ModelRequest) (resp : ModelResponse) (g : Gate F) : Gate F where
  id := g.id
  evaluate _ _ _ := unreasoned (g.evaluate idx asks resp)
  abstainFailsClosed := g.abstainFailsClosed
  evaluate_gateId _ _ _ := g.evaluate_gateId idx asks resp

variable {ctx : EnforceCtx F} {idx idx' : Nat} {asks asks' : ModelRequest}
  {resp resp' : ModelResponse} {gates : List (Gate F)} {results : List (GateResult F)}

theorem map_id_frozen : (gates.map (frozen idx asks resp)).map Gate.id = gates.map Gate.id := by
  rw [List.map_map]
  rfl

theorem failClosedIds_frozen :
    failClosedIds (gates.map (frozen idx asks resp)) = failClosedIds gates := by
  rw [failClosedIds, failClosedIds, List.filter_map, List.map_map]
  rfl

theorem aggregate_unreasoned {failClosed : List String} :
    aggregateWithPolicy (results.map unreasoned) failClosed =
      aggregateWithPolicy results failClosed := by
  rw [aggregateWithPolicy, aggregateWithPolicy, List.any_map]
  rfl

theorem gateScore_unreasoned {verdict : Verdict} :
    gateScore (results.map unreasoned) verdict = gateScore results verdict := by
  rw [gateScore_numbers, gateScore_numbers, numbers, numbers, List.filterMap_map]
  rfl

theorem shouldServe_unreasoned {threshold : Option F} {verdict : Verdict} :
    shouldServe threshold (results.map unreasoned) verdict =
      shouldServe threshold results verdict := by
  cases threshold with
  | none => rfl
  | some t => simp only [shouldServe, gateScore_unreasoned]

/-- A pass over frozen gates is the pass they were frozen from. -/
theorem evalGates_frozen {A : EnforceCtx F} (htenant : A.tenantId = ctx.tenantId)
    (included : String → Bool) (health : GateHealthRegistry F) :
    evalGates A idx' asks' resp' included (gates.map (frozen idx asks resp)) health =
      ((evalGates ctx idx asks resp included gates health).1.map unreasoned,
        (evalGates ctx idx asks resp included gates health).2) := by
  induction gates generalizing health with
  | nil => rfl
  | cons g gates ih =>
    rw [List.map_cons, evalGates, evalGates, htenant,
      show (frozen idx asks resp g).id = g.id from rfl]
    dsimp only
    split_ifs
    · rw [ih]
      rfl
    · exact ih _
    · exact ih _

theorem serves_unreasoned {A : EnforceCtx F} (hthreshold : A.serveThreshold = ctx.serveThreshold)
    (hgates : A.gates = ctx.gates.map (frozen idx asks resp))
    (decision : Option (ElasticDecision F)) :
    serves A (results.map unreasoned) decision = serves ctx results decision := by
  have hordinary : shouldServe A.serveThreshold (results.map unreasoned)
      (aggregateWithPolicy (results.map unreasoned) (failClosedIds A.gates)) =
      shouldServe ctx.serveThreshold results
        (aggregateWithPolicy results (failClosedIds ctx.gates)) := by
    rw [hthreshold, hgates, failClosedIds_frozen, aggregate_unreasoned, shouldServe_unreasoned]
  rw [serves, serves, hordinary]

/-- Frozen gates serve what was served. -/
theorem served_frozen {A : EnforceCtx F} (htenant : A.tenantId = ctx.tenantId)
    (hthreshold : A.serveThreshold = ctx.serveThreshold) (helastic : A.elastic = ctx.elastic)
    (hgates : A.gates = ctx.gates.map (frozen idx asks resp)) (health : GateHealthRegistry F) :
    Judgment.served A (gateSerial A idx' asks' resp' health) =
      Judgment.served ctx (gateSerial ctx idx asks resp health) := by
  have heval : ∀ included health,
      evalGates A idx' asks' resp' included (ctx.gates.map (frozen idx asks resp)) health =
        ((evalGates ctx idx asks resp included ctx.gates health).1.map unreasoned,
          (evalGates ctx idx asks resp included ctx.gates health).2) :=
    fun included health => evalGates_frozen htenant included health
  rw [Judgment.served, Judgment.served, gateSerial, gateSerial, helastic, hgates]
  cases ctx.elastic with
  | none =>
    simp only [heval]
    exact serves_unreasoned hthreshold hgates _
  | some el =>
    simp only [heval, failClosedIds_frozen, aggregate_unreasoned, gateScore_unreasoned]
    split_ifs
    · exact serves_unreasoned hthreshold hgates _
    · exact serves_unreasoned hthreshold hgates _
    · rw [← List.map_append]
      exact serves_unreasoned hthreshold hgates _

end Firstpass.Lockstep
