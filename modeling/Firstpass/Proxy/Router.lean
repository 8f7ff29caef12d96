import Firstpass.Core.Cost
import Firstpass.Core.Trace
import Firstpass.Proxy.Gate

/-!
# The enforce-mode escalation engine

Cheapest rung first: call the model, gate the output, serve the first output
that passes, escalate one rung otherwise. `runSerial` takes one rung at a time;
`runSpeculative` prefetches rungs and gates them in ladder order.

What the code reads from its surroundings is an argument: the gate-health
registry, the measured times and the scheduling of the spawned tasks. The log
of provider calls is kept for the proofs and read by nothing here.
-/

namespace Firstpass

variable {F : Type} [F64 F]

structure ElasticConfig (F : Type) where
  expensiveGates : List String
  lambda : F
  alpha : Option F
  delta : Option F
  calibrationId : Option String

structure EnforceCtx (F : Type) [F64 F] where
  condense : Option CondenseConfig
  ladder : List String
  gates : List (Gate F)
  baseRequest : ModelRequest
  providers : ProviderRegistry
  auth : Auth
  prices : PriceTable F
  budgetPerRequestUsd : Option F
  maxRungs : Nat
  speculation : Nat
  serveThreshold : Option F
  elastic : Option (ElasticConfig F)
  features : Features
  startRung : Nat
  tenantId : String
  sessionId : String
  promptHash : String
  api : String
  policyId : String

inductive EngineOutcome
  | served (resp : ModelResponse)
  | failed (msg : String)

/-- The ladder state both engines produce. -/
structure LadderRun (F : Type) [F64 F] where
  attempts : List (Attempt F)
  spent : F
  gateCostTotal : F
  best : Option (Nat × ModelResponse)
  servedRung : Option Nat
  hardError : Option String
  elastic : Option (ElasticDecision F)

/-- What happens at the providers: a call is made, its answer is consumed. -/
inductive ProviderEvent
  | call (rung : Nat)
  | answer (rung : Nat) (result : Except ProviderError ModelResponse)

structure LoopState (F : Type) [F64 F] extends LadderRun F where
  health : GateHealthRegistry F
  log : List ProviderEvent

def LoopState.init (health : GateHealthRegistry F) : LoopState F where
  attempts := []
  spent := 0
  gateCostTotal := 0
  best := none
  servedRung := none
  hardError := none
  elastic := none
  health := health
  log := []

inductive Flow
  | next
  | stop
  deriving DecidableEq

-- ---------------------------------------------------------------------------
-- One rung
-- ---------------------------------------------------------------------------

def shouldServe (serveThreshold : Option F) (gateResults : List (GateResult F))
    (verdict : Verdict) : Bool :=
  match serveThreshold with
  | none => verdict = .pass
  | some t => t ≤ gateScore gateResults verdict

/-- The gates `included`, in order, less those the error budget has disabled. -/
def evalGates (ctx : EnforceCtx F) (rung : Nat) (req : ModelRequest) (resp : ModelResponse)
    (included : String → Bool) : List (Gate F) → GateHealthRegistry F →
      List (GateResult F) × GateHealthRegistry F
  | [], health => ([], health)
  | g :: gates, health =>
    if included g.id then
      let enabled := health.enabled ctx.tenantId g.id
      if enabled.1 then
        let r := g.evaluate rung req resp
        let health := enabled.2.record ctx.tenantId g.id (r.verdict = .abstain)
        let out := evalGates ctx rung req resp included gates health
        (r :: out.1, out.2)
      else evalGates ctx rung req resp included gates enabled.2
    else evalGates ctx rung req resp included gates health

def resolveProvider (ctx : EnforceCtx F) (model : String) : Option Provider :=
  match ModelRef.parse model with
  | .ok m => ctx.providers.get m.provider
  | .error _ => none

def requestFor (ctx : EnforceCtx F) (model : String) : ModelRequest :=
  { ctx.baseRequest with model }

def abstainAttempt (rung : Nat) (model provider reason : String) (ms : Nat) : Attempt F where
  rung := rung
  model := model
  provider := provider
  inTokens := 0
  cacheWriteTokens := 0
  cacheReadTokens := 0
  outTokens := 0
  costUsd := 0
  latencyMs := ms
  gates := [.abstain provider reason ms]
  verdict := .abstain
  truncated := false

def hardReason : ProviderError → String × String
  | .http status _ => (Reason.providerError, "upstream http " ++ toString status)
  | .decode _ => (Reason.providerError, "upstream decode error")
  | .transport _ => (Reason.providerError, "upstream transport error")

/-- The cost of a response, zero for a model without a price. -/
def modelCost (ctx : EnforceCtx F) (model : String) (resp : ModelResponse) : F :=
  match ctx.prices.costUsdWithCache model resp.inTokens resp.cacheWriteTokens
    resp.cacheReadTokens resp.outTokens with
  | .ok cost => cost
  | .error _ => 0

def LoopState.abstain (s : LoopState F) (rung : Nat) (model provider reason : String) (ms : Nat) :
    LoopState F :=
  { s with attempts := s.attempts ++ [abstainAttempt rung model provider reason ms] }

def LoopState.gated (s : LoopState F) (rung : Nat) (model provider : String)
    (resp : ModelResponse) (ms : Nat) (cost : F) (gates : List (GateResult F))
    (verdict : Verdict) : LoopState F :=
  let gc := F64.sum (gates.map GateResult.costUsd)
  { s with
    attempts := s.attempts ++ [{
      rung := rung
      model := model
      provider := provider
      inTokens := resp.inTokens
      cacheWriteTokens := resp.cacheWriteTokens
      cacheReadTokens := resp.cacheReadTokens
      outTokens := resp.outTokens
      costUsd := cost
      latencyMs := ms
      gates := gates
      verdict := verdict
      truncated := resp.truncated }]
    spent := s.spent + cost + gc
    gateCostTotal := s.gateCostTotal + gc
    best := some (rung, resp) }

def overBudget (ctx : EnforceCtx F) (spent : F) : Bool :=
  match ctx.budgetPerRequestUsd with
  | some cap => cap ≤ spent
  | none => false

def startOf (ctx : EnforceCtx F) : Nat := min ctx.startRung (ctx.ladder.length - 1)

def rungEnd (ctx : EnforceCtx F) : Nat :=
  startOf ctx + min ctx.maxRungs (ctx.ladder.length - startOf ctx)

def rungsFrom (ctx : EnforceCtx F) (idx : Nat) : List String :=
  (ctx.ladder.drop idx).take (rungEnd ctx - idx)

/-- After a gated attempt: serve it, stop where the budget is spent and a next
rung exists, or escalate. -/
def LoopState.conclude (s : LoopState F) (ctx : EnforceCtx F) (idx : Nat) (serve : Bool) :
    LoopState F × Flow :=
  if serve then ({ s with servedRung := some idx }, .stop)
  else if overBudget ctx s.spent && idx + 1 < rungEnd ctx then (s, .stop)
  else (s, .next)

-- ---------------------------------------------------------------------------
-- The serial engine
-- ---------------------------------------------------------------------------

/-- The gates of one rung. With elastic, the expensive ones run only where the
score of the visible ones is between the floor and the threshold. -/
def gateSerial (ctx : EnforceCtx F) (rung : Nat) (req : ModelRequest) (resp : ModelResponse)
    (health : GateHealthRegistry F) :
    List (GateResult F) × Option (ElasticDecision F) × GateHealthRegistry F :=
  let expensive := match ctx.elastic with
    | some e => e.expensiveGates
    | none => []
  let isExpensive (id : String) : Bool := expensive.contains id
  let visible := evalGates ctx rung req resp (fun id => !isExpensive id) ctx.gates health
  match ctx.elastic with
  | none => (visible.1, none, visible.2)
  | some el =>
    let visVerdict := aggregateWithPolicy visible.1 (failClosedIds ctx.gates)
    let signal := gateScore visible.1 visVerdict
    let decision (action : ElasticAction) : ElasticDecision F :=
      ⟨action, signal, el.lambda, el.alpha, el.delta, el.calibrationId⟩
    if el.lambda ≤ signal then (visible.1, some (decision .serveSkip), visible.2)
    else if signal ≤ 0 then (visible.1, some (decision .escalateNow), visible.2)
    else
      let exp := evalGates ctx rung req resp isExpensive ctx.gates visible.2
      (visible.1 ++ exp.1, some (decision .verified), exp.2)

def serialRung (ctx : EnforceCtx F) (elapsed : Nat → Nat) (idx : Nat) (model : String)
    (s : LoopState F) : LoopState F × Flow :=
  match resolveProvider ctx model with
  | none => (s.abstain idx model "unknown" Reason.providerError (elapsed idx), .next)
  | some provider =>
    let req := requestFor ctx model
    let result := provider.complete idx req ctx.auth
    let s : LoopState F := { s with
      log := s.log ++ [ProviderEvent.call idx, ProviderEvent.answer idx result] }
    let ms := elapsed idx
    match result with
    | .error err =>
      if err.isFailoverEligible then
        (s.abstain idx model provider.id Reason.providerError ms, .next)
      else if isContextOverflow err then
        (s.abstain idx model provider.id Reason.contextOverflow ms, .next)
      else
        let hard := hardReason err
        ({ s.abstain idx model provider.id hard.1 ms with hardError := some hard.2 },
          .stop)
    | .ok resp =>
      let cost := modelCost ctx model resp
      let (results, decision, health) := gateSerial ctx idx req resp s.health
      let verdict := aggregateWithPolicy results (failClosedIds ctx.gates)
      let serve := match decision.map ElasticDecision.action with
        | some .serveSkip => true
        | _ => shouldServe ctx.serveThreshold results verdict
      let s := { s.gated idx model provider.id resp ms cost results verdict with
        elastic := decision, health }
      s.conclude ctx idx serve

def serialLoop (ctx : EnforceCtx F) (elapsed : Nat → Nat) :
    List String → Nat → LoopState F → LoopState F
  | [], _, s => s
  | model :: rest, idx, s =>
    match serialRung ctx elapsed idx model s with
    | (s, .next) => serialLoop ctx elapsed rest (idx + 1) s
    | (s, .stop) => s

def runSerial (ctx : EnforceCtx F) (elapsed : Nat → Nat) (health : GateHealthRegistry F) :
    LoopState F :=
  serialLoop ctx elapsed (rungsFrom ctx (startOf ctx)) (startOf ctx) (.init health)

-- ---------------------------------------------------------------------------
-- The speculative engine
-- ---------------------------------------------------------------------------

/-- What the runtime decides: which tasks panic, which of those left over have
finished, and the order they are drained from the map in. -/
structure Schedule where
  panicked : Nat → Bool
  isFinished : Nat → Bool
  drainOrder : List Nat → List Nat
  drainOrder_perm : ∀ keys, (drainOrder keys).Perm keys

structure SpecState (F : Type) [F64 F] extends LoopState F where
  inflight : List (Nat × Except ProviderError ModelResponse)

def spawnRung (ctx : EnforceCtx F) (j : Nat) : Option (Except ProviderError ModelResponse) :=
  match ctx.ladder[j]? with
  | none => none
  | some model =>
    match resolveProvider ctx model with
    | none => none
    | some provider => some (provider.complete j (requestFor ctx model) ctx.auth)

/-- Fire rung `j` of the window at `idx`: the rungs ahead only under budget. -/
def fireRung (ctx : EnforceCtx F) (idx : Nat) (s : SpecState F) (j : Nat) : SpecState F :=
  if (s.inflight.lookup j).isSome then s
  else if idx < j && overBudget ctx s.spent then s
  else
    match spawnRung ctx j with
    | none => s
    | some result =>
      { s with inflight := (j, result) :: s.inflight, log := s.log ++ [ProviderEvent.call j] }

def fireWindow (ctx : EnforceCtx F) (idx : Nat) (s : SpecState F) : SpecState F :=
  let windowEnd := min (idx + ctx.speculation) (rungEnd ctx - 1)
  (List.range' idx (windowEnd + 1 - idx)).foldl (fireRung ctx idx) s

/-- The gate loop of the speculative engine, which has no elastic phases. -/
def gateSpeculative (ctx : EnforceCtx F) (rung : Nat) (req : ModelRequest) (resp : ModelResponse) :
    List (Gate F) → GateHealthRegistry F → List (GateResult F) × GateHealthRegistry F
  | [], health => ([], health)
  | g :: gates, health =>
    let enabled := health.enabled ctx.tenantId g.id
    if enabled.1 then
      let r := g.evaluate rung req resp
      let health := enabled.2.record ctx.tenantId g.id (r.verdict = .abstain)
      let out := gateSpeculative ctx rung req resp gates health
      (r :: out.1, out.2)
    else gateSpeculative ctx rung req resp gates enabled.2

def SpecState.update (s : SpecState F) (t : LoopState F) : SpecState F :=
  { s with toLoopState := t }

def specRung (ctx : EnforceCtx F) (sched : Schedule) (elapsed : Nat → Nat) (idx : Nat)
    (model : String) (s : SpecState F) : SpecState F × Flow :=
  let s := fireWindow ctx idx s
  match resolveProvider ctx model with
  | none => (s.update (s.abstain idx model "unknown" Reason.providerError 0), .next)
  | some provider =>
    match s.inflight.lookup idx with
    | none => (s.update (s.abstain idx model provider.id Reason.providerError 0), .next)
    | some result =>
      let s := { s with inflight := s.inflight.filter (·.1 ≠ idx) }
      let ms := elapsed idx
      if sched.panicked idx then
        (s.update (s.abstain idx model provider.id Reason.providerError ms), .next)
      else
        let s : SpecState F := { s with log := s.log ++ [ProviderEvent.answer idx result] }
        let out : LoopState F × Flow := match result with
          | .error err =>
            if err.isFailoverEligible then
              (s.abstain idx model provider.id Reason.providerError ms, .next)
            else if isContextOverflow err then
              (s.abstain idx model provider.id Reason.contextOverflow ms, .next)
            else
              let hard := hardReason err
              ({ s.abstain idx model provider.id hard.1 ms with hardError := some hard.2 }, .stop)
          | .ok resp =>
            let cost := modelCost ctx model resp
            let req := requestFor ctx model
            let (results, health) := gateSpeculative ctx idx req resp ctx.gates s.health
            let verdict := aggregateWithPolicy results (failClosedIds ctx.gates)
            let t := { s.gated idx model provider.id resp ms cost results verdict with health }
            t.conclude ctx idx (shouldServe ctx.serveThreshold results verdict)
        (s.update out.1, out.2)

/-- The rungs `idx`, `idx + 1`, … of the list; the loop ends with them or when
a rung is done. -/
def specLoop (ctx : EnforceCtx F) (sched : Schedule) (elapsed : Nat → Nat) :
    List String → Nat → SpecState F → SpecState F
  | [], _, s => s
  | model :: rest, idx, s =>
    match specRung ctx sched elapsed idx model s with
    | (s, .next) => specLoop ctx sched elapsed rest (idx + 1) s
    | (s, .stop) => s

/-- A finished prefetch has billed its cost; the others are cancelled. -/
def harvestOne (ctx : EnforceCtx F) (sched : Schedule)
    (inflight : List (Nat × Except ProviderError ModelResponse)) (spent : F) (j : Nat) : F :=
  if sched.isFinished j && !sched.panicked j then
    match inflight.lookup j with
    | some (.ok resp) => spent + modelCost ctx (ctx.ladder.getD j "") resp
    | _ => spent
  else spent

def harvest (ctx : EnforceCtx F) (sched : Schedule) (s : SpecState F) : F :=
  (sched.drainOrder (s.inflight.map Prod.fst)).foldl (harvestOne ctx sched s.inflight) s.spent

def runSpeculative (ctx : EnforceCtx F) (sched : Schedule) (elapsed : Nat → Nat)
    (health : GateHealthRegistry F) : LoopState F :=
  let s := specLoop ctx sched elapsed (rungsFrom ctx (startOf ctx)) (startOf ctx)
    ⟨.init health, []⟩
  { s.toLoopState with spent := harvest ctx sched s }

-- ---------------------------------------------------------------------------
-- The decision
-- ---------------------------------------------------------------------------

structure Surroundings where
  elapsed : Nat → Nat
  sched : Schedule

def runEngine (ctx : EnforceCtx F) (env : Surroundings) (health : GateHealthRegistry F) :
    LoopState F :=
  if ctx.speculation = 0 then runSerial ctx env.elapsed health
  else runSpeculative ctx env.sched env.elapsed health

/-- Nothing was served, and every attempt failed on the size of the prompt. -/
def overflowedEverywhere (run : LadderRun F) : Bool :=
  run.servedRung.isNone && run.attempts ≠ [] &&
    run.attempts.all fun a => a.gates.any fun g => g.reason = some Reason.contextOverflow

/-- The second pass: the condensed request, on the rung with the largest window. -/
def retryCtx (ctx : EnforceCtx F) (request : ModelRequest) : EnforceCtx F :=
  { ctx with
    condense := none
    baseRequest := request
    startRung := ctx.ladder.length - 1 }

def LoopState.append (run retry : LoopState F) : LoopState F where
  attempts := run.attempts ++ retry.attempts
  spent := run.spent + retry.spent
  gateCostTotal := run.gateCostTotal + retry.gateCostTotal
  best := retry.best
  servedRung := retry.servedRung
  hardError := retry.hardError
  elastic := retry.elastic
  health := retry.health
  log := run.log ++ retry.log

/-- Run the engine, then once more on a condensed request if the whole ladder
overflowed. The retry has no `condense` of its own, so it is one engine run. -/
def runLadder (ctx : EnforceCtx F) (first second : Surroundings) (health : GateHealthRegistry F) :
    LoopState F :=
  let run := runEngine ctx first health
  match ctx.condense with
  | none => run
  | some cfg =>
    if overflowedEverywhere run.toLadderRun then
      match condense ctx.baseRequest cfg.keepHead cfg.keepTail with
      | none => run
      | some c => run.append (runEngine (retryCtx ctx c.request) second run.health)
    else run

structure Routed (F : Type) [F64 F] where
  outcome : EngineOutcome
  trace : Trace F
  health : GateHealthRegistry F
  log : List ProviderEvent

/-- What to serve: the outcome, where it came from, the rung recorded as served
and the served token counts. -/
def serveDecision (run : LadderRun F) : EngineOutcome × ServedFrom × Option Nat × Nat × Nat :=
  match run.servedRung, run.best with
  | some rung, some (_, resp) =>
    (.served resp, .attempt, some rung, resp.inTokens, resp.outTokens)
  | none, some (idx, resp) =>
    (.served resp, .bestAttempt, some idx, resp.inTokens, resp.outTokens)
  | servedRung, none => (.failed (run.hardError.getD "all rungs failed"), .error, servedRung, 0, 0)

def routeEnforce (ctx : EnforceCtx F) (first second : Surroundings)
    (health : GateHealthRegistry F) (traceId ts : String) : Routed F :=
  let run := runLadder ctx first second health
  let (outcome, servedFrom, servedRung, inTokens, outTokens) := serveDecision run.toLadderRun
  let topModel := ctx.ladder.getLast?.getD ""
  let baseline := match ctx.prices.costUsd topModel inTokens outTokens with
    | .ok cost => cost
    | .error _ => run.spent
  let trace : Trace F := {
    traceId := traceId
    prevHash := HashChain.genesisHash
    tenantId := ctx.tenantId
    sessionId := ctx.sessionId
    ts := ts
    mode := .enforce
    policy := { id := ctx.policyId, explore := false, propensity := none, modeProfile := none }
    request := { api := ctx.api, promptHash := ctx.promptHash, features := ctx.features }
    attempts := run.attempts
    deferred := []
    final := {
      servedRung := servedRung
      servedFrom := servedFrom
      totalCostUsd := run.spent
      gateCostUsd := run.gateCostTotal
      totalLatencyMs := (run.attempts.map Attempt.latencyMs).sum
      escalations := run.attempts.length - 1
      counterfactualBaselineUsd := baseline
      cacheSource := none
      savingsUsd := 0 }
    probe := none
    rollout := none
    shadow := none
    routeIx := none
    predictedPass := none
    decisionPrior := none
    elastic := run.elastic
    risk := none
    experiment := none
    upstreamProvider := "" }
  { outcome, trace := trace.recomputeSavings, health := run.health, log := run.log }

end Firstpass
