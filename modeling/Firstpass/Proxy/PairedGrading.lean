import Firstpass.Proxy.ChatRequest
import Firstpass.Proxy.Dispatch
import Firstpass.Proxy.GateBudget
import Firstpass.Proxy.Lockstep
import Firstpass.Proxy.PairedCluster

/-!
# The two runs of a pair

A route with a paired challenger runs both ladders for one request, each from a context of its
own, and grades them. `Setting` is what the contexts do not share, and what the choice of them
reads; `World` is the rest.

Left out: what may keep an evaluation from starting, and the choice of a start rung, which is
the number `chosen`.
-/

namespace Firstpass.PairedGrading

open ChatRequest (FromStr parseOpenaiRequest)
open Dispatch (AppState Endpoint)
open Inbound (Body u32Max)
open Json (Value)
open GateBudget (SameUpTo account runs)
open Lockstep (Judgment SameRung applied asked)
open Monitor (pairOutcome challengerOutcome)
open Responses (strAt)
open Routing (RoutingMode)

-- ---------------------------------------------------------------------------
-- Requests
-- ---------------------------------------------------------------------------

/-- The reading of a body as an Anthropic Messages request. -/
def parseModelRequest (body : Body) : Option ModelRequest :=
  body.json.bind fun json =>
    ((json.get "messages").bind Value.asArray).map fun msgs =>
      { model := (strAt "model" json).getD ""
        system := strAt "system" json
        messages := msgs.map fun m =>
          ⟨(strAt "role" m).getD "user", (m.get "content").getD (.string "")⟩
        maxTokens := (((json.get "max_tokens").bind Value.asU64).filter (· ≤ u32Max)).getD 1024
        tools := (json.get "tools").getD .null
        raw := json
        cachePrefix := false }

/-- The request that is served, read off the body the endpoint gates. -/
def inboundRequest (fromStr : FromStr) (endpoint : Endpoint) (req : Dispatch.Request)
    (carryRaw : Bool) : Option ModelRequest :=
  (AppState.gatedBody endpoint req).bind fun (body, _) =>
    match endpoint with
    | .messages => parseModelRequest body
    | _ => parseOpenaiRequest fromStr body carryRaw

-- ---------------------------------------------------------------------------
-- Settings
-- ---------------------------------------------------------------------------

/-- `[escalation]`, as far as a run reads it. -/
structure Escalation (F : Type) [F64 F] where
  maxRungsPerRequest : Nat
  speculation : Nat
  speculationBand : Option (F × F)
  serveThreshold : Option F
  elastic : Option (ElasticConfig F)
  /-- Checked where the configuration is read. -/
  lambda_le_one : ∀ el, elastic = some el → el.lambda ≤ 1
  condense : Option CondenseConfig
  promptCache : Bool

/-- What decides on a pair, apart from the rungs. -/
structure Setting (F : Type) [F64 F] where
  escalation : Escalation F
  /-- The gates of the route that are resolved. -/
  gateIds : List String
  /-- The length of both ladders. -/
  rungs : Nat
  rungs_pos : 0 < rungs
  endpoint : Endpoint
  request : Dispatch.Request
  /-- Both ladders carry an OpenAI body as it is, or neither does. -/
  carryRaw : Bool
  mode : RoutingMode
  /-- The threshold the e-process has certified. -/
  certified : Option F
  /-- The threshold of the adaptive control. -/
  aci : Option F
  /-- What the bandit expects of the start rung. -/
  passEstimate : Option F
  /-- The start rung of the bandit, the exploration and the promotion. -/
  chosen : Nat
  /-- The budgets of the gates when the incumbent runs, and when the challenger does. -/
  incumbentHealth : GateHealthRegistry F
  challengerHealth : GateHealthRegistry F

namespace Setting

variable {F : Type} [F64 F] (s : Setting F)

/-- The threshold of `risk_certificate`. -/
def serveThreshold : Option F :=
  (s.certified.orElse fun _ => s.aci).orElse fun _ => s.escalation.serveThreshold

/-- Both conversions wrap. -/
def maxRungs : Nat :=
  match s.mode.preset.maxRungsDelta with
  | some delta => (max (Int.bmod (s.escalation.maxRungsPerRequest + delta) (2 ^ 32)) 1).toNat
  | none => s.escalation.maxRungsPerRequest

def speculation : Nat :=
  let speculation := s.mode.preset.speculation.getD s.escalation.speculation
  match s.escalation.speculationBand, s.passEstimate with
  | some (lo, hi), some p => if 0 < speculation ∧ (p < lo ∨ hi < p) then 0 else speculation
  | _, _ => speculation

def startRung : Nat := if s.mode.preset.startAtTop then s.rungs - 1 else s.chosen

/-- A request as either run asks it. -/
def baseRequest (req : ModelRequest) : ModelRequest :=
  { req with cachePrefix := s.escalation.promptCache }

end Setting

-- ---------------------------------------------------------------------------
-- The pair
-- ---------------------------------------------------------------------------

/-- Both ladders, what they run on, and what else the receipts say. -/
structure World (F : Type) [F64 F] where
  incumbent : List String
  challenger : List String
  providers : ProviderRegistry
  auth : Auth
  prices : PriceTable F
  gates : List (Gate F)
  budgetPerRequestUsd : Option F
  features : Features
  sessionId : String
  promptHash : String
  api : String
  policyId : String
  incumbentFirst : Surroundings
  incumbentSecond : Surroundings
  challengerFirst : Surroundings
  challengerSecond : Surroundings
  traceId : String
  ts : String

variable {F : Type} [F64 F]

def incumbentCtx (s : Setting F) (w : World F) (req : ModelRequest) : EnforceCtx F where
  condense := s.escalation.condense
  ladder := w.incumbent
  gates := w.gates
  baseRequest := s.baseRequest req
  providers := w.providers
  auth := w.auth
  prices := w.prices
  budgetPerRequestUsd := w.budgetPerRequestUsd
  maxRungs := s.maxRungs
  speculation := s.speculation
  serveThreshold := s.serveThreshold
  elastic := s.escalation.elastic
  features := w.features
  startRung := s.startRung
  tenantId := s.request.tenant
  sessionId := w.sessionId
  promptHash := w.promptHash
  api := w.api
  policyId := w.policyId

def challengerCtx (s : Setting F) (w : World F) (req : ModelRequest) : EnforceCtx F where
  condense := s.escalation.condense
  ladder := w.challenger
  gates := w.gates
  baseRequest := s.baseRequest req
  providers := w.providers
  auth := w.auth
  prices := w.prices
  budgetPerRequestUsd := w.budgetPerRequestUsd
  maxRungs := s.escalation.maxRungsPerRequest
  speculation := 0
  serveThreshold := none
  elastic := none
  features := w.features
  startRung := 0
  tenantId := s.request.tenant
  sessionId := w.sessionId
  promptHash := w.promptHash
  api := w.api
  policyId := "paired-challenger@v0"

def incumbentTrace (s : Setting F) (w : World F) (req : ModelRequest) : Trace F :=
  (routeEnforce (incumbentCtx s w req) w.incumbentFirst w.incumbentSecond s.incumbentHealth
    w.traceId w.ts).trace

def challengerTrace (s : Setting F) (w : World F) (req : ModelRequest) : Trace F :=
  (routeEnforce (challengerCtx s w req) w.challengerFirst w.challengerSecond s.challengerHealth
    w.traceId w.ts).trace

/-- The pair of a request, where one is recorded: the challenger's request is read off the
body as it was received. -/
def recordedPair (fromStr : FromStr) (s : Setting F) (w : World F) : Option (ℚ × ℚ) :=
  (inboundRequest fromStr s.endpoint s.request s.carryRaw).bind fun req =>
    (pairOutcome (incumbentTrace s w req).final.servedFrom).bind fun xInc =>
      (parseModelRequest s.request.body).bind fun base =>
        (challengerOutcome (challengerTrace s w base).final.servedFrom).map fun xCh =>
          (xInc, xCh)

/-- Ladders of one length whose rungs behave alike, with the gates of the route; no call ends
the task that makes it. -/
structure Alike (s : Setting F) (w : World F) : Prop where
  incumbent_length : w.incumbent.length = s.rungs
  challenger_length : w.challenger.length = s.rungs
  rung : ∀ (idx : Nat) (a b : String), w.incumbent[idx]? = some a →
    w.challenger[idx]? = some b → ∀ req base,
      SameRung (incumbentCtx s w req) (challengerCtx s w base) idx a b
  gateIds : w.gates.map Gate.id = s.gateIds
  first_finishes : NoPanic w.incumbentFirst.sched
  second_finishes : NoPanic w.incumbentSecond.sched

/-- Whatever ladders that behave alike are run, the pair says so. -/
def Symmetric (fromStr : FromStr) (s : Setting F) : Prop :=
  ∀ w, Alike s w → ∀ xInc xCh, recordedPair fromStr s w = some (xInc, xCh) → xInc = xCh

-- ---------------------------------------------------------------------------
-- The condition
-- ---------------------------------------------------------------------------

/-- How often a run may look a gate up: at each rung, and once more for a condensed request. -/
def Setting.lookups (s : Setting F) (req : ModelRequest) : Nat :=
  let condensed := s.escalation.condense.bind fun cfg =>
    condense (s.baseRequest req) cfg.keepHead cfg.keepTail
  min s.maxRungs s.rungs + if condensed.isSome then 1 else 0

/-- The verdict of the gates decides for both, and the gates that run are the same. -/
structure GatesDecide (s : Setting F) (req : ModelRequest) : Prop where
  threshold : s.serveThreshold = none
  elastic : s.speculation = 0 → s.escalation.elastic = none
  budgets : ∀ id ∈ s.gateIds, SameUpTo (s.gateIds.count id * s.lookups req)
    (account s.incumbentHealth s.request.tenant id)
    (account s.challengerHealth s.request.tenant id)

/-- No gate runs for the challenger, and the incumbent serves whatever its gates report. -/
structure GatesIdle (s : Setting F) : Prop where
  off : ∀ id ∈ s.gateIds, runs (account s.challengerHealth s.request.tenant id) = false
  serves : ∀ w : World F, w.gates.map Gate.id = s.gateIds → ∀ req asks idx resp,
    Judgment.served (incumbentCtx s w req)
      (gateSerial (applied (incumbentCtx s w req)) idx asks resp s.incumbentHealth) = true

/-- The two runs are of one request, from one rung on, over as many rungs, and graded alike. -/
structure Fair (s : Setting F) (req base : ModelRequest) : Prop where
  request : asked (s.baseRequest base) = asked (s.baseRequest req)
  start : min s.startRung (s.rungs - 1) = 0
  rungs : min s.maxRungs s.rungs = min s.escalation.maxRungsPerRequest s.rungs
  graded : GatesDecide s req ∨ GatesIdle s

def FairPair (fromStr : FromStr) (s : Setting F) : Prop :=
  ∀ req base, inboundRequest fromStr s.endpoint s.request s.carryRaw = some req →
    parseModelRequest s.request.body = some base → Fair s req base

end Firstpass.PairedGrading
