import Firstpass.Core.Cost
import Firstpass.Proxy.TokenUsage

/-!
# The receipt of a passed-through request

A request that is forwarded unchanged leaves a receipt with one attempt at rung 0, priced by
what the reply or the event stream reports. No gate has looked at it.
-/

namespace Firstpass.Passthrough

open Inbound (Body elemsAt messageHasImage newFeatures promptHash toolCount tokenBucket)
open Responses (strAt)
open Routing (Bytes)
open TokenUsage (ResponseUsage Split SseUsage responseUsage sseUsage)

-- ---------------------------------------------------------------------------
-- Models and prices
-- ---------------------------------------------------------------------------

def requestFeatures (body : Body) : Option String × Nat × Bool :=
  (body.json.bind (strAt "model"), body.json.elim 0 toolCount,
    body.json.any fun json => (elemsAt "messages" json).any messageHasImage)

/-- `YYYYMMDD` or `YYYY-MM-DD` -/
def isDateVersionSuffix (s : List Char) : Bool :=
  (s.length = 8 && s.all Char.isDigit) ||
    (s.length = 10 && s[4]? = some '-' && s[7]? = some '-' && (s.take 4).all Char.isDigit &&
      ((s.drop 5).take 2).all Char.isDigit && (s.drop 8).all Char.isDigit)

/-- A dated snapshot of the model that was asked for. -/
def isSnapshotOf (respModel reqModel : String) : Bool :=
  (respModel.toList.dropPrefix? (reqModel ++ "-").toList).any isDateVersionSuffix

example : isSnapshotOf "claude-haiku-4-5-20251001" "claude-haiku-4-5" = true := by
  decide +kernel

/-- A model name without the prefix of its provider. -/
def bareModel (provider model : String) : String :=
  ((model.toList.dropPrefix? (provider ++ "/").toList).map String.ofList).getD model

variable {F : Type} [F64 F]

def priceOf (prices : PriceTable F) (provider model : String) (split : Split) :
    Except HashChain.Error F :=
  prices.costUsdWithCache (provider ++ "/" ++ model) split.inTokens split.cacheWriteTokens
    split.cacheReadTokens split.outTokens

/-- The price of the model that answered, or of the one asked for where it is a snapshot of
that. Any other model without a price costs nothing. -/
def observedCost (prices : PriceTable F) (provider model : String) (reqModel : Option String)
    (split : Split) : F :=
  let bareReq := bareModel provider (reqModel.getD "unknown")
  let bareResp := bareModel provider model
  match priceOf prices provider bareResp split with
  | .ok cost => cost
  | .error _ =>
    if isSnapshotOf bareResp bareReq then (priceOf prices provider bareReq split).toOption.getD 0
    else 0

-- ---------------------------------------------------------------------------
-- Receipts
-- ---------------------------------------------------------------------------

/-- What a receipt reads of the deployment. -/
structure Settings (F : Type) where
  tenantId : String
  promptSalt : String
  prices : PriceTable F
  sha256 : Bytes → Bytes
  /-- `serde_json::from_slice` -/
  fromSlice : Bytes → Option Json.Value

/-- A forwarded request, with the id and the clock of its receipt. -/
structure Forwarded where
  body : Body
  latencyMs : Nat
  sessionHeader : Option String
  tenant : String
  provider : String
  api : String
  modelHint : Option String
  traceId : String
  ts : String
  hourBucket : Nat

variable (s : Settings F) (r : Forwarded)

/-- The parts that do not depend on how the call ended. -/
def baseTrace : Trace F where
  traceId := r.traceId
  prevHash := HashChain.genesisHash
  tenantId := s.tenantId
  sessionId := r.sessionHeader.getD r.traceId
  ts := r.ts
  mode := .observe
  policy := ⟨"observe-passthrough@v0", false, none, none⟩
  request := ⟨r.api, promptHash s.sha256 s.promptSalt r.body.bytes, newFeatures r.hourBucket⟩
  attempts := []
  deferred := []
  final := {
    servedRung := none
    servedFrom := .error
    totalCostUsd := 0
    gateCostUsd := 0
    totalLatencyMs := r.latencyMs
    escalations := 0
    counterfactualBaselineUsd := 0
    cacheSource := none
    savingsUsd := 0 }
  probe := none
  rollout := none
  shadow := none
  routeIx := none
  predictedPass := none
  decisionPrior := none
  elastic := none
  risk := none
  experiment := none
  upstreamProvider := ""

/-- The features read off the request, with the bucket of its tokens. -/
def observedFeatures (promptTokenBucket : Nat) : Features :=
  { newFeatures r.hourBucket with
    promptTokenBucket
    toolCount := (requestFeatures r.body).2.1
    hasImages := (requestFeatures r.body).2.2 }

/-- A receipt with one attempt. -/
def attemptTrace (model : Option String) (split : Split) (verdict : Verdict) (truncated : Bool)
    (servedFrom : ServedFrom) (servedRung : Option Nat) : Trace F :=
  let reqModel := (requestFeatures r.body).1
  let model := (((model.orElse fun _ => reqModel).orElse fun _ => r.modelHint).getD "unknown")
  let costUsd := observedCost s.prices r.provider model reqModel split
  let attempt : Attempt F := {
    rung := 0
    model
    provider := r.provider
    inTokens := split.inTokens
    cacheWriteTokens := split.cacheWriteTokens
    cacheReadTokens := split.cacheReadTokens
    outTokens := split.outTokens
    costUsd
    latencyMs := r.latencyMs
    gates := []
    verdict
    truncated }
  let base := baseTrace s r
  let trace : Trace F :=
    { base with
      request := { base.request with
        features := observedFeatures r (tokenBucket split.inTokens) }
      attempts := [attempt]
      final := { base.final with
        servedRung
        servedFrom
        totalCostUsd := costUsd
        counterfactualBaselineUsd := costUsd } }
  trace.recomputeSavings

def buildTrace (resp : Body) : Trace F :=
  let usage := responseUsage resp
  attemptTrace s r usage.model usage.split .pass (resp.json.any hitOutputLimit) .attempt (some 0)

/-- How a stream ended, for its receipt. -/
inductive StreamOutcome
  | served
  | midStreamError
  | cutShort

def buildStreamTraceFromUsage (usage : SseUsage) (outcome : StreamOutcome) : Trace F :=
  let truncated := usage.stopReason.any (· ∈ ["max_tokens", "length", "MAX_TOKENS"])
  match outcome with
  | .served => attemptTrace s r usage.model usage.split .pass truncated .attempt (some 0)
  | .midStreamError => attemptTrace s r usage.model usage.split .abstain truncated .error none
  | .cutShort => attemptTrace s r usage.model usage.split .abstain truncated .attempt (some 0)

/-- Nothing was served: no attempt. -/
def buildErrorTrace : Trace F :=
  let base := baseTrace s r
  let trace : Trace F :=
    { base with
      request := { base.request with features := observedFeatures r 0 }
      upstreamProvider := r.provider }
  trace.recomputeSavings

-- ---------------------------------------------------------------------------
-- What the upstream did
-- ---------------------------------------------------------------------------

inductive SseEndReason
  | eof
  | upstreamError
  | dropped

/-- The end of a forwarded call. `success` is that of the HTTP status. -/
inductive Upstream
  | unreachable
  | buffered (success : Bool) (resp : Body)
  | streamed (success : Bool) (chunks : List Bytes) (reason : SseEndReason)

/-- A stream that reports nothing at all is taken as served. -/
def streamOutcome (usage : SseUsage) : SseEndReason → StreamOutcome
  | .upstreamError => .midStreamError
  | .dropped => if usage.completed then .served else .cutShort
  | .eof =>
    let sawEvents := usage.model.isSome || 0 < usage.inTokens || 0 < usage.outTokens
    if usage.completed || !sawEvents then .served else .cutShort

/-- The receipt, with the tenant that the caller was resolved to. -/
def receipt (upstream : Upstream) : Trace F :=
  let trace :=
    match upstream with
    | .buffered true resp => buildTrace s r resp
    | .streamed true chunks reason =>
      let usage := sseUsage s.fromSlice chunks
      buildStreamTraceFromUsage s r usage (streamOutcome usage reason)
    | _ => buildErrorTrace s r
  { trace with tenantId := r.tenant }

/-- The reply was relayed to its end. -/
def relayed (upstream : Upstream) : Bool :=
  match upstream with
  | .unreachable => false
  | .buffered success _ => success
  | .streamed success chunks reason =>
    success &&
      match streamOutcome (sseUsage s.fromSlice chunks) reason with
      | .served => true
      | _ => false

end Firstpass.Passthrough
