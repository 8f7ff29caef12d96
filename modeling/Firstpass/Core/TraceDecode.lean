import Firstpass.Core.JsonParse
import Firstpass.Core.Trace

/-!
# Reading a trace back

The derived readers of the trace and its parts. A field that the writer may leave out has a
default, and every other field must be there, each once. Fields that are not known are passed
over.

Left out: that a struct may also be written as an array of its fields, and a name of an
enumeration as an object.
-/

namespace Firstpass

open Json (Value FloatText Readable)

/-- How the texts of floats, of UUIDs and of timestamps are read. A UUID and a timestamp are kept
as the text they are written in. -/
structure Texts (F : Type) where
  float : List Char → Option F
  uuid : String → Option String
  timestamp : String → Option String

/-- A float as the JSON reader takes it: as the text it is written in. -/
def Texts.floatText {F : Type} [F64 F] (tx : Texts F) (token : List Char) : Option FloatText :=
  (tx.float token).bind F64.text

-- ---------------------------------------------------------------------------
-- Readers of single values
-- ---------------------------------------------------------------------------

/-- An unsigned integer of so many bits. -/
def natOf (bits : Nat) : Value → Option Nat
  | .number (.posInt n) => if n < 2 ^ bits then some n else none
  | _ => none

def stringOf : Value → Option String
  | .string s => some s
  | _ => none

def boolOf : Value → Option Bool
  | .bool b => some b
  | _ => none

def arrayOf {α : Type} (dec : Value → Option α) : Value → Option (List α)
  | .array elems => elems.mapM dec
  | _ => none

/-- A member of an enumeration, by its name. -/
def named {α : Type} (name : α → String) (members : List α) : Value → Option α
  | .string s => members.find? fun a => name a = s
  | _ => none

section
variable {F : Type} [F64 F] (tx : Texts F)

/-- An integer is taken for a float too. -/
def floatOf : Value → Option F
  | .number (.float x) => tx.float x.text
  | .number (.posInt n) => some (n : F)
  | .number (.negInt n) => some (0 - ((n + 1 : Nat) : F))
  | _ => none

def scoreOf (v : Value) : Option (Score F) :=
  (floatOf tx v).bind fun x => if h : 0 ≤ x ∧ x ≤ 1 then some ⟨x, h.1, h.2⟩ else none

end

-- ---------------------------------------------------------------------------
-- Readers of fields
-- ---------------------------------------------------------------------------

/-- A field of an object. A field that is there twice is an error. -/
def field (fields : List (String × Value)) (key : String) : Option (Option Value) :=
  match fields.filter fun f => f.1 = key with
  | [] => some none
  | [f] => some (some f.2)
  | _ => none

def readField {α : Type} (fields : List (String × Value)) (key : String)
    (dec : Option Value → Option α) : Option α := (field fields key).bind dec

def required {α : Type} (dec : Value → Option α) : Option Value → Option α
  | none => none
  | some v => dec v

def optional {α : Type} (dec : Value → Option α) : Option Value → Option (Option α)
  | none => some none
  | some .null => some none
  | some v => (dec v).map some

/-- `#[serde(default)]` -/
def orDefault {α : Type} (default : α) (dec : Value → Option α) : Option Value → Option α
  | none => some default
  | some v => dec v

def fieldsOf : Value → Option (List (String × Value))
  | .object fields => some fields
  | _ => none

-- ---------------------------------------------------------------------------
-- The trace and its parts
-- ---------------------------------------------------------------------------

def Verdict.ofValue : Value → Option Verdict := named Verdict.asStr [.pass, .fail, .abstain]

def Mode.ofValue : Value → Option Mode := named Mode.text [.enforce, .observe]

def TaskKind.ofValue : Value → Option TaskKind :=
  named TaskKind.text [.codeEdit, .testGen, .explore, .review, .extract, .chat, .other]

def ProbeRegime.ofValue : Value → Option ProbeRegime :=
  named ProbeRegime.text [.confidentPass, .confidentFail, .ambiguous]

def ElasticAction.ofValue : Value → Option ElasticAction :=
  named ElasticAction.text [.serveSkip, .escalateNow, .verified]

def Arm.ofValue : Value → Option Arm := named Arm.text [.incumbent, .challenger]

def ThresholdSource.ofValue : Value → Option ThresholdSource :=
  named ThresholdSource.text [.eprocess, .aci, .fixed]

def ServedFrom.ofValue : Value → Option ServedFrom :=
  named ServedFrom.text [.attempt, .bestAttempt, .error, .cache]

def Features.ofValue (v : Value) : Option Features := do
  let fs ← fieldsOf v
  return {
    version := ← readField fs "version" (required (natOf 32))
    taskKind := ← readField fs "task_kind" (required TaskKind.ofValue)
    language := ← readField fs "language" (optional stringOf)
    agent := ← readField fs "agent" (optional stringOf)
    subagent := ← readField fs "subagent" (optional stringOf)
    promptTokenBucket := ← readField fs "prompt_token_bucket" (required (natOf 32))
    toolCount := ← readField fs "tool_count" (required (natOf 32))
    hasImages := ← readField fs "has_images" (required boolOf)
    repoFingerprint := ← readField fs "repo_fingerprint" (optional stringOf)
    sessionFailureCount := ← readField fs "session_failure_count" (required (natOf 32))
    difficultyHint := ← readField fs "difficulty_hint" (orDefault 0 (natOf 8))
    hourBucket := ← readField fs "hour_bucket" (required (natOf 8)) }

def RequestInfo.ofValue (v : Value) : Option RequestInfo := do
  let fs ← fieldsOf v
  return {
    api := ← readField fs "api" (required stringOf)
    promptHash := ← readField fs "prompt_hash" (required stringOf)
    features := ← readField fs "features" (required Features.ofValue) }

section
variable {F : Type} [F64 F] (tx : Texts F) (v : Value)

def uuidOf (v : Value) : Option String := (stringOf v).bind tx.uuid

def timestampOf (v : Value) : Option String := (stringOf v).bind tx.timestamp

def GateResult.ofValue : Option (GateResult F) := do
  let fs ← fieldsOf v
  return {
    gateId := ← readField fs "gate_id" (required stringOf)
    verdict := ← readField fs "verdict" (required Verdict.ofValue)
    score := ← readField fs "score" (optional (scoreOf tx))
    costUsd := ← readField fs "cost_usd" (required (floatOf tx))
    ms := ← readField fs "ms" (required (natOf 64))
    reason := ← readField fs "reason" (optional stringOf)
    evidenceRef := ← readField fs "evidence_ref" (optional stringOf) }

def ProbeSignal.ofValue : Option (ProbeSignal F) := do
  let fs ← fieldsOf v
  return {
    k := ← readField fs "k" (required (natOf 32))
    gatePassCount := ← readField fs "gate_pass_count" (required (natOf 32))
    regime := ← readField fs "regime" (required ProbeRegime.ofValue)
    probeCostUsd := ← readField fs "probe_cost_usd" (required (floatOf tx)) }

def ElasticDecision.ofValue : Option (ElasticDecision F) := do
  let fs ← fieldsOf v
  return {
    action := ← readField fs "action" (required ElasticAction.ofValue)
    signal := ← readField fs "signal" (required (floatOf tx))
    lambda := ← readField fs "lambda" (required (floatOf tx))
    alpha := ← readField fs "alpha" (optional (floatOf tx))
    delta := ← readField fs "delta" (optional (floatOf tx))
    calibrationId := ← readField fs "calibration_id" (optional stringOf) }

def ShadowSignal.ofValue : Option (ShadowSignal F) := do
  let fs ← fieldsOf v
  return {
    wouldServeRung := ← readField fs "would_serve_rung" (optional (natOf 32))
    wouldPass := ← readField fs "would_pass" (required boolOf)
    projectedCostUsd := ← readField fs "projected_cost_usd" (required (floatOf tx))
    actualCostUsd := ← readField fs "actual_cost_usd" (required (floatOf tx))
    skipped := ← readField fs "skipped" (optional stringOf) }

def RolloutRecord.ofValue : Option (RolloutRecord F) := do
  let fs ← fieldsOf v
  return {
    percent := ← readField fs "percent" (required (floatOf tx))
    key := ← readField fs "key" (required stringOf)
    bucket := ← readField fs "bucket" (required (natOf 32))
    enforced := ← readField fs "enforced" (required boolOf) }

def ExperimentRecord.ofValue : Option (ExperimentRecord F) := do
  let fs ← fieldsOf v
  return {
    arm := ← readField fs "arm" (required Arm.ofValue)
    percent := ← readField fs "percent" (required (floatOf tx))
    bucket := ← readField fs "bucket" (required (natOf 32))
    fingerprint := ← readField fs "fingerprint" (required stringOf) }

def RiskCertificate.ofValue : Option (RiskCertificate F) := do
  let fs ← fieldsOf v
  return {
    source := ← readField fs "source" (required ThresholdSource.ofValue)
    threshold := ← readField fs "threshold" (required (floatOf tx))
    alpha := ← readField fs "alpha" (optional (floatOf tx))
    delta := ← readField fs "delta" (optional (floatOf tx))
    eValue := ← readField fs "e_value" (optional (floatOf tx))
    certifiedAtRound := ← readField fs "certified_at_round" (optional (natOf 64)) }

def PolicyRef.ofValue : Option (PolicyRef F) := do
  let fs ← fieldsOf v
  return {
    id := ← readField fs "id" (required stringOf)
    explore := ← readField fs "explore" (orDefault false boolOf)
    propensity := ← readField fs "propensity" (optional (floatOf tx))
    modeProfile := ← readField fs "mode_profile" (optional stringOf) }

def Attempt.ofValue : Option (Attempt F) := do
  let fs ← fieldsOf v
  return {
    rung := ← readField fs "rung" (required (natOf 32))
    model := ← readField fs "model" (required stringOf)
    provider := ← readField fs "provider" (required stringOf)
    inTokens := ← readField fs "in_tokens" (required (natOf 64))
    cacheWriteTokens := ← readField fs "cache_write_tokens" (orDefault 0 (natOf 64))
    cacheReadTokens := ← readField fs "cache_read_tokens" (orDefault 0 (natOf 64))
    outTokens := ← readField fs "out_tokens" (required (natOf 64))
    costUsd := ← readField fs "cost_usd" (required (floatOf tx))
    latencyMs := ← readField fs "latency_ms" (required (natOf 64))
    gates := ← readField fs "gates" (required (arrayOf (GateResult.ofValue tx)))
    verdict := ← readField fs "verdict" (required Verdict.ofValue)
    truncated := ← readField fs "truncated" (orDefault false boolOf) }

def DeferredVerdict.ofValue : Option (DeferredVerdict F) := do
  let fs ← fieldsOf v
  return {
    gateId := ← readField fs "gate_id" (required stringOf)
    verdict := ← readField fs "verdict" (required Verdict.ofValue)
    score := ← readField fs "score" (optional (scoreOf tx))
    reportedAt := ← readField fs "reported_at" (required (timestampOf tx))
    reporter := ← readField fs "reporter" (required stringOf) }

def FinalOutcome.ofValue : Option (FinalOutcome F) := do
  let fs ← fieldsOf v
  return {
    servedRung := ← readField fs "served_rung" (optional (natOf 32))
    servedFrom := ← readField fs "served_from" (required ServedFrom.ofValue)
    totalCostUsd := ← readField fs "total_cost_usd" (required (floatOf tx))
    gateCostUsd := ← readField fs "gate_cost_usd" (required (floatOf tx))
    totalLatencyMs := ← readField fs "total_latency_ms" (required (natOf 64))
    escalations := ← readField fs "escalations" (required (natOf 32))
    counterfactualBaselineUsd :=
      ← readField fs "counterfactual_baseline_usd" (required (floatOf tx))
    cacheSource := ← readField fs "cache_source" (optional (uuidOf tx))
    savingsUsd := ← readField fs "savings_usd" (required (floatOf tx)) }

def Trace.ofValue : Option (Trace F) := do
  let fs ← fieldsOf v
  return {
    traceId := ← readField fs "trace_id" (required (uuidOf tx))
    prevHash := ← readField fs "prev_hash" (required stringOf)
    tenantId := ← readField fs "tenant_id" (required stringOf)
    sessionId := ← readField fs "session_id" (required stringOf)
    ts := ← readField fs "ts" (required (timestampOf tx))
    mode := ← readField fs "mode" (required Mode.ofValue)
    policy := ← readField fs "policy" (required (PolicyRef.ofValue tx))
    request := ← readField fs "request" (required RequestInfo.ofValue)
    attempts := ← readField fs "attempts" (required (arrayOf (Attempt.ofValue tx)))
    deferred := ← readField fs "deferred" (orDefault [] (arrayOf (DeferredVerdict.ofValue tx)))
    final := ← readField fs "final" (required (FinalOutcome.ofValue tx))
    probe := ← readField fs "probe" (optional (ProbeSignal.ofValue tx))
    rollout := ← readField fs "rollout" (optional (RolloutRecord.ofValue tx))
    shadow := ← readField fs "shadow" (optional (ShadowSignal.ofValue tx))
    routeIx := ← readField fs "route_ix" (optional (natOf 32))
    predictedPass := ← readField fs "predicted_pass" (optional (floatOf tx))
    decisionPrior := ← readField fs "decision_prior" (optional (arrayOf (floatOf tx)))
    elastic := ← readField fs "elastic" (optional (ElasticDecision.ofValue tx))
    risk := ← readField fs "risk" (optional (RiskCertificate.ofValue tx))
    experiment := ← readField fs "experiment" (optional (ExperimentRecord.ofValue tx))
    upstreamProvider := ← readField fs "upstream_provider" (orDefault "" stringOf) }

/-- `serde_json::from_str::<Trace>` -/
def Trace.fromStr (text : String) : Option (Trace F) :=
  (Json.fromStr tx.floatText text).bind (Trace.ofValue tx)

/-- `serde_json::to_string` -/
def Trace.toText (t : Trace F) : String := String.ofList (Json.print t.toValue)

end

end Firstpass
