import Firstpass.Core.HashChainLaws
import Firstpass.Core.Verdict

/-!
# The audit trace

The record of one routing decision and its wire form. The field names are the
audit contract: the chain is hashed over them.
-/

namespace Firstpass

open Json (Value UniqueKeys)
open HashChain (Serialize Chained LawfulRecord)

-- ---------------------------------------------------------------------------
-- The record
-- ---------------------------------------------------------------------------

inductive Mode
  | enforce
  | observe
  deriving DecidableEq

inductive TaskKind
  | codeEdit
  | testGen
  | explore
  | review
  | extract
  | chat
  | other
  deriving DecidableEq

structure Features where
  version : Nat
  taskKind : TaskKind
  language : Option String
  agent : Option String
  subagent : Option String
  promptTokenBucket : Nat
  toolCount : Nat
  hasImages : Bool
  repoFingerprint : Option String
  sessionFailureCount : Nat
  difficultyHint : Nat
  hourBucket : Nat

inductive ProbeRegime
  | confidentPass
  | confidentFail
  | ambiguous
  deriving DecidableEq

structure ProbeSignal (F : Type) where
  k : Nat
  gatePassCount : Nat
  regime : ProbeRegime
  probeCostUsd : F

inductive ElasticAction
  | serveSkip
  | escalateNow
  | verified
  deriving DecidableEq

structure ElasticDecision (F : Type) where
  action : ElasticAction
  signal : F
  lambda : F
  alpha : Option F
  delta : Option F
  calibrationId : Option String

structure ShadowSignal (F : Type) where
  wouldServeRung : Option Nat
  wouldPass : Bool
  projectedCostUsd : F
  actualCostUsd : F
  skipped : Option String

structure RolloutRecord (F : Type) where
  percent : F
  key : String
  bucket : Nat
  enforced : Bool

inductive Arm
  | incumbent
  | challenger
  deriving DecidableEq

structure ExperimentRecord (F : Type) where
  arm : Arm
  percent : F
  bucket : Nat
  fingerprint : String

inductive ThresholdSource
  | eprocess
  | aci
  | fixed
  deriving DecidableEq

structure RiskCertificate (F : Type) where
  source : ThresholdSource
  threshold : F
  alpha : Option F
  delta : Option F
  eValue : Option F
  certifiedAtRound : Option Nat

structure PolicyRef (F : Type) where
  id : String
  explore : Bool
  propensity : Option F
  modeProfile : Option String

structure RequestInfo where
  api : String
  promptHash : String
  features : Features

structure Attempt (F : Type) [F64 F] where
  rung : Nat
  model : String
  provider : String
  inTokens : Nat
  cacheWriteTokens : Nat
  cacheReadTokens : Nat
  outTokens : Nat
  costUsd : F
  latencyMs : Nat
  gates : List (GateResult F)
  verdict : Verdict
  truncated : Bool

structure DeferredVerdict (F : Type) [F64 F] where
  gateId : String
  verdict : Verdict
  score : Option (Score F)
  reportedAt : String
  reporter : String

inductive ServedFrom
  | attempt
  | bestAttempt
  | error
  | cache
  deriving DecidableEq

structure FinalOutcome (F : Type) where
  servedRung : Option Nat
  servedFrom : ServedFrom
  totalCostUsd : F
  gateCostUsd : F
  totalLatencyMs : Nat
  escalations : Nat
  counterfactualBaselineUsd : F
  cacheSource : Option String
  savingsUsd : F

/-- A single routing decision, start to finish. Ids and timestamps are kept as
their text. -/
structure Trace (F : Type) [F64 F] where
  traceId : String
  prevHash : String
  tenantId : String
  sessionId : String
  ts : String
  mode : Mode
  policy : PolicyRef F
  request : RequestInfo
  attempts : List (Attempt F)
  deferred : List (DeferredVerdict F)
  final : FinalOutcome F
  probe : Option (ProbeSignal F)
  rollout : Option (RolloutRecord F)
  shadow : Option (ShadowSignal F)
  routeIx : Option Nat
  predictedPass : Option F
  decisionPrior : Option (List F)
  elastic : Option (ElasticDecision F)
  risk : Option (RiskCertificate F)
  experiment : Option (ExperimentRecord F)
  upstreamProvider : String

instance [F64 F] : Chained (Trace F) := ⟨Trace.prevHash⟩

def Trace.withPrevHash [F64 F] (t : Trace F) (prevHash : String) : Trace F := { t with prevHash }

@[simp] theorem Trace.prevHash_withPrevHash [F64 F] (t : Trace F) (h : String) :
    (t.withPrevHash h).prevHash = h := rfl

@[simp] theorem Trace.traceId_withPrevHash [F64 F] (t : Trace F) (h : String) :
    (t.withPrevHash h).traceId = t.traceId := rfl

@[simp] theorem Trace.withPrevHash_withPrevHash [F64 F] (t : Trace F) (h h' : String) :
    (t.withPrevHash h).withPrevHash h' = t.withPrevHash h' := rfl

def Trace.recomputeSavings [F64 F] (t : Trace F) : Trace F :=
  { t with final.savingsUsd := t.final.counterfactualBaselineUsd - t.final.totalCostUsd }

-- ---------------------------------------------------------------------------
-- The wire form
-- ---------------------------------------------------------------------------

/-- A struct as an object: its fields in order, the skipped ones left out. -/
def record (fields : List (String × Option Value)) : Value :=
  .object (fields.filterMap fun f => f.2.map (f.1, ·))

def natValue (n : Nat) : Value := .number (.posInt n)

def floatValue [F64 F] (x : F) : Value :=
  match F64.text x with
  | some text => .number (.float text)
  | none => .null

/-- `skip_serializing_if = "is_zero"`. -/
def skipZero (n : Nat) : Option Value := if n = 0 then none else some (natValue n)

def GateResult.toValue [F64 F] (g : GateResult F) : Value := record
  [("gate_id", some (.string g.gateId)), ("verdict", some (.string g.verdict.asStr)),
    ("score", g.score.map fun s => floatValue s.value), ("cost_usd", some (floatValue g.costUsd)),
    ("ms", some (natValue g.ms)), ("reason", g.reason.map .string),
    ("evidence_ref", g.evidenceRef.map .string)]

def Mode.text : Mode → String
  | .enforce => "enforce"
  | .observe => "observe"

def TaskKind.text : TaskKind → String
  | .codeEdit => "code_edit"
  | .testGen => "test_gen"
  | .explore => "explore"
  | .review => "review"
  | .extract => "extract"
  | .chat => "chat"
  | .other => "other"

def Features.toValue (f : Features) : Value := record
  [("version", some (natValue f.version)), ("task_kind", some (.string f.taskKind.text)),
    ("language", f.language.map .string), ("agent", f.agent.map .string),
    ("subagent", f.subagent.map .string),
    ("prompt_token_bucket", some (natValue f.promptTokenBucket)),
    ("tool_count", some (natValue f.toolCount)), ("has_images", some (.bool f.hasImages)),
    ("repo_fingerprint", f.repoFingerprint.map .string),
    ("session_failure_count", some (natValue f.sessionFailureCount)),
    ("difficulty_hint", skipZero f.difficultyHint), ("hour_bucket", some (natValue f.hourBucket))]

def ProbeRegime.text : ProbeRegime → String
  | .confidentPass => "confident_pass"
  | .confidentFail => "confident_fail"
  | .ambiguous => "ambiguous"

def ProbeSignal.toValue [F64 F] (p : ProbeSignal F) : Value := record
  [("k", some (natValue p.k)), ("gate_pass_count", some (natValue p.gatePassCount)),
    ("regime", some (.string p.regime.text)), ("probe_cost_usd", some (floatValue p.probeCostUsd))]

def ElasticAction.text : ElasticAction → String
  | .serveSkip => "serve_skip"
  | .escalateNow => "escalate_now"
  | .verified => "verified"

def ElasticDecision.toValue [F64 F] (e : ElasticDecision F) : Value := record
  [("action", some (.string e.action.text)), ("signal", some (floatValue e.signal)),
    ("lambda", some (floatValue e.lambda)), ("alpha", e.alpha.map floatValue),
    ("delta", e.delta.map floatValue), ("calibration_id", e.calibrationId.map .string)]

def ShadowSignal.toValue [F64 F] (s : ShadowSignal F) : Value := record
  [("would_serve_rung", s.wouldServeRung.map natValue), ("would_pass", some (.bool s.wouldPass)),
    ("projected_cost_usd", some (floatValue s.projectedCostUsd)),
    ("actual_cost_usd", some (floatValue s.actualCostUsd)), ("skipped", s.skipped.map .string)]

def RolloutRecord.toValue [F64 F] (r : RolloutRecord F) : Value := record
  [("percent", some (floatValue r.percent)), ("key", some (.string r.key)),
    ("bucket", some (natValue r.bucket)), ("enforced", some (.bool r.enforced))]

def Arm.text : Arm → String
  | .incumbent => "incumbent"
  | .challenger => "challenger"

def ExperimentRecord.toValue [F64 F] (e : ExperimentRecord F) : Value := record
  [("arm", some (.string e.arm.text)), ("percent", some (floatValue e.percent)),
    ("bucket", some (natValue e.bucket)), ("fingerprint", some (.string e.fingerprint))]

def ThresholdSource.text : ThresholdSource → String
  | .eprocess => "eprocess"
  | .aci => "aci"
  | .fixed => "fixed"

def RiskCertificate.toValue [F64 F] (r : RiskCertificate F) : Value := record
  [("source", some (.string r.source.text)), ("threshold", some (floatValue r.threshold)),
    ("alpha", r.alpha.map floatValue), ("delta", r.delta.map floatValue),
    ("e_value", r.eValue.map floatValue), ("certified_at_round", r.certifiedAtRound.map natValue)]

def PolicyRef.toValue [F64 F] (p : PolicyRef F) : Value := record
  [("id", some (.string p.id)), ("explore", some (.bool p.explore)),
    ("propensity", p.propensity.map floatValue), ("mode_profile", p.modeProfile.map .string)]

def RequestInfo.toValue (r : RequestInfo) : Value := record
  [("api", some (.string r.api)), ("prompt_hash", some (.string r.promptHash)),
    ("features", some r.features.toValue)]

def Attempt.toValue [F64 F] (a : Attempt F) : Value := record
  [("rung", some (natValue a.rung)), ("model", some (.string a.model)),
    ("provider", some (.string a.provider)), ("in_tokens", some (natValue a.inTokens)),
    ("cache_write_tokens", skipZero a.cacheWriteTokens),
    ("cache_read_tokens", skipZero a.cacheReadTokens),
    ("out_tokens", some (natValue a.outTokens)), ("cost_usd", some (floatValue a.costUsd)),
    ("latency_ms", some (natValue a.latencyMs)),
    ("gates", some (.array (a.gates.map GateResult.toValue))),
    ("verdict", some (.string a.verdict.asStr)),
    ("truncated", if a.truncated then some (.bool true) else none)]

def DeferredVerdict.toValue [F64 F] (d : DeferredVerdict F) : Value := record
  [("gate_id", some (.string d.gateId)), ("verdict", some (.string d.verdict.asStr)),
    ("score", d.score.map fun s => floatValue s.value),
    ("reported_at", some (.string d.reportedAt)), ("reporter", some (.string d.reporter))]

def ServedFrom.text : ServedFrom → String
  | .attempt => "attempt"
  | .bestAttempt => "best_attempt"
  | .error => "error"
  | .cache => "cache"

def FinalOutcome.toValue [F64 F] (f : FinalOutcome F) : Value := record
  [("served_rung", f.servedRung.map natValue), ("served_from", some (.string f.servedFrom.text)),
    ("total_cost_usd", some (floatValue f.totalCostUsd)),
    ("gate_cost_usd", some (floatValue f.gateCostUsd)),
    ("total_latency_ms", some (natValue f.totalLatencyMs)),
    ("escalations", some (natValue f.escalations)),
    ("counterfactual_baseline_usd", some (floatValue f.counterfactualBaselineUsd)),
    ("cache_source", f.cacheSource.map .string), ("savings_usd", some (floatValue f.savingsUsd))]

def Trace.fields [F64 F] (t : Trace F) : List (String × Option Value) :=
  [("trace_id", some (.string t.traceId)), ("prev_hash", some (.string t.prevHash)),
    ("tenant_id", some (.string t.tenantId)), ("session_id", some (.string t.sessionId)),
    ("ts", some (.string t.ts)), ("mode", some (.string t.mode.text)),
    ("policy", some t.policy.toValue), ("request", some t.request.toValue),
    ("attempts", some (.array (t.attempts.map Attempt.toValue))),
    ("deferred",
      if t.deferred = [] then none else some (.array (t.deferred.map DeferredVerdict.toValue))),
    ("final", some t.final.toValue), ("probe", t.probe.map ProbeSignal.toValue),
    ("rollout", t.rollout.map RolloutRecord.toValue),
    ("shadow", t.shadow.map ShadowSignal.toValue), ("route_ix", t.routeIx.map natValue),
    ("predicted_pass", t.predictedPass.map floatValue),
    ("decision_prior", t.decisionPrior.map fun ps => .array (ps.map floatValue)),
    ("elastic", t.elastic.map ElasticDecision.toValue),
    ("risk", t.risk.map RiskCertificate.toValue),
    ("experiment", t.experiment.map ExperimentRecord.toValue),
    ("upstream_provider",
      if t.upstreamProvider = "" then none else some (.string t.upstreamProvider))]

def Trace.toValue [F64 F] (t : Trace F) : Value := record t.fields

instance [F64 F] : Serialize (Trace F) := ⟨fun t => .ok t.toValue⟩

def Trace.hash [F64 F] (sha256Hex : String → String) (t : Trace F) :
    Except HashChain.Error String := HashChain.recordHash sha256Hex t

-- ---------------------------------------------------------------------------
-- The wire form is a lawful record
-- ---------------------------------------------------------------------------

theorem keys_record (fields : List (String × Option Value)) :
    ((fields.filterMap fun f => f.2.map (f.1, ·)).map Prod.fst).Sublist (fields.map Prod.fst) := by
  induction fields with
  | nil => exact .slnil
  | cons f fs ih =>
    obtain ⟨k, o⟩ := f
    cases o with
    | none => exact ih.cons k
    | some v => exact ih.cons_cons k

def FieldOk (o : Option Value) : Prop := ∀ v, o = some v → UniqueKeys v

/-- The keys of a struct are its field names, so distinct names give distinct keys. -/
theorem uniqueKeys_record (hn : (fields.map Prod.fst).Nodup)
    (hf : ∀ f ∈ fields, FieldOk f.2) : UniqueKeys (record fields) := by
  refine .object ((keys_record fields).nodup hn) fun f hmem => ?_
  obtain ⟨⟨k, o⟩, hg, hv⟩ := List.mem_filterMap.mp hmem
  obtain ⟨v, ho, rfl⟩ := Option.map_eq_some_iff.mp hv
  exact hf _ hg v ho

theorem get_record (hn : (fields.map Prod.fst).Nodup) (hf : (key, some v) ∈ fields) :
    (record fields).get key = some v := by
  refine (Json.lookup_eq_some_iff ((keys_record fields).nodup hn)).mpr ?_
  exact List.mem_filterMap.mpr ⟨_, hf, rfl⟩

@[simp] theorem uniqueKeys_string (s : String) : UniqueKeys (.string s) := .string

@[simp] theorem uniqueKeys_natValue (n : Nat) : UniqueKeys (natValue n) := .number

@[simp] theorem uniqueKeys_floatValue [F64 F] (x : F) : UniqueKeys (floatValue x) := by
  unfold floatValue
  split
  · exact .number
  · exact .null

@[simp] theorem uniqueKeys_bool (b : Bool) : UniqueKeys (.bool b) := .bool

theorem uniqueKeys_map {xs : List α} {f : α → Value} (h : ∀ x, UniqueKeys (f x)) :
    UniqueKeys (.array (xs.map f)) := by
  refine .array fun v hv => ?_
  obtain ⟨x, _, rfl⟩ := List.mem_map.mp hv
  exact h x

@[simp] theorem fieldOk_some : FieldOk (some v) ↔ UniqueKeys v := by simp [FieldOk]

@[simp] theorem fieldOk_none : FieldOk none := by simp [FieldOk]

@[simp] theorem fieldOk_map {o : Option α} {f : α → Value} (h : ∀ x, UniqueKeys (f x)) :
    FieldOk (o.map f) := by
  cases o <;> simp [h]

@[simp] theorem fieldOk_skipZero (n : Nat) : FieldOk (skipZero n) := by
  unfold skipZero
  split <;> simp

@[simp] theorem GateResult.uniqueKeys [F64 F] (g : GateResult F) : UniqueKeys g.toValue :=
  uniqueKeys_record (by simp) (by simp)

@[simp] theorem Features.uniqueKeys (f : Features) : UniqueKeys f.toValue :=
  uniqueKeys_record (by simp) (by simp)

@[simp] theorem ProbeSignal.uniqueKeys [F64 F] (p : ProbeSignal F) : UniqueKeys p.toValue :=
  uniqueKeys_record (by simp) (by simp)

@[simp] theorem ElasticDecision.uniqueKeys [F64 F] (e : ElasticDecision F) :
    UniqueKeys e.toValue :=
  uniqueKeys_record (by simp) (by simp)

@[simp] theorem ShadowSignal.uniqueKeys [F64 F] (s : ShadowSignal F) : UniqueKeys s.toValue :=
  uniqueKeys_record (by simp) (by simp)

@[simp] theorem RolloutRecord.uniqueKeys [F64 F] (r : RolloutRecord F) : UniqueKeys r.toValue :=
  uniqueKeys_record (by simp) (by simp)

@[simp] theorem ExperimentRecord.uniqueKeys [F64 F] (e : ExperimentRecord F) :
    UniqueKeys e.toValue :=
  uniqueKeys_record (by simp) (by simp)

@[simp] theorem RiskCertificate.uniqueKeys [F64 F] (r : RiskCertificate F) :
    UniqueKeys r.toValue :=
  uniqueKeys_record (by simp) (by simp)

@[simp] theorem PolicyRef.uniqueKeys [F64 F] (p : PolicyRef F) : UniqueKeys p.toValue :=
  uniqueKeys_record (by simp) (by simp)

@[simp] theorem RequestInfo.uniqueKeys (r : RequestInfo) : UniqueKeys r.toValue :=
  uniqueKeys_record (by simp) (by simp)

@[simp] theorem Attempt.uniqueKeys [F64 F] (a : Attempt F) : UniqueKeys a.toValue :=
  uniqueKeys_record (by simp) (by cases h : a.truncated <;> simp [uniqueKeys_map])

@[simp] theorem DeferredVerdict.uniqueKeys [F64 F] (d : DeferredVerdict F) :
    UniqueKeys d.toValue :=
  uniqueKeys_record (by simp) (by simp)

@[simp] theorem FinalOutcome.uniqueKeys [F64 F] (f : FinalOutcome F) : UniqueKeys f.toValue :=
  uniqueKeys_record (by simp) (by simp)

theorem fieldOk_ite [Decidable c] (ho : FieldOk o) (ho' : FieldOk o') :
    FieldOk (if c then o else o') := by
  split
  · exact ho
  · exact ho'

theorem Trace.keys_nodup [F64 F] (t : Trace F) : (t.fields.map Prod.fst).Nodup := by
  simp [Trace.fields]

theorem Trace.uniqueKeys [F64 F] (t : Trace F) : UniqueKeys t.toValue :=
  uniqueKeys_record t.keys_nodup (by simp [Trace.fields, uniqueKeys_map, fieldOk_ite])

instance [F64 F] : LawfulRecord (Trace F) where
  uniqueKeys := by
    rintro t _ ⟨⟩
    exact t.uniqueKeys
  prevHashField := by
    rintro t _ ⟨⟩
    exact get_record t.keys_nodup (by simp [Trace.fields, Chained.prevHash])

end Firstpass
