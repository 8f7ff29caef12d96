import Firstpass.Core.Conformal
import Firstpass.Core.RiskControl
import Firstpass.Proxy.Dispatch
import Firstpass.Proxy.TracePair

/-!
# Outcome feedback

Requests leave receipts, the writer stores them, and the outcomes reported on them nudge
the online controllers and the guardrail. A receipt carries the route whose ladder
produced it, which is not stored.

Left out: the verified cache, which a failure retracts from, and the experiments.
-/

namespace Firstpass.Feedback

open Firstpass.Conformal Dispatch Guard RiskControl

structure Receipt where
  trace : Trace ℚ
  ladderRoute : Option Nat

structure Store where
  traces : List Receipt
  deferred : List (String × DeferredVerdict ℚ)

namespace Store

variable (store : Store)

/-- The row of a trace, for its own tenant alone. -/
def row (tenant traceId : String) : Option Receipt :=
  store.traces.find? fun r => r.trace.traceId = traceId ∧ r.trace.tenantId = tenant

def loadDeferred (traceId : String) : List (DeferredVerdict ℚ) :=
  (store.deferred.filter fun d => d.1 = traceId).map Prod.snd

def appendDeferred (traceId : String) (v : DeferredVerdict ℚ) : Store :=
  { store with deferred := store.deferred ++ [(traceId, v)] }

/-- `none` where there is no such trace, `some none` where it has no route. -/
def traceRoute (tenant traceId : String) : Option (Option Nat) :=
  (store.row tenant traceId).map fun r => r.trace.routeIx

def loadTraceView (tenant traceId : String) : Option (Trace ℚ) :=
  (store.row tenant traceId).map fun r =>
    { r.trace with deferred := store.loadDeferred traceId }

end Store

structure State (G : Type) where
  app : AppState ℚ
  guardrail : Guardrail G
  cooldownSecs : Int
  adaptive : Option (AdaptiveConformal ℚ)
  eprocess : Option (EProcessRiskControl ℚ)
  /-- Receipts that the writer has not stored yet. -/
  channel : List Receipt
  store : Store

-- ---------------------------------------------------------------------------
-- Requests
-- ---------------------------------------------------------------------------

/-- How a request on the ladder path ends. -/
inductive EnforcePath
  | refused
  | cacheHit
  | ladder

/-- A request, with the trace its path fills in. -/
structure Arrival where
  endpoint : Endpoint
  req : Request
  now : Int
  path : EnforcePath
  seed : Trace ℚ

/-- The route index as it is stamped on a trace. -/
def stampRoute (routeIx : Nat) : Nat := if routeIx ≤ Inbound.u32Max then routeIx else 0

def observeTrace (seed : Trace ℚ) (tenant : String) : Trace ℚ :=
  { seed with
    tenantId := tenant
    mode := .observe
    policy := ⟨"observe-passthrough@v0", false, none, none⟩
    deferred := []
    probe := none
    rollout := none
    shadow := none
    routeIx := none
    predictedPass := none
    decisionPrior := none
    elastic := none
    risk := none
    experiment := none }

/-- A replay ran no ladder. It has a route where the route runs an experiment. -/
def cacheHitTrace (seed : Trace ℚ) (tenant : String) (routeIx : Nat) : Trace ℚ :=
  { seed with
    tenantId := tenant
    mode := .enforce
    policy := ⟨seed.policy.id ++ "+cache", false, none, none⟩
    attempts := []
    deferred := []
    final := {
      servedRung := none
      servedFrom := .cache
      totalCostUsd := 0
      gateCostUsd := 0
      totalLatencyMs := 0
      escalations := 0
      counterfactualBaselineUsd := seed.final.counterfactualBaselineUsd
      cacheSource := seed.final.cacheSource
      savingsUsd := seed.final.counterfactualBaselineUsd }
    probe := none
    rollout := none
    shadow := none
    routeIx := seed.experiment.map fun _ => stampRoute routeIx
    predictedPass := none
    decisionPrior := none
    elastic := none
    risk := none
    upstreamProvider := "" }

def ladderTrace (seed : Trace ℚ) (tenant : String) (routeIx : Nat) : Trace ℚ :=
  { seed with
    tenantId := tenant
    mode := .enforce
    deferred := []
    routeIx := some (stampRoute routeIx) }

/-- What a request leaves behind. -/
def Arrival.receipt (a : Arrival) : Served ℚ → Option Receipt
  | .relayed => none
  | .passthrough _ _ => some ⟨observeTrace a.seed a.req.tenant, none⟩
  | .enforced m =>
    match a.path with
    | .refused => none
    | .cacheHit => some ⟨cacheHitTrace a.seed a.req.tenant m.routeIx, none⟩
    | .ladder => some ⟨ladderTrace a.seed a.req.tenant m.routeIx, some m.routeIx⟩

variable {G : Type}

/-- A full channel drops the receipt. -/
def State.request (s : State G) (a : Arrival) (kept : Bool) : State G :=
  if kept then
    { s with channel := s.channel ++ (a.receipt (s.app.handle a.endpoint a.req a.now)).toList }
  else s

def State.write (s : State G) (landed : Bool) : State G :=
  { s with
    channel := s.channel.tail
    store := if landed then { s.store with traces := s.store.traces ++ s.channel.head?.toList }
      else s.store }

/-- Nothing is stored yet. -/
def State.Fresh (s : State G) : Prop := s.channel = [] ∧ s.store = ⟨[], []⟩

theorem mem_channel_request {s : State G} {a : Arrival} {kept : Bool}
    (h : r ∈ (s.request a kept).channel) :
    r ∈ s.channel ∨ a.receipt (s.app.handle a.endpoint a.req a.now) = some r := by
  cases kept with
  | false => exact .inl h
  | true =>
    have h : r ∈ s.channel ++ (a.receipt (s.app.handle a.endpoint a.req a.now)).toList := h
    simpa using h

@[simp] theorem store_request (s : State G) (a : Arrival) (kept : Bool) :
    (s.request a kept).store = s.store := by
  cases kept <;> rfl

@[simp] theorem app_request (s : State G) (a : Arrival) (kept : Bool) :
    (s.request a kept).app = s.app := by
  cases kept <;> rfl

theorem mem_traces_write {s : State G} {landed : Bool}
    (h : r ∈ (s.write landed).store.traces) : r ∈ s.store.traces ∨ r ∈ s.channel := by
  cases landed with
  | false => exact .inl h
  | true =>
    have h : r ∈ s.store.traces ++ s.channel.head?.toList := h
    rw [List.mem_append, Option.mem_toList] at h
    exact h.imp_right List.mem_of_mem_head?

-- ---------------------------------------------------------------------------
-- Feedback
-- ---------------------------------------------------------------------------

structure FeedbackRequest where
  traceId : String
  gateId : String
  verdict : String
  score : Option ℚ
  reporter : String

/-- A feedback call: its body where it parses, and how the store answers. -/
structure Report where
  tenant : String
  body : Option FeedbackRequest
  now : Int
  reportedAt : String
  existsRead : Bool
  appended : Bool
  viewRead : Bool
  routeRead : Bool

inductive Reply
  | invalidBody
  | unknownVerdict (verdict : String)
  | scoreOutOfRange (score : ℚ)
  | unknownTrace (traceId : String)
  | internal
  | recorded (traceId : String)

def parseVerdict (verdict : String) : Option Verdict :=
  if verdict = "pass" then some .pass
  else if verdict = "fail" then some .fail
  else if verdict = "abstain" then some .abstain
  else none

def parseScore : Option ℚ → Except Reply (Option (Score ℚ))
  | none => .ok none
  | some s =>
    if h : 0 ≤ s ∧ s ≤ 1 then .ok (some ⟨s, h.1, h.2⟩) else .error (.scoreOutOfRange s)

/-- The verdict to store, and the trace it is on. -/
def Report.check (rep : Report) (store : Store) : Except Reply (Receipt × DeferredVerdict ℚ) :=
  match rep.body with
  | none => .error .invalidBody
  | some req =>
    match parseVerdict req.verdict with
    | none => .error (.unknownVerdict req.verdict)
    | some verdict =>
      match parseScore req.score with
      | .error reply => .error reply
      | .ok score =>
        if !rep.existsRead then .error .internal
        else
          match store.row rep.tenant req.traceId with
          | none => .error (.unknownTrace req.traceId)
          | some receipt =>
            if !rep.appended then .error .internal
            else .ok (receipt, ⟨req.gateId, verdict, score, rep.reportedAt, req.reporter⟩)

/-- Only a clear verdict is a signal. -/
def signal : Verdict → Option Bool
  | .pass => some true
  | .fail => some false
  | .abstain => none

/-- The score of the first attempt at the served rung. -/
def servedScore (trace : Trace ℚ) : Option ℚ :=
  trace.final.servedRung.bind fun rung =>
    (trace.attempts.find? fun a => a.rung = rung).map attemptScore

/-- The score that the e-process is fed, read back from the store. -/
def Report.score (rep : Report) (store : Store) (traceId : String) : Option ℚ :=
  if rep.viewRead then (store.loadTraceView rep.tenant traceId).bind servedScore else none

/-- The route the outcome is attributed to. -/
def Report.route (rep : Report) (store : Store) (traceId : String) : Nat :=
  ((if rep.routeRead then (store.traceRoute rep.tenant traceId).join else none)).getD 0

variable [Field G] [LinearOrder G] [Analytic G]

/-- A clear outcome reaches the controllers and the guardrail. -/
def State.outcome (s : State G) (rep : Report) (traceId : String) (correct : Bool) : State G :=
  { s with
    adaptive := s.adaptive.map (·.observeServed correct)
    eprocess := s.eprocess.map fun e =>
      match rep.score s.store traceId with
      | some score => e.observeServed score correct
      | none => e
    app := { s.app with
      guardrails := (s.app.guardrails.record (rep.tenant, rep.route s.store traceId)
        ⟨s.guardrail, correct, rep.now, s.cooldownSecs⟩).1 } }

@[simp] theorem store_outcome (s : State G) (rep : Report) (traceId : String) (correct : Bool) :
    (s.outcome rep traceId correct).store = s.store := rfl

@[simp] theorem adaptive_outcome (s : State G) (rep : Report) (traceId : String)
    (correct : Bool) :
    (s.outcome rep traceId correct).adaptive = s.adaptive.map (·.observeServed correct) := rfl

theorem eprocess_outcome {s : State G} {rep : Report}
    (h : rep.score s.store traceId = some score) (correct : Bool) :
    (s.outcome rep traceId correct).eprocess = s.eprocess.map (·.observeServed score correct) := by
  simp [State.outcome, h]

theorem eprocess_outcome_none {s : State G} {rep : Report}
    (h : rep.score s.store traceId = none) (correct : Bool) :
    (s.outcome rep traceId correct).eprocess = s.eprocess := by
  simp [State.outcome, h]

def State.feedback (s : State G) (rep : Report) : State G × Reply :=
  match rep.check s.store with
  | .error reply => (s, reply)
  | .ok (receipt, dv) =>
    let s := { s with store := s.store.appendDeferred receipt.trace.traceId dv }
    (match signal dv.verdict with
      | some correct => s.outcome rep receipt.trace.traceId correct
      | none => s, .recorded receipt.trace.traceId)

-- ---------------------------------------------------------------------------
-- Runs
-- ---------------------------------------------------------------------------

inductive Event
  | request (a : Arrival) (kept : Bool)
  | write (landed : Bool)
  | feedback (rep : Report)

def State.step (s : State G) : Event → State G
  | .request a kept => s.request a kept
  | .write landed => s.write landed
  | .feedback rep => (s.feedback rep).1

def State.run (s : State G) (events : List Event) : State G := events.foldl State.step s

theorem run_append (s : State G) (events : List Event) (e : Event) :
    s.run (events ++ [e]) = (s.run events).step e := by
  simp [State.run, List.foldl_append]

/-- What feedback does: it is refused and changes nothing, or its verdict is stored on a
row, and a clear one is an outcome. -/
inductive Fed (s : State G) (rep : Report) : State G → Prop
  | refused (h : ∃ reply, rep.check s.store = .error reply) : Fed s rep s
  | unclear (receipt : Receipt) (dv : DeferredVerdict ℚ)
      (hcheck : rep.check s.store = .ok (receipt, dv)) (hsignal : signal dv.verdict = none) :
      Fed s rep { s with store := s.store.appendDeferred receipt.trace.traceId dv }
  | clear (receipt : Receipt) (dv : DeferredVerdict ℚ) (correct : Bool)
      (hcheck : rep.check s.store = .ok (receipt, dv))
      (hsignal : signal dv.verdict = some correct) :
      Fed s rep
        ({ s with store := s.store.appendDeferred receipt.trace.traceId dv }.outcome rep
          receipt.trace.traceId correct)

theorem feedback_fed (s : State G) (rep : Report) : Fed s rep (s.feedback rep).1 := by
  unfold State.feedback
  cases hcheck : rep.check s.store with
  | error reply => exact .refused ⟨reply, hcheck⟩
  | ok found =>
    obtain ⟨receipt, dv⟩ := found
    cases hsignal : signal dv.verdict with
    | none => simpa only [hsignal] using Fed.unclear receipt dv hcheck hsignal
    | some correct => simpa only [hsignal] using Fed.clear receipt dv correct hcheck hsignal

/-- The score that is fed is read from the row of the trace. -/
theorem score_row {rep : Report} {store : Store}
    (h : store.row rep.tenant r.trace.traceId = some r) (v : DeferredVerdict ℚ) :
    rep.score (store.appendDeferred r.trace.traceId v) r.trace.traceId =
      if rep.viewRead then servedScore r.trace else none := by
  have hview : (store.appendDeferred r.trace.traceId v).row rep.tenant r.trace.traceId = some r := h
  unfold Report.score Store.loadTraceView
  rw [hview]
  rfl

theorem check_row {rep : Report} {store : Store} (h : rep.check store = .ok (receipt, dv)) :
    store.row rep.tenant receipt.trace.traceId = some receipt := by
  unfold Report.check at h
  split at h
  · cases h
  · rename_i req _
    split at h
    · cases h
    · split at h
      · cases h
      · split_ifs at h
        · split at h <;> cases h
        · split at h
          · cases h
          · rename_i found hfound
            cases h
            have hid := List.find?_some hfound
            simp only [decide_eq_true_eq] at hid
            rw [hid.1]
            exact hfound

-- ---------------------------------------------------------------------------
-- A trace to fill in
-- ---------------------------------------------------------------------------

def sampleSeed (traceId : String) : Trace ℚ where
  traceId := traceId
  prevHash := HashChain.genesisHash
  tenantId := ""
  sessionId := "session-1"
  ts := "2026-01-01T00:00:00Z"
  mode := .observe
  policy := ⟨"static-ladder@v0", false, none, none⟩
  request := ⟨"anthropic.messages", "deadbeef", Inbound.newFeatures 0⟩
  attempts := [⟨0, "anthropic/small", "anthropic", 1, 0, 0, 1, 0, 12, [], .pass, false⟩]
  deferred := []
  final := ⟨some 0, .attempt, 0, 0, 12, 0, 0, none, 0⟩
  probe := none
  rollout := none
  shadow := none
  routeIx := none
  predictedPass := none
  decisionPrior := none
  elastic := none
  risk := none
  experiment := none
  upstreamProvider := ""

/-- A verdict on a trace of tenant `t`, on a store that answers. -/
def sampleReport (traceId verdict : String) : Report :=
  ⟨"t", some ⟨traceId, "tests", verdict, none, "ci"⟩, 60, "2026-01-01T00:01:00Z", true, true, true,
    true⟩

end Firstpass.Feedback
