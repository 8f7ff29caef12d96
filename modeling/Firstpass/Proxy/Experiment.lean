import Firstpass.Core.Select
import Mathlib.Data.Finset.Card

/-!
# The experiment monitor

One experiment for each tenant and route, fed from the serving path, from feedback,
from paired evaluations and from a log that replicas share. A restart rebuilds it
from the trace store.

Left out: the spend ledger of paired evaluations and the clock of the last sync,
which the experiment does not read, and the exported gauge.
-/

namespace Firstpass.Monitor

open Select

variable {F : Type} [Field F] [LinearOrder F]

/-- `MAX_TRACKED_SESSIONS` -/
def maxTrackedSessions : Nat := 1000000

/-- A UUID as its number. -/
abbrev Uuid := Nat

def Uuid.nil : Uuid := 0

-- ---------------------------------------------------------------------------
-- Receipts, rows and log records
-- ---------------------------------------------------------------------------

/-- What the monitor reads of a trace. Of each attempt it reads whether its answer
was cut off. -/
structure Receipt (F : Type) where
  traceId : Uuid
  tenantId : String
  sessionId : String
  routeIx : Option Nat
  experiment : Option (ExperimentRecord F)
  final : FinalOutcome F
  truncated : List Bool

/-- A trace with no recorded route belongs to route 0. -/
def Receipt.route (t : Receipt F) : Nat := t.routeIx.getD 0

def truncatedAttempts (t : Receipt F) : Nat := t.truncated.countP id

structure PairRecord (F : Type) where
  xInc : F
  xCh : F
  incumbentCostUsd : F
  challengerCostUsd : F
  chError : Bool
  chTruncated : Nat
  replicaId : Uuid
  traceId : Uuid
  incumbentTraceId : Uuid

inductive LogRecord (F : Type)
  | outcome (arm : Arm) (outcome : F) (sessionHash : UInt64) (costUsd : F)
  | pair (record : PairRecord F)

inductive InLogStatus
  | notInLog
  | inLog
  | unknown
  deriving DecidableEq

structure ExperimentPairRow (F : Type) where
  tenant : String
  routeIx : Nat
  fingerprint : String
  traceId : Uuid
  xInc : F
  xCh : F
  challengerCostUsd : F
  chError : Bool
  chTruncated : Nat
  inLog : InLogStatus

-- ---------------------------------------------------------------------------
-- The entry of one tenant and route
-- ---------------------------------------------------------------------------

structure ArmHealth where
  errors : Nat
  truncated : Nat
  deriving DecidableEq

structure Health where
  incumbent : ArmHealth
  challenger : ArmHealth
  deriving DecidableEq

def ArmHealth.add (h : ArmHealth) (errored : Bool) (truncated : Nat) : ArmHealth :=
  ⟨h.errors + errored.toNat, h.truncated + truncated⟩

def Health.add (h : Health) (arm : Arm) (errored : Bool) (truncated : Nat) : Health :=
  match arm with
  | .incumbent => { h with incumbent := h.incumbent.add errored truncated }
  | .challenger => { h with challenger := h.challenger.add errored truncated }

/-- The parameters of a route's challenger. A parsed configuration has only those
that an experiment accepts. -/
structure Params (F : Type) [Field F] [LinearOrder F] where
  margin : F
  alpha : F
  fingerprint : String
  fresh : Experiment F
  new_ok : Experiment.new (fun _ => "") margin alpha = .ok fresh

/-- The parameters of a challenger whose margin and alpha are in range. -/
def Params.ofRange (margin alpha : F) (fingerprint : String)
    (h : 0 < margin ∧ margin ≤ 0.5 ∧ 0 < alpha ∧ alpha < 0.5) : Params F where
  margin := margin
  alpha := alpha
  fingerprint := fingerprint
  fresh :=
    { margin, alpha
      certify := .new margin (-1)
      halt := .new margin 1
      pendingIncumbent := []
      pendingChallenger := []
      pairs := 0
      status := .undecided
      decidedAtPair := none
      incumbent := .empty
      challenger := .empty }
  new_ok := by
    obtain ⟨hm, hm', ha, ha'⟩ := h
    simp [Experiment.new, hm.not_ge, hm'.not_gt, ha.not_ge, ha'.not_ge]

structure Entry (F : Type) where
  experiment : Experiment F
  ignoredStale : Nat
  health : Health
  sessions : Finset UInt64
  saturatedLogged : Bool
  appliedPairIds : Finset Uuid
  locallyCosted : Finset Uuid
  remoteLogOffset : Nat

def Entry.new (p : Params F) : Entry F where
  experiment := p.fresh
  ignoredStale := 0
  health := ⟨⟨0, 0⟩, ⟨0, 0⟩⟩
  sessions := ∅
  saturatedLogged := false
  appliedPairIds := ∅
  locallyCosted := ∅
  remoteLogOffset := 0

def Entry.stale (e : Entry F) : Entry F := { e with ignoredStale := e.ignoredStale + 1 }

def Entry.observeCost (e : Entry F) (arm : Arm) (usd : F) : Entry F :=
  { e with experiment := e.experiment.observeCost arm usd }

def Entry.tallyHealth (e : Entry F) (arm : Arm) (errored : Bool) (truncated : Nat) : Entry F :=
  if errored = false ∧ truncated = 0 then e
  else { e with health := e.health.add arm errored truncated }

def Entry.observeOutcome (e : Entry F) (arm : Arm) (key : UInt64) (outcome : F) :
    Entry F × Bool :=
  if key ∈ e.sessions then (e, false)
  else if maxTrackedSessions ≤ e.sessions.card then ({ e with saturatedLogged := true }, false)
  else
    match e.experiment.observeOutcome arm outcome with
    | (_, false) => (e, false)
    | (experiment, true) => ({ e with experiment, sessions := insert key e.sessions }, true)

def Entry.alreadyApplied (e : Entry F) (traceId : Uuid) : Prop :=
  traceId ≠ Uuid.nil ∧ traceId ∈ e.appliedPairIds

instance (e : Entry F) (traceId : Uuid) : Decidable (e.alreadyApplied traceId) :=
  inferInstanceAs (Decidable (_ ∧ _))

/-- The evidence of a pair, its challenger's cost, and its id. The three callers
below differ in what they ask before. -/
def Entry.countPair (e : Entry F) (xInc xCh challengerCostUsd : F) (traceId : Uuid) :
    Entry F × Bool :=
  let (experiment, ok) := e.experiment.observePair xInc xCh
  let experiment := if ok then experiment.observeCost .challenger challengerCostUsd else experiment
  ({ e with
      experiment
      appliedPairIds :=
        if traceId = Uuid.nil then e.appliedPairIds else insert traceId e.appliedPairIds }, ok)

def Entry.applyPairLocally (e : Entry F) (xInc xCh challengerCostUsd : F) (traceId : Uuid) :
    Entry F × Bool :=
  if e.alreadyApplied traceId then (e, false)
  else if maxTrackedSessions ≤ e.appliedPairIds.card then
    ({ e with saturatedLogged := true }, false)
  else e.countPair xInc xCh challengerCostUsd traceId

/-- The incumbent's cost and the challenger's health of a pair that another replica
evaluated. A cost counted from a stored receipt is not counted again. -/
def Entry.tallyRemote (e : Entry F) (r : PairRecord F) : Entry F :=
  let costedHere := r.incumbentTraceId ≠ Uuid.nil ∧ r.incumbentTraceId ∈ e.locallyCosted
  let e := if costedHere then { e with locallyCosted := e.locallyCosted.erase r.incumbentTraceId }
    else e.observeCost .incumbent r.incumbentCostUsd
  e.tallyHealth .challenger r.chError r.chTruncated

def Entry.applyLogPair (e : Entry F) (replicaId : Uuid) (r : PairRecord F) : Entry F :=
  if e.alreadyApplied r.traceId then e
  else
    let e := if maxTrackedSessions ≤ e.appliedPairIds.card then { e with saturatedLogged := true }
      else (e.countPair r.xInc r.xCh r.challengerCostUsd r.traceId).1
    if r.replicaId = replicaId then e else e.tallyRemote r

def Entry.applyLogOutcome (e : Entry F) (arm : Arm) (outcome : F) (key : UInt64) : Entry F :=
  if key ∈ e.sessions then e
  else if maxTrackedSessions ≤ e.sessions.card then e
  else
    match e.experiment.observeOutcome arm outcome with
    | (_, false) => e
    | (experiment, true) => { e with experiment, sessions := insert key e.sessions }

/-- `apply_log_record`, for a record of this experiment. -/
def Entry.applyLogRecord (replicaId : Uuid) (e : Entry F) : LogRecord F → Entry F
  | .outcome arm outcome key _ => e.applyLogOutcome arm outcome key
  | .pair r => e.applyLogPair replicaId r

/-- A row of the trace store is not asked whether the set of ids is full. -/
def Entry.replayPair (e : Entry F) (row : ExperimentPairRow F) : Entry F :=
  if e.alreadyApplied row.traceId then e
  else (e.countPair row.xInc row.xCh row.challengerCostUsd row.traceId).1.tallyHealth
    .challenger row.chError row.chTruncated

def Entry.rememberCosted (e : Entry F) (traceId : Uuid) : Entry F :=
  if e.locallyCosted.card < maxTrackedSessions then
    { e with locallyCosted := insert traceId e.locallyCosted }
  else e

-- ---------------------------------------------------------------------------
-- The monitor
-- ---------------------------------------------------------------------------

structure ExperimentMonitor (F : Type) [Field F] [LinearOrder F] where
  params : List (Nat × Params F)
  replicaId : Uuid
  entries : String → Nat → Option (Entry F)

def ExperimentMonitor.fromConfig (params : List (Nat × Params F)) (replicaId : Uuid) :
    ExperimentMonitor F := ⟨params, replicaId, fun _ _ => none⟩

namespace ExperimentMonitor

def isActive (m : ExperimentMonitor F) : Bool := !m.params.isEmpty

def fingerprint (m : ExperimentMonitor F) (routeIx : Nat) : Option String :=
  (m.params.lookup routeIx).map (·.fingerprint)

/-- The entry of a tenant and route, made at its first use. -/
def entry (m : ExperimentMonitor F) (tenant : String) (routeIx : Nat) : Option (Entry F) :=
  (m.params.lookup routeIx).map fun p => (m.entries tenant routeIx).getD (.new p)

def setEntry (m : ExperimentMonitor F) (tenant : String) (routeIx : Nat) (e : Entry F) :
    ExperimentMonitor F :=
  { m with entries := fun t r => if t = tenant ∧ r = routeIx then some e else m.entries t r }

def withEntry (m : ExperimentMonitor F) (tenant : String) (routeIx : Nat)
    (f : Entry F → Entry F) : ExperimentMonitor F :=
  match m.entry tenant routeIx with
  | some e => m.setEntry tenant routeIx (f e)
  | none => m

def status (m : ExperimentMonitor F) (tenant : String) (routeIx : Nat) : Status :=
  match m.entries tenant routeIx with
  | some e => e.experiment.status
  | none => .undecided

def observeCost (m : ExperimentMonitor F) (tenant : String) (routeIx : Nat) (fingerprint : String)
    (arm : Arm) (usd : F) : ExperimentMonitor F :=
  m.withEntry tenant routeIx fun e =>
    if m.fingerprint routeIx = some fingerprint then e.observeCost arm usd else e.stale

def observeHealth (m : ExperimentMonitor F) (tenant : String) (routeIx : Nat)
    (fingerprint : String) (arm : Arm) (errored : Bool) (truncated : Nat) : ExperimentMonitor F :=
  if (errored = false ∧ truncated = 0) ∨ m.fingerprint routeIx ≠ some fingerprint then m
  else m.withEntry tenant routeIx fun e => e.tallyHealth arm errored truncated

/-- `Pass` is 1.0, `Fail` is 0.0, and `Abstain` is no outcome. -/
def outcomeOf : Verdict → Option F
  | .pass => some 1
  | .fail => some 0
  | .abstain => none

def observeOutcome (sessionHash : String → UInt64) (m : ExperimentMonitor F) (tenant : String)
    (routeIx : Nat) (fingerprint : String) (arm : Arm) (sessionId : String) (verdict : Verdict) :
    ExperimentMonitor F × Bool :=
  if m.fingerprint routeIx ≠ some fingerprint then (m, false)
  else
    match outcomeOf verdict with
    | none => (m, false)
    | some outcome =>
      match m.entry tenant routeIx with
      | none => (m, false)
      | some e =>
        let (e, counted) := e.observeOutcome arm (sessionHash sessionId) outcome
        (m.setEntry tenant routeIx e, counted)

def applyPairLocally (m : ExperimentMonitor F) (tenant : String) (routeIx : Nat)
    (fingerprint : String) (xInc xCh challengerCostUsd : F) (traceId : Uuid) :
    ExperimentMonitor F × Bool :=
  if m.fingerprint routeIx ≠ some fingerprint then (m, false)
  else
    match m.entry tenant routeIx with
    | none => (m, false)
    | some e =>
      let (e, ok) := e.applyPairLocally xInc xCh challengerCostUsd traceId
      (m.setEntry tenant routeIx e, ok)

def applyLogRecord (m : ExperimentMonitor F) (tenant : String) (routeIx : Nat)
    (fingerprint : String) (record : LogRecord F) : ExperimentMonitor F :=
  if m.fingerprint routeIx ≠ some fingerprint then m.withEntry tenant routeIx Entry.stale
  else m.withEntry tenant routeIx fun e => e.applyLogRecord m.replicaId record

-- ---------------------------------------------------------------------------
-- A sync: the offset is read and the batch applied under the lock, the log is
-- read in between
-- ---------------------------------------------------------------------------

def syncOffset (m : ExperimentMonitor F) (tenant : String) (routeIx : Nat) : Nat :=
  match m.entry tenant routeIx with
  | some e => e.remoteLogOffset
  | none => 0

def currentOffset (m : ExperimentMonitor F) (tenant : String) (routeIx : Nat) : Nat :=
  match m.entries tenant routeIx with
  | some e => e.remoteLogOffset
  | none => 0

def advance (m : ExperimentMonitor F) (tenant : String) (routeIx absIx : Nat) :
    ExperimentMonitor F :=
  match m.entries tenant routeIx with
  | some e =>
    m.setEntry tenant routeIx { e with remoteLogOffset := max e.remoteLogOffset (absIx + 1) }
  | none => m

/-- The loop of `sync_from_backend`. A malformed entry of the log is `none`. -/
def applyBatch (m : ExperimentMonitor F) (tenant : String) (routeIx : Nat) (fingerprint : String)
    (absIx : Nat) : List (Option (LogRecord F)) → ExperimentMonitor F
  | [] => m
  | record :: records =>
    let m :=
      if absIx < m.currentOffset tenant routeIx then m
      else
        let m := match record with
          | some record => m.applyLogRecord tenant routeIx fingerprint record
          | none => m
        m.advance tenant routeIx absIx
    m.applyBatch tenant routeIx fingerprint (absIx + 1) records

-- ---------------------------------------------------------------------------
-- Startup replay
-- ---------------------------------------------------------------------------

/-- The two tallies of a request. The serving path makes them too. -/
def tallyTrace (m : ExperimentMonitor F) (t : Receipt F) (rec : ExperimentRecord F) :
    ExperimentMonitor F :=
  (m.observeCost t.tenantId t.route rec.fingerprint rec.arm t.final.totalCostUsd).observeHealth
    t.tenantId t.route rec.fingerprint rec.arm (t.final.servedFrom = .error) (truncatedAttempts t)

def replayTrace (m : ExperimentMonitor F) (t : Receipt F) : ExperimentMonitor F :=
  match t.experiment with
  | none => m
  | some rec =>
    let m := m.tallyTrace t rec
    if rec.arm = .incumbent then
      m.withEntry t.tenantId t.route fun e => e.rememberCosted t.traceId
    else m

/-- The map from ids to traces: the last trace of an id stays in it. -/
def byId (traces : List (Receipt F)) (id : Uuid) : Option (Receipt F) :=
  (traces.filter (·.experiment.isSome)).reverse.find? (·.traceId = id)

def replayOutcome (sessionHash : String → UInt64) (traces : List (Receipt F))
    (m : ExperimentMonitor F) (d : Uuid × Verdict) : ExperimentMonitor F :=
  match byId traces d.1 with
  | none => m
  | some t =>
    match t.experiment with
    | none => m
    | some rec => (m.observeOutcome sessionHash t.tenantId t.route rec.fingerprint rec.arm
        t.sessionId d.2).1

def replayPair (m : ExperimentMonitor F) (row : ExperimentPairRow F) : ExperimentMonitor F :=
  m.withEntry row.tenant row.routeIx fun e =>
    if m.fingerprint row.routeIx = some row.fingerprint then e.replayPair row else e.stale

def monitorFromTraces (sessionHash : String → UInt64) (params : List (Nat × Params F))
    (replicaId : Uuid) (traces : List (Receipt F)) (deferred : List (Uuid × Verdict))
    (pairs : List (ExperimentPairRow F)) : ExperimentMonitor F :=
  let m := fromConfig params replicaId
  if m.isActive = false then m
  else
    let m := traces.foldl replayTrace m
    let m := deferred.foldl (replayOutcome sessionHash traces) m
    pairs.foldl replayPair m

/-- `build_monitor_with`, for a trace store that can be read. -/
def buildMonitorWith (sessionHash : String → UInt64) (params : List (Nat × Params F))
    (replicaId : Uuid) (traces : List (Receipt F)) (deferred : List (Uuid × Verdict))
    (pairs : List (ExperimentPairRow F)) (sharedLog : Bool) : ExperimentMonitor F :=
  let replayed := if sharedLog then pairs.filter (·.inLog = .notInLog) else pairs
  let m := monitorFromTraces sessionHash params replicaId traces deferred replayed
  if sharedLog then pairs.foldl (fun m row => m.withEntry row.tenant row.routeIx id) m else m

end ExperimentMonitor

end Firstpass.Monitor
