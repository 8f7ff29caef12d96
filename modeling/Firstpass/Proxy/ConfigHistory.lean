import Firstpass.Core.Fingerprint
import Firstpass.Proxy.LogOrder

/-!
# A history of configurations

Processes that serve, take feedback, evaluate challengers in pairs, share a log, and restart,
each time under a configuration of its own. What is gathered is kept together with the route
it was gathered under, and an experiment together with the pieces of evidence that it counted;
no step reads either.

What becomes of an evaluated pair (its append, its row, its local application) may come late
and more than once, and a sync may read its batch from any position, so the runs include those
of tasks that overlap or that a restart cuts off.
-/

namespace Firstpass.ConfigHistory

open Select Monitor
open ConfigFile (Route Challenger ChallengerMode Digest)

variable {F : Type} [Field F] [LinearOrder F]

-- ---------------------------------------------------------------------------
-- The parameters of a configuration
-- ---------------------------------------------------------------------------

/-- A route without a challenger has no experiment. Nor has one whose margin and alpha an
experiment refuses, which no parsed configuration has. -/
def routeParams (dg : Digest F) (r : Route F) : Option (Params F) :=
  r.challenger.bind fun ch =>
    match h : Experiment.new (fun _ => "") ch.margin ch.alpha with
    | .ok fresh => some ⟨ch.margin, ch.alpha, ch.fingerprint dg r.ladder, fresh, h⟩
    | .error _ => none

/-- The parameters that `from_config` makes. -/
def configParams (dg : Digest F) (routes : List (Route F)) : List (Nat × Params F) :=
  routes.zipIdx.filterMap fun r => (routeParams dg r.1).map (r.2, ·)

-- ---------------------------------------------------------------------------
-- Evidence and where it comes from
-- ---------------------------------------------------------------------------

/-- What was gathered, and under which route. -/
structure Gathered (F α : Type) where
  origin : Route F
  value : α

abbrev Piece (F : Type) := Gathered F (Item F)

/-- How many outcomes an experiment has counted. -/
def observed (e : Experiment F) : Nat :=
  2 * e.pairs + e.pendingIncumbent.length + e.pendingChallenger.length

def observedAt (m : ExperimentMonitor F) (tenant : String) (routeIx : Nat) : Nat :=
  (m.entries tenant routeIx).elim 0 fun e => observed e.experiment

/-- A monitor, and of each tenant and route the pieces that its experiment counted. -/
structure Pooled (F : Type) [Field F] [LinearOrder F] where
  monitor : ExperimentMonitor F
  pool : String → Nat → List (Piece F)

namespace Pooled

def fromConfig (params : List (Nat × Params F)) (replicaId : Uuid) : Pooled F :=
  ⟨.fromConfig params replicaId, fun _ _ => []⟩

/-- The monitor goes on to `next`. The piece has entered the experiment if that has then
counted more. -/
def offer (s : Pooled F) (tenant : String) (routeIx : Nat) (piece : Piece F)
    (next : ExperimentMonitor F) : Pooled F where
  monitor := next
  pool t r :=
    if (t = tenant ∧ r = routeIx) ∧ observedAt next t r ≠ observedAt s.monitor t r then
      s.pool t r ++ [piece]
    else s.pool t r

variable (s : Pooled F)

def observeOutcome (sessionHash : String → UInt64) (t : Gathered F (Receipt F))
    (verdict : Verdict) : Pooled F :=
  match t.value.experiment, (ExperimentMonitor.outcomeOf verdict : Option F) with
  | some rec, some outcome =>
    s.offer t.value.tenantId t.value.route
      ⟨t.origin, .outcome rec.arm outcome (sessionHash t.value.sessionId)⟩
      (s.monitor.observeOutcome sessionHash t.value.tenantId t.value.route rec.fingerprint rec.arm
        t.value.sessionId verdict).1
  | _, _ => s

def applyPairLocally (tenant : String) (routeIx : Nat) (fingerprint : String)
    (r : Gathered F (PairRecord F)) : Pooled F :=
  s.offer tenant routeIx ⟨r.origin, (LogRecord.pair r.value).item⟩
    (s.monitor.applyPairLocally tenant routeIx fingerprint r.value.xInc r.value.xCh
      r.value.challengerCostUsd r.value.traceId).1

def applyLogRecord (tenant : String) (routeIx : Nat) (fingerprint : String)
    (record : Gathered F (LogRecord F)) : Pooled F :=
  s.offer tenant routeIx ⟨record.origin, record.value.item⟩
    (s.monitor.applyLogRecord tenant routeIx fingerprint record.value)

def applyBatch (s : Pooled F) (tenant : String) (routeIx : Nat) (fingerprint : String)
    (absIx : Nat) : List (Option (Gathered F (LogRecord F))) → Pooled F
  | [] => s
  | record :: records =>
    let s :=
      if absIx < s.monitor.currentOffset tenant routeIx then s
      else
        let s := match record with
          | some record => s.applyLogRecord tenant routeIx fingerprint record
          | none => s
        { s with monitor := s.monitor.advance tenant routeIx absIx }
    s.applyBatch tenant routeIx fingerprint (absIx + 1) records

-- ---------------------------------------------------------------------------
-- Startup replay
-- ---------------------------------------------------------------------------

def replayTrace (s : Pooled F) (t : Gathered F (Receipt F)) : Pooled F :=
  { s with monitor := s.monitor.replayTrace t.value }

def byId (traces : List (Gathered F (Receipt F))) (id : Uuid) : Option (Gathered F (Receipt F)) :=
  (traces.filter (·.value.experiment.isSome)).reverse.find? (·.value.traceId = id)

def replayOutcome (sessionHash : String → UInt64) (traces : List (Gathered F (Receipt F)))
    (s : Pooled F) (d : Uuid × Verdict) : Pooled F :=
  match byId traces d.1 with
  | none => s
  | some t => s.observeOutcome sessionHash t d.2

def replayPair (s : Pooled F) (row : Gathered F (ExperimentPairRow F)) : Pooled F :=
  s.offer row.value.tenant row.value.routeIx ⟨row.origin, row.value.item⟩
    (s.monitor.replayPair row.value)

def monitorFromTraces (sessionHash : String → UInt64) (params : List (Nat × Params F))
    (replicaId : Uuid) (traces : List (Gathered F (Receipt F))) (deferred : List (Uuid × Verdict))
    (pairs : List (Gathered F (ExperimentPairRow F))) : Pooled F :=
  let s := fromConfig params replicaId
  if s.monitor.isActive = false then s
  else
    let s := traces.foldl replayTrace s
    let s := deferred.foldl (replayOutcome sessionHash traces) s
    pairs.foldl replayPair s

def buildMonitorWith (sessionHash : String → UInt64) (params : List (Nat × Params F))
    (replicaId : Uuid) (traces : List (Gathered F (Receipt F))) (deferred : List (Uuid × Verdict))
    (pairs : List (Gathered F (ExperimentPairRow F))) (sharedLog : Bool) : Pooled F :=
  let replayed := if sharedLog then pairs.filter (·.value.inLog = .notInLog) else pairs
  let s := monitorFromTraces sessionHash params replicaId traces deferred replayed
  if sharedLog then
    { s with monitor :=
        pairs.foldl (fun m row => m.withEntry row.value.tenant row.value.routeIx id) s.monitor }
  else s

end Pooled

-- ---------------------------------------------------------------------------
-- The processes and their log
-- ---------------------------------------------------------------------------

/-- The configuration a process runs, its monitor, the receipts it made, and its store. -/
structure Process (F : Type) [Field F] [LinearOrder F] where
  routes : List (Route F)
  state : Pooled F
  offered : List (Gathered F (Receipt F))
  traces : List (Gathered F (Receipt F))
  deferred : List (Uuid × Verdict)
  pairs : List (Gathered F (ExperimentPairRow F))

/-- A pair with the key of the log that it belongs to. -/
structure Evaluated (F : Type) where
  tenant : String
  routeIx : Nat
  fingerprint : String
  pair : Gathered F (PairRecord F)

structure World (ι F : Type) [Field F] [LinearOrder F] where
  process : ι → Process F
  log : String → Nat → String → List (Option (Gathered F (LogRecord F)))
  evaluated : List (Evaluated F)

/-- What `record_outcome` comes to: the outcome is counted here, when there is no log or the
append failed; its record is in the log; or its session was claimed before. -/
inductive Delivery
  | observe
  | append
  | claimed

inductive Step (ι F : Type)
  | restart (i : ι) (routes : List (Route F)) (replicaId : Uuid) (readable sharedLog : Bool)
  | serve (i : ι) (routeIx : Nat) (t : Receipt F) (stamp : Option (Arm × Nat))
  | save (i : ι) (k : Nat)
  | feedback (i : ι) (tenant : String) (traceId : Uuid) (verdict : Verdict) (how : Delivery)
  | evaluate (i : ι) (tenant : String) (routeIx : Nat) (r : PairRecord F)
  | land (k : Nat)
  | malformed (tenant : String) (routeIx : Nat) (fingerprint : String)
  | write (i : ι) (k : Nat) (status : InLogStatus)
  | applyLocally (i : ι) (k : Nat)
  | sync (i : ι) (tenant : String) (routeIx : Nat) (fingerprint : String) (absIx count : Nat)

variable {ι : Type} [DecidableEq ι]

namespace World

variable (dg : Digest F) (sessionHash : String → UInt64) (w : World ι F)

def set (i : ι) (p : Process F) : World ι F := { w with process := Function.update w.process i p }

def append (tenant : String) (routeIx : Nat) (fingerprint : String)
    (record : Option (Gathered F (LogRecord F))) : World ι F :=
  { w with log := fun t r fp =>
      if t = tenant ∧ r = routeIx ∧ fp = fingerprint then w.log t r fp ++ [record]
      else w.log t r fp }

/-- The record that the serving path stamps on a receipt of a challenger route. -/
def stampOf (r : Route F) (stamp : Option (Arm × Nat)) : Option (ExperimentRecord F) :=
  r.challenger.bind fun ch => stamp.map fun armBucket =>
    { arm := armBucket.1
      percent := ch.percent
      bucket := armBucket.2
      fingerprint := ch.fingerprint dg r.ladder }

/-- `record_outcome`, for the outcome of a stored trace. -/
def recordOutcome (i : ι) (t : Gathered F (Receipt F)) (rec : ExperimentRecord F)
    (verdict : Verdict) : Delivery → World ι F
  | .observe => w.set i { w.process i with
      state := (w.process i).state.observeOutcome sessionHash t verdict }
  | .append =>
    match (ExperimentMonitor.outcomeOf verdict : Option F) with
    | none => w
    | some outcome => w.append t.value.tenantId t.value.route rec.fingerprint
        (some ⟨t.origin, .outcome rec.arm outcome (sessionHash t.value.sessionId)
          t.value.final.totalCostUsd⟩)
  | .claimed => w

def step : Step ι F → World ι F
  -- a store that cannot be read gives a monitor without history
  | .restart i routes replicaId readable sharedLog =>
    let p := w.process i
    let params := configParams dg routes
    w.set i { p with
      routes
      state :=
        if readable then
          .buildMonitorWith sessionHash params replicaId p.traces p.deferred p.pairs sharedLog
        else .fromConfig params replicaId }
  | .serve i routeIx t stamp =>
    let p := w.process i
    match p.routes[routeIx]? with
    | none => w
    | some r =>
      let t := { t with routeIx := some routeIx, experiment := stampOf dg r stamp }
      w.set i { p with
        state := { p.state with
          monitor := match t.experiment with
            | none => p.state.monitor
            | some rec => p.state.monitor.tallyTrace t rec }
        offered := p.offered ++ [⟨r, t⟩] }
  | .save i k =>
    let p := w.process i
    match p.offered[k]? with
    | none => w
    | some t => w.set i { p with traces := p.traces ++ [t] }
  | .feedback i tenant traceId verdict how =>
    let p := w.process i
    match p.traces.find? fun t => ofTenant tenant traceId t.value with
    | none => w
    | some t =>
      let w := w.set i { p with deferred := p.deferred ++ [(traceId, verdict)] }
      if p.state.monitor.isActive = false ∨ verdict = .abstain then w
      else
        match t.value.experiment with
        | none => w
        | some rec => w.recordOutcome sessionHash i t rec verdict how
  -- a route in paired mode: the challenger runs through the gates of the route
  | .evaluate i tenant routeIx r =>
    match (w.process i).routes[routeIx]? with
    | none => w
    | some route =>
      match route.challenger with
      | none => w
      | some ch =>
        if ch.isPaired then
          { w with evaluated := w.evaluated ++
              [⟨tenant, routeIx, ch.fingerprint dg route.ladder, ⟨route, r⟩⟩] }
        else w
  | .land k =>
    match w.evaluated[k]? with
    | none => w
    | some e => w.append e.tenant e.routeIx e.fingerprint
        (some ⟨e.pair.origin, .pair e.pair.value⟩)
  | .malformed tenant routeIx fingerprint => w.append tenant routeIx fingerprint none
  | .write i k status =>
    let p := w.process i
    match w.evaluated[k]? with
    | none => w
    | some e =>
      let row : ExperimentPairRow F :=
        { tenant := e.tenant
          routeIx := e.routeIx
          fingerprint := e.fingerprint
          traceId := e.pair.value.traceId
          xInc := e.pair.value.xInc
          xCh := e.pair.value.xCh
          challengerCostUsd := e.pair.value.challengerCostUsd
          chError := e.pair.value.chError
          chTruncated := e.pair.value.chTruncated
          inLog := status }
      w.set i { p with pairs := p.pairs ++ [⟨e.pair.origin, row⟩] }
  | .applyLocally i k =>
    let p := w.process i
    match w.evaluated[k]? with
    | none => w
    | some e => w.set i { p with
        state := p.state.applyPairLocally e.tenant e.routeIx e.fingerprint e.pair }
  | .sync i tenant routeIx fingerprint absIx count =>
    let p := w.process i
    let records := ((w.log tenant routeIx fingerprint).drop absIx).take count
    let state := { p.state with monitor := p.state.monitor.withEntry tenant routeIx id }
    w.set i { p with state := state.applyBatch tenant routeIx fingerprint absIx records }

omit [DecidableEq ι] in
/-- Processes without a configuration or a history, and an empty log. -/
def new : World ι F where
  process _ := ⟨[], .fromConfig [] Uuid.nil, [], [], [], []⟩
  log _ _ _ := []
  evaluated := []

def run (steps : List (Step ι F)) : World ι F := steps.foldl (step dg sessionHash) new

end World

/-- The configurations of a run. -/
def configs (steps : List (Step ι F)) : List (List (Route F)) :=
  steps.filterMap fun
    | .restart _ routes _ _ _ => some routes
    | _ => none

end Firstpass.ConfigHistory
