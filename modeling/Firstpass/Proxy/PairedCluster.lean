import Firstpass.Proxy.IncumbentCost

/-!
# Paired evaluations over a shared log

The processes of one experiment in paired mode. Each serves traces, saves them, evaluates
a challenger on some of them, appends the pair to the log, keeps a row of it, syncs, and
crashes. An append may reach the log although it was reported lost, and after the
process that sent it is gone.

Left out: the budget and the status that may keep an evaluation from starting, and the
calls of the models.
-/

namespace Firstpass.Monitor

open Select CursorLog

variable {F : Type} [Field F] [LinearOrder F]

-- ---------------------------------------------------------------------------
-- The processes as consumers that keep accounts
-- ---------------------------------------------------------------------------

structure Booked (F : Type) where
  replicaId : Uuid
  account : Account F

def booking (d : Deployment F) :
    Consumer (Booked F) (Option (LogRecord F)) (Local F) (Boot F) where
  cursor s := s.account.entry.remoteLogOffset
  consume s n record :=
    { s with
      account := s.account.credit (s.account.entry.logCredits s.replicaId record)
        (s.account.entry.consume s.replicaId n record) }
  perform l s :=
    { s with
      account := s.account.credit (s.account.entry.localCredits d l)
        (s.account.entry.applyLocal d l) }
  boot b := ⟨b.replicaId, bootAccount d b⟩
  cursor_consume s record := (consumer d).cursor_consume ⟨s.replicaId, s.account.entry, []⟩ record
  cursor_perform l s := offset_applyLocal d s.account.entry l
  cursor_boot b := by rw [entry_bootAccount, offset_bootEntry]

section booking
variable (d : Deployment F) (s : Booked F) (arm : Arm) (traceId : Uuid)

theorem costsOf_consume (n : Nat) (record : Option (LogRecord F)) :
    costsOf arm traceId ((booking d).consume s n record).account.ledger =
      costsOf arm traceId s.account.ledger +
        costsOf arm traceId (s.account.entry.logCredits s.replicaId record) :=
  costsOf_append ..

theorem costsOf_perform (l : Local F) :
    costsOf arm traceId ((booking d).perform l s).account.ledger =
      costsOf arm traceId s.account.ledger +
        costsOf arm traceId (s.account.entry.localCredits d l) :=
  costsOf_append ..

theorem locallyCosted_perform (l : Local F) :
    ((booking d).perform l s).account.entry.locallyCosted = s.account.entry.locallyCosted :=
  locallyCosted_applyLocal d s.account.entry l

theorem offset_perform (l : Local F) :
    ((booking d).perform l s).account.entry.remoteLogOffset = s.account.entry.remoteLogOffset :=
  offset_applyLocal d s.account.entry l

omit s arm traceId in
theorem entry_boot (b : Boot F) : ((booking d).boot b).account.entry = bootEntry d b :=
  entry_bootAccount d b

end booking

-- ---------------------------------------------------------------------------
-- The cluster
-- ---------------------------------------------------------------------------

/-- `pair_outcome`: an answer from the cache is not comparable, and an error has no output. -/
def pairOutcome : ServedFrom → Option F
  | .attempt => some 1
  | .bestAttempt => some 0
  | .cache => none
  | .error => none

/-- The challenger's outcome in a pair: its error is a failure. -/
def challengerOutcome : ServedFrom → Option F
  | .attempt => some 1
  | .bestAttempt => some 0
  | .error => some 0
  | .cache => none

/-- How far the task of an evaluation has come: its append is sent; the append was
confirmed, and is read back; the record is in the log, and its row is due; the record is
taken not to be in the log, and its row is due; that row is stored, and the pair is due. -/
inductive Phase
  | appending
  | readBack
  | inLog
  | notInLog
  | stored

structure PairTask (F : Type) where
  record : PairRecord F
  phase : Phase

structure Database (F : Type) where
  traces : List (Receipt F)
  deferred : List (Uuid × Verdict)
  pairs : List (ExperimentPairRow F)

/-- The log and the processes; the appends that are under way; of each process its tasks, all
receipts it ever offered to its store, the store, and what it last started from; which
process served a trace, and which traces were evaluated. -/
structure Cluster (ι F : Type) where
  sys : System ι (Booked F) (Option (LogRecord F))
  inFlight : List (PairRecord F)
  tasks : ι → List (PairTask F)
  served : ι → List (Receipt F)
  db : ι → Database F
  boot : ι → Boot F
  servedBy : Uuid → Option Uuid
  evaluated : Finset Uuid

inductive Sync (ι : Type)
  | begin (i : ι)
  | load (i : ι) (k : Nat)
  | apply (i : ι) (k : Nat)
  | abort (i : ι) (k : Nat)

variable {ι : Type} [DecidableEq ι]

def Sync.action : Sync ι → LogAction ι F
  | .begin i => .begin i
  | .load i k => .load i k
  | .apply i k => .apply i k
  | .abort i k => .abort i k

inductive Move (ι F : Type)
  | serve (i : ι) (t : Receipt F)
  | save (i : ι) (k : Nat)
  | feedback (i : ι) (traceId : Uuid) (verdict : Verdict)
  | publish (record : Option (LogRecord F))
  | observe (i : ι) (arm : Arm) (sessionId : String) (verdict : Verdict)
  | evaluate (i : ι) (k : Nat) (ch : Receipt F)
  | land (k : Nat)
  | lose (k : Nat)
  | appended (i : ι) (k : Nat) (ok : Bool)
  | readBack (i : ι) (k : Nat) (ok : Bool)
  | write (i : ι) (k : Nat) (ok : Bool)
  | applyLocally (i : ι) (k : Nat)
  | sync (s : Sync ι)
  | restart (i : ι) (replicaId : Uuid)

/-- The pair record of a log entry names the trace as its incumbent's. -/
def names (traceId : Uuid) : Option (LogRecord F) → Bool
  | some (.pair r) => decide (r.incumbentTraceId = traceId)
  | _ => false

def isPairEntry : Option (LogRecord F) → Bool
  | some (.pair _) => true
  | _ => false

def PairRecord.fallback (r : PairRecord F) : Local F :=
  .pair r.xInc r.xCh r.challengerCostUsd r.traceId

def PairRecord.row (site : Site F) (r : PairRecord F) (status : InLogStatus) :
    ExperimentPairRow F where
  tenant := site.tenant
  routeIx := site.routeIx
  fingerprint := site.fingerprint
  traceId := r.traceId
  xInc := r.xInc
  xCh := r.xCh
  challengerCostUsd := r.challengerCostUsd
  chError := r.chError
  chTruncated := r.chTruncated
  inLog := status

namespace Cluster

variable (d : Deployment F) (c : Cluster ι F)

def replicaId (i : ι) : Uuid := (c.sys.process i).state.replicaId

def act (a : LogAction ι F) : Cluster ι F := { c with sys := (booking d).step c.sys a }

def setTasks (i : ι) (tasks : List (PairTask F)) : Cluster ι F :=
  { c with tasks := Function.update c.tasks i tasks }

def setPhase (i : ι) (k : Nat) (phase : Phase) : Cluster ι F :=
  c.setTasks i ((c.tasks i).modify k fun task => { task with phase })

def endTask (i : ι) (k : Nat) : Cluster ι F := c.setTasks i ((c.tasks i).eraseIdx k)

def setDb (i : ι) (db : Database F) : Cluster ι F := { c with db := Function.update c.db i db }

def appendExperimentPair (i : ι) (row : ExperimentPairRow F) : Cluster ι F :=
  c.setDb i { c.db i with pairs := (c.db i).pairs ++ [row] }

def holds (r : PairRecord F) : Bool := c.sys.log.any (names r.incumbentTraceId)

/-- How `record_pair` begins: a record that is not valid is not sent. -/
def recordPair (i : ι) (r : PairRecord F) : Cluster ι F :=
  if inUnit r.xInc ∧ inUnit r.xCh then
    { c.setTasks i (c.tasks i ++ [⟨r, .appending⟩]) with inFlight := c.inFlight ++ [r] }
  else c.setTasks i (c.tasks i ++ [⟨r, .notInLog⟩])

/-- `spawn_paired_challenger`, from the trace of the challenger's run on. -/
def spawnPairedChallenger (i : ι) (t ch : Receipt F) : Cluster ι F :=
  match pairOutcome t.final.servedFrom with
  | none => c
  | some xInc =>
    let chError : Bool := ch.final.servedFrom = .error
    let c := c.act d (.act i (.tally (.health chError (truncatedAttempts ch))))
    match challengerOutcome ch.final.servedFrom with
    | none => c
    | some xCh => c.recordPair i
        { xInc, xCh
          incumbentCostUsd := t.final.totalCostUsd
          challengerCostUsd := ch.final.totalCostUsd
          chError
          chTruncated := truncatedAttempts ch
          replicaId := c.replicaId i
          traceId := ch.traceId
          incumbentTraceId := t.traceId }

def move : Move ι F → Cluster ι F
  -- the id of a served trace is new and not nil
  | .serve i t =>
    if t.traceId = Uuid.nil ∨ (c.servedBy t.traceId).isSome ∨ t.paired d.site = false then c
    else
      { c.act d (.act i (.tally (.serve t))) with
        served := Function.update c.served i (c.served i ++ [t])
        servedBy := Function.update c.servedBy t.traceId (some (c.replicaId i)) }
  -- a receipt that was offered once may be stored late, more than once, or never
  | .save i k =>
    match (c.served i)[k]? with
    | none => c
    | some t => c.setDb i { c.db i with traces := (c.db i).traces ++ [t] }
  | .feedback i traceId verdict =>
    c.setDb i { c.db i with deferred := (c.db i).deferred ++ [(traceId, verdict)] }
  -- outcomes and malformed entries
  | .publish record => if isPairEntry record then c else c.act d (.append record)
  | .observe i arm sessionId verdict => c.act d (.act i (.outcome arm sessionId verdict))
  -- the process that served a trace evaluates the challenger on it once, if at all
  | .evaluate i k ch =>
    match (c.served i)[k]? with
    | none => c
    | some t =>
      if c.servedBy t.traceId ≠ some (c.replicaId i) ∨ t.traceId ∈ c.evaluated ∨
          t.credits d.site = [] then c
      else { c with evaluated := insert t.traceId c.evaluated }.spawnPairedChallenger d i t ch
  | .land k =>
    match c.inFlight[k]? with
    | none => c
    | some r => { c.act d (.append (some (.pair r))) with inFlight := c.inFlight.eraseIdx k }
  | .lose k => { c with inFlight := c.inFlight.eraseIdx k }
  -- a confirmed append is in the log; a failed or timed-out one may be, or may come to be
  | .appended i k ok =>
    match (c.tasks i)[k]? with
    | some ⟨r, .appending⟩ =>
      if ok = false then c.setPhase i k .notInLog
      else if c.holds r then c.setPhase i k .readBack
      else c
    | _ => c
  | .readBack i k ok =>
    match (c.tasks i)[k]? with
    | some ⟨r, .readBack⟩ =>
      (if ok then c else c.act d (.act i r.fallback)).setPhase i k .inLog
    | _ => c
  | .write i k ok =>
    match (c.tasks i)[k]? with
    | some ⟨r, .inLog⟩ =>
      (if ok then c.appendExperimentPair i (r.row d.site .inLog) else c).endTask i k
    | some ⟨r, .notInLog⟩ =>
      if ok then (c.appendExperimentPair i (r.row d.site .notInLog)).setPhase i k .stored
      else c.endTask i k
    | _ => c
  | .applyLocally i k =>
    match (c.tasks i)[k]? with
    | some ⟨r, .stored⟩ => (c.act d (.act i r.fallback)).endTask i k
    | _ => c
  | .sync s => c.act d s.action
  | .restart i replicaId =>
    let b : Boot F := ⟨replicaId, (c.db i).traces, (c.db i).deferred, (c.db i).pairs⟩
    { c.act d (.restart i b) with
      tasks := Function.update c.tasks i []
      boot := Function.update c.boot i b }

def run (moves : List (Move ι F)) : Cluster ι F := moves.foldl (move d) c

theorem run_append (first second : List (Move ι F)) :
    c.run d (first ++ second) = (c.run d first).run d second := List.foldl_append

omit [DecidableEq ι] in
/-- Processes with nothing stored, and an empty log. -/
def new (replicaId : ι → Uuid) : Cluster ι F where
  sys := ⟨[], fun i => ⟨(booking d).boot ⟨replicaId i, [], [], []⟩, []⟩⟩
  inFlight := []
  tasks _ := []
  served _ := []
  db _ := ⟨[], [], []⟩
  boot i := ⟨replicaId i, [], [], []⟩
  servedBy _ := none
  evaluated := ∅

end Cluster

end Firstpass.Monitor
