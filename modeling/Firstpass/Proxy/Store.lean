import Firstpass.Core.Trace

/-!
# The trace store

Requests offer traces to a bounded channel. One writer owns the table: it links
each trace to the chain head, hashes and inserts it. In durable mode a trace
that finds the channel full is appended to the spill file, which the writer
drains at startup and whenever the channel is empty.

`Step` is one move of a request, of the writer or of the machine, which may
fail an operation or crash at any point. The rows and the spill file survive a
crash; everything else is lost with the process.
-/

namespace Firstpass.Store

open HashChain (genesisHash)

variable {F : Type} [F64 F]

inductive ReceiptsMode
  | bestEffort
  | durable
  deriving DecidableEq

def traceChannelCap : Nat := 8192

def toText (t : Trace F) : String := String.ofList (Json.print t.toValue)

/-- The hash, the reader of JSON lines and the receipts mode. The traces the
process offers read back from their text, whatever link they are given. -/
structure StoreEnv (F : Type) [F64 F] where
  mode : ReceiptsMode
  sha256Hex : String → String
  fromText : String → Except String (Trace F)
  offered : Trace F → Prop
  roundTrip : ∀ t, offered t → ∀ prevHash,
    fromText (toText (t.withPrevHash prevHash)) = .ok (t.withPrevHash prevHash)

structure Row where
  traceId : String
  ts : String
  prevHash : String
  hash : String
  tenant : String
  session : String
  body : String

-- ---------------------------------------------------------------------------
-- The writer's operations
-- ---------------------------------------------------------------------------

inductive Fault
  | none
  | hash
  | insert
  deriving DecidableEq

def currentHead (rows : List Row) : String :=
  match rows.getLast? with
  | some row => row.hash
  | none => genesisHash

def insert (rows : List Row) (trace : Trace F) (hash : String) : List Row :=
  rows ++ [{
    traceId := trace.traceId
    ts := trace.ts
    prevHash := trace.prevHash
    hash := hash
    tenant := trace.tenantId
    session := trace.sessionId
    body := toText trace }]

/-- Link, hash and insert one trace. On a failure the trace is dropped and the
head stays where it is: `none`. -/
def writeTrace (env : StoreEnv F) (fault : Fault) (rows : List Row) (head : String)
    (trace : Trace F) : Option (List Row × String) :=
  let trace := trace.withPrevHash head
  match trace.hash env.sha256Hex with
  | .error _ => none
  | .ok hash => if fault = .none then some (insert rows trace hash, hash) else none

inductive Resume
  | recv
  | exit
  deriving DecidableEq

/-- The writer's program counter, with the trace it has in hand. The lines a
drain has inserted and skipped are kept for the proofs. -/
inductive Pc (F : Type) [F64 F]
  | down
  | loadHead
  | seekSpill (resume : Resume)
  | draining (resume : Resume) (todo inserted skipped : List String)
  | truncating (resume : Resume) (inserted skipped : List String)
  | recv
  | writing (trace : Trace F)
  | tryRecv
  | stopped

def Resume.pc : Resume → Pc F
  | .recv => .recv
  | .exit => .stopped

/-- A drain where there is a spill file, and straight on where there is none. -/
def drainPc (env : StoreEnv F) (resume : Resume) : Pc F :=
  match env.mode with
  | .durable => .seekSpill resume
  | .bestEffort => resume.pc

def isBlank (line : String) : Bool := line.toList.all Char.isWhitespace

/-- The store: the table and the spill file, then what lives in the process.
The last four lists record what happened to the traces; no step reads them. -/
structure State (F : Type) [F64 F] where
  rows : List Row
  spill : List String
  channel : List (Trace F)
  closed : Bool
  waiting : List (Trace F)
  head : String
  pc : Pc F
  accepted : List (Trace F)
  appended : List (Trace F)
  lostAtCrash : List (Trace F)
  failed : List (Trace F)

def State.init : State F := ⟨[], [], [], false, [], "", .down, [], [], [], []⟩

/-- The writer holds the lock of the spill file during a whole drain. -/
def Pc.locksSpill : Pc F → Bool
  | .draining .. => true
  | .truncating .. => true
  | _ => false

def Pc.receives : Pc F → Bool
  | .down => false
  | .stopped => false
  | _ => true

/-- `offer_trace`: into the channel, or to the spill file when it is full. -/
def offerTrace (env : StoreEnv F) (s : State F) (t : Trace F) : State F :=
  if s.closed || !s.pc.receives then s
  else if s.channel.length < traceChannelCap then
    { s with channel := s.channel ++ [t], accepted := s.accepted ++ [t] }
  else
    match env.mode with
    | .durable => { s with waiting := s.waiting ++ [t] }
    | .bestEffort => s

def linesAt (p : Nat → Bool) (spill : List String) : List String :=
  (spill.zipIdx.filter fun l => p l.2).map Prod.fst

/-- Read the lines that can be read; with none to drain, the drain is over. -/
def readSpill (ok : Nat → Bool) (s : State F) (resume : Resume) : State F :=
  match (linesAt ok s.spill).filter (!isBlank ·) with
  | [] => { s with pc := resume.pc }
  | todo => { s with pc := .draining resume todo [] (linesAt (!ok ·) s.spill) }

def drainLine (env : StoreEnv F) (fault : Fault) (s : State F) (resume : Resume) (line : String)
    (todo inserted skipped : List String) : State F :=
  match env.fromText line with
  | .error _ => { s with pc := .draining resume todo inserted (skipped ++ [line]) }
  | .ok trace =>
    match writeTrace env fault s.rows s.head trace with
    | none => { s with pc := .draining resume todo inserted (skipped ++ [line]) }
    | some (rows, head) =>
      { s with rows, head, pc := .draining resume todo (inserted ++ [line]) skipped }

def writeInHand (env : StoreEnv F) (fault : Fault) (s : State F) (trace : Trace F) : State F :=
  match writeTrace env fault s.rows s.head trace with
  | none => { s with failed := s.failed ++ [trace], pc := .tryRecv }
  | some (rows, head) => { s with rows, head, pc := .tryRecv }

-- ---------------------------------------------------------------------------
-- The steps
-- ---------------------------------------------------------------------------

/-- What happens, with what the machine decides: which operation fails, and
which lines of the spill file can be read. -/
inductive Event (F : Type) [F64 F]
  | offer (t : Trace F)
  | append (t : Trace F)
  | appendFailed (t : Trace F)
  | closeSenders
  | loadHead
  | loadHeadFailed
  | seekFailed
  | read (ok : Nat → Bool)
  | drainLine (fault : Fault)
  | drainEnd
  | truncate
  | truncateFailed
  | recv
  | write (fault : Fault)
  | disconnect
  | crash
  | restart

inductive Step (env : StoreEnv F) : State F → Event F → State F → Prop
  | offer : env.offered t → s.pc ≠ .down → Step env s (.offer t) (offerTrace env s t)
  -- The line is on disk once the append returns.
  | append (front : List (Trace F)) : s.waiting = front ++ t :: back → s.pc.locksSpill = false →
      Step env s (.append t) { s with
        waiting := front ++ back, spill := s.spill ++ [toText t], appended := s.appended ++ [t] }
  | appendFailed : s.waiting = front ++ t :: back → s.pc.locksSpill = false →
      Step env s (.appendFailed t) { s with waiting := front ++ back }
  | closeSenders : s.pc ≠ .down → Step env s .closeSenders { s with closed := true }
  -- `current_head`, then the startup drain. Without a head the writer returns,
  -- and the channel goes with its receiver.
  | loadHead : s.pc = .loadHead →
      Step env s .loadHead { s with head := currentHead s.rows, pc := drainPc env .recv }
  | loadHeadFailed : s.pc = .loadHead →
      Step env s .loadHeadFailed { s with channel := [], pc := .stopped }
  -- `drain_spill`: seek, read the lines, write them one by one, truncate.
  | seekFailed : s.pc = .seekSpill resume → Step env s .seekFailed { s with pc := resume.pc }
  | read (ok : Nat → Bool) :
    s.pc = .seekSpill resume → Step env s (.read ok) (readSpill ok s resume)
  | drainLine (fault : Fault) : s.pc = .draining resume (line :: todo) inserted skipped →
      Step env s (.drainLine fault) (drainLine env fault s resume line todo inserted skipped)
  | drainEnd : s.pc = .draining resume [] inserted skipped →
      Step env s .drainEnd { s with pc := .truncating resume inserted skipped }
  | truncate : s.pc = .truncating resume inserted skipped →
      Step env s .truncate { s with spill := [], pc := resume.pc }
  | truncateFailed : s.pc = .truncating resume inserted skipped →
      Step env s .truncateFailed { s with pc := resume.pc }
  -- `blocking_recv` and `try_recv`. A closed channel is first emptied.
  | recv : s.pc = .recv → s.channel = t :: rest →
      Step env s .recv { s with channel := rest, pc := .writing t }
  | recvClosed : s.pc = .recv → s.channel = [] → s.closed = true →
      Step env s .disconnect { s with pc := drainPc env .exit }
  | tryRecv : s.pc = .tryRecv → s.channel = t :: rest →
      Step env s .recv { s with channel := rest, pc := .writing t }
  | tryRecvEmpty : s.pc = .tryRecv → s.channel = [] → s.closed = false →
      Step env s .recv { s with pc := drainPc env .recv }
  -- The early return: no last drain.
  | tryRecvDisconnected : s.pc = .tryRecv → s.channel = [] → s.closed = true →
      Step env s .disconnect { s with pc := .stopped }
  | write (fault : Fault) :
    s.pc = .writing t → Step env s (.write fault) (writeInHand env fault s t)
  | crash : s.pc ≠ .down →
      Step env s .crash { s with
        channel := [], closed := false, waiting := [], head := "", pc := .down,
        lostAtCrash := s.lostAtCrash ++ s.channel }
  | restart : s.pc = .down → Step env s .restart { s with pc := .loadHead }

inductive Run (env : StoreEnv F) : List (Event F) → State F → Prop
  | start : Run env [] .init
  | step : Run env events s → Step env s e s' → Run env (events ++ [e]) s'

/-- What an auditor loads: the bodies of the rows, in order. -/
def loadAllTraces (env : StoreEnv F) (rows : List Row) : Except String (List (Trace F)) :=
  rows.mapM fun row => env.fromText row.body

end Firstpass.Store
