import Firstpass.Core.JsonDocument
import Firstpass.Core.TraceRoundTrip
import Firstpass.Lib.ExpiringKeys
import Firstpass.Proxy.CacheStore

/-!
# The shared store of verified answers

Replicas keep their answers on one server. An answer has a key of its own, and the decision that
proved it has an index of the keys it proved, so that any replica can retract it. A put sends three
commands and a retraction three, each of which may be lost, and the commands of all replicas
interleave. An answer is put before its receipt can be reported on, and once.

Left out: a server that drops a key before its time, an answer that is nested deeper than a reader
goes, and the metric that counts the entries.
-/

namespace Firstpass.SharedCache

open ExpiringKeys
open Json (Value Document Readable canonicalize)
open ResponseCache (Entry Instant composeKey)

variable {F : Type} [F64 F]

-- ---------------------------------------------------------------------------
-- The text of an entry
-- ---------------------------------------------------------------------------

def responseValue (r : ModelResponse) : Value := record
  [("model", some (.string r.model)), ("text", some (.string r.text)),
    ("in_tokens", some (natValue r.inTokens)),
    ("cache_write_tokens", some (natValue r.cacheWriteTokens)),
    ("cache_read_tokens", some (natValue r.cacheReadTokens)),
    ("out_tokens", some (natValue r.outTokens)), ("raw", some r.raw)]

def responseOf (v : Value) : Option ModelResponse := do
  let fs ← fieldsOf v
  return {
    model := ← readField fs "model" (required stringOf)
    text := ← readField fs "text" (required stringOf)
    inTokens := ← readField fs "in_tokens" (required (natOf 64))
    cacheWriteTokens := ← readField fs "cache_write_tokens" (required (natOf 64))
    cacheReadTokens := ← readField fs "cache_read_tokens" (required (natOf 64))
    outTokens := ← readField fs "out_tokens" (required (natOf 64))
    raw := ← readField fs "raw" (required fun raw => some (canonicalize raw)) }

/-- The time of the insert is not written. -/
def entryValue (e : Entry F) : Value := record
  [("response", some (responseValue e.response)), ("source", some (.string e.source)),
    ("original_cost_usd", some (floatValue e.originalCostUsd))]

def entryText (e : Entry F) : String := (entryValue e).toText

variable (tx : Texts F)

def entryOf (text : String) (now : Instant) : Option (Entry F) := do
  let fs ← (Json.fromStr tx.floatText text).bind fieldsOf
  return {
    response := ← readField fs "response" (required responseOf)
    source := ← readField fs "source" (required (uuidOf tx))
    originalCostUsd := ← readField fs "original_cost_usd" (required (floatOf tx))
    stored := now }

structure EntryFits (e : Entry F) : Prop where
  inTokens : e.response.inTokens < 2 ^ 64
  cacheWriteTokens : e.response.cacheWriteTokens < 2 ^ 64
  cacheReadTokens : e.response.cacheReadTokens < 2 ^ 64
  outTokens : e.response.outTokens < 2 ^ 64
  raw : Document tx.floatText 125 e.response.raw
  source : tx.uuid e.source = some e.source
  originalCostUsd : Finite e.originalCostUsd

-- ---------------------------------------------------------------------------
-- The store
-- ---------------------------------------------------------------------------

def entryKey (key : String) : String := "fp:vc:" ++ key

def sourceKey (source : String) : String := "fp:vc:src:" ++ source

/-- A replica's call, with the time to live that the replica is configured with. -/
structure Put (F : Type) where
  tenant : String
  promptHash : String
  ladder : List String
  entry : Entry F
  ttlSecs : Nat

inductive Stage
  | setex
  | sadd
  | expire

def Stage.next : Stage → Option Stage
  | .setex => some .sadd
  | .sadd => some .expire
  | .expire => none

namespace Put

variable (p : Put F)

def source : String := p.entry.source

def key : String := composeKey p.tenant p.promptHash p.ladder

/-- The commands of the pipeline. -/
def command : Stage → Command
  | .setex => .setex (entryKey p.key) p.ttlSecs (entryText p.entry)
  | .sadd => .sadd (sourceKey p.source) (entryKey p.key)
  | .expire => .expire (sourceKey p.source) p.ttlSecs

end Put

/-- `get` -/
def lookup (server : Server) (key : String) (now : Instant) : Option (Entry F) :=
  (server.get (entryKey key)).bind fun body => entryOf tx body now

-- ---------------------------------------------------------------------------
-- The replicas
-- ---------------------------------------------------------------------------

/-- A call, before the command it sends next. -/
inductive Call (F : Type)
  | putting (p : Put F) (stage : Stage)
  | reading (source : String)
  | deleting (source : String) (keys : List String)
  | clearing (source : String)

def Call.source : Call F → String
  | .putting p _ => p.source
  | .reading source => source
  | .deleting source _ => source
  | .clearing source => source

section
variable (p : Put F) (stage : Stage) (source : String) (keys : List String)

omit [F64 F]

@[simp] theorem source_putting : (Call.putting p stage).source = p.source := rfl

@[simp] theorem source_reading : (Call.reading source : Call F).source = source := rfl

@[simp] theorem source_deleting : (Call.deleting source keys : Call F).source = source := rfl

@[simp] theorem source_clearing : (Call.clearing source : Call F).source = source := rfl

end

structure State (F : Type) where
  server : Server
  calls : List (Call F)
  /-- The decisions that have been put or reported on: none of them is put from now on. -/
  used : List String

inductive Event (F : Type)
  /-- What a lookup answers, and when. -/
  | look (key : String) (entry : Option (Entry F)) (time : Nat)
  | put (p : Put F)
  | sent (p : Put F) (stage : Stage) (time : Nat)
  | report (source : String)
  | read (source : String)
  /-- A retraction finds no key, or deletes those it found. -/
  | retracted (source : String)
  | cleared (source : String)
  /-- A command of the decision's put or of one of its retractions is lost. -/
  | lost (source : String)
  | tick

inductive Step : State F → Event F → State F → Prop
  | look (now : Instant) : Step s (.look key (lookup tx s.server key now) s.server.now) s
  | lookLost : Step s (.look key none s.server.now) s
  | put (p : Put F) : p.source ∉ s.used → '|' ∉ p.source.toList → EntryFits tx p.entry →
      Step s (.put p) { s with
        calls := s.calls ++ [.putting p .setex], used := p.source :: s.used }
  | send (p : Put F) (stage : Stage) : s.calls = front ++ .putting p stage :: back →
      Step s (.sent p stage s.server.now) { s with
        server := s.server.exec (p.command stage)
        calls := front ++ (stage.next.map (.putting p)).toList ++ back }
  -- The rest of the pipeline is not executed.
  | cut (p : Put F) (stage : Stage) : s.calls = front ++ .putting p stage :: back →
      Step s (.lost p.source) { s with calls := front ++ back }
  -- A report is on a stored receipt, which is after the put if there was one.
  | report (source : String) : (∀ p stage, .putting p stage ∈ s.calls → p.source ≠ source) →
      Step s (.report source) { s with
        calls := s.calls ++ [.reading source], used := source :: s.used }
  | readNone (source : String) : s.calls = front ++ .reading source :: back →
      s.server.smembers (sourceKey source) = [] →
      Step s (.retracted source) { s with calls := front ++ back }
  | read (source key : String) (keys : List String) :
      s.calls = front ++ .reading source :: back →
      s.server.smembers (sourceKey source) = key :: keys →
      Step s (.read source) { s with calls := front ++ .deleting source (key :: keys) :: back }
  | readLost (source : String) : s.calls = front ++ .reading source :: back →
      Step s (.lost source) { s with calls := front ++ back }
  | delete (source : String) (keys : List String) :
      s.calls = front ++ .deleting source keys :: back →
      Step s (.retracted source) { s with
        server := s.server.exec (.del keys), calls := front ++ .clearing source :: back }
  -- The index is cleared all the same.
  | deleteLost (source : String) (keys : List String) :
      s.calls = front ++ .deleting source keys :: back →
      Step s (.lost source) { s with calls := front ++ .clearing source :: back }
  | clear (source : String) : s.calls = front ++ .clearing source :: back →
      Step s (.cleared source) { s with
        server := s.server.exec (.del [sourceKey source]), calls := front ++ back }
  | clearLost (source : String) : s.calls = front ++ .clearing source :: back →
      Step s (.lost source) { s with calls := front ++ back }
  | tick (n : Nat) : Step s .tick { s with server := s.server.tick n }

inductive Run : State F → List (Event F) → State F → Prop
  | nil : Run s [] s
  | cons : Step tx s e s' → Run s' events s'' → Run s (e :: events) s''

/-- Nothing has been put yet. -/
structure State.Fresh (s : State F) : Prop where
  server : ∀ key, s.server.slots key = none
  calls : s.calls = []
  used : s.used = []

end Firstpass.SharedCache
