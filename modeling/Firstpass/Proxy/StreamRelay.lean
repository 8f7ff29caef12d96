import Firstpass.Lib.Interleave
import Firstpass.Proxy.Passthrough
import Firstpass.Proxy.TokenAgreement

/-!
# The relay of event streams

The body of a streamed reply hands on each answer of the upstream stream as it is, and taps the
chunks for the usage. Its receipt is left when the stream ends, breaks or is dropped, whichever
is first. Many streams are relayed at once, and polled in any order.

Left out: wakers, and what `offer_trace` does with a receipt.
-/

namespace Firstpass.StreamRelay

open Interleave
open LineFeed (Reader lines)
open Passthrough (Forwarded Settings SseEndReason buildErrorTrace buildStreamTraceFromUsage
  receipt streamOutcome)
open Routing (Bytes utf8)
open TokenUsage (SseUsage lineFeed parseSseChunkInto processSseLine sseLineBufCap sseUsage)

variable {ι ε F : Type} [F64 F]

-- ---------------------------------------------------------------------------
-- One stream
-- ---------------------------------------------------------------------------

/-- The answer of a stream to a poll. -/
inductive Polled (ε : Type)
  | pending
  | chunk (bytes : Bytes)
  | failed (e : ε)
  | ended

/-- The tap with the callback that it has not yet called. -/
structure SseTap (F : Type) [F64 F] where
  reader : TokenUsage.SseTap
  onDone : Option (SseUsage → SseEndReason → Trace F)

/-- What happens to a stream. The callback is made with the success of the HTTP status. -/
inductive Event (ε : Type)
  | opened (r : Forwarded) (success : Bool)
  | polled (upstream : Polled ε)
  | dropped

/-- The answer that the client is given to its poll, or a receipt. -/
inductive Effect (ε F : Type) [F64 F]
  | given (answer : Polled ε)
  | offered (trace : Trace F)

def streamTraceCallback (s : Settings F) (r : Forwarded) (upstreamSuccess : Bool)
    (usage : SseUsage) (reason : SseEndReason) : Trace F :=
  let trace :=
    if upstreamSuccess then buildStreamTraceFromUsage s r usage (streamOutcome usage reason)
    else buildErrorTrace s r
  { trace with tenantId := r.tenant }

namespace SseTap

variable (s : Settings F) (tap : SseTap F)

def new (onDone : SseUsage → SseEndReason → Trace F) : SseTap F := ⟨.fresh .fresh, some onDone⟩

/-- The callback is taken, and the usage with it. -/
def finish (reason : SseEndReason) : SseTap F × List (Effect ε F) :=
  match tap.onDone with
  | none => (tap, [])
  | some onDone =>
    ({ reader := { tap.reader with out := .fresh }, onDone := none },
      [.offered (onDone tap.reader.out reason)])

def pollNext : Polled ε → SseTap F × List (Effect ε F)
  | .pending => (tap, [.given .pending])
  | .chunk bytes =>
    ({ tap with reader := parseSseChunkInto s.fromSlice tap.reader bytes },
      [.given (.chunk bytes)])
  | .failed e =>
    let done := tap.finish .upstreamError
    (done.1, done.2 ++ [.given (.failed e)])
  | .ended =>
    let done := tap.finish .eof
    (done.1, done.2 ++ [.given .ended])

end SseTap

/-- A body that is not there, yet or any more, is not polled. -/
def step (s : Settings F) : Option (SseTap F) → Event ε → Option (SseTap F) × List (Effect ε F)
  | none, .opened r success => (some (.new (streamTraceCallback s r success)), [])
  | none, .polled _ => (none, [])
  | none, .dropped => (none, [])
  | some tap, .opened _ _ => (some tap, [])
  | some tap, .polled upstream =>
    let next := tap.pollNext s upstream
    (some next.1, next.2)
  | some tap, .dropped => (none, (tap.finish .dropped).2)

/-- All the streams of a proxy, with the stream of each event and of each effect. -/
def relay [DecidableEq ι] (s : Settings F) (events : List (ι × Event ε)) :
    (ι → Option (SseTap F)) × List (ι × Effect ε F) :=
  run (stepAt (step s)) (fun _ => none) events

-- ---------------------------------------------------------------------------
-- What is to be seen of a stream
-- ---------------------------------------------------------------------------

/-- The receipts that are left. -/
def receipts : List (Effect ε F) → List (Trace F)
  | [] => []
  | .offered trace :: out => trace :: receipts out
  | .given _ :: out => receipts out

/-- The answers that the client is given. -/
def given : List (Effect ε F) → List (Polled ε)
  | [] => []
  | .offered _ :: out => given out
  | .given answer :: out => answer :: given out

def Polled.bytes : Polled ε → Bytes
  | .chunk bytes => bytes
  | _ => []

/-- The chunks of a stream up to its end, and what ended it. -/
def ending : List (Event ε) → Option (List Bytes × SseEndReason)
  | [] => none
  | .opened _ _ :: events => ending events
  | .dropped :: _ => some ([], .dropped)
  | .polled .pending :: events => ending events
  | .polled (.chunk bytes) :: events =>
    (ending events).map fun (chunks, reason) => (bytes :: chunks, reason)
  | .polled (.failed _) :: _ => some ([], .upstreamError)
  | .polled .ended :: _ => some ([], .eof)

/-- The bytes of a stream up to its end, and what ended it. -/
def bytesTo (events : List (Event ε)) : Option (Bytes × SseEndReason) :=
  (ending events).map fun e => (e.1.flatten, e.2)

/-- The answers of the upstream as long as the body is there. -/
def answers : List (Event ε) → List (Polled ε)
  | [] => []
  | .opened _ _ :: events => answers events
  | .dropped :: _ => []
  | .polled upstream :: events => upstream :: answers events

def Event.isOpened : Event ε → Bool
  | .opened _ _ => true
  | _ => false

-- ---------------------------------------------------------------------------
-- The run of one stream
-- ---------------------------------------------------------------------------

variable (s : Settings F)

/-- Where no body is opened, nothing comes of it. -/
theorem run_closed {events : List (Event ε)} (h : ∀ e ∈ events, e.isOpened = false) :
    run (step s) none events = (none, []) := by
  induction events with
  | nil => rfl
  | cons e events ih =>
    obtain ⟨he, hevents⟩ := List.forall_mem_cons.mp h
    cases e with
    | opened r success => cases he
    | polled upstream => simp [run, step, ih hevents]
    | dropped => simp [run, step, ih hevents]

/-- A tap whose callback has been called relays on, and leaves no other receipt. -/
theorem run_finished (reader : TokenUsage.SseTap) {events : List (Event ε)}
    (h : ∀ e ∈ events, e.isOpened = false) :
    (run (step s) (some ⟨reader, none⟩) events).2 = (answers events).map .given := by
  induction events generalizing reader with
  | nil => rfl
  | cons e events ih =>
    obtain ⟨he, hevents⟩ := List.forall_mem_cons.mp h
    cases e with
    | opened r success => cases he
    | dropped => simp [run, step, SseTap.finish, run_closed s hevents, answers]
    | polled upstream =>
      cases upstream <;> simp [run, step, SseTap.pollNext, SseTap.finish, ih _ hevents, answers]

/-- The tap of a stream that has had some chunks and no end. -/
def live (r : Forwarded) (success : Bool) (chunks : List Bytes) : SseTap F :=
  ⟨chunks.foldl (parseSseChunkInto s.fromSlice) (.fresh .fresh),
    some (streamTraceCallback s r success)⟩

/-- The receipt that the stream has left, if it has ended. -/
def receiptOf (r : Forwarded) (success : Bool) (chunks : List Bytes)
    (events : List (Event ε)) : List (Trace F) :=
  ((ending events).map fun e => receipt s r (.streamed success (chunks ++ e.1) e.2)).toList

theorem callback_receipt (r : Forwarded) (success : Bool) (chunks : List Bytes)
    (reason : SseEndReason) :
    streamTraceCallback s r success (sseUsage s.fromSlice chunks) reason =
      receipt s r (.streamed success chunks reason) := by
  cases success <;> rfl

@[simp] theorem receipts_given (upstreams : List (Polled ε)) :
    receipts (upstreams.map (Effect.given (F := F))) = [] := by
  induction upstreams with
  | nil => rfl
  | cons upstream upstreams ih => exact ih

@[simp] theorem given_given (upstreams : List (Polled ε)) :
    given (upstreams.map (Effect.given (F := F))) = upstreams := by
  induction upstreams with
  | nil => rfl
  | cons upstream upstreams ih => exact congrArg (upstream :: ·) ih

theorem run_live (r : Forwarded) (success : Bool) (chunks : List Bytes) {events : List (Event ε)}
    (h : ∀ e ∈ events, e.isOpened = false) :
    let out := (run (step s) (some (live s r success chunks)) events).2
    receipts out = receiptOf s r success chunks events ∧ given out = answers events := by
  induction events generalizing chunks with
  | nil => exact ⟨rfl, rfl⟩
  | cons e events ih =>
    obtain ⟨he, hevents⟩ := List.forall_mem_cons.mp h
    have hcalled : ∀ reason,
        streamTraceCallback s r success (live s r success chunks).reader.out reason =
          receipt s r (.streamed success chunks reason) :=
      callback_receipt s r success chunks
    cases e with
    | opened r success => cases he
    | dropped =>
      simp [run, step, live, SseTap.finish, run_closed s hevents, receiptOf, ending, answers,
        receipts, given, ← hcalled]
    | polled upstream =>
      cases upstream with
      | pending =>
        obtain ⟨hreceipt, hanswers⟩ := ih chunks hevents
        exact ⟨hreceipt, congrArg _ hanswers⟩
      | chunk bytes =>
        obtain ⟨hreceipt, hanswers⟩ := ih (chunks ++ [bytes]) hevents
        rw [live, List.foldl_append] at hreceipt hanswers
        refine ⟨hreceipt.trans ?_, congrArg _ hanswers⟩
        rw [receiptOf, receiptOf, ending]
        cases ending events <;> simp
      | failed e =>
        simp [run, step, live, SseTap.pollNext, SseTap.finish, run_finished s _ hevents, receiptOf,
          ending, answers, receipts, given, ← hcalled]
      | ended =>
        simp [run, step, live, SseTap.pollNext, SseTap.finish, run_finished s _ hevents, receiptOf,
          ending, answers, receipts, given, ← hcalled]

-- ---------------------------------------------------------------------------
-- Many streams at once
-- ---------------------------------------------------------------------------

/-- What has come of a stream: one receipt from its end on, of the chunks before that, and to
the client what the upstream has answered. -/
structure Relayed (r : Forwarded) (success : Bool) (events : List (Event ε))
    (out : List (Effect ε F)) : Prop where
  receipts : receipts out =
    ((ending events).map fun e => receipt s r (.streamed success e.1 e.2)).toList
  body : given out = answers events

/-- A body that is dropped has ended, by then or before. -/
theorem ending_isSome {events : List (Event ε)} (h : Event.dropped ∈ events) :
    (ending events).isSome = true := by
  induction events with
  | nil => cases h
  | cons e events ih =>
    cases e with
    | dropped => rfl
    | opened r success => exact ih (by simpa using h)
    | polled upstream =>
      have hlater := ih (by simpa using h)
      cases upstream with
      | pending => exact hlater
      | chunk bytes => simpa [ending] using hlater
      | failed e => rfl
      | ended => rfl

variable [DecidableEq ι]

/-- The events of a stream that is opened once: `life` is what happens to it from then on. -/
def Opens (events : List (ι × Event ε)) (id : ι) (r : Forwarded) (success : Bool)
    (life : List (Event ε)) : Prop :=
  ∃ before, own id events = before ++ .opened r success :: life ∧
    ∀ e ∈ before ++ life, e.isOpened = false

theorem finish_line (tap : SseTap F) (reason : SseEndReason) :
    (tap.finish (ε := ε) reason).1.reader.line = tap.reader.line := by
  rw [SseTap.finish]
  cases tap.onDone <;> rfl

theorem step_bounded (tap : Option (SseTap F)) (e : Event ε)
    (h : ∀ t ∈ tap, t.reader.line.length ≤ sseLineBufCap) :
    ∀ t ∈ (step s tap e).1, t.reader.line.length ≤ sseLineBufCap := by
  cases tap with
  | none =>
    cases e with
    | opened r success =>
      rintro t ⟨⟩
      exact Nat.zero_le _
    | polled upstream => exact h
    | dropped => exact h
  | some tap =>
    have htap := h tap rfl
    cases e with
    | opened r success => exact h
    | dropped => rintro t ⟨⟩
    | polled upstream =>
      rintro t ⟨⟩
      cases upstream with
      | pending => exact htap
      | chunk bytes => exact LineFeed.feed_length htap bytes
      | failed e => exact (congrArg List.length (finish_line tap _)).trans_le htap
      | ended => exact (congrArg List.length (finish_line tap _)).trans_le htap

/-- The line that a stream keeps is bounded, whatever its upstream sends. -/
theorem relay_bounded (events : List (ι × Event ε)) (id : ι) :
    ∀ tap ∈ (relay s events).1 id, tap.reader.line.length ≤ sseLineBufCap := by
  rw [relay, (run_own _ events id).1]
  exact (run_induct (Q := fun _ => True)
    (fun tap e h => ⟨step_bounded s tap e h, fun _ _ => trivial⟩) (by simp) (own id events)).1

theorem receipt_flatten (r : Forwarded) (success : Bool) {chunks chunks' : List Bytes}
    (h : chunks.flatten = chunks'.flatten) (reason : SseEndReason) :
    receipt s r (.streamed success chunks reason) =
      receipt s r (.streamed success chunks' reason) := by
  have husage : sseUsage s.fromSlice chunks = sseUsage s.fromSlice chunks' := by
    rw [TokenUsage.sseUsage_lines, TokenUsage.sseUsage_lines, h]
  cases success with
  | false => rfl
  | true => simp only [receipt, husage]

theorem receipt_bytes (r : Forwarded) (success : Bool) (events : List (Event ε)) :
    (ending events).map (fun e => receipt s r (.streamed success e.1 e.2)) =
      (bytesTo events).map fun e => receipt s r (.streamed success [e.1] e.2) := by
  rw [bytesTo, Option.map_map]
  refine congrArg (Option.map · (ending events)) (funext fun e => ?_)
  exact receipt_flatten s r success (by simp) e.2

theorem relay_relayed {events : List (ι × Event ε)} {id : ι} {r : Forwarded} {success : Bool}
    {life : List (Event ε)} (h : Opens events id r success life) :
    Relayed s r success life (own id (relay s events).2) := by
  obtain ⟨before, hown, hopened⟩ := h
  obtain ⟨hbefore, hlife⟩ := List.forall_mem_append.mp hopened
  have hout : own id (relay s events).2 =
      (run (step s) (some (live s r success [])) life).2 := by
    rw [relay, (run_own _ events id).2, hown, run_append, run_closed s hbefore]
    rfl
  obtain ⟨hreceipts, hgiven⟩ := run_live s r success [] hlife
  rw [hout]
  exact ⟨hreceipts, hgiven⟩

/-- In whatever order the streams of a proxy are opened, polled and dropped, each is relayed, and
one that has been dropped has left its one receipt. -/
theorem streams_relayed {events : List (ι × Event ε)} {id : ι} {r : Forwarded} {success : Bool}
    {life : List (Event ε)} (h : Opens events id r success life) :
    let out := own id (relay s events).2
    Relayed s r success life out ∧ (Event.dropped ∈ life → (receipts out).length = 1) := by
  have hrelayed := relay_relayed s h
  refine ⟨hrelayed, fun hdropped => ?_⟩
  obtain ⟨e, he⟩ := Option.isSome_iff_exists.mp (ending_isSome hdropped)
  rw [hrelayed.receipts, he]
  rfl

def sampleSettings : Settings ℚ where
  tenantId := "tenant-a"
  promptSalt := "salt"
  prices := ⟨fun _ => none⟩
  sha256 := id
  fromSlice _ := none

def sampleForwarded : Forwarded where
  body := ⟨[], none⟩
  latencyMs := 12
  sessionHeader := none
  tenant := "tenant-a"
  provider := "anthropic"
  api := "anthropic.messages"
  modelHint := none
  traceId := "trace-a"
  ts := "2026-01-01T00:00:00Z"
  hourBucket := 0

/-- What happens to a stream whose two chunks cut a line, and that the client leaves. -/
def sampleLife : List (Event Unit) :=
  [.polled (.chunk (utf8 "data: [DO")), .polled .pending, .polled (.chunk (utf8 "NE]\n")), .dropped]

/-- The stream next to another one, which breaks. -/
def sampleEvents : List (Bool × Event Unit) :=
  [(false, .opened sampleForwarded true), (true, .opened sampleForwarded true),
    (true, .polled (.chunk (utf8 "data: [DO"))), (false, .polled (.failed ())),
    (true, .polled .pending), (true, .polled (.chunk (utf8 "NE]\n"))), (true, .dropped),
    (false, .dropped)]

theorem sample_opens : Opens sampleEvents true sampleForwarded true sampleLife :=
  ⟨[], rfl, by simp [sampleLife, Event.isOpened]⟩

theorem sample_relayed :
    (receipts (own true (relay sampleSettings sampleEvents).2)).length = 1 :=
  (streams_relayed sampleSettings sample_opens).2 (by simp [sampleLife])

/-- Streams of the same bytes and the same end leave the same receipt, however each is cut into
chunks and whatever else its proxy relays meanwhile. -/
theorem receipts_recut {κ : Type} [DecidableEq κ] {events : List (ι × Event ε)}
    {events' : List (κ × Event ε)} {id : ι} {id' : κ} {r : Forwarded} {success : Bool}
    {life life' : List (Event ε)} (h : Opens events id r success life)
    (h' : Opens events' id' r success life')
    (hbytes : bytesTo life = bytesTo life') :
    receipts (own id (relay s events).2) = receipts (own id' (relay s events').2) := by
  rw [(relay_relayed s h).receipts, (relay_relayed s h').receipts,
    receipt_bytes, receipt_bytes, hbytes]

/-- The same stream alone, in one chunk. -/
def sampleWhole : List (Event Unit) := [.polled (.chunk (utf8 "data: [DONE]\n")), .dropped]

theorem sample_bytes : bytesTo sampleLife = bytesTo sampleWhole :=
  congrArg (fun bytes => some (bytes, SseEndReason.dropped))
    (show [utf8 "data: [DO", utf8 "NE]\n"].flatten = [utf8 "data: [DONE]\n"].flatten by
      decide +kernel)

theorem sample_recut :
    receipts (own true (relay sampleSettings sampleEvents).2) =
      receipts (own () (relay sampleSettings
        (((), Event.opened sampleForwarded true) :: sampleWhole.map ((), ·))).2) :=
  receipts_recut sampleSettings sample_opens
    ⟨[], by rw [own_self, own_map_self]; rfl, by simp [sampleWhole, Event.isOpened]⟩ sample_bytes

end Firstpass.StreamRelay
