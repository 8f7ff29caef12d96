import Firstpass.Lib.Interleave
import Firstpass.Proxy.GeminiReply
import Firstpass.Proxy.ReplyStreamed
import Firstpass.Proxy.ResponsesReassemble

/-!
# The stream of a client whose request is still routed

A client that asked for a stream has a body at once: comments while the ladder is run, then the
result in the frames of its dialect, then nothing. An error goes into the stream as well, with
the message that a client may see.

Left out: wakers, and the clock: a poll says whether a tick is due.
-/

namespace Firstpass.KeepaliveStream

open EventStream (Frame)
open Interleave
open Json (Value)
open ChatRequest (FromStr)
open ReplyRender (tokens)
open ReplyStream (anthropicSseFromMessage completionChunks completionFrames dataFrame event
  messageEvents openaiSseFromMessage sseChunk sseEvent typed)
open Responses (Out Sent frame inProgressSnapshot pushEvent responseEvents sseFromResponse stamped)

-- ---------------------------------------------------------------------------
-- Errors
-- ---------------------------------------------------------------------------

inductive ProxyError
  | upstream (detail : String)
  | badRequestBody
  | badRequest (message : String)
  | engine (detail : String)
  | notFound (message : String)
  | unauthorized
  | internal (detail : String)
  | rateLimited

def ProxyError.kind : ProxyError → String
  | .upstream _ => "upstream_error"
  | .badRequestBody => "bad_request"
  | .badRequest _ => "bad_request"
  | .engine _ => "engine_error"
  | .notFound _ => "not_found"
  | .unauthorized => "unauthorized"
  | .internal _ => "internal_error"
  | .rateLimited => "rate_limited"

def ProxyError.status : ProxyError → Nat
  | .upstream _ => 502
  | .badRequestBody => 400
  | .badRequest _ => 400
  | .engine _ => 502
  | .notFound _ => 404
  | .unauthorized => 401
  | .internal _ => 500
  | .rateLimited => 429

def ProxyError.clientMessage : ProxyError → String
  | .upstream _ => "upstream request failed"
  | .badRequestBody => "failed to read request body"
  | .badRequest message => message
  | .engine _ => "no rung could serve a valid response"
  | .notFound message => message
  | .unauthorized => "unauthorized"
  | .internal _ => "internal error"
  | .rateLimited => "rate limited"

/-- The status and the body of a reply that is not a stream. -/
def ProxyError.intoResponse (e : ProxyError) : Nat × Value :=
  (e.status, .object [("error", .object
    [("message", .string e.clientMessage), ("type", .string e.kind)])])

-- ---------------------------------------------------------------------------
-- The frames of each dialect
-- ---------------------------------------------------------------------------

/-- Where the request came in, with what its frames depend on besides the result. -/
inductive Endpoint
  | messages
  | chatCompletions (includeUsage : Bool)
  | responses (customTools : List String) (id : String)
  | generateContent

def sseErrorEvent (message : String) : String :=
  sseEvent "" (event "error" [("error", typed "api_error" [("message", .string message)])])

/-- The events of a Responses stream that failed before anything was served. -/
def failedEvents (id message : String) : List Sent :=
  let base := [("created_at", tokens 0), ("error", .null), ("id", .string id),
    ("model", .string ""), ("object", .string "response"), ("output", .array []), ("usage", .null)]
  let failed := ((Value.object base).setKey "status" (.string "failed")).setKey "error"
    (.object [("code", .string "server_error"), ("message", .string message)])
  [("response.created", .object [("response", inProgressSnapshot (.object base))]),
    ("response.failed", .object [("response", failed)])]

def sseFailed (id message : String) : String :=
  ((failedEvents id message).foldl (fun out e => pushEvent out e.1 e.2) ⟨"", 0⟩).text

def geminiError (message : String) : Value :=
  .object [("error", .object
    [("code", tokens 500), ("message", .string message), ("status", .string "INTERNAL")])]

/-- `data: ` and the value, as one frame. -/
def sseData (v : Value) : String := sseChunk "" v.toText

variable (fromStr : FromStr)

/-- The text of a result. A Chat completion whose calls are no objects makes the formatter
panic. -/
def Endpoint.formatMessage : Endpoint → Value → Option String
  | .messages, m => some (anthropicSseFromMessage m)
  | .chatCompletions includeUsage, m => openaiSseFromMessage m includeUsage
  | .responses customTools _, chat =>
    some (sseFromResponse (Responses.responseFromChat fromStr chat customTools))
  | .generateContent, chat => some (sseData (GeminiReply.responseFromChat fromStr chat))

/-- The text of an error. The Chat endpoint has that of the Messages endpoint. -/
def Endpoint.formatError (endpoint : Endpoint) (e : ProxyError) : String :=
  match endpoint with
  | .messages => sseErrorEvent e.clientMessage
  | .chatCompletions _ => sseErrorEvent e.clientMessage
  | .responses _ id => sseFailed ("resp_" ++ id) e.clientMessage
  | .generateContent => sseData (geminiError e.clientMessage)

def Endpoint.format (endpoint : Endpoint) : Except ProxyError Value → Option String
  | .ok message => endpoint.formatMessage fromStr message
  | .error e => some (endpoint.formatError e)

-- ---------------------------------------------------------------------------
-- The body
-- ---------------------------------------------------------------------------

/-- What the receiver answers to a poll: the ladder may also have gone away without a result. -/
inductive Received
  | pending
  | resolved (out : Except ProxyError Value)
  | closed

def Received.outcome : Received → Option (Except ProxyError Value)
  | .pending => none
  | .resolved out => some out
  | .closed => some (.error (.internal "enforce pipeline task dropped"))

structure Poll where
  received : Received
  tick : Bool

/-- A body that has panicked is not polled again. -/
inductive Body
  | routing
  | sent
  | panicked

inductive Answer
  | pending
  | bytes (text : String)
  | ended

def keepalive : String := ": firstpass routing\n\n"

def pollNext (endpoint : Endpoint) : Body → Poll → Body × List Answer
  | .routing, poll =>
    match poll.received.outcome with
    | some out =>
      match endpoint.format fromStr out with
      | some text => (.sent, [.bytes text])
      | none => (.panicked, [])
    | none => (.routing, [if poll.tick then .bytes keepalive else .pending])
  | .sent, _ => (.sent, [.ended])
  | .panicked, _ => (.panicked, [])

def answers (endpoint : Endpoint) (polls : List Poll) : List Answer :=
  (run (pollNext fromStr endpoint) .routing polls).2

def Answer.text : Answer → List Char
  | .bytes text => text.toList
  | _ => []

def bodyText (answers : List Answer) : List Char := answers.flatMap Answer.text

/-- The first result. -/
def outcome (polls : List Poll) : Option (Except ProxyError Value) :=
  polls.findSome? fun poll => poll.received.outcome

-- ---------------------------------------------------------------------------
-- What a reader of the stream has
-- ---------------------------------------------------------------------------

/-- The frames of a result. -/
def Endpoint.messageFrames : Endpoint → Value → Option (List Frame)
  | .messages, m => some ((messageEvents m).map fun e => frame e.2)
  | .chatCompletions includeUsage, m => (completionChunks m includeUsage).map completionFrames
  | .responses customTools _, chat =>
    some ((stamped 0 (responseEvents (Responses.responseFromChat fromStr chat customTools))).map
      frame)
  | .generateContent, chat => some [dataFrame (GeminiReply.responseFromChat fromStr chat).toText]

/-- The frames of an error, of which only its message for the client is in them. -/
def Endpoint.errorFrames (message : String) : Endpoint → List Frame
  | .messages => [frame (event "error"
      [("error", typed "api_error" [("message", .string message)])]).2]
  | .chatCompletions _ => [frame (event "error"
      [("error", typed "api_error" [("message", .string message)])]).2]
  | .responses _ id => (stamped 0 (failedEvents ("resp_" ++ id) message)).map frame
  | .generateContent => [dataFrame (geminiError message).toText]

def Endpoint.frames (endpoint : Endpoint) : Except ProxyError Value → Option (List Frame)
  | .ok message => endpoint.messageFrames fromStr message
  | .error e => some (endpoint.errorFrames e.clientMessage)

theorem oneLine_dataFrame (v : Value) : (dataFrame v.toText).OneLine :=
  ⟨by simp [dataFrame], fun hmem =>
    absurd (Json.plain_print v _ (by simpa [dataFrame, Value.toText] using hmem)) (by decide)⟩

theorem oneLine_frame {kind : String} (hkind : '\n' ∉ kind.toList) {v : Value}
    (hv : Responses.typeOf v = some kind) : (frame v).OneLine where
  event := by
    rw [frame, hv]
    rintro _ ⟨⟩
    exact hkind
  data hmem := absurd (Json.plain_print _ _ hmem) (by decide)

theorem read_sseData (v : Value) : EventStream.read (sseData v).toList = [dataFrame v.toText] := by
  have htext : (sseData v).toList = [dataFrame v.toText].flatMap Frame.text :=
    ReplyStream.text_sseChunks [v.toText] ""
  rw [htext]
  exact EventStream.read_text (by simpa using oneLine_dataFrame v)

theorem read_sseEvent {e : Sent} (hkind : '\n' ∉ e.1.toList)
    (htype : Responses.typeOf e.2 = some e.1) :
    EventStream.read (sseEvent "" e).toList = [frame e.2] := by
  have htext : (sseEvent "" e).toList = [frame e.2].flatMap Frame.text := by
    simp [sseEvent, frame, htype, Frame.text, EventStream.line, EventStream.eventField,
      EventStream.dataField, Value.toText]
  rw [htext]
  exact EventStream.read_text (by simpa using oneLine_frame hkind htype)

theorem read_sseErrorEvent (message : String) :
    EventStream.read (sseErrorEvent message).toList =
      [frame (event "error" [("error", typed "api_error" [("message", .string message)])]).2] :=
  read_sseEvent (by simp [event]) rfl

theorem read_sseFailed (id message : String) :
    EventStream.read (sseFailed id message).toList =
      (stamped 0 (failedEvents id message)).map frame := by
  rw [sseFailed, Responses.text_pushEvents, String.toList_empty, List.nil_append]
  refine EventStream.read_text ?_
  simp only [failedEvents, stamped, List.map_cons, List.map_nil, List.forall_mem_cons]
  exact ⟨oneLine_frame (by simp) (Responses.typeOf_stamp _ _ _),
    oneLine_frame (by simp) (Responses.typeOf_stamp _ _ _), by simp⟩

/-- The text of a result or of an error is read as its frames. -/
theorem read_format (endpoint : Endpoint) (out : Except ProxyError Value) :
    (endpoint.format fromStr out).map (fun text => EventStream.read text.toList) =
      endpoint.frames fromStr out := by
  cases out with
  | error e =>
    refine congrArg some ?_
    cases endpoint with
    | messages => exact read_sseErrorEvent e.clientMessage
    | chatCompletions includeUsage => exact read_sseErrorEvent e.clientMessage
    | responses customTools id => exact read_sseFailed ("resp_" ++ id) e.clientMessage
    | generateContent => exact read_sseData (geminiError e.clientMessage)
  | ok m =>
    cases endpoint with
    | messages =>
      refine congrArg some ((ReplyStream.read_anthropicSse m).trans ?_)
      rw [List.map_map]
      rfl
    | responses customTools id =>
      exact congrArg some (Responses.read_sseFromResponse _)
    | generateContent => exact congrArg some (read_sseData _)
    | chatCompletions includeUsage =>
      show (openaiSseFromMessage m includeUsage).map _ =
        (completionChunks m includeUsage).map completionFrames
      cases hchunks : completionChunks m includeUsage with
      | none =>
        rw [openaiSseFromMessage, hchunks]
        rfl
      | some chunks =>
        obtain ⟨text, htext, hread⟩ := ReplyStream.read_openaiSse hchunks
        rw [htext]
        exact congrArg some hread

-- ---------------------------------------------------------------------------
-- The run of a body
-- ---------------------------------------------------------------------------

/-- The comment that the keepalive is. -/
def routingNote : List Char := " firstpass routing".toList

theorem keepalive_comment : keepalive.toList = EventStream.comment routingNote := by
  decide +kernel

theorem run_sent (endpoint : Endpoint) (polls : List Poll) :
    (run (pollNext fromStr endpoint) .sent polls).2 = polls.map fun _ => .ended := by
  induction polls with
  | nil => rfl
  | cons poll polls ih => simp [run, pollNext, ih]

theorem run_panicked (endpoint : Endpoint) (polls : List Poll) :
    (run (pollNext fromStr endpoint) .panicked polls).2 = [] := by
  induction polls with
  | nil => rfl
  | cons poll polls ih => simp [run, pollNext, ih]

theorem bodyText_ended (polls : List Poll) : bodyText (polls.map fun _ => .ended) = [] := by
  simp [bodyText, Answer.text]

theorem answers_waiting {poll : Poll} (h : poll.received.outcome = none) (endpoint : Endpoint)
    (polls : List Poll) : answers fromStr endpoint (poll :: polls) =
      (if poll.tick then .bytes keepalive else .pending) :: answers fromStr endpoint polls := by
  simp [answers, run, pollNext, h]

theorem answers_result {poll : Poll} {out : Except ProxyError Value}
    (h : poll.received.outcome = some out) (endpoint : Endpoint) (polls : List Poll) :
    answers fromStr endpoint (poll :: polls) =
      match endpoint.format fromStr out with
      | some text => .bytes text :: polls.map fun _ => .ended
      | none => [] := by
  cases hformat : endpoint.format fromStr out with
  | none => simp [answers, run, pollNext, h, hformat, run_panicked]
  | some text => simp [answers, run, pollNext, h, hformat, run_sent]

theorem outcome_waiting {poll : Poll} (h : poll.received.outcome = none) (polls : List Poll) :
    outcome (poll :: polls) = outcome polls := by
  rw [outcome, List.findSome?_cons, h]
  rfl

theorem outcome_result {poll : Poll} {out : Except ProxyError Value}
    (h : poll.received.outcome = some out) (polls : List Poll) :
    outcome (poll :: polls) = some out := by
  rw [outcome, List.findSome?_cons, h]

/-- Comments, and the text of the first result after them. -/
theorem bodyText_answers (endpoint : Endpoint) (polls : List Poll) : ∃ n,
    bodyText (answers fromStr endpoint polls) =
      (List.replicate n keepalive.toList).flatten ++
        (((outcome polls).bind (endpoint.format fromStr)).map String.toList).getD [] := by
  induction polls with
  | nil => exact ⟨0, rfl⟩
  | cons poll polls ih =>
    obtain ⟨n, hn⟩ := ih
    rw [bodyText] at hn
    cases hout : poll.received.outcome with
    | none =>
      rw [answers_waiting fromStr hout, bodyText, List.flatMap_cons, hn, outcome_waiting hout]
      cases poll.tick with
      | false => exact ⟨n, rfl⟩
      | true => exact ⟨n + 1, by rw [List.replicate_succ, List.flatten_cons, List.append_assoc]; rfl⟩
    | some out =>
      refine ⟨0, ?_⟩
      rw [answers_result fromStr hout, outcome_result hout, Option.bind_some]
      cases endpoint.format fromStr out with
      | none => rfl
      | some text =>
        have hended := bodyText_ended polls
        rw [bodyText] at hended ⊢
        rw [List.flatMap_cons, hended]
        simp [Answer.text]

theorem outcome_of_ended {endpoint : Endpoint} {polls : List Poll}
    (h : Answer.ended ∈ answers fromStr endpoint polls) :
    ((outcome polls).bind (endpoint.format fromStr)).isSome = true := by
  induction polls with
  | nil => cases h
  | cons poll polls ih =>
    cases hout : poll.received.outcome with
    | none =>
      rw [answers_waiting fromStr hout] at h
      rw [outcome_waiting hout]
      refine ih ((List.mem_cons.mp h).resolve_left ?_)
      cases poll.tick <;> rintro ⟨⟩
    | some out =>
      rw [answers_result fromStr hout] at h
      rw [outcome_result hout, Option.bind_some]
      cases hformat : endpoint.format fromStr out with
      | none => simp [hformat] at h
      | some text => rfl

end Firstpass.KeepaliveStream
