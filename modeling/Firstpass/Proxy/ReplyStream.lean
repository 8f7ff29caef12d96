import Firstpass.Proxy.ReplyFaithful
import Firstpass.Proxy.ResponsesStream

/-!
# A rendered reply as an event stream

A client that asked for a stream gets the buffered reply as the events of its dialect: an
Anthropic message block by block, a Chat completion as chunks. A client of each dialect puts
the reply together from them.
-/

namespace Firstpass.ReplyStream

open Json (Value Fields btreeInsert removeKey)
open ChatRequest (FromStr emptyObject textBlock)
open ReplyRender (blocksOf callsOf inputText tokens)
open Responses (Sent frame message strAt typeOf)

-- ---------------------------------------------------------------------------
-- The events of an Anthropic message
-- ---------------------------------------------------------------------------

def typed (kind : String) (fields : Fields) : Value :=
  .object (btreeInsert "type" (.string kind) fields)

def event (kind : String) (fields : Fields) : Sent := (kind, typed kind fields)

def sseEvent (out : String) (e : Sent) : String :=
  out ++ "event: " ++ e.1 ++ "\ndata: " ++ e.2.toText ++ "\n\n"

def blockStart (i : Nat) (block : Value) : Sent :=
  event "content_block_start" [("content_block", block), ("index", tokens i)]

def blockDelta (i : Nat) (kind field text : String) : Sent :=
  event "content_block_delta"
    [("delta", typed kind [(field, .string text)]), ("index", tokens i)]

/-- A text or thinking block before anything of it is sent. -/
def emptyBlock (kind : String) : Value := typed kind [(kind, .string "")]

/-- How a block is sent. -/
inductive BlockKind
  | toolUse
  | thinking
  | redactedThinking
  | text

/-- Every other kind of block is sent as text. -/
def blockKind (block : Value) : BlockKind :=
  match typeOf block with
  | some "tool_use" => .toolUse
  | some "thinking" => .thinking
  | some "redacted_thinking" => .redactedThinking
  | _ => .text

/-- Thinking is text and perhaps a signature; what is redacted has no delta. -/
def blockBody (i : Nat) (block : Value) : List Sent :=
  match blockKind block with
  | .toolUse =>
    [blockStart i (block.setKey "input" emptyObject),
      blockDelta i "input_json_delta" "partial_json" (inputText block)]
  | .thinking =>
    let signature := (strAt "signature" block).getD ""
    [blockStart i (emptyBlock "thinking"),
      blockDelta i "thinking_delta" "thinking" ((strAt "thinking" block).getD "")] ++
    if signature = "" then [] else [blockDelta i "signature_delta" "signature" signature]
  | .redactedThinking => [blockStart i block]
  | .text =>
    [blockStart i (emptyBlock "text"),
      blockDelta i "text_delta" "text" ((strAt "text" block).getD "")]

def blockEvents (i : Nat) (block : Value) : List Sent :=
  blockBody i block ++ [event "content_block_stop" [("index", tokens i)]]

/-- The envelope: no content, no reason to stop and no output yet. -/
def startMessage (m : Value) : Value :=
  let usage := ((m.get "usage").getD emptyObject).setKey "output_tokens" (tokens 0)
  (((m.setKey "content" (.array [])).setKey "stop_reason" .null).setKey "stop_sequence"
    .null).setKey "usage" usage

def stopDelta (m : Value) : Value :=
  .object
    [("stop_reason", (m.get "stop_reason").getD (.string "end_turn")),
      ("stop_sequence", (m.get "stop_sequence").getD .null)]

def outputUsage (m : Value) : Value :=
  .object [("output_tokens", (m.pointer ["usage", "output_tokens"]).getD (tokens 0))]

def contentEvents (i : Nat) : List Value → List Sent
  | [] => []
  | block :: blocks => blockEvents i block ++ contentEvents (i + 1) blocks

def messageEvents (m : Value) : List Sent :=
  [event "message_start" [("message", startMessage m)]] ++ contentEvents 0 (blocksOf m) ++
  [event "message_delta" [("delta", stopDelta m), ("usage", outputUsage m)],
    event "message_stop" []]

def anthropicSseFromMessage (m : Value) : String := (messageEvents m).foldl sseEvent ""

-- ---------------------------------------------------------------------------
-- A client of the Messages API
-- ---------------------------------------------------------------------------

/-- A block under way, with the JSON text that is to be its input. -/
structure Filling where
  block : Value
  json : Option String

structure Client where
  message : Option Value
  content : List Value
  current : Option Filling
  ended : Bool

def Client.start : Client := ⟨none, [], none, false⟩

def grow (block : Value) (field text : String) : Value :=
  block.setKey field (.string ((strAt field block).getD "" ++ text))

def Filling.fill (a : Filling) (delta : Value) : Option Filling :=
  match typeOf delta with
  | some "text_delta" =>
    (strAt "text" delta).map fun text => { a with block := grow a.block "text" text }
  | some "thinking_delta" =>
    (strAt "thinking" delta).map fun text => { a with block := grow a.block "thinking" text }
  | some "signature_delta" =>
    (strAt "signature" delta).map fun text =>
      { a with block := a.block.setKey "signature" (.string text) }
  | some "input_json_delta" =>
    (strAt "partial_json" delta).map fun text => { a with json := some (a.json.getD "" ++ text) }
  | _ => none

section client

variable (parse : FromStr)

/-- The input is read once its text is complete. -/
def Filling.close (a : Filling) : Option Value :=
  match a.json with
  | none => some a.block
  | some json => (parse json).map (a.block.setKey "input")

/-- The message with what its end says. -/
def stopped (m e : Value) : Value :=
  let delta := (e.get "delta").getD emptyObject
  let usage := (((e.get "usage").bind Value.asObject).getD []).foldl
    (fun usage f => usage.setKey f.1 f.2) ((m.get "usage").getD emptyObject)
  ((m.setKey "stop_reason" ((delta.get "stop_reason").getD .null)).setKey "stop_sequence"
    ((delta.get "stop_sequence").getD .null)).setKey "usage" usage

/-- Blocks come one after the other, each under the next index. -/
def Client.take (c : Client) (e : Value) : Option Client :=
  let here := decide ((e.get "index").bind Value.asU64 = some c.content.length)
  match typeOf e, c with
  | some "message_start", ⟨none, content, none, false⟩ =>
    (e.get "message").map fun m => ⟨some m, content, none, false⟩
  | some "content_block_start", ⟨some m, content, none, false⟩ =>
    if here then (e.get "content_block").map fun b => ⟨some m, content, some ⟨b, none⟩, false⟩
    else none
  | some "content_block_delta", ⟨some m, content, some a, false⟩ =>
    if here then ((e.get "delta").bind a.fill).map fun a => ⟨some m, content, some a, false⟩
    else none
  | some "content_block_stop", ⟨some m, content, some a, false⟩ =>
    if here then (a.close parse).map fun b => ⟨some m, content ++ [b], none, false⟩ else none
  | some "message_delta", ⟨some m, content, none, false⟩ =>
    some ⟨some (stopped m e), content, none, false⟩
  | some "message_stop", ⟨some m, content, none, false⟩ => some ⟨some m, content, none, true⟩
  | _, _ => none

/-- The message a client has in the end. -/
def accumulate (events : List Value) : Option Value :=
  (events.foldlM (Client.take parse) .start).bind fun c =>
    match c with
    | ⟨some m, content, none, true⟩ => some (m.setKey "content" (.array content))
    | _ => none

end client

-- ---------------------------------------------------------------------------
-- The chunks of a Chat completion
-- ---------------------------------------------------------------------------

def firstChoice (m : Value) : Option Value := ((m.get "choices").bind Value.asArray).bind List.head?

def chunk (m choices : Value) (usage : Option Value) : Value :=
  .object ([("choices", choices), ("created", (m.get "created").getD (tokens 0)),
      ("id", .string ((strAt "id" m).getD "chatcmpl-unknown")),
      ("model", .string ((strAt "model" m).getD "unknown")),
      ("object", .string "chat.completion.chunk")] ++ Responses.member "usage" usage)

def deltaChunk (m : Value) (delta : Fields) (finishReason : Value) : Value :=
  chunk m (.array [.object
    [("delta", .object delta), ("finish_reason", finishReason), ("index", tokens 0)]]) none

/-- Assignment at a key fails on a call that is no object, and makes one of null. -/
def indexed (i : Nat) (call : Value) : Option Value :=
  match call with
  | .object fields => some (.object (btreeInsert "index" (tokens i) fields))
  | .null => some (.object [("index", tokens i)])
  | _ => none

def indexCalls (i : Nat) : List Value → Option (List Value)
  | [] => some []
  | call :: calls => (indexed i call).bind fun call => (indexCalls (i + 1) calls).map (call :: ·)

def completionChunks (m : Value) (includeUsage : Bool) : Option (List Value) :=
  let msg := (firstChoice m).bind (·.get "message")
  let content := ((msg.bind (·.get "content")).bind Value.asStr).getD ""
  let finishReason := ((firstChoice m).bind (·.get "finish_reason")).getD (.string "stop")
  let toolChunks :=
    match msg.bind (·.get "tool_calls") with
    | none => some []
    | some calls =>
      (indexCalls 0 (calls.asArray.getD [])).map fun calls =>
        [deltaChunk m [("tool_calls", .array calls)] .null]
  let usage := (m.get "usage").filter fun _ => includeUsage
  toolChunks.map fun toolChunks =>
    [deltaChunk m [("content", .string ""), ("role", .string "assistant")] .null] ++
    (if content = "" then [] else [deltaChunk m [("content", .string content)] .null]) ++
    toolChunks ++ [deltaChunk m [] finishReason] ++
    usage.toList.map fun usage => chunk m (.array []) (some usage)

def sseChunk (out : String) (data : String) : String := out ++ "data: " ++ data ++ "\n\n"

def openaiSseFromMessage (m : Value) (includeUsage : Bool) : Option String :=
  (completionChunks m includeUsage).map fun chunks =>
    (chunks.map Value.toText ++ ["[DONE]"]).foldl sseChunk ""

-- ---------------------------------------------------------------------------
-- A client of the Chat API
-- ---------------------------------------------------------------------------

structure Completion where
  text : String
  calls : List Value
  finishReason : Value
  usage : Option Value

def Completion.start : Completion := ⟨"", [], .null, none⟩

def withoutIndex : Value → Value
  | .object fields => .object (removeKey "index" fields)
  | v => v

/-- More arguments of a call. -/
def extendCall (call delta : Value) : Value :=
  let arguments := fun v : Value => ((v.pointer ["function", "arguments"]).bind Value.asStr).getD ""
  call.setKey "function" (((call.get "function").getD emptyObject).setKey "arguments"
    (.string (arguments call ++ arguments delta)))

/-- A call is new, or more of one that was begun. -/
def addCall (calls : List Value) (delta : Value) : Option (List Value) :=
  ((delta.get "index").bind Value.asU64).bind fun i =>
    if i = calls.length then some (calls ++ [withoutIndex delta])
    else (calls[i]?).map fun call => calls.set i (extendCall call delta)

/-- A chunk without a choice has the usage. -/
def Completion.take (c : Completion) (data : Value) : Option Completion :=
  match (data.get "choices").bind Value.asArray with
  | none => none
  | some [] => some { c with usage := data.get "usage" }
  | some (choice :: _) =>
    let delta := (choice.get "delta").getD emptyObject
    let deltas := ((delta.get "tool_calls").bind Value.asArray).getD []
    (deltas.foldlM addCall c.calls).map fun calls =>
      { c with
        text := c.text ++ (strAt "content" delta).getD ""
        calls
        finishReason :=
          match choice.get "finish_reason" with
          | none => c.finishReason
          | some .null => c.finishReason
          | some reason => reason }

end Firstpass.ReplyStream
