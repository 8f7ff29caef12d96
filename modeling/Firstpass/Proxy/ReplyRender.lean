import Firstpass.Core.JsonDocument
import Firstpass.Proxy.ChatRequest

/-!
# Rendering a served reply

The reply a rung gave, in the wire shape of the client: an Anthropic message or a Chat
completion, whichever provider it came from. The ids made on the spot are parameters.

Left out: the tokens a provider's reply reports, which come with the response.
-/

namespace Firstpass.ReplyRender

open Json (Value)
open ChatRequest (FromStr emptyObject textBlock)
open Responses (strAt typeOf textOf member)

def tokens (n : Nat) : Value := .number (.posInt n)

-- ---------------------------------------------------------------------------
-- The reply of a Gemini rung
-- ---------------------------------------------------------------------------

structure GeminiParsed where
  text : String
  toolCalls : List Value

/-- A `functionCall` part as a Chat call, with an id made up where it has none. -/
def geminiCall (fresh : String) (fc part : Value) : Value :=
  let call := Value.object
    [("function", .object
        [("arguments", .string ((fc.get "args").getD emptyObject).toText),
          ("name", (fc.get "name").getD .null)]),
      ("id", .string ((strAt "id" fc).getD ("call_" ++ fresh))), ("type", .string "function")]
  match strAt "thoughtSignature" part with
  | some sig =>
    call.setKey "extra_content" (.object [("google", .object [("thought_signature", .string sig)])])
  | none => call

def partsOf (json : Value) : Option (List Value) :=
  (json.pointer ["candidates", "0", "content", "parts"]).bind Value.asArray

def geminiParseResponse (fresh : Nat → String) (json : Value) : Option GeminiParsed :=
  (partsOf json).map fun parts =>
    { text := String.join (parts.filterMap textOf)
      toolCalls := ((parts.filterMap fun p => (p.get "functionCall").map (·, p)).zipIdx).map
        fun ((fc, p), i) => geminiCall (fresh i) fc p }

/-- A reply that calls tools also gets the view of a Chat completion. -/
def geminiRawWithChoices (json : Value) (parsed : GeminiParsed) : Value :=
  if parsed.toolCalls.isEmpty then json
  else
    let content := if parsed.text = "" then Value.null else .string parsed.text
    let finishReason :=
      if (json.pointer ["candidates", "0", "finishReason"]).bind Value.asStr = some "MAX_TOKENS"
      then "length" else "tool_calls"
    json.setKey "choices" (.array [.object
      [("finish_reason", .string finishReason), ("index", tokens 0),
        ("message", .object
          [("content", content), ("role", .string "assistant"),
            ("tool_calls", .array parsed.toolCalls)])]])

-- ---------------------------------------------------------------------------
-- The Anthropic message
-- ---------------------------------------------------------------------------

def openaiFinishReasonToAnthropic : String → String
  | "tool_calls" => "tool_use"
  | "length" => "max_tokens"
  | "stop" => "end_turn"
  | "content_filter" => "end_turn"
  | other => other

def geminiFinishReasonToAnthropic : String → String
  | "MAX_TOKENS" => "max_tokens"
  | "STOP" => "end_turn"
  | other => other

/-- The block of a Chat call. A call without a name has none, and arguments that are no object
are an empty one. -/
def toolUseBlock (fromStr : FromStr) (fresh : String) (tc : Value) : Option Value :=
  let id := ((strAt "id" tc).filter (· ≠ "")).getD ("toolu_" ++ fresh)
  let name := ((tc.pointer ["function", "name"]).bind Value.asStr).getD ""
  let arguments := ((tc.pointer ["function", "arguments"]).bind Value.asStr).bind fromStr
  let input := (arguments.filter fun v => v.asObject.isSome).getD emptyObject
  if name = "" then none
  else some (.object
    [("id", .string id), ("input", input), ("name", .string name), ("type", .string "tool_use")])

def openaiMessageToAnthropicContent (fromStr : FromStr) (fresh : Nat → String) (msg : Value) :
    Value :=
  let text := (strAt "content" msg).filter (· ≠ "")
  let calls := ((msg.get "tool_calls").bind Value.asArray).getD []
  let blocks := text.toList.map textBlock ++
    calls.zipIdx.filterMap fun (tc, i) => toolUseBlock fromStr (fresh i) tc
  .array (if blocks.isEmpty then [textBlock ""] else blocks)

def isArray (v : Value) : Bool := v.asArray.isSome

/-- The content, by the shape of the raw reply. -/
def anthropicContent (fromStr : FromStr) (fresh : Nat → String) (resp : ModelResponse) : Value :=
  match (resp.raw.get "content").filter isArray with
  | some content => content
  | none =>
    match resp.raw.pointer ["choices", "0", "message"] with
    | some msg => openaiMessageToAnthropicContent fromStr fresh msg
    | none => .array [textBlock resp.text]

def isToolUse (block : Value) : Bool := typeOf block = some "tool_use"

def hasToolUse (content : Value) : Bool := (content.asArray.getD []).any isToolUse

/-- The stop reason the raw reply gives, in the words of the Messages API. -/
def upstreamStopReason (raw : Value) : String :=
  ((strAt "stop_reason" raw).orElse fun _ =>
    (((raw.pointer ["choices", "0", "finish_reason"]).bind Value.asStr).map
      openaiFinishReasonToAnthropic).orElse fun _ =>
        ((raw.pointer ["candidates", "0", "finishReason"]).bind Value.asStr).map
          geminiFinishReasonToAnthropic).getD "end_turn"

/-- A reply without a `tool_use` block does not stop for one. -/
def stopReason (raw content : Value) : String :=
  let reason := upstreamStopReason raw
  if reason = "tool_use" ∧ hasToolUse content = false then "end_turn" else reason

def usage (resp : ModelResponse) : Value :=
  let base := Value.object
    [("input_tokens", tokens resp.inTokens), ("output_tokens", tokens resp.outTokens)]
  let written :=
    if 0 < resp.cacheWriteTokens then
      base.setKey "cache_creation_input_tokens" (tokens resp.cacheWriteTokens)
    else base
  if 0 < resp.cacheReadTokens then
    written.setKey "cache_read_input_tokens" (tokens resp.cacheReadTokens)
  else written

def anthropicResponseJson (fromStr : FromStr) (fresh : Nat → String) (id : String)
    (resp : ModelResponse) : Value :=
  let content := anthropicContent fromStr fresh resp
  .object
    [("content", content), ("id", .string ("msg_" ++ id)), ("model", .string resp.model),
      ("role", .string "assistant"), ("stop_reason", .string (stopReason resp.raw content)),
      ("stop_sequence", (resp.raw.get "stop_sequence").getD .null), ("type", .string "message"),
      ("usage", usage resp)]

-- ---------------------------------------------------------------------------
-- The Chat completion
-- ---------------------------------------------------------------------------

def inputText (block : Value) : String :=
  match block.get "input" with
  | some input => input.toText
  | none => "\x7b\x7d"

def functionCall (block : Value) : Value :=
  .object
    [("function", .object
        [("arguments", .string (inputText block)),
          ("name", .string ((strAt "name" block).getD ""))]),
      ("id", .string ((strAt "id" block).getD "")), ("type", .string "function")]

/-- The text of a text block. -/
def blockText (block : Value) : Option String :=
  if typeOf block = some "text" then textOf block else none

def extractOpenaiContentAndTools (raw : Value) (text : String) : Value × Option Value :=
  match (raw.get "content").bind Value.asArray with
  | some blocks =>
    let textParts := blocks.filterMap blockText
    let toolCalls := (blocks.filter isToolUse).map functionCall
    (if toolCalls.isEmpty ∨ ¬textParts.isEmpty then .string (String.join textParts) else .null,
      if toolCalls.isEmpty then none else some (.array toolCalls))
  | none =>
    match raw.pointer ["choices", "0", "message"] with
    | some msg => ((msg.get "content").getD (.string text), msg.get "tool_calls")
    | none => (.string text, none)

def finishReason (resp : ModelResponse) (toolCalls : Option Value) : String :=
  if resp.truncated then "length" else if toolCalls.isSome then "tool_calls" else "stop"

def openaiResponseJson (id : String) (created : Nat) (resp : ModelResponse) : Value :=
  let (content, toolCalls) := extractOpenaiContentAndTools resp.raw resp.text
  .object
    [("choices", .array [.object
        [("finish_reason", .string (finishReason resp toolCalls)), ("index", tokens 0),
          ("message", .object ([("content", content), ("role", .string "assistant")] ++
            member "tool_calls" toolCalls))]]),
      ("created", tokens created), ("id", .string ("chatcmpl-" ++ id)),
      ("model", .string resp.model), ("object", .string "chat.completion"),
      ("usage", .object
        [("completion_tokens", tokens resp.outTokens), ("prompt_tokens", tokens resp.inTokens),
          ("total_tokens", tokens (resp.inTokens + resp.outTokens))])]

end Firstpass.ReplyRender
