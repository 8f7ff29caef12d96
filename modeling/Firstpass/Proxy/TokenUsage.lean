import Firstpass.Lib.LineFeed
import Firstpass.Proxy.Inbound
import Firstpass.Proxy.Provider

/-!
# Token accounting

The three decoders of the token usage of a call: the parser of each provider, for a reply
that the ladder buffered; the usage read off a reply that was passed through; and the tap
on an event stream that was passed through.

Left out: the tool calls of a Gemini reply, which no count depends on; what a provider
keeps as its raw reply comes with it.
-/

namespace Firstpass.TokenUsage

open Json (Value)
open Responses (strAt typeOf u64Modulus)
open Routing (Bytes utf8)
open Inbound (Body Dialect)
open LineFeed (Reader)

/-- The tokens of a call, by what they are priced as. -/
structure Split where
  inTokens : Nat
  cacheWriteTokens : Nat
  cacheReadTokens : Nat
  outTokens : Nat
  deriving DecidableEq

def Split.zero : Split := ⟨0, 0, 0, 0⟩

def Split.totalInput (s : Split) : Nat := s.inTokens + s.cacheWriteTokens + s.cacheReadTokens

def tokensAt? (v : Value) (path : List String) : Option Nat := (v.pointer path).bind Value.asU64

def tokensAt (v : Value) (path : List String) : Nat := (tokensAt? v path).getD 0

/-- Addition of counts, as `u64` in a release build. -/
def addTokens (a b : Nat) : Nat := (a + b) % u64Modulus

def joinedText (blocks : List Value) : String := String.join (blocks.filterMap (strAt "text"))

-- ---------------------------------------------------------------------------
-- Replies that the ladder buffered
-- ---------------------------------------------------------------------------

structure AnthropicUsage where
  text : String
  inTokens : Nat
  cacheWriteTokens : Nat
  cacheReadTokens : Nat
  outTokens : Nat

def anthropicParseResponse (json : Value) : Except ProviderError AnthropicUsage :=
  match (json.get "content").bind Value.asArray with
  | none => .error (.decode "missing content[].text")
  | some blocks => .ok {
      text := joinedText blocks
      inTokens := tokensAt json ["usage", "input_tokens"]
      cacheWriteTokens := tokensAt json ["usage", "cache_creation_input_tokens"]
      cacheReadTokens := tokensAt json ["usage", "cache_read_input_tokens"]
      outTokens := tokensAt json ["usage", "output_tokens"] }

structure GeminiParsed where
  text : String
  inTokens : Nat
  cacheReadTokens : Nat
  outTokens : Nat

def geminiParseResponse (json : Value) : Except ProviderError GeminiParsed :=
  match (json.pointer ["candidates", "0", "content", "parts"]).bind Value.asArray with
  | none => .error (.decode "missing candidates[0].content.parts")
  | some parts =>
    let cacheReadTokens := tokensAt json ["usageMetadata", "cachedContentTokenCount"]
    .ok {
      text := joinedText parts
      inTokens := tokensAt json ["usageMetadata", "promptTokenCount"] - cacheReadTokens
      cacheReadTokens
      -- Thinking is billed as output.
      outTokens := addTokens (tokensAt json ["usageMetadata", "candidatesTokenCount"])
        (tokensAt json ["usageMetadata", "thoughtsTokenCount"]) }

/-- What `complete` makes of a successful reply: `raw` is what the provider keeps of it. -/
def complete (dialect : Dialect) (model : String) (raw : Value) (json : Value) :
    Except ProviderError ModelResponse :=
  match dialect with
  | .anthropic => (anthropicParseResponse json).map fun u =>
      { model, text := u.text, inTokens := u.inTokens, cacheWriteTokens := u.cacheWriteTokens,
        cacheReadTokens := u.cacheReadTokens, outTokens := u.outTokens, raw }
  | .openai => .ok
      { model
        text := ((json.pointer ["choices", "0", "message", "content"]).bind Value.asStr).getD ""
        inTokens := tokensAt json ["usage", "prompt_tokens"]
        -- "This provider reports no prompt-cache split."
        cacheWriteTokens := 0
        cacheReadTokens := 0
        outTokens := tokensAt json ["usage", "completion_tokens"]
        raw }
  | .gemini => (geminiParseResponse json).map fun parsed =>
      { model, text := parsed.text, inTokens := parsed.inTokens, cacheWriteTokens := 0,
        cacheReadTokens := parsed.cacheReadTokens, outTokens := parsed.outTokens, raw }

/-- The split that a buffered reply is priced by. -/
def responseSplit (resp : ModelResponse) : Split :=
  ⟨resp.inTokens, resp.cacheWriteTokens, resp.cacheReadTokens, resp.outTokens⟩

-- ---------------------------------------------------------------------------
-- Replies that were passed through
-- ---------------------------------------------------------------------------

structure ResponseUsage where
  model : Option String
  split : Split

/-- The usage of either prompt-inclusive dialect: the cached part is priced as a read. -/
def inclusiveSplit (prompt cached out : Nat) : Split := ⟨prompt - cached, 0, cached, out⟩

def geminiSplit (json : Value) : Split :=
  inclusiveSplit (tokensAt json ["usageMetadata", "promptTokenCount"])
    (tokensAt json ["usageMetadata", "cachedContentTokenCount"])
    (addTokens (tokensAt json ["usageMetadata", "candidatesTokenCount"])
      (tokensAt json ["usageMetadata", "thoughtsTokenCount"]))

def responseUsage (body : Body) : ResponseUsage :=
  match body.json with
  | none => ⟨none, .zero⟩
  | some json =>
    let model := strAt "model" json
    if (json.pointer ["usageMetadata", "promptTokenCount"]).isSome then ⟨model, geminiSplit json⟩
    else if (json.pointer ["usage", "prompt_tokens"]).isSome then
      ⟨model, inclusiveSplit (tokensAt json ["usage", "prompt_tokens"])
        (tokensAt json ["usage", "prompt_tokens_details", "cached_tokens"])
        (tokensAt json ["usage", "completion_tokens"])⟩
    else
      ⟨model, tokensAt json ["usage", "input_tokens"],
        tokensAt json ["usage", "cache_creation_input_tokens"],
        tokensAt json ["usage", "cache_read_input_tokens"],
        tokensAt json ["usage", "output_tokens"]⟩

-- ---------------------------------------------------------------------------
-- Event streams that were passed through
-- ---------------------------------------------------------------------------

structure SseUsage where
  model : Option String
  inTokens : Nat
  cacheWriteTokens : Nat
  cacheReadTokens : Nat
  outTokens : Nat
  stopReason : Option String
  completed : Bool

def SseUsage.fresh : SseUsage := ⟨none, 0, 0, 0, 0, none, false⟩

def SseUsage.split (usage : SseUsage) : Split :=
  ⟨usage.inTokens, usage.cacheWriteTokens, usage.cacheReadTokens, usage.outTokens⟩

/-- The first model named by an event. -/
def SseUsage.named (json : Value) (usage : SseUsage) : SseUsage :=
  let model := (json.get "model").orElse fun _ => json.pointer ["message", "model"]
  { usage with model := usage.model.orElse fun _ => model.bind Value.asStr }

def SseUsage.stopped (reason : Option String) (usage : SseUsage) : SseUsage :=
  match reason with
  | none => usage
  | some reason => { usage with stopReason := some reason, completed := true }

def SseUsage.messageStart (json : Value) (usage : SseUsage) : SseUsage :=
  { usage with
    inTokens := tokensAt json ["message", "usage", "input_tokens"]
    cacheWriteTokens := tokensAt json ["message", "usage", "cache_creation_input_tokens"]
    cacheReadTokens := tokensAt json ["message", "usage", "cache_read_input_tokens"] }

def SseUsage.messageDelta (json : Value) (usage : SseUsage) : SseUsage :=
  let usage :=
    match tokensAt? json ["usage", "output_tokens"] with
    | none => usage
    | some outTokens => { usage with outTokens }
  usage.stopped ((json.pointer ["delta", "stop_reason"]).bind Value.asStr)

/-- A Gemini chunk: the usage so far, and in the last one why it finished. -/
def SseUsage.geminiChunk (json : Value) (usage : SseUsage) : SseUsage :=
  let finish := (json.pointer ["candidates", "0", "finishReason"]).bind Value.asStr
  let usage := usage.stopped
    (finish.filter fun reason => reason ≠ "" && reason ≠ "FINISH_REASON_UNSPECIFIED")
  if (json.pointer ["usageMetadata", "promptTokenCount"]).isSome then
    let split := geminiSplit json
    { usage with
      inTokens := split.inTokens
      cacheReadTokens := split.cacheReadTokens
      outTokens := split.outTokens }
  else usage

def SseUsage.openaiChunk (json : Value) (usage : SseUsage) : SseUsage :=
  let usage :=
    match tokensAt? json ["usage", "prompt_tokens"] with
    | none => usage
    | some prompt =>
      let cached := tokensAt json ["usage", "prompt_tokens_details", "cached_tokens"]
      { usage with inTokens := prompt - cached, cacheReadTokens := cached }
  let usage :=
    match tokensAt? json ["usage", "completion_tokens"] with
    | none => usage
    | some outTokens => { usage with outTokens }
  let finish := (json.pointer ["choices", "0", "finish_reason"]).bind Value.asStr
  usage.stopped (finish.filter (· ≠ ""))

def isGemini (json : Value) : Bool :=
  (json.get "candidates").isSome || (json.get "usageMetadata").isSome

def SseUsage.event (usage : SseUsage) (json : Value) : SseUsage :=
  let usage := usage.named json
  match typeOf json with
  | some "message_start" => usage.messageStart json
  | some "message_delta" => usage.messageDelta json
  | some "message_stop" => { usage with completed := true }
  | _ =>
    let usage := usage.geminiChunk json
    if isGemini json then usage else usage.openaiChunk json

def lineFeed : UInt8 := 10

def carriageReturn : UInt8 := 13

/-- What a line carries after its `data: `. -/
def sseData (line : Bytes) : Option Bytes :=
  (line.dropPrefix? (utf8 "data: ")).map fun data => (data.dropSuffix? [carriageReturn]).getD data

def doneMarker : Bytes := utf8 "[DONE]"

def sseLineBufCap : Nat := 65536

section tap

-- `serde_json::from_slice`
variable (fromSlice : Bytes → Option Value)

def processSseLine (line : Bytes) (usage : SseUsage) : SseUsage :=
  match sseData line with
  | none => usage
  | some data =>
    if data = doneMarker then { usage with completed := true }
    else
      match fromSlice data with
      | none => usage
      | some json => usage.event json

/-- The line buffer of the tap, and the usage it has collected. -/
abbrev SseTap := Reader UInt8 SseUsage

def parseSseChunkInto (tap : SseTap) (chunk : Bytes) : SseTap :=
  tap.feed lineFeed sseLineBufCap (processSseLine fromSlice) chunk

/-- What the tap has collected at the end of a stream. -/
def sseUsage (chunks : List Bytes) : SseUsage :=
  (chunks.foldl (parseSseChunkInto fromSlice) (.fresh .fresh)).out

end tap

end Firstpass.TokenUsage
