import Firstpass.Proxy.ChatRequest

/-!
# Wire bodies

The body that is sent to the provider of a rung. Where a request carries a raw body it is
sent as it is, apart from what no provider of the dialect takes; else the body is built from
the request's fields, as a Gemini body always is.
-/

namespace Firstpass.WireBody

open Json (Value Fields btreeInsert removeKey)
open ChatRequest (FromStr emptyObject)
open Inbound (ProviderKind)
open Responses (strAt typeOf)

def str (key : String) (v : Value) : String := (strAt key v).getD ""

/-- The model without the id of its provider. -/
def wireModel (model : String) : String :=
  match model.toList.dropWhile (· ≠ '/') with
  | [] => model
  | _ :: rest => String.ofList rest

-- ---------------------------------------------------------------------------
-- Extra content
-- ---------------------------------------------------------------------------

def stripItem : Value → Value
  | .object fields => .object (removeKey "extra_content" fields)
  | v => v

def stripAt (key : String) (fields : Fields) : Fields :=
  match fields.lookup key with
  | some (.array items) => btreeInsert key (.array (items.map stripItem)) fields
  | _ => fields

def stripMessage : Value → Value
  | .object fields =>
    .object (stripAt "content" (stripAt "tool_calls" (removeKey "extra_content" fields)))
  | v => v

/-- The signatures of Gemini are for Gemini alone. -/
def stripExtraContent (body : Fields) : Fields :=
  match body.lookup "messages" with
  | some (.array messages) => btreeInsert "messages" (.array (messages.map stripMessage)) body
  | _ => body

-- ---------------------------------------------------------------------------
-- Reasoning
-- ---------------------------------------------------------------------------

inductive Effort
  | low
  | medium
  | high
  deriving DecidableEq

def Effort.budgetTokens : Effort → Nat
  | .low => 1024
  | .medium => 4096
  | .high => 16384

def Effort.fromBudget (tokens : Nat) : Effort :=
  if tokens < 2048 then .low else if tokens < 8192 then .medium else .high

def Effort.asStr : Effort → String
  | .low => "low"
  | .medium => "medium"
  | .high => "high"

def effortWord : String → Option Effort
  | "low" | "minimal" => some .low
  | "medium" => some .medium
  | "high" => some .high
  | _ => none

def objectAt (key : String) (body : Fields) : Option Value :=
  (body.lookup key).filter fun v => v.asObject.isSome

def thinkingBudget (body : Fields) : Option Nat :=
  ((objectAt "thinking" body).filter fun t => typeOf t ≠ some "disabled").bind fun t =>
    (t.get "budget_tokens").bind Value.asU64

def readEffort (body : Fields) : Option Effort :=
  match (body.lookup "reasoning_effort").bind Value.asStr with
  | some word => effortWord word
  | none =>
    match thinkingBudget body with
    | some budget => some (.fromBudget budget)
    | none =>
      ((((objectAt "thinkingConfig" body).bind (·.get "thinkingBudget")).bind
        Value.asU64).map Effort.fromBudget)

def effortOf (raw : Value) : Option Effort := raw.asObject.bind readEffort

inductive Wire
  | anthropic
  | openAi
  | gemini
  deriving DecidableEq

def Wire.native : Wire → String
  | .anthropic => "thinking"
  | .openAi => "reasoning_effort"
  | .gemini => "thinkingConfig"

def reasoningKeys : List String := ["reasoning_effort", "thinking", "thinkingConfig"]

def spellEffort (effort : Effort) (body : Fields) : Wire → Fields
  | .openAi => btreeInsert "reasoning_effort" (.string effort.asStr) body
  | .anthropic =>
    let max := ((body.lookup "max_tokens").bind Value.asU64).getD 0
    let budget := min effort.budgetTokens (max - 1)
    if 1024 ≤ budget then
      let thinking := Value.object
        [("budget_tokens", .number (.posInt budget)), ("type", .string "enabled")]
      removeKey "top_p" (removeKey "temperature" (btreeInsert "thinking" thinking body))
    else body
  | .gemini =>
    match (body.lookup "generationConfig").getD emptyObject with
    | .object config =>
      let thinking := Value.object [("thinkingBudget", .number (.posInt effort.budgetTokens))]
      btreeInsert "generationConfig" (.object (btreeInsert "thinkingConfig" thinking config)) body
    | _ => body

/-- What is spelled the target's way already is left alone. -/
def normalizeReasoning (body : Fields) (target : Wire) : Fields :=
  if (body.lookup target.native).isSome then body
  else
    let stripped := reasoningKeys.foldl (fun fs key => removeKey key fs) body
    match readEffort body with
    | none => stripped
    | some effort => spellEffort effort stripped target

-- ---------------------------------------------------------------------------
-- Cache breakpoints
-- ---------------------------------------------------------------------------

mutual
def anyCacheControl : Value → Bool
  | .array items => anyCacheControlElems items
  | .object fields => anyCacheControlFields fields
  | _ => false
def anyCacheControlElems : List Value → Bool
  | [] => false
  | v :: vs => anyCacheControl v || anyCacheControlElems vs
def anyCacheControlFields : List (String × Value) → Bool
  | [] => false
  | (key, v) :: rest => key = "cache_control" || anyCacheControl v || anyCacheControlFields rest
end

def bodyHasCacheControl (body : Fields) : Bool := body.any fun (_, v) => anyCacheControl v

def minCacheablePrefixChars : Nat := 3000

def textSize (key : String) (body : Fields) : Nat :=
  ((body.lookup key).map fun v => v.toText.utf8ByteSize).getD 0

def marker : Value := .object [("type", .string "ephemeral")]

def markItem : Value → Value
  | .object fields => .object (btreeInsert "cache_control" marker fields)
  | v => v

def markLast : List Value → List Value
  | [] => []
  | [v] => [markItem v]
  | v :: vs => v :: markLast vs

def markedSystem : Value → Value
  | .string text =>
    if text = "" then .string text
    else .array [.object
      [("cache_control", marker), ("text", .string text), ("type", .string "text")]]
  | .array blocks => .array (markLast blocks)
  | v => v

def markedTools : Value → Value
  | .array tools => .array (markLast tools)
  | v => v

def mapAt (key : String) (f : Value → Value) (body : Fields) : Fields :=
  match body.lookup key with
  | some v => btreeInsert key (f v) body
  | none => body

/-- A caller's own breakpoints are kept; too short a prefix gets none. -/
def addCacheBreakpoints (body : Fields) : Fields :=
  if bodyHasCacheControl body then body
  else if textSize "system" body + textSize "tools" body < minCacheablePrefixChars then body
  else mapAt "tools" markedTools (mapAt "system" markedSystem body)

-- ---------------------------------------------------------------------------
-- Anthropic and OpenAI
-- ---------------------------------------------------------------------------

def chatMessage (m : ChatMessage) : Value :=
  .object [("content", m.content), ("role", .string m.role)]

def addTools (req : ModelRequest) (body : Fields) : Fields :=
  if req.tools.isNull then body else btreeInsert "tools" req.tools body

def addSystem (req : ModelRequest) (body : Fields) : Fields :=
  match req.system with
  | some system => btreeInsert "system" (.string system) body
  | none => body

def addBreakpoints (req : ModelRequest) (body : Fields) : Fields :=
  if req.cachePrefix then addCacheBreakpoints body else body

def modelField (req : ModelRequest) : Value := .string (wireModel req.model)

def maxTokensField (req : ModelRequest) : Value := .number (.posInt req.maxTokens)

def anthropicWireBody (req : ModelRequest) : Value :=
  match req.raw with
  | .object raw =>
    let body := removeKey "stream" (btreeInsert "model" (modelField req) raw)
    .object (addBreakpoints req (normalizeReasoning (stripExtraContent body) .anthropic))
  | _ =>
    let body := stripExtraContent
      [("max_tokens", maxTokensField req), ("messages", .array (req.messages.map chatMessage)),
        ("model", modelField req)]
    .object (addBreakpoints req (addTools req (addSystem req body)))

/-- For the hosts that take the model in the URL. -/
def anthropicMessagesBody (req : ModelRequest) (anthropicVersion : String) : Value :=
  match req.raw with
  | .object raw =>
    let body := removeKey "stream" (removeKey "model" raw)
    .object (btreeInsert "anthropic_version" (.string anthropicVersion) (stripExtraContent body))
  | _ =>
    let body := stripExtraContent
      [("anthropic_version", .string anthropicVersion), ("max_tokens", maxTokensField req),
        ("messages", .array (req.messages.map chatMessage))]
    .object (addTools req (addSystem req body))

def systemMessage (system : String) : Value :=
  .object [("content", .string system), ("role", .string "system")]

def openaiWireBody (req : ModelRequest) : Value :=
  match req.raw with
  | .object raw =>
    let body := removeKey "stream" (btreeInsert "model" (modelField req) raw)
    .object (normalizeReasoning (stripExtraContent body) .openAi)
  | _ =>
    let messages := req.system.toList.map systemMessage ++ req.messages.map chatMessage
    let body := stripExtraContent
      [("max_tokens", maxTokensField req), ("messages", .array messages),
        ("model", modelField req)]
    .object (addTools req body)

-- ---------------------------------------------------------------------------
-- Gemini
-- ---------------------------------------------------------------------------

/-- What a gate reads of a message. -/
def textView (m : ChatMessage) : String :=
  match m.content with
  | .string s => s
  | .array blocks => String.intercalate "\n" (blocks.filterMap (strAt "text"))
  | _ => ""

section
variable (fromStr : FromStr)

def responseOf (text : String) : Value :=
  match fromStr text with
  | some (.object fields) => .object fields
  | _ => .object [("output", .string text)]

def geminiFunctionResponse : Option Value → Value
  | some (.string s) => responseOf fromStr s
  | some (.array blocks) => responseOf fromStr (String.join (blocks.filterMap (strAt "text")))
  | some (.object fields) => .object fields
  | _ => responseOf fromStr ""

/-- The names of the calls so far, by id, the last first. -/
abbrev CallNames := List (String × String)

def textPart (text : String) : Value := .object [("text", .string text)]

def callPart (b : Value) : Value :=
  let part := Value.object [("functionCall", .object
    [("args", (b.get "input").getD emptyObject), ("name", .string (str "name" b))])]
  match (b.pointer ["extra_content", "google", "thought_signature"]).bind Value.asStr with
  | some sig => part.setKey "thoughtSignature" (.string sig)
  | none => part

def responsePart (names : CallNames) (b : Value) : Value :=
  .object [("functionResponse", .object
    [("name", .string ((names.lookup (str "tool_use_id" b)).getD "")),
      ("response", geminiFunctionResponse fromStr (b.get "content"))])]

def imagePart (b : Value) : Value :=
  .object [("inlineData", .object
    [("data", (b.pointer ["source", "data"]).getD .null),
      ("mimeType", (b.pointer ["source", "media_type"]).getD .null)])]

def isBase64 (b : Value) : Bool :=
  (b.pointer ["source", "type"]).bind Value.asStr = some "base64"

/-- The part of a block, if it has one, and the calls with it. -/
def blockPart (names : CallNames) (b : Value) : Option Value × CallNames :=
  match typeOf b with
  | some "text" => (some (textPart (str "text" b)), names)
  | some "tool_use" => (some (callPart b), (str "id" b, str "name" b) :: names)
  | some "tool_result" => (some (responsePart fromStr names b), names)
  | some "image" => (if isBase64 b then some (imagePart b) else none, names)
  | _ => (none, names)

def blockParts (names : CallNames) : List Value → List Value × CallNames
  | [] => ([], names)
  | b :: blocks =>
    let (part, names) := blockPart fromStr names b
    let (parts, names) := blockParts names blocks
    (part.toList ++ parts, names)

def messageParts (names : CallNames) (m : ChatMessage) : List Value × CallNames :=
  let (parts, names) := blockParts fromStr names (m.content.asArray.getD [])
  (if parts = [] then [textPart (textView m)] else parts, names)

/-- A turn: its role and its parts. -/
abbrev Content := String × List Value

def geminiRole (m : ChatMessage) : String := if m.role = "assistant" then "model" else "user"

/-- Turns of one role in a row are one turn. -/
def pushTurn (contents : List Content) (role : String) (parts : List Value) : List Content :=
  match contents.getLast? with
  | some (last, sofar) =>
    if last = role then contents.dropLast ++ [(role, sofar ++ parts)]
    else contents ++ [(role, parts)]
  | none => [(role, parts)]

def geminiContents (names : CallNames) (contents : List Content) : List ChatMessage → List Content
  | [] => contents
  | m :: messages =>
    let (parts, names) := messageParts fromStr names m
    geminiContents names (pushTurn contents (geminiRole m) parts) messages

def syntheticThoughtSignature : String := "skip_thought_signature_validator"

/-- The first call of a turn is signed. -/
def signFirstCall : List Value → List Value
  | [] => []
  | p :: parts =>
    if (p.get "functionCall").isSome then
      (if (p.get "thoughtSignature").isNone then
        p.setKey "thoughtSignature" (.string syntheticThoughtSignature) else p) :: parts
    else p :: signFirstCall parts

def contentJson : Content → Value
  | (role, parts) =>
    .object [("parts", .array (if role = "model" then signFirstCall parts else parts)),
      ("role", .string role)]

def declaration (t : Value) : Value :=
  let f := (t.get "function").getD t
  let d := Value.object [("name", (f.get "name").getD .null)]
  let d := match f.get "description" with
    | some desc => d.setKey "description" desc
    | none => d
  match (f.get "input_schema").orElse fun _ => f.get "parameters" with
  | some schema => d.setKey "parametersJsonSchema" schema
  | none => d

def addDeclarations (req : ModelRequest) (body : Fields) : Fields :=
  match req.tools.asArray with
  | some (t :: tools) =>
    let decls := (t :: tools).map declaration
    btreeInsert "tools" (.array [.object [("functionDeclarations", .array decls)]]) body
  | _ => body

/-- The reasoning that the body as it was received asked for. -/
def addThinking (req : ModelRequest) (body : Fields) : Fields :=
  match effortOf req.raw with
  | none => body
  | some effort =>
    let carry := normalizeReasoning
      [("generationConfig", (body.lookup "generationConfig").getD .null),
        ("reasoning_effort", .string effort.asStr)] .gemini
    btreeInsert "generationConfig" ((carry.lookup "generationConfig").getD .null) body

def systemInstruction (system : String) : Value := .object [("parts", .array [textPart system])]

def addInstruction (req : ModelRequest) (body : Fields) : Fields :=
  match req.system with
  | some system => btreeInsert "systemInstruction" (systemInstruction system) body
  | none => body

def geminiRequestBody (req : ModelRequest) : Value :=
  let contents := (geminiContents fromStr [] [] req.messages).map contentJson
  let body :=
    [("contents", Value.array contents),
      ("generationConfig", .object [("maxOutputTokens", maxTokensField req)])]
  .object (addThinking req (addDeclarations req (addInstruction req body)))

/-- The body a provider sends. -/
def wireBody (req : ModelRequest) : ProviderKind → Value
  | .anthropic => anthropicWireBody req
  | .openai => openaiWireBody req
  | .gemini => geminiRequestBody fromStr req
  | .bedrock => anthropicMessagesBody req "bedrock-2023-05-31"
  | .vertex => anthropicMessagesBody req "vertex-2023-10-16"

end

end Firstpass.WireBody
