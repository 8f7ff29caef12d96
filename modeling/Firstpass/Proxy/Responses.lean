import Firstpass.Core.JsonObject
import Mathlib.Data.List.Infix

/-!
# The Responses API over Chat Completions

A Responses request is translated to a Chat one, and the Chat reply back. A
request with content that the translation cannot carry is not translated.
-/

namespace Firstpass.Responses

open Json

/-- A string at a key of a value. -/
def strAt (key : String) (v : Value) : Option String := (v.get key).bind Value.asStr

def typeOf : Value → Option String := strAt "type"

def textOf : Value → Option String := strAt "text"

def isText (part : Value) : Bool :=
  typeOf part = some "input_text" ∨ typeOf part = some "output_text" ∨ typeOf part = some "text"

def isImage (part : Value) : Bool := typeOf part = some "input_image"

-- ---------------------------------------------------------------------------
-- Tools
-- ---------------------------------------------------------------------------

def customInputArg : String := "input"

def patchEnvelopePattern : String :=
  "^\\s*\\*\\*\\* Begin Patch\\r?\\n[\\s\\S]*?\\*\\*\\* (Add|Delete|Update) File: " ++
    "[\\s\\S]*\\*\\*\\* End Patch\\s*$"

def chatFunction (function : Value) : Value :=
  .object [("function", function), ("type", .string "function")]

/-- An optional member of a literal. -/
def member (key : String) (v : Option Value) : Fields := (v.map (key, ·)).toList

def contains (text pattern : String) : Bool := decide (pattern.toList <:+: text.toList)

/-- What the format of a custom tool adds to the description, and the pattern it
asks of the input. -/
def customFormat : Option Value → Option (String × Option String)
  | none => some ("", none)
  | some f =>
    if typeOf f = some "text" then some ("", none)
    else if typeOf f = some "grammar" then
      (strAt "syntax" f).bind fun syntax_ =>
        (strAt "definition" f).bind fun definition =>
          if contains definition "\"*** Begin Patch\"" ∧
              contains definition "\"*** End Patch\"" then
            some ("\n\nThe `input` text must match this " ++ syntax_ ++ " grammar:\n" ++ definition,
              some patchEnvelopePattern)
          else none
    else none

def customToolToChat (obj : Fields) : Option Value :=
  (obj.lookup "name").bind fun name =>
    let given := ((obj.lookup "description").bind Value.asStr).getD ""
    let description := (if given = "" then given else given ++ "\n\n") ++
      "Pass the raw freeform text as the `input` string argument; it is delivered unchanged."
    (customFormat (obj.lookup "format")).map fun (note, pattern) =>
      chatFunction <| .object
        [("description", .string (description ++ note)), ("name", name),
          ("parameters", .object
            [("additionalProperties", .bool false),
              ("properties", .object [(customInputArg,
                .object (member "pattern" (pattern.map .string) ++ [("type", .string "string")]))]),
              ("required", .array [.string customInputArg]),
              ("type", .string "object")])]

def toolToChat (tool : Value) : Option Value :=
  tool.asObject.bind fun obj =>
    if (obj.lookup "function").isSome then some tool
    else if typeOf tool = some "function" then
      (obj.lookup "name").map fun name =>
        chatFunction <| .object (member "description" (obj.lookup "description") ++
          [("name", name)] ++ member "parameters" (obj.lookup "parameters") ++
            member "strict" (obj.lookup "strict"))
    else if typeOf tool = some "custom" then customToolToChat obj
    else none

def customToolNames (body : Value) : List String :=
  ((((body.get "tools").bind Value.asArray).getD []).filter fun t =>
    typeOf t = some "custom").filterMap (strAt "name")

def toolChoiceToChat (tc : Value) : Option Value :=
  match tc with
  | .string _ => some tc
  | .object o =>
    if (o.lookup "function").isSome then some tc
    else if typeOf tc = some "function" ∨ typeOf tc = some "custom" then
      (o.lookup "name").map fun name => chatFunction (.object [("name", name)])
    else none
  | _ => none

-- ---------------------------------------------------------------------------
-- Input items
-- ---------------------------------------------------------------------------

def isNamespaced (item : Fields) : Bool := (item.lookup "namespace").any fun n => !n.isNull

/-- The assistant message that carries one tool call. -/
def assistantCall (id name arguments : Value) : Value :=
  .object
    [("content", .null), ("role", .string "assistant"),
      ("tool_calls", .array [.object
        [("function", .object [("arguments", arguments), ("name", name)]), ("id", id),
          ("type", .string "function")]])]

def functionCallToChat (item : Fields) : Option Value :=
  if isNamespaced item then none
  else
    ((item.lookup "call_id").orElse fun _ => item.lookup "id").bind fun id =>
      (item.lookup "name").map fun name =>
        assistantCall id name ((item.lookup "arguments").getD (.string "\x7b\x7d"))

/-- The arguments that carry a freeform input. -/
def wrapInput (input : String) : String :=
  (Value.object [(customInputArg, .string input)]).toText

def customCallToChat (item : Fields) : Option Value :=
  if isNamespaced item then none
  else
    ((item.lookup "input").bind Value.asStr).bind fun input =>
      (item.lookup "call_id").bind fun id =>
        (item.lookup "name").map fun name => assistantCall id name (.string (wrapInput input))

def joinOutput : List Value → Option String
  | [] => some ""
  | p :: parts =>
    if isText p then (textOf p).bind fun text => (joinOutput parts).map (text ++ ·) else none

def outputText : Value → Option String
  | .string s => some s
  | .array parts => joinOutput parts
  | other => some other.toText

def functionOutputToChat (item : Fields) : Option Value :=
  ((item.lookup "output").bind outputText).bind fun output =>
    (item.lookup "call_id").map fun id => .object
      [("content", .string output), ("role", .string "tool"), ("tool_call_id", id)]

def imageUrl (part : Value) : Option String :=
  (part.get "image_url").bind fun u => u.asStr.orElse fun _ => strAt "url" u

def partToChat (part : Value) : Option Value :=
  if isText part then
    some (.object [("text", .string ((textOf part).getD "")), ("type", .string "text")])
  else if isImage part then
    (imageUrl part).map fun url =>
      .object [("image_url", .object [("url", .string url)]), ("type", .string "image_url")]
  else none

/-- Text parts collapse to one string, unless there is an image among them. -/
def contentToChat : Option Value → Option Value
  | some (.string s) => some (.string s)
  | some (.array parts) =>
    if parts.all fun p => !isImage p then
      some (.string (String.join (parts.filterMap textOf)))
    else some (.array (parts.filterMap partToChat))
  | _ => none

def roleOf (turn : Value) : String := (strAt "role" turn).getD "user"

def turnToMessage (turn : Value) : Option Value :=
  turn.asObject.bind fun obj =>
    match typeOf turn with
    | some kind =>
      if kind = "function_call" then functionCallToChat obj
      else if kind = "custom_tool_call" then customCallToChat obj
      else if kind = "function_call_output" ∨ kind = "custom_tool_call_output" then
        functionOutputToChat obj
      else if kind = "message" then message obj
      else none
    | none => message obj
where
  message (obj : Fields) : Option Value :=
    (contentToChat (obj.lookup "content")).map fun content =>
      .object [("content", content), ("role", .string (roleOf turn))]

def isDroppedItem (turn : Value) : Bool := typeOf turn = some "reasoning"

def isAssistant (message : Value) : Bool := strAt "role" message = some "assistant"

/-- A tool call is folded into an assistant message right before it. -/
def pushMessage (messages : List Value) (m : Value) : List Value :=
  match messages.getLast? with
  | some prev =>
    if isAssistant prev then
      match m.get "tool_calls" with
      | some (.array calls) =>
        let prevCalls := ((prev.get "tool_calls").bind Value.asArray).getD []
        messages.dropLast ++ [prev.setKey "tool_calls" (.array (prevCalls ++ calls))]
      | some _ => messages ++ [m.setKey "tool_calls" .null]
      | none => messages ++ [m]
    else messages ++ [m]
  | none => [m]

-- ---------------------------------------------------------------------------
-- The request
-- ---------------------------------------------------------------------------

def instructionMessages (obj : Fields) : List Value :=
  match (obj.lookup "instructions").bind Value.asStr with
  | some instructions =>
    [.object [("content", .string instructions), ("role", .string "system")]]
  | none => []

def pushTurns (messages : List Value) (turns : List Value) : List Value :=
  ((turns.filter fun t => !isDroppedItem t).filterMap turnToMessage).foldl pushMessage messages

def inputMessages (obj : Fields) : List Value :=
  match obj.lookup "input" with
  | some (.string s) => instructionMessages obj ++
      [.object [("content", .string s), ("role", .string "user")]]
  | some (.array turns) => pushTurns (instructionMessages obj) turns
  | _ => instructionMessages obj

def setTools (obj : Fields) (out : Fields) : Fields :=
  match obj.lookup "tools" with
  | some (.array tools) =>
    let converted := tools.filterMap toolToChat
    if converted.length = tools.length then btreeInsert "tools" (.array converted) out else out
  | _ => out

def setToolChoice (obj : Fields) (out : Fields) : Fields :=
  match obj.lookup "tool_choice" with
  | some tc =>
    match toolChoiceToChat tc with
    | some v => btreeInsert "tool_choice" v out
    | none => removeKey "tool_choice" out
  | none => out

def setMessages (messages : List Value) (out : Fields) : Fields :=
  if messages = [] then out else btreeInsert "messages" (.array messages) out

def renameMaxTokens (out : Fields) : Fields :=
  match out.lookup "max_output_tokens" with
  | some max => btreeInsert "max_tokens" max (removeKey "max_output_tokens" out)
  | none => out

def setEffort (obj : Fields) (out : Fields) : Fields :=
  match (obj.lookup "reasoning").bind (strAt "effort") with
  | some effort => btreeInsert "reasoning_effort" (.string effort) out
  | none => out

def responsesOnly : List String :=
  ["reasoning", "include", "store", "prompt_cache_key", "service_tier", "client_metadata",
    "stream_options", "text"]

def dropParallel (out : Fields) : Fields :=
  if (((out.lookup "tools").bind Value.asArray).getD []).isEmpty then
    removeKey "parallel_tool_calls" out
  else out

def requestToChat (body : Value) : Value :=
  match body with
  | .object obj =>
    let out := setMessages (inputMessages obj) (setToolChoice obj (setTools obj obj))
    let out := removeKey "instructions" (removeKey "input" out)
    let out := setEffort obj (renameMaxTokens out)
    .object (dropParallel (responsesOnly.foldl (fun out k => removeKey k out) out))
  | _ => body

-- ---------------------------------------------------------------------------
-- What is not translated
-- ---------------------------------------------------------------------------

/-- A name that is declared both as a custom and as a function tool. -/
def hasAmbiguousTool (body : Value) : Bool :=
  let custom := customToolNames body
  (((body.get "tools").bind Value.asArray).getD []).any fun t =>
    typeOf t = some "function" &&
      (((t.get "name").orElse fun _ => t.pointer ["function", "name"]).bind Value.asStr).any
        fun n => n ∈ custom

def isUntranslatablePart (p : Value) : Bool :=
  if isText p then false else if isImage p then (partToChat p).isNone else true

def isUntranslatableTurn (turn : Value) : Bool :=
  if isDroppedItem turn then false
  else
    match turn.asObject with
    | none => true
    | some obj =>
      if (obj.lookup "type").any fun t => t.asStr ≠ some "message" then (turnToMessage turn).isNone
      else if strAt "role" turn ∉
          [some "user", some "assistant", some "system", some "developer"] then true
      else
        match obj.lookup "content" with
        | some (.string _) => false
        | some (.array parts) => parts.any isUntranslatablePart
        | _ => true

def hasUntranslatableContent (body : Value) : Bool :=
  hasAmbiguousTool body ||
  (((body.get "tools").bind Value.asArray).getD []).any (fun t => (toolToChat t).isNone) ||
  (body.get "tool_choice").any (fun tc => (toolChoiceToChat tc).isNone) ||
  ((body.get "previous_response_id").isSome || (body.get "conversation").isSome ||
    (body.get "store").bind Value.asBool = some true) ||
  (body.pointer ["text", "format"]).any (fun f => typeOf f ≠ some "text") ||
  match body.get "input" with
  | some (.array turns) =>
    (!turns.isEmpty && turns.all isDroppedItem) || turns.any isUntranslatableTurn
  | _ => false

-- ---------------------------------------------------------------------------
-- The reply
-- ---------------------------------------------------------------------------

section
variable (fromStr : String → Option Value)

/-- The freeform input of a call to a custom tool; other arguments as they are. -/
def customInput (args : String) : String :=
  match (fromStr args).bind Value.asObject with
  | some m => ((m.lookup customInputArg).bind Value.asStr).getD args
  | none => args

def messageItem (id text : String) : Value :=
  .object
    [("content", .array [.object
        [("annotations", .array []), ("text", .string text), ("type", .string "output_text")]]),
      ("id", .string ("msg_" ++ id)), ("role", .string "assistant"),
      ("status", .string "completed"), ("type", .string "message")]

def callItem (customTools : List String) (id : String) (i : Nat) (call : Value) : Value :=
  let callId := (call.get "id").getD .null
  let arguments := call.pointer ["function", "arguments"]
  match ((call.pointer ["function", "name"]).bind Value.asStr).filter fun n => n ∈ customTools with
  | some name =>
    .object
      [("call_id", callId), ("id", .string ("ctc_" ++ id ++ "_" ++ toString i)),
        ("input", .string (customInput fromStr ((arguments.bind Value.asStr).getD ""))),
        ("name", .string name), ("status", .string "completed"),
        ("type", .string "custom_tool_call")]
  | none =>
    .object
      [("arguments", arguments.getD (.string "\x7b\x7d")), ("call_id", callId),
        ("id", .string ("fc_" ++ id ++ "_" ++ toString i)),
        ("name", (call.pointer ["function", "name"]).getD .null),
        ("status", .string "completed"), ("type", .string "function_call")]

def message (chat : Value) (key : String) : Option Value :=
  chat.pointer ["choices", "0", "message", key]

def replyText (chat : Value) : String := ((message chat "content").bind Value.asStr).getD ""

def replyId (chat : Value) : String := (strAt "id" chat).getD "resp_0"

def outputItems (chat : Value) (customTools : List String) : List Value :=
  let id := replyId chat
  let text := replyText chat
  let calls := ((message chat "tool_calls").bind Value.asArray).getD []
  let output := (if text = "" then [] else [messageItem id text]) ++
    calls.mapIdx (callItem fromStr customTools id)
  if output = [] then [messageItem id ""] else output

def u64Modulus : Nat := 18446744073709551616

/-- The reply as a Responses object. Token counts add up as `u64`. -/
def responseFromChat (chat : Value) (customTools : List String) : Value :=
  let tokens := fun key => ((chat.pointer ["usage", key]).bind Value.asU64).getD 0
  let number := fun n => Value.number (.posInt n)
  let truncated := (chat.pointer ["choices", "0", "finish_reason"]).bind Value.asStr = some "length"
  .object <|
    [("created_at", (chat.get "created").getD (number 0)), ("id", .string (replyId chat))] ++
    (if truncated then
      [("incomplete_details", .object [("reason", .string "max_output_tokens")])] else []) ++
    [("model", .string ((strAt "model" chat).getD "")), ("object", .string "response"),
      ("output", .array (outputItems fromStr chat customTools)),
      ("output_text", .string (replyText chat)),
      ("status", .string (if truncated then "incomplete" else "completed")),
      ("usage", .object
        [("input_tokens", number (tokens "prompt_tokens")),
          ("output_tokens", number (tokens "completion_tokens")),
          ("total_tokens",
            number ((tokens "prompt_tokens" + tokens "completion_tokens") % u64Modulus))])]

end

end Firstpass.Responses
