import Firstpass.Proxy.Inbound
import Firstpass.Proxy.Provider

/-!
# Chat Completions requests

The translation of a Chat Completions body to the request of a ladder: `raw` carries the
body as it is where every rung speaks its dialect, and is null where the request is rebuilt
from the translated fields.

Left out: the translation of `tool_choice`, which is computed and dropped.
-/

namespace Firstpass.ChatRequest

open Json (Value)
open Responses (strAt typeOf textOf)
open Inbound (Body imageUrl isHttp u32Max)

def dropPrefix (pattern : String) (text : List Char) : Option (List Char) :=
  text.dropPrefix? pattern.toList

def dropSuffix (pattern : String) (text : List Char) : Option (List Char) :=
  text.dropSuffix? pattern.toList

/-- The media type and the data of a `data:` URL in base64. -/
def parseDataUrl (url : String) : Option (String × String) :=
  (dropPrefix "data:" url.toList).bind fun rest =>
    match rest.dropWhile (· ≠ ',') with
    | [] => none
    | _ :: data => (dropSuffix ";base64" (rest.takeWhile (· ≠ ','))).map fun mediaType =>
        (String.ofList mediaType, String.ofList data)

def textBlock (text : String) : Value :=
  .object [("text", .string text), ("type", .string "text")]

def imageBlock (mediaType data : String) : Value :=
  .object
    [("source", .object [("data", .string data), ("media_type", .string mediaType),
        ("type", .string "base64")]),
      ("type", .string "image")]

/-- The block of a part of a user's content, if it has one; no translation at all for an image
that is not in a `data:` URL. -/
def userPart (part : Value) : Option (Option Value) :=
  match typeOf part with
  | some "text" => some (some (textBlock ((textOf part).getD "")))
  | some "image_url" =>
    (imageUrl part).bind fun url =>
      if isHttp url then none
      else (parseDataUrl url).map fun (mediaType, data) => some (imageBlock mediaType data)
  | _ => some none

def translateOpenaiUserContent (content : Value) : Option Value :=
  match content with
  | .string _ => some content
  | .array parts => (parts.mapM userPart).map fun blocks => .array (blocks.filterMap id)
  | _ => some (.string "")

def toolToAnthropic (tool : Value) : Value :=
  let func := (tool.get "function").getD .null
  let out := Value.object
    [("input_schema", (func.get "parameters").getD (.object [("type", .string "object")])),
      ("name", (func.get "name").getD (.string ""))]
  match func.get "description" with
  | none => out
  | some desc => out.setKey "description" desc

def translateOpenaiTools (tools : Value) : Value :=
  match tools with
  | .array elems => .array (elems.map toolToAnthropic)
  | _ => .null

-- ---------------------------------------------------------------------------
-- Messages
-- ---------------------------------------------------------------------------

def systemText (msg : Value) : String :=
  match msg.get "content" with
  | some (.string s) => s
  | some (.array parts) => String.join (parts.filterMap textOf)
  | _ => ""

/-- `serde_json::from_str` -/
abbrev FromStr := String → Option Value

section
variable (fromStr : FromStr)

def emptyObject : Value := .object []

def toolUse (call : Value) : Value :=
  let func := (call.get "function").getD .null
  let args := (strAt "arguments" func).getD "\x7b\x7d"
  let block := Value.object
    [("id", .string ((strAt "id" call).getD "")), ("input", (fromStr args).getD emptyObject),
      ("name", .string ((strAt "name" func).getD "")), ("type", .string "tool_use")]
  match call.get "extra_content" with
  | none => block
  | some extra => block.setKey "extra_content" extra

def assistantContent (msg : Value) : Value :=
  match (msg.get "tool_calls").bind Value.asArray with
  | some calls =>
    let text := (strAt "content" msg).filter (· ≠ "")
    .array (text.toList.map textBlock ++ calls.map (toolUse fromStr))
  | none => (msg.get "content").getD (.string "")

def toolResult (msg : Value) : Value :=
  .array [.object
    [("content", (msg.get "content").getD (.string "")),
      ("tool_use_id", .string ((strAt "tool_call_id" msg).getD "")),
      ("type", .string "tool_result")]]

structure Translated where
  system : Option String
  messages : List ChatMessage

/-- Every system text is kept, in order. -/
def addText (system : Option String) (text : String) : Option String :=
  if text = "" then system
  else some <|
    match system with
    | some prev => prev ++ "\n\n" ++ text
    | none => text

def Translated.addSystem (t : Translated) (text : String) : Translated :=
  { t with system := addText t.system text }

def Translated.push (t : Translated) (role : String) (content : Value) : Translated :=
  { t with messages := t.messages ++ [⟨role, content⟩] }

def roleOf (msg : Value) : String := (strAt "role" msg).getD "user"

def translateMessage (t : Translated) (msg : Value) : Option Translated :=
  match roleOf msg with
  | "system" | "developer" => some (t.addSystem (systemText msg))
  | "user" => (translateOpenaiUserContent ((msg.get "content").getD .null)).map (t.push "user")
  | "assistant" => some (t.push "assistant" (assistantContent fromStr msg))
  | "tool" => some (t.push "user" (toolResult msg))
  | _ => some t

def maxTokens (json : Value) : Nat :=
  let given := (json.get "max_tokens").orElse fun _ => json.get "max_completion_tokens"
  ((given.bind Value.asU64).filter (· ≤ u32Max)).getD 4096

def parseOpenaiRequest (body : Body) (carryRaw : Bool) : Option ModelRequest :=
  body.json.bind fun json =>
    ((json.get "messages").bind Value.asArray).bind fun msgs =>
      (msgs.foldlM (translateMessage fromStr) ⟨none, []⟩).map fun t =>
        { model := (strAt "model" json).getD ""
          system := t.system
          messages := t.messages
          maxTokens := maxTokens json
          tools :=
            if carryRaw then (json.get "tools").getD .null
            else ((json.get "tools").map translateOpenaiTools).getD .null
          raw := if carryRaw then json else .null
          cachePrefix := false }

end

end Firstpass.ChatRequest
