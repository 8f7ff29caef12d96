import Firstpass.Proxy.Responses

/-!
# The Gemini API over Chat Completions

A `generateContent` body is translated to a Chat request. Calls get an id from
their place, and the results in the next turn the ids of the same places.
-/

namespace Firstpass.Gemini

open Json
open Responses (strAt member chatFunction)

-- ---------------------------------------------------------------------------
-- Parts
-- ---------------------------------------------------------------------------

def textFromParts (parts : List Value) : String := String.join (parts.filterMap (strAt "text"))

def partsToText (v : Value) : Option String :=
  ((v.get "parts").bind Value.asArray).map textFromParts

def signatureExtra (part : Fields) : Option Value :=
  ((part.lookup "thoughtSignature").bind Value.asStr).map fun sig =>
    .object [("google", .object [("thought_signature", .string sig)])]

/-- The id of the call at a place of a turn. -/
def callId (turn idx : Nat) : String := "call_" ++ toString turn ++ "_" ++ toString idx

/-- A call that is an object, with the part it stands in. -/
def callObject (p : Value) : Option (Fields × Fields) :=
  p.asObject.bind fun part =>
    ((part.lookup "functionCall").bind Value.asObject).map fun fc => (fc, part)

def chatCall (turn idx : Nat) (fc part : Fields) : Option Value :=
  (fc.lookup "name").map fun name =>
    .object (member "extra_content" (signatureExtra part) ++
      [("function", .object
          [("arguments", .string ((fc.lookup "args").getD (.object [])).toText), ("name", name)]),
        ("id", .string (callId turn idx)), ("type", .string "function")])

def chatCalls (turn : Nat) (parts : List Value) : List Value :=
  (parts.filterMap callObject).zipIdx.filterMap fun ((fc, part), idx) => chatCall turn idx fc part

def responseObject (p : Value) : Option Fields :=
  (p.asObject.bind fun part => part.lookup "functionResponse").bind Value.asObject

/-- A result answers the call at its place of the turn before. -/
def toolMessage (turn idx : Nat) (fr : Fields) : Option Value :=
  ((fr.lookup "name").bind Value.asStr).map fun _ =>
    .object
      [("content", .string ((fr.lookup "response").getD (.object [])).toText),
        ("role", .string "tool"), ("tool_call_id", .string (callId (turn - 1) idx))]

def toolMessages (turn : Nat) (parts : List Value) : List Value :=
  (parts.filterMap responseObject).zipIdx.filterMap fun (fr, idx) => toolMessage turn idx fr

-- ---------------------------------------------------------------------------
-- Turns
-- ---------------------------------------------------------------------------

def chatRole (obj : Fields) : String :=
  let role := ((obj.lookup "role").bind Value.asStr).getD "user"
  if role = "model" then "assistant" else role

def assistantMessage (text : String) (calls : List Value) : Value :=
  .object
    [("content", if text = "" then .null else .string text), ("role", .string "assistant"),
      ("tool_calls", .array calls)]

def contentToMessages (content : Value) (turn : Nat) : List Value :=
  match content.asObject with
  | none => []
  | some obj =>
    match (obj.lookup "parts").bind Value.asArray with
    | none => []
    | some parts =>
      if chatCalls turn parts ≠ [] then
        [assistantMessage (textFromParts parts) (chatCalls turn parts)]
      else if toolMessages turn parts ≠ [] then toolMessages turn parts
      else
        [.object [("content", .string (textFromParts parts)), ("role", .string (chatRole obj))]]

def systemMessages (obj : Fields) : List Value :=
  match (obj.lookup "systemInstruction").bind partsToText with
  | some text =>
    if text = "" then []
    else [.object [("content", .string text), ("role", .string "system")]]
  | none => []

def contentsOf (obj : Fields) : List Value := ((obj.lookup "contents").bind Value.asArray).getD []

def messagesOf (obj : Fields) : List Value :=
  systemMessages obj ++
    (contentsOf obj).zipIdx.flatMap fun (content, turn) => contentToMessages content turn

-- ---------------------------------------------------------------------------
-- The request
-- ---------------------------------------------------------------------------

def fdToChat (fd : Value) : Option Value :=
  (fd.get "name").map fun name =>
    chatFunction (.object (member "description" (fd.get "description") ++ [("name", name)] ++
      member "parameters" (((fd.get "parameters").filter fun p => !p.isNull).orElse fun _ =>
        fd.get "parametersJsonSchema")))

def declarationsOf (tool : Value) : List Value :=
  ((tool.get "functionDeclarations").bind Value.asArray).getD []

def setSome (key : String) (v : Option Value) (out : Fields) : Fields :=
  match v with
  | some v => btreeInsert key v out
  | none => out

def setGeneration (obj out : Fields) : Fields :=
  match obj.lookup "generationConfig" with
  | some (.object cfg) =>
    setSome "top_p" (cfg.lookup "topP") <| setSome "temperature" (cfg.lookup "temperature") <|
      setSome "max_tokens" (cfg.lookup "maxOutputTokens") out
  | _ => out

def setTools (obj out : Fields) : Fields :=
  match obj.lookup "tools" with
  | some (.array tools) =>
    let converted := tools.flatMap fun t => (declarationsOf t).filterMap fdToChat
    if converted = [] then out else btreeInsert "tools" (.array converted) out
  | _ => out

def requestToChat (body : Value) (model : String) : Value :=
  match body with
  | .object obj =>
    .object (setTools obj (setGeneration obj
      (btreeInsert "messages" (.array (messagesOf obj)) [("model", .string model)])))
  | _ => body

-- ---------------------------------------------------------------------------
-- What is not translated
-- ---------------------------------------------------------------------------

def partsOf (content : Value) : List Value := ((content.get "parts").bind Value.asArray).getD []

def names (content : Value) (key : String) : List String :=
  (partsOf content).filterMap fun p => (p.get key).bind (strAt "name")

/-- Each turn of results answers the calls right before it, name by name. -/
def pairingFrom (pending : List String) : List Value → Bool
  | [] => pending.isEmpty
  | c :: contents =>
    let responses := names c "functionResponse"
    if responses ≠ [] then
      if responses ≠ pending ∨ (partsOf c).length ≠ responses.length then false
      else pairingFrom [] contents
    else if pending ≠ [] then false
    else pairingFrom (names c "functionCall") contents

def functionPairingIsExact : Option Value → Bool
  | some (.array contents) => pairingFrom [] contents
  | _ => true

def hasKey (obj : Fields) (key : String) : Bool := (obj.lookup key).isSome

def isArray (v : Value) : Bool := v.asArray.isSome

def unknownKey (known : List String) (obj : Fields) : Bool := obj.any fun f => f.1 ∉ known

/-- A field that the translation would skip for its shape. -/
def isMalformed (obj : Fields) : Bool :=
  (obj.lookup "contents").any (fun c => !isArray c) ||
  (obj.lookup "systemInstruction").any (fun si => !(si.get "parts").any isArray) ||
  (obj.lookup "tools").any fun t =>
    !t.asArray.any fun ts => ts.all fun t => (t.get "functionDeclarations").any isArray

def isUntranslatablePart (part : Value) : Bool :=
  match part.asObject with
  | none => true
  | some obj =>
    obj.isEmpty ||
    (obj.lookup "thoughtSignature").any (fun s =>
      s.asStr.isNone || !(hasKey obj "text" || hasKey obj "functionCall")) ||
    unknownKey ["text", "functionCall", "functionResponse", "thoughtSignature"] obj

def isUntranslatableTurn (content : Value) : Bool :=
  match content.asObject.bind fun obj => (obj.lookup "parts").bind Value.asArray with
  | none => true
  | some parts => parts.any isUntranslatablePart

def hasUntranslatableContent (body : Value) : Bool :=
  match body.asObject with
  | none => false
  | some obj =>
    unknownKey ["contents", "systemInstruction", "generationConfig", "tools"] obj ||
    isMalformed obj || !functionPairingIsExact (obj.lookup "contents") ||
    (hasKey obj "cachedContent" || hasKey obj "toolConfig" || hasKey obj "safetySettings") ||
    (((obj.lookup "tools").bind Value.asArray).getD []).any (fun tool =>
      !tool.asObject.any fun m => !unknownKey ["functionDeclarations"] m) ||
    ((((obj.lookup "systemInstruction").bind (·.get "parts")).bind Value.asArray).getD []).any
      (fun p => !p.asObject.any fun m => m.length = 1 ∧ hasKey m "text") ||
    (((obj.lookup "generationConfig").bind Value.asObject).any
      (unknownKey ["maxOutputTokens", "temperature", "topP"])) ||
    (contentsOf obj).any isUntranslatableTurn

end Firstpass.Gemini
