import Firstpass.Core.Routing
import Firstpass.Proxy.Responses
import Mathlib.Data.List.TakeWhile

/-!
# Inbound requests

What a handler reads off a request before it picks a ladder: its features, its session,
and whether a ladder can carry it.

Left out: the score of the trajectory, which no route matches on; it comes with the
request.
-/

namespace Firstpass.Inbound

open Json (Value Fields)
open Responses (strAt typeOf)
open Routing

/-- The values of the headers that are text. -/
abbrev Headers := String → Option String

/-- A body and what `serde_json::from_slice` makes of it. -/
structure Body where
  bytes : Bytes
  json : Option Value

/-- A value serialized as a body. -/
def Body.ofValue (v : Value) : Body := ⟨utf8 v.toText, some v⟩

def u32Max : Nat := 4294967295

def elemsAt (key : String) (v : Value) : List Value := ((v.get key).bind Value.asArray).getD []

-- ---------------------------------------------------------------------------
-- Features
-- ---------------------------------------------------------------------------

def tokenBucket (n : Nat) : Nat := if n < 2 then 0 else Nat.log2 n

def startsWith (s pattern : String) : Bool := pattern.toList.isPrefixOf s.toList

/-- `char::is_whitespace` -/
def isWhitespace (c : Char) : Bool :=
  (9 ≤ c.toNat && c.toNat ≤ 13) || (0x2000 ≤ c.toNat && c.toNat ≤ 0x200A) ||
    c.toNat ∈ [0x20, 0x85, 0xA0, 0x1680, 0x2028, 0x2029, 0x202F, 0x205F, 0x3000]

def trim (s : String) : String :=
  String.ofList (((s.toList.dropWhile isWhitespace).reverse.dropWhile isWhitespace).reverse)

theorem prefix_trim (s : String) : (trim s).toList <+: s.toList.dropWhile isWhitespace := by
  simp only [trim, String.toList_ofList]
  have hback := List.dropWhile_suffix isWhitespace (l := (s.toList.dropWhile isWhitespace).reverse)
  simpa using List.reverse_prefix.mpr hback

theorem infix_trim (s : String) : (trim s).toList <:+: s.toList :=
  (prefix_trim s).isInfix.trans (List.dropWhile_suffix isWhitespace).isInfix

/-- A trimmed text does not begin with a blank. -/
theorem head_trim (s : String) : ∀ c ∈ (trim s).toList.head?, isWhitespace c = false := by
  intro c hc
  obtain ⟨rest, hrest⟩ := prefix_trim s
  have hhead := List.head?_dropWhile_not isWhitespace s.toList
  rw [← hrest, List.head?_append, hc, Option.some_or] at hhead
  exact hhead

/-- A trimmed text does not end in a blank. -/
theorem last_trim (s : String) : ∀ c ∈ (trim s).toList.getLast?, isWhitespace c = false := by
  intro c hc
  have hhead := List.head?_dropWhile_not isWhitespace (s.toList.dropWhile isWhitespace).reverse
  rw [trim, String.toList_ofList, List.getLast?_reverse] at hc
  rw [hc] at hhead
  exact hhead

/-- What trimming takes off is blank. -/
theorem trim_spec (s : String) : ∃ front back, s.toList = front ++ ((trim s).toList ++ back) ∧
    (∀ c ∈ front, isWhitespace c = true) ∧ ∀ c ∈ back, isWhitespace c = true := by
  have hback := List.takeWhile_append_dropWhile (p := isWhitespace)
    (l := (s.toList.dropWhile isWhitespace).reverse)
  refine ⟨s.toList.takeWhile isWhitespace,
    ((s.toList.dropWhile isWhitespace).reverse.takeWhile isWhitespace).reverse, ?_,
    fun c => List.mem_takeWhile_imp, ?_⟩
  · rw [trim, String.toList_ofList, ← List.reverse_append, hback, List.reverse_reverse,
      List.takeWhile_append_dropWhile]
  · intro c hc
    exact List.mem_takeWhile_imp (List.mem_reverse.mp hc)

def agentLabel (headers : Headers) : Option String :=
  ((headers "x-firstpass-agent").filter fun a => trim a ≠ "").orElse fun _ =>
    (headers "user-agent").bind fun ua =>
      if startsWith ua "claude-cli/" then some "claude-code"
      else if startsWith ua "codex_cli_rs/" then some "codex"
      else if startsWith ua "GeminiCLI" then some "gemini-cli"
      else none

/-- `Features::new` for other tasks, at an hour. -/
def newFeatures (hourBucket : Nat) : Features where
  version := 3
  taskKind := .other
  language := none
  agent := none
  subagent := none
  promptTokenBucket := 0
  toolCount := 0
  hasImages := false
  repoFingerprint := none
  sessionFailureCount := 0
  difficultyHint := 0
  hourBucket := hourBucket

/-- Whether the content of a message has a part of a type. -/
def hasPart (type : String) (message : Value) : Bool :=
  (elemsAt "content" message).any fun part => typeOf part = some type

def toolCount (json : Value) : Nat := min (elemsAt "tools" json).length u32Max

def messageHasImage : Value → Bool := hasPart "image"

def openaiMessagesHaveImages (json : Value) : Bool :=
  (elemsAt "messages" json).any (hasPart "image_url")

/-- The clock and the score of the trajectory of a request. -/
structure Telemetry where
  hourBucket : Nat
  difficultyHint : Nat

def labelled (headers : Headers) (body : Body) (t : Telemetry) (tools : Nat) (images : Bool) :
    Features :=
  { newFeatures t.hourBucket with
    agent := agentLabel headers
    subagent := headers "x-firstpass-subagent"
    toolCount := tools
    hasImages := images
    promptTokenBucket := tokenBucket body.bytes.length
    difficultyHint := t.difficultyHint }

def extractFeatures (headers : Headers) (body : Body) (t : Telemetry) : Features :=
  labelled headers body t (body.json.elim 0 toolCount)
    (body.json.any fun json => (elemsAt "messages" json).any messageHasImage)

/-- A body that is not JSON has no agent either. -/
def extractOpenaiFeatures (headers : Headers) (body : Body) (t : Telemetry) : Features :=
  match body.json with
  | none => newFeatures t.hourBucket
  | some json => labelled headers body t (toolCount json) (openaiMessagesHaveImages json)

-- ---------------------------------------------------------------------------
-- Sessions
-- ---------------------------------------------------------------------------

def agentSessionHeaders : List String :=
  ["x-claude-code-session-id", "session_id", "conversation_id"]

/-- The characters that fit in a number of bytes. -/
def capChars : Nat → List Char → List Char
  | _, [] => []
  | room, c :: cs => if c.utf8Size ≤ room then c :: capChars (room - c.utf8Size) cs else []

def capSession (s : String) : String := String.ofList (capChars 256 s.toList)

section
variable (sha256 : Bytes → Bytes)

def promptHash (salt : String) (body : Bytes) : String := hexEncode (sha256 (utf8 salt ++ body))

/-- A kind, and the first 16 characters of a salted hash. -/
def sessionOf (kind salt : String) (body : Bytes) : Option String :=
  let h := (promptHash sha256 salt body).toList
  if h.length < 16 then none else some (kind ++ ":" ++ String.ofList (h.take 16))

def hashedSession (kind salt raw : String) : Option String :=
  sessionOf sha256 kind salt (utf8 (capSession raw))

def nonBlank (v : Option String) : Option String := (v.map trim).filter (· ≠ "")

def headerSession (headers : Headers) (salt : String) : Option String :=
  match nonBlank (headers "x-firstpass-session") with
  | some v => some (capSession v)
  | none =>
    (agentSessionHeaders.findSome? fun name => nonBlank (headers name)).bind
      (hashedSession sha256 "agent" salt)

def toolName (t : Value) : Option String :=
  (((t.get "name").orElse fun _ => t.pointer ["function", "name"]).orElse fun _ =>
    t.get "type").bind Value.asStr

/-- Through the first message of the user. -/
def throughFirstUser : List Value → List Value
  | [] => []
  | m :: ms => if strAt "role" m = some "user" then [m] else m :: throughFirstUser ms

/-- The role and text of the first item of a Responses input. -/
def firstInput : Value → Option (String × String)
  | .string s => some ("user", s)
  | .array (item :: _) =>
    let text :=
      match item.get "content" with
      | some (.string s) => s
      | some (.array parts) => "\n".intercalate (parts.filterMap (strAt "text"))
      | _ => item.toText
    some ((strAt "role" item).getD "user", text)
  | _ => none

/-- What a conversation opens with, after its system text and tools. -/
def opening (json : Value) : Option (List Value) :=
  match (json.get "messages").bind Value.asArray with
  | some msgs => some (throughFirstUser msgs)
  | none =>
    match json.get "input" with
    | some input => (firstInput input).map fun (role, text) =>
        [.array [.string role, .string text]]
    | none => some []

def bodySession (json : Value) (salt : String) : Option String :=
  let userId := (json.pointer ["metadata", "user_id"]).bind Value.asStr
  match userId.filter (Responses.contains · "session_") with
  | some u => hashedSession sha256 "meta" salt u
  | none =>
    let items := (((json.get "messages").bind Value.asArray).orElse fun _ =>
      (json.get "input").bind Value.asArray).getD []
    let tools := elemsAt "tools" json
    if items.length ≤ 1 ∧ tools = [] then
      (nonBlank (strAt "previous_response_id" json)).bind (hashedSession sha256 "prev" salt)
    else
      match nonBlank (strAt "prompt_cache_key" json) with
      | some k => hashedSession sha256 "pck" salt k
      | none =>
        let names := (tools.filterMap toolName).insertionSort (· ≤ ·)
        (opening json).bind fun opening =>
          let first := [(json.get "system").getD .null, (json.get "instructions").getD .null,
            .array (names.map .string)]
          sessionOf sha256 "conv" salt (utf8 (Value.array (first ++ opening)).toText)

end

-- ---------------------------------------------------------------------------
-- What a ladder can carry
-- ---------------------------------------------------------------------------

/-- The wire dialect of a request. -/
inductive Dialect
  | anthropic
  | openai
  | gemini
  deriving DecidableEq

inductive ProviderKind
  | anthropic
  | openai
  | gemini
  | bedrock
  | vertex
  deriving DecidableEq

def ProviderKind.carriesStructuredVerbatim : ProviderKind → Dialect → Bool
  | .anthropic, inbound | .bedrock, inbound | .vertex, inbound => inbound = .anthropic
  | .openai, inbound => inbound = .openai
  | .gemini, _ => false

def ProviderKind.translatesStructured : ProviderKind → Bool
  | .gemini => true
  | _ => false

/-- The provider of each id that is registered. -/
abbrev Registry := String → Option ProviderKind

/-- The provider id of a rung: what stands before its first slash. -/
def providerId (rung : String) : String := String.ofList (rung.toList.takeWhile (· ≠ '/'))

def rungsAll (providers : Registry) (p : ProviderKind → Bool) (ladder : List String) : Bool :=
  ladder.all fun rung => (providers (providerId rung)).any p

def messageHasToolBlock (message : Value) : Bool :=
  hasPart "tool_use" message || hasPart "tool_result" message

def messagesHaveToolBlocks (json : Value) : Bool := (elemsAt "messages" json).any messageHasToolBlock

def openaiMessagesHaveToolCalls (json : Value) : Bool :=
  (elemsAt "messages" json).any fun m =>
    (m.get "tool_calls").isSome || strAt "role" m = some "tool"

def isHttp (url : String) : Bool := startsWith url "http://" || startsWith url "https://"

def imageUrl (part : Value) : Option String :=
  (part.pointer ["image_url", "url"]).bind Value.asStr

def openaiHasHttpImages (json : Value) : Bool :=
  (elemsAt "messages" json).any fun m =>
    (elemsAt "content" m).any fun p => typeOf p = some "image_url" && (imageUrl p).any isHttp

def isStructured (features : Features) (body : Body) (inbound : Dialect) : Bool :=
  0 < features.toolCount || features.hasImages ||
    match inbound with
    | .anthropic => body.json.any messagesHaveToolBlocks
    | .openai => body.json.any openaiMessagesHaveToolCalls
    | .gemini => false

def enforceCanHandle (features : Features) (body : Body) (enforceStructured : Bool)
    (ladder : List String) (providers : Registry) (inbound : Dialect) : Bool :=
  if !isStructured features body inbound then true
  else if !enforceStructured then false
  -- Every rung speaks the inbound dialect.
  else if rungsAll providers (·.carriesStructuredVerbatim inbound) ladder then true
  -- Every rung rebuilds the content from the translated request.
  else inbound = .openai && !body.json.any openaiHasHttpImages &&
    rungsAll providers (fun p => p.carriesStructuredVerbatim .anthropic || p.translatesStructured)
      ladder

variable {F : Type}

def enforceCanHandleRoute (features : Features) (body : Body) (enforceStructured : Bool)
    (route : Route F) (providers : Registry) (inbound : Dialect) : Bool :=
  enforceCanHandle features body enforceStructured route.ladder providers inbound &&
    route.challengerLadder.all fun ladder =>
      enforceCanHandle features body enforceStructured ladder providers inbound

end Firstpass.Inbound
