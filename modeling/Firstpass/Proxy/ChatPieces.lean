import Firstpass.Lib.Carry
import Firstpass.Proxy.ChatRequest

/-!
# What a translated Chat Completions request carries

Content is a list of pieces, read alike from the body and from the request. A part, or what an
assistant says, is carried exactly if it is sound.
-/

namespace Firstpass.ChatRequest

open Json (Value get_setKey_ne lookup_btreeInsert)
open Responses (strAt typeOf textOf)
open Inbound (Body Headers Telemetry Registry imageUrl isHttp rungsAll enforceCanHandle
  extractOpenaiFeatures)

-- ---------------------------------------------------------------------------
-- Pieces
-- ---------------------------------------------------------------------------

inductive Piece
  | text (s : String)
  | image (url : Option String)
  | call (id name : Option String) (arguments extra : Option Value)
  | result (callId : Option String) (content : Value)
  | part (p : Value)

/-- Pieces that are kept. -/
def Piece.listed : Piece → Bool
  | .part _ => false
  | _ => true

def textPieces (s : String) : List Piece := if s = "" then [] else [.text s]

/-- The `data:` URL of an image block. -/
def blockUrl (block : Value) : Option String :=
  ((block.pointer ["source", "media_type"]).bind Value.asStr).bind fun mediaType =>
    ((block.pointer ["source", "data"]).bind Value.asStr).map fun data =>
      "data:" ++ mediaType ++ ";base64," ++ data

/-- A part of a kind that neither dialect has is a piece of its own. -/
def partPieces (p : Value) : List Piece :=
  match typeOf p with
  | some "text" => textPieces ((textOf p).getD "")
  | some "image_url" => [.image (imageUrl p)]
  | some "image" => [.image (blockUrl p)]
  | some "tool_use" =>
    [.call (strAt "id" p) (strAt "name" p) (p.get "input") (p.get "extra_content")]
  | some "tool_result" =>
    [.result (strAt "tool_use_id" p) ((p.get "content").getD (.string ""))]
  | _ => [.part p]

def contentPieces : Option Value → List Piece
  | some (.string s) => textPieces s
  | some (.array parts) => parts.flatMap partPieces
  | _ => []

section pieces

variable (fromStr : FromStr)

def function (call : Value) : Value := (call.get "function").getD .null

def callName (call : Value) : Option String := strAt "name" (function call)

/-- The arguments of a call are JSON in a string. -/
def callArguments (call : Value) : Option Value :=
  (strAt "arguments" (function call)).bind fromStr

def callPiece (call : Value) : Piece :=
  .call (strAt "id" call) (callName call) (callArguments fromStr call) (call.get "extra_content")

def toolCalls (msg : Value) : List Value := ((msg.get "tool_calls").bind Value.asArray).getD []

def messagePieces (msg : Value) : List Piece :=
  match roleOf msg with
  | "user" => contentPieces (msg.get "content")
  | "assistant" =>
    contentPieces (msg.get "content") ++ (toolCalls msg).map (callPiece fromStr)
  | "tool" => [.result (strAt "tool_call_id" msg) ((msg.get "content").getD (.string ""))]
  | _ => []

def isSystem (msg : Value) : Bool := roleOf msg = "system" ∨ roleOf msg = "developer"

def isSpoken (msg : Value) : Bool :=
  roleOf msg = "user" ∨ roleOf msg = "assistant" ∨ roleOf msg = "tool"

/-- The texts of a system or developer message. -/
def systemTexts (msg : Value) : List String :=
  match msg.get "content" with
  | some (.string s) => [s]
  | some (.array parts) => parts.filterMap textOf
  | _ => []

/-- A system text: what the messages say, apart by a blank line. -/
def joinSystem (texts : List String) : Option String :=
  match texts.filter (· ≠ "") with
  | [] => none
  | texts => some ("\n\n".intercalate texts)

/-- What is listed is given, in order, and nothing is added. -/
structure Carried (given pieces : List Piece) : Prop where
  kept : given.filter Piece.listed = pieces.filter Piece.listed
  adds : given.Sublist pieces

/-- A message of the request carries what a message of the body says, in the role that its
dialect has for it. -/
structure Says (msg : Value) (m : ChatMessage) : Prop where
  role : m.role = if roleOf msg = "tool" then "user" else roleOf msg
  carried : Carried (contentPieces (some m.content)) (messagePieces fromStr msg)

structure Definition where
  name : Value
  description : Option Value
  parameters : Value
  strict : Bool

/-- A function tool: without parameters it takes any object. -/
def functionDef (tool : Value) : Option Definition :=
  (tool.get "function").bind fun func => (func.get "name").map fun name =>
    { name
      description := func.get "description"
      parameters := (func.get "parameters").getD (.object [("type", .string "object")])
      strict := (func.get "strict").bind Value.asBool = some true }

def requestDef (tool : Value) : Option Definition :=
  (tool.get "name").bind fun name => (tool.get "input_schema").map fun parameters =>
    { name, description := tool.get "description", parameters, strict := false }

def elems (tools : Option Value) : List Value := (tools.bind Value.asArray).getD []

structure Keeps (json : Value) (msgs : List Value) (req : ModelRequest) : Prop where
  system : req.system = joinSystem ((msgs.filter isSystem).map fun msg =>
    String.join (systemTexts msg))
  messages : List.Forall₂ (Says fromStr) (msgs.filter isSpoken) req.messages
  tools : (elems (some req.tools)).map requestDef =
    ((elems (json.get "tools")).filterMap functionDef).map some

/-- Nothing listed of the body is lost, and nothing is added. -/
def Faithful (body : Body) (json : Value) (msgs : List Value) : Prop :=
  ∃ req, parseOpenaiRequest fromStr body false = some req ∧ Keeps fromStr json msgs req

-- ---------------------------------------------------------------------------
-- The condition
-- ---------------------------------------------------------------------------

/-- An image of a user has a URL that is fetched or has the data; no part is of a type that only
the other dialect has. -/
def SoundPart (p : Value) : Prop :=
  match typeOf p with
  | some "image_url" => ∃ url, imageUrl p = some url ∧
      (isHttp url = false → (parseDataUrl url).isSome)
  | some "image" | some "tool_use" | some "tool_result" => False
  | _ => True

structure SoundCall (call : Value) : Prop where
  id : (strAt "id" call).isSome
  name : (callName call).isSome
  arguments : (callArguments fromStr call).isSome

/-- Beside tool calls, no part of the content has anything that is listed. -/
structure SoundAssistant (msg : Value) : Prop where
  content : ∀ calls, msg.get "tool_calls" = some (.array calls) →
    ∀ parts, msg.get "content" = some (.array parts) →
      (parts.flatMap partPieces).filter Piece.listed = []
  calls : ∀ call ∈ toolCalls msg, SoundCall fromStr call

def SoundMessage (msg : Value) : Prop :=
  match roleOf msg with
  | "user" => ∀ parts, msg.get "content" = some (.array parts) → ∀ p ∈ parts, SoundPart p
  | "assistant" => SoundAssistant fromStr msg
  | "tool" => (strAt "tool_call_id" msg).isSome
  | _ => True

def SoundTool (tool : Value) : Prop := ∃ d, functionDef tool = some d ∧ d.strict = false

structure Sound (json : Value) (msgs : List Value) : Prop where
  messages : ∀ msg ∈ msgs, SoundMessage fromStr msg
  tools : ∀ tool ∈ elems (json.get "tools"), SoundTool tool

/-- A ladder whose rungs all rebuild the content from the translated request. -/
def Translating (providers : Registry) (ladder : List String) : Prop :=
  ladder ≠ [] ∧ rungsAll providers
    (fun p => p.carriesStructuredVerbatim .anthropic || p.translatesStructured) ladder = true

end pieces

-- ---------------------------------------------------------------------------
-- Parts and calls
-- ---------------------------------------------------------------------------

theorem parseDataUrl_eq {url mediaType data : String}
    (h : parseDataUrl url = some (mediaType, data)) :
    url = "data:" ++ mediaType ++ ";base64," ++ data := by
  obtain ⟨rest, hrest, h⟩ := Option.bind_eq_some_iff.mp h
  obtain ⟨front, hurl, hfront⟩ := List.dropPrefix?_eq_some_iff.mp hrest
  obtain rfl := eq_of_beq hfront
  cases hcomma : rest.dropWhile (· ≠ ',') with
  | nil =>
    rw [hcomma] at h
    cases h
  | cons c tail =>
    rw [hcomma] at h
    obtain ⟨kind, hkind, heq⟩ := Option.map_eq_some_iff.mp h
    cases heq
    obtain ⟨suffix, hbefore, hsuffix⟩ := List.dropSuffix?_eq_some_iff.mp hkind
    obtain rfl := eq_of_beq hsuffix
    have hc : c = ',' := by
      have hhead := List.head?_dropWhile_not (· ≠ ',') rest
      rw [hcomma] at hhead
      simpa using hhead
    have hsplit := List.takeWhile_append_dropWhile (p := (· ≠ ',')) (l := rest)
    rw [hcomma, hbefore] at hsplit
    rw [← String.toList_inj, hurl, ← hsplit, hc]
    simp

theorem Carried.refl (pieces : List Piece) : Carried pieces pieces := ⟨rfl, List.Sublist.refl _⟩

theorem carried_flatMap_iff {given pieces : α → List Piece} {items : List α}
    (h : ∀ x ∈ items, (given x).Sublist (pieces x)) :
    Carried (items.flatMap given) (items.flatMap pieces) ↔
      ∀ x ∈ items, Carried (given x) (pieces x) := by
  have hkept := Carry.flatMap_eq_iff fun x hx => (h x hx).filter Piece.listed
  constructor
  · rintro ⟨heq, -⟩ x hx
    rw [List.filter_flatMap, List.filter_flatMap] at heq
    exact ⟨hkept.mp heq x hx, h x hx⟩
  · intro hall
    refine ⟨?_, List.Sublist.flatMap_right items h⟩
    rw [List.filter_flatMap, List.filter_flatMap]
    exact hkept.mpr fun x hx => (hall x hx).kept

/-- What the block of a part says. -/
def givenByPart (p : Value) : List Piece := (((userPart p).bind id).toList).flatMap partPieces

theorem givenByPart_text (h : typeOf p = some "text") :
    (userPart p).isSome ∧ givenByPart p = partPieces p := by
  have hpart : userPart p = some (some (textBlock ((textOf p).getD ""))) := by
    rw [userPart, h]
    rfl
  refine ⟨by rw [hpart]; rfl, ?_⟩
  rw [givenByPart, hpart, partPieces, h]
  exact List.append_nil _

theorem givenByPart_image (h : typeOf p = some "image_url") (hpart : (userPart p).isSome) :
    givenByPart p = partPieces p ∧
      ∃ url, imageUrl p = some url ∧ (parseDataUrl url).isSome := by
  obtain ⟨block, hblock⟩ := Option.isSome_iff_exists.mp hpart
  have himage := hblock
  rw [userPart, h] at himage
  obtain ⟨url, hurl, himage⟩ := Option.bind_eq_some_iff.mp himage
  split_ifs at himage with hhttp
  obtain ⟨⟨mediaType, data⟩, hdata, rfl⟩ := Option.map_eq_some_iff.mp himage
  refine ⟨?_, url, hurl, by rw [hdata]; rfl⟩
  rw [givenByPart, hblock, partPieces, h, hurl, parseDataUrl_eq hdata]
  rfl

/-- A part of another kind is skipped. -/
theorem givenByPart_other (htext : typeOf p ≠ some "text")
    (himage : typeOf p ≠ some "image_url") : userPart p = some none ∧ givenByPart p = [] := by
  have hskip : userPart p = some none := by
    rw [userPart]
    split
    · exact absurd ‹_› htext
    · exact absurd ‹_› himage
    · rfl
  refine ⟨hskip, ?_⟩
  rw [givenByPart, hskip]
  rfl

theorem givenByPart_sublist (hpart : (userPart p).isSome) :
    (givenByPart p).Sublist (partPieces p) := by
  by_cases htext : typeOf p = some "text"
  · rw [(givenByPart_text htext).2]
  by_cases himage : typeOf p = some "image_url"
  · rw [(givenByPart_image himage hpart).1]
  · rw [(givenByPart_other htext himage).2]
    exact List.nil_sublist _

/-- The URL of an image is not one to fetch. -/
def NoFetch (p : Value) : Prop := ∀ url, typeOf p = some "image_url" → imageUrl p = some url →
  isHttp url = false

/-- What is listed of a part that is skipped. -/
theorem skipped_iff (htext : typeOf p ≠ some "text") (himage : typeOf p ≠ some "image_url") :
    Carried [] (partPieces p) ↔ SoundPart p := by
  rw [partPieces, SoundPart]
  split
  next h => exact absurd h htext
  next h => exact absurd h himage
  next h => exact iff_of_false (fun hcarried => by cases hcarried.kept) (by simp [h])
  next h => exact iff_of_false (fun hcarried => by cases hcarried.kept) (by simp [h])
  next h => exact iff_of_false (fun hcarried => by cases hcarried.kept) (by simp [h])
  next h₁ h₂ h₃ =>
    refine iff_of_true ⟨rfl, List.nil_sublist _⟩ ?_
    split <;> simp_all

theorem part_iff (hfetch : NoFetch p) :
    (userPart p).isSome ∧ Carried (givenByPart p) (partPieces p) ↔ SoundPart p := by
  by_cases htext : typeOf p = some "text"
  · obtain ⟨hpart, hgiven⟩ := givenByPart_text htext
    rw [hgiven, SoundPart, htext]
    exact iff_of_true ⟨hpart, .refl _⟩ trivial
  by_cases himage : typeOf p = some "image_url"
  · rw [SoundPart, himage]
    constructor
    · rintro ⟨hpart, -⟩
      obtain ⟨-, url, hurl, hdata⟩ := givenByPart_image himage hpart
      exact ⟨url, hurl, fun _ => hdata⟩
    · rintro ⟨url, hurl, hdata⟩
      have hhttp := hfetch url himage hurl
      obtain ⟨found, hfound⟩ := Option.isSome_iff_exists.mp (hdata hhttp)
      have hpart : (userPart p).isSome := by
        rw [userPart, himage]
        simp [hurl, hhttp, hfound]
      rw [(givenByPart_image himage hpart).1]
      exact ⟨hpart, .refl _⟩
  · obtain ⟨hskip, hgiven⟩ := givenByPart_other htext himage
    rw [hgiven, ← skipped_iff htext himage, hskip]
    exact and_iff_right rfl

theorem parts_given (parts : List Value) :
    ((parts.filterMap userPart).filterMap id).flatMap partPieces = parts.flatMap givenByPart := by
  induction parts with
  | nil => rfl
  | cons p parts ih =>
    rw [List.flatMap_cons, ← ih, List.filterMap_cons, givenByPart]
    cases userPart p with
    | none => rfl
    | some block => cases block <;> simp

theorem parts_iff {parts : List Value} (hfetch : ∀ p ∈ parts, NoFetch p) :
    (∃ blocks, parts.mapM userPart = some blocks ∧
        Carried ((blocks.filterMap id).flatMap partPieces) (parts.flatMap partPieces)) ↔
      ∀ p ∈ parts, SoundPart p := by
  have hall : (∀ p ∈ parts, SoundPart p) ↔ (∀ p ∈ parts, (userPart p).isSome) ∧
      ∀ p ∈ parts, Carried (givenByPart p) (partPieces p) := by
    rw [← forall₂_and]
    exact forall₂_congr fun p hp => (part_iff (hfetch p hp)).symm
  rw [hall]
  constructor
  · rintro ⟨blocks, hblocks, hcarried⟩
    have hsome := Carry.isSome_mapM.mp (by rw [hblocks]; rfl)
    rw [Carry.mapM_eq_filterMap hblocks, parts_given] at hcarried
    exact ⟨hsome, (carried_flatMap_iff fun p hp => givenByPart_sublist (hsome p hp)).mp hcarried⟩
  · rintro ⟨hsome, hcarried⟩
    obtain ⟨blocks, hblocks⟩ := Option.isSome_iff_exists.mp (Carry.isSome_mapM.mpr hsome)
    refine ⟨blocks, hblocks, ?_⟩
    rw [Carry.mapM_eq_filterMap hblocks, parts_given]
    exact (carried_flatMap_iff fun p hp => givenByPart_sublist (hsome p hp)).mpr hcarried

section messages

variable {fromStr : FromStr}

theorem toolUse_pieces (call : Value) : partPieces (toolUse fromStr call) =
    [.call (some ((strAt "id" call).getD "")) (some ((callName call).getD ""))
      (some ((fromStr ((strAt "arguments" (function call)).getD "\x7b\x7d")).getD emptyObject))
      (call.get "extra_content")] := by
  rw [toolUse]
  cases call.get "extra_content" with
  | none => rfl
  | some extra =>
    have hkeep : ∀ key, key ≠ "extra_content" → ∀ block : Value,
        (block.setKey "extra_content" extra).get key = block.get key :=
      fun key hkey block => get_setKey_ne hkey block extra
    have hextra : ∀ fields, ((Value.object fields).setKey "extra_content" extra).get
        "extra_content" = some extra := lookup_btreeInsert _ _
    simp only [partPieces, typeOf, strAt, hkeep "type" (by decide), hkeep "id" (by decide),
      hkeep "name" (by decide), hkeep "input" (by decide), hextra]
    rfl

theorem some_getD_eq_iff {a : Option β} {d : β} : some (a.getD d) = a ↔ a.isSome := by
  cases a <;> simp

theorem call_iff (call : Value) :
    partPieces (toolUse fromStr call) = [callPiece fromStr call] ↔ SoundCall fromStr call := by
  have harguments : some ((fromStr ((strAt "arguments" (function call)).getD "\x7b\x7d")).getD
      emptyObject) = callArguments fromStr call ↔ (callArguments fromStr call).isSome := by
    rw [callArguments]
    cases strAt "arguments" (function call) with
    | none => simp
    | some args => exact some_getD_eq_iff
  rw [toolUse_pieces, callPiece, List.cons.injEq, Piece.call.injEq, some_getD_eq_iff,
    some_getD_eq_iff, harguments]
  constructor
  · rintro ⟨⟨hid, hname, hargs, -⟩, -⟩
    exact ⟨hid, hname, hargs⟩
  · rintro ⟨hid, hname, hargs⟩
    exact ⟨⟨hid, hname, hargs, rfl⟩, rfl⟩

theorem flatMap_toolUse (calls : List Value) :
    ((calls.map (toolUse fromStr)).flatMap partPieces).length = calls.length ∧
      ((calls.map (toolUse fromStr)).flatMap partPieces = calls.map (callPiece fromStr) ↔
        ∀ call ∈ calls, SoundCall fromStr call) := by
  induction calls with
  | nil => exact ⟨rfl, iff_of_true rfl fun call h => absurd h List.not_mem_nil⟩
  | cons call calls ih =>
    obtain ⟨hlength, hrest⟩ := ih
    obtain ⟨piece, hpiece⟩ : ∃ piece, partPieces (toolUse fromStr call) = [piece] :=
      ⟨_, toolUse_pieces call⟩
    constructor
    · simp [hpiece, hlength]
    · rw [List.map_cons, List.flatMap_cons, List.map_cons, List.forall_mem_cons, ← hrest,
        ← call_iff, hpiece, List.singleton_append]
      simp

/-- What an assistant's text says beside its calls. -/
def saidBeside : Option Value → List Piece
  | some (.string s) => textPieces s
  | _ => []

theorem assistantContent_calls {calls : List Value}
    (h : msg.get "tool_calls" = some (.array calls)) :
    contentPieces (some (assistantContent fromStr msg)) =
      saidBeside (msg.get "content") ++ (calls.map (toolUse fromStr)).flatMap partPieces := by
  have htext : (((strAt "content" msg).filter (· ≠ "")).toList.map textBlock).flatMap partPieces =
      saidBeside (msg.get "content") := by
    rw [strAt]
    cases msg.get "content" with
    | none => rfl
    | some content =>
      cases content with
      | string s =>
        by_cases hs : s = ""
        · simp [Value.asStr, Option.filter, hs, saidBeside, textPieces]
        · have hblock : partPieces (textBlock s) = textPieces s := rfl
          simp [Value.asStr, Option.filter, hs, saidBeside, hblock]
      | _ => rfl
  rw [assistantContent, h, ← htext, ← List.flatMap_append]
  rfl

theorem listed_text (s : String) : (textPieces s).filter Piece.listed = textPieces s := by
  rw [textPieces]
  split_ifs <;> rfl

/-- Beside calls, the text of a content that is a string is kept, and what parts say is lost. -/
theorem saidBeside_iff (content : Option Value) :
    saidBeside content = (contentPieces content).filter Piece.listed ↔
      ∀ parts, content = some (.array parts) →
        (parts.flatMap partPieces).filter Piece.listed = [] := by
  cases content with
  | none => exact iff_of_true rfl fun parts h => by cases h
  | some content =>
    cases content with
    | string s =>
      refine iff_of_true ?_ fun parts h => by cases h
      rw [saidBeside, contentPieces, listed_text]
    | array parts =>
      constructor
      · rintro hsaid parts' heq
        cases heq
        exact hsaid.symm
      · exact fun hparts => (hparts parts rfl).symm
    | _ => exact iff_of_true rfl fun parts h => by cases h

theorem listed_calls (calls : List Value) :
    (calls.map (callPiece fromStr)).filter Piece.listed = calls.map (callPiece fromStr) := by
  rw [List.filter_eq_self]
  rintro piece hpiece
  obtain ⟨call, -, rfl⟩ := List.mem_map.mp hpiece
  rfl

theorem listed_toolUse (calls : List Value) :
    ((calls.map (toolUse fromStr)).flatMap partPieces).filter Piece.listed =
      (calls.map (toolUse fromStr)).flatMap partPieces := by
  rw [List.filter_eq_self]
  rintro piece hpiece
  obtain ⟨block, hblock, hpiece⟩ := List.mem_flatMap.mp hpiece
  obtain ⟨call, -, rfl⟩ := List.mem_map.mp hblock
  rw [toolUse_pieces] at hpiece
  rw [List.mem_singleton.mp hpiece]
  rfl

theorem listed_saidBeside (content : Option Value) :
    (saidBeside content).filter Piece.listed = saidBeside content := by
  cases content with
  | none => rfl
  | some content =>
    cases content with
    | string s => exact listed_text s
    | _ => rfl

theorem assistant_iff (msg : Value) :
    Carried (contentPieces (some (assistantContent fromStr msg)))
        (contentPieces (msg.get "content") ++ (toolCalls msg).map (callPiece fromStr)) ↔
      SoundAssistant fromStr msg := by
  by_cases hcalls : ∃ calls, msg.get "tool_calls" = some (.array calls)
  · obtain ⟨calls, hcalls⟩ := hcalls
    have htool : toolCalls msg = calls := by
      rw [toolCalls, hcalls]
      rfl
    obtain ⟨hlength, hsound⟩ := @flatMap_toolUse fromStr calls
    have hfront := saidBeside_iff (msg.get "content")
    rw [assistantContent_calls hcalls, htool]
    constructor
    · rintro ⟨hkept, -⟩
      rw [List.filter_append, List.filter_append, listed_saidBeside, listed_toolUse,
        listed_calls] at hkept
      obtain ⟨hsaid, hback⟩ := List.append_inj' hkept (by rw [hlength, List.length_map])
      exact ⟨fun _ _ => hfront.mp hsaid, htool ▸ hsound.mp hback⟩
    · rintro ⟨hparts, hall⟩
      rw [hfront.mpr (hparts calls hcalls), hsound.mpr (htool ▸ hall)]
      constructor
      · rw [List.filter_append, List.filter_append, List.filter_filter]
        simp
      · exact List.filter_sublist.append (List.Sublist.refl _)
  · have hnone : (msg.get "tool_calls").bind Value.asArray = none := by
      rw [Option.bind_eq_none_iff]
      rintro v hv
      cases v with
      | array calls => exact absurd ⟨calls, hv⟩ hcalls
      | _ => rfl
    have hcontent : contentPieces (some (assistantContent fromStr msg)) =
        contentPieces (msg.get "content") := by
      rw [assistantContent, hnone]
      cases msg.get "content" <;> rfl
    have htool : toolCalls msg = [] := by
      rw [toolCalls, hnone]
      rfl
    rw [hcontent, htool, List.map_nil, List.append_nil]
    exact iff_of_true (.refl _) ⟨fun calls h => absurd ⟨calls, h⟩ hcalls, by simp [htool]⟩

end messages

end Firstpass.ChatRequest
