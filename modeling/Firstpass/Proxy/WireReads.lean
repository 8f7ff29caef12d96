import Firstpass.Proxy.WireText

/-!
# What is read of each body

A body that is sent as it is, and one that is built from the fields, by the provider that
gets it.
-/

namespace Firstpass.WireBody

open Json
open ChatRequest (FromStr)
open Inbound (ProviderKind)
open Responses (strAt typeOf)

-- ---------------------------------------------------------------------------
-- Turns that are carried as they are
-- ---------------------------------------------------------------------------

theorem strAt_object {fields fields' : Fields} {key : String}
    (h : fields'.lookup key = fields.lookup key) :
    strAt key (.object fields') = strAt key (.object fields) :=
  congrArg (·.bind Value.asStr) h

theorem blockText_object {fields fields' : Fields}
    (htype : fields'.lookup "type" = fields.lookup "type")
    (htext : fields'.lookup "text" = fields.lookup "text") :
    blockText (.object fields') = blockText (.object fields) := by
  rw [blockText, blockText, typeOf, strAt_object htype, strAt_object htext]

theorem blockText_stripItem (b : Value) : blockText (stripItem b) = blockText b := by
  cases b with
  | object fields =>
    exact blockText_object (lookup_removeKey_ne (by decide) _) (lookup_removeKey_ne (by decide) _)
  | _ => rfl

theorem filterMap_blockText_map {f : Value → Value} (h : ∀ b, blockText (f b) = blockText b)
    (blocks : List Value) : (blocks.map f).filterMap blockText = blocks.filterMap blockText := by
  rw [List.filterMap_map]
  exact List.filterMap_congr fun b _ => h b

theorem contentTexts_strip {fields : Fields} :
    contentTexts (((Value.object (stripAt "content" fields)).get "content").getD .null) =
      contentTexts (((Value.object fields).get "content").getD .null) := by
  simp only [Value.get, stripAt]
  split
  · rename_i items hitems
    rw [lookup_btreeInsert, hitems]
    exact filterMap_blockText_map blockText_stripItem items
  · rfl

theorem role_stripMessage (m : Value) : strAt "role" (stripMessage m) = strAt "role" m := by
  cases m with
  | object fields =>
    refine strAt_object ?_
    rw [keeps_stripAt (by decide), keeps_stripAt (by decide), lookup_removeKey_ne (by decide)]
  | _ => rfl

theorem contentTexts_stripMessage (m : Value) :
    contentTexts (((stripMessage m).get "content").getD .null) =
      contentTexts ((m.get "content").getD .null) := by
  cases m with
  | object fields =>
    rw [stripMessage, contentTexts_strip]
    simp only [Value.get]
    rw [keeps_stripAt (by decide), lookup_removeKey_ne (by decide)]
  | _ => rfl

theorem turnSayings_stripMessage (m : Value) : turnSayings (stripMessage m) = turnSayings m := by
  rw [turnSayings, turnSayings, role_stripMessage, contentTexts_stripMessage]

theorem isSystemRole_stripMessage (m : Value) : isSystemRole (stripMessage m) = isSystemRole m := by
  rw [isSystemRole, isSystemRole, role_stripMessage]

/-- The messages of a body with what no other provider takes removed. -/
theorem messages_stripExtraContent {body : Fields} {messages : List Value}
    (h : body.lookup "messages" = some (.array messages)) :
    (stripExtraContent body).lookup "messages" = some (.array (messages.map stripMessage)) := by
  rw [stripExtraContent, h]
  exact lookup_btreeInsert _ _ _

theorem elements_of_lookup {key : String} {body : Fields} {elems : List Value}
    (h : body.lookup key = some (.array elems)) : elements key (.object body) = elems := by
  rw [elements, Value.get, h]
  rfl

theorem flatMap_stripMessage (messages : List Value) :
    (messages.map stripMessage).flatMap turnSayings = messages.flatMap turnSayings := by
  rw [List.flatMap_map]
  exact congrArg (messages.flatMap ·) (funext turnSayings_stripMessage)

theorem IsTurn.not_system {m : Value} (h : IsTurn m) : isSystemRole m = false := by
  rw [isSystemRole]
  rcases h.role with hrole | hrole <;> simp [hrole]

-- ---------------------------------------------------------------------------
-- Cache breakpoints
-- ---------------------------------------------------------------------------

theorem blockText_markItem (b : Value) : blockText (markItem b) = blockText b := by
  cases b with
  | object fields =>
    exact blockText_object (lookup_btreeInsert_ne (by decide) _ _)
      (lookup_btreeInsert_ne (by decide) _ _)
  | _ => rfl

theorem filterMap_markLast (blocks : List Value) :
    (markLast blocks).filterMap blockText = blocks.filterMap blockText := by
  induction blocks with
  | nil => rfl
  | cons b blocks ih =>
    cases blocks with
    | nil => simp [markLast, List.filterMap_cons, blockText_markItem]
    | cons b' blocks =>
      show (b :: markLast (b' :: blocks)).filterMap blockText = _
      rw [List.filterMap_cons, List.filterMap_cons, ih]

theorem contentTexts_markedSystem (v : Value) : contentTexts (markedSystem v) = contentTexts v := by
  cases v with
  | string text =>
    simp only [markedSystem]
    split_ifs
    · rfl
    · rfl
  | array blocks => exact filterMap_markLast blocks
  | _ => rfl

theorem system_addCacheBreakpoints (body : Fields) :
    contentTexts (((addCacheBreakpoints body).lookup "system").getD .null) =
      contentTexts ((body.lookup "system").getD .null) := by
  rw [addCacheBreakpoints]
  split_ifs
  · rfl
  · rfl
  · rw [keeps_mapAt (by decide), mapAt]
    cases hsystem : body.lookup "system" with
    | none => rw [hsystem]
    | some v =>
      rw [lookup_btreeInsert]
      exact contentTexts_markedSystem v

theorem keeps_addBreakpoints {key : String} (req : ModelRequest) (hsystem : key ≠ "system")
    (htools : key ≠ "tools") : Keeps key (addBreakpoints req) := by
  rintro body
  rw [addBreakpoints]
  split_ifs
  · rw [addCacheBreakpoints]
    split_ifs
    · rfl
    · rfl
    · rw [keeps_mapAt htools, keeps_mapAt hsystem]
  · rfl

theorem system_addBreakpoints (req : ModelRequest) (body : Fields) :
    contentTexts (((addBreakpoints req body).lookup "system").getD .null) =
      contentTexts ((body.lookup "system").getD .null) := by
  rw [addBreakpoints]
  split_ifs
  · exact system_addCacheBreakpoints body
  · rfl

-- ---------------------------------------------------------------------------
-- Bodies that are sent as they are
-- ---------------------------------------------------------------------------

section raw

variable {fields : Fields} {turns : List Value} {req : ModelRequest}

theorem messages_raw {body : Fields} (hbody : body.lookup "messages" = fields.lookup "messages")
    (h : TextBody (.object fields) turns) :
    (stripExtraContent body).lookup "messages" = some (.array (turns.map stripMessage)) :=
  messages_stripExtraContent (hbody.trans h.messages)

theorem keeps_raw {key : String} (hmodel : key ≠ "model") (hstream : key ≠ "stream")
    (req : ModelRequest) : Keeps key fun raw =>
      removeKey "stream" (btreeInsert "model" (modelField req) raw) := by
  rintro raw
  rw [lookup_removeKey_ne hstream, lookup_btreeInsert_ne hmodel]

theorem keeps_host {key : String} (hmodel : key ≠ "model") (hstream : key ≠ "stream") :
    Keeps key fun raw => removeKey "stream" (removeKey "model" raw) := by
  rintro raw
  rw [lookup_removeKey_ne hstream, lookup_removeKey_ne hmodel]

theorem readTurns_raw {body : Fields}
    (h : body.lookup "messages" = some (.array (turns.map stripMessage))) :
    (elements "messages" (.object body)).flatMap turnSayings = turns.flatMap turnSayings := by
  rw [elements_of_lookup h, flatMap_stripMessage]

/-- An Anthropic body is read as it was written. -/
theorem anthropic_raw (h : TextBody (.object fields) turns) (hraw : req.raw = .object fields) :
    readSystem (anthropicWireBody req) .anthropic = systemText (.object fields) ∧
      readTurns (anthropicWireBody req) .anthropic = turns.flatMap turnSayings := by
  rw [anthropicWireBody, hraw]
  dsimp only
  constructor
  · show String.join (contentTexts ((List.lookup "system" _).getD .null)) = _
    rw [system_addBreakpoints, keeps_normalizeReasoning _ (by decide),
      keeps_stripExtraContent (by decide), keeps_raw (by decide) (by decide) req]
    rfl
  · refine readTurns_raw ?_
    rw [keeps_addBreakpoints req (by decide) (by decide), keeps_normalizeReasoning _ (by decide)]
    exact messages_raw (keeps_raw (by decide) (by decide) req fields) h

theorem host_raw (h : TextBody (.object fields) turns) (hraw : req.raw = .object fields)
    (version : String) (kind : ProviderKind) (hkind : kind = .bedrock ∨ kind = .vertex) :
    readSystem (anthropicMessagesBody req version) kind = systemText (.object fields) ∧
      readTurns (anthropicMessagesBody req version) kind = turns.flatMap turnSayings := by
  have hsystem : String.join (contentTexts (((anthropicMessagesBody req version).get "system").getD
      .null)) = systemText (.object fields) := by
    rw [anthropicMessagesBody, hraw]
    show String.join (contentTexts ((List.lookup "system" _).getD .null)) = _
    rw [lookup_btreeInsert_ne (by decide), keeps_stripExtraContent (by decide),
      keeps_host (by decide) (by decide)]
    rfl
  have hturns : (elements "messages" (anthropicMessagesBody req version)).flatMap turnSayings =
      turns.flatMap turnSayings := by
    rw [anthropicMessagesBody, hraw]
    refine readTurns_raw ?_
    rw [lookup_btreeInsert_ne (by decide)]
    exact messages_raw (keeps_host (by decide) (by decide) fields) h
  rcases hkind with rfl | rfl
  · exact ⟨hsystem, hturns⟩
  · exact ⟨hsystem, hturns⟩

theorem filter_system_turns (h : ∀ m ∈ turns, IsTurn m) :
    (turns.map stripMessage).filter isSystemRole = [] := by
  rw [List.filter_eq_nil_iff]
  rintro m hm
  obtain ⟨m', hm', rfl⟩ := List.mem_map.mp hm
  rw [isSystemRole_stripMessage, (h m' hm').not_system]
  exact Bool.false_ne_true

theorem filter_turns (h : ∀ m ∈ turns, IsTurn m) :
    (turns.map stripMessage).filter (!isSystemRole ·) = turns.map stripMessage := by
  rw [List.filter_eq_self]
  rintro m hm
  obtain ⟨m', hm', rfl⟩ := List.mem_map.mp hm
  rw [isSystemRole_stripMessage, (h m' hm').not_system]
  rfl

/-- A body of another dialect has its turns read, and no system text. -/
theorem openai_raw (h : TextBody (.object fields) turns) (hraw : req.raw = .object fields) :
    readSystem (openaiWireBody req) .openai = "" ∧
      readTurns (openaiWireBody req) .openai = turns.flatMap turnSayings := by
  have hmessages : elements "messages" (openaiWireBody req) = turns.map stripMessage := by
    rw [openaiWireBody, hraw]
    refine elements_of_lookup ?_
    rw [keeps_normalizeReasoning _ (by decide)]
    exact messages_raw (keeps_raw (by decide) (by decide) req fields) h
  constructor
  · rw [readSystem, hmessages, filter_system_turns h.turn]
    rfl
  · rw [readTurns, hmessages, filter_turns h.turn, flatMap_stripMessage]

end raw

-- ---------------------------------------------------------------------------
-- Bodies that are built from the fields
-- ---------------------------------------------------------------------------

def messageSayings (m : ChatMessage) : List Saying :=
  sayings (m.role = "assistant") (contentTexts m.content)

/-- A message of the user or the assistant, in text. -/
structure IsTextMessage (m : ChatMessage) : Prop where
  role : m.role = "user" ∨ m.role = "assistant"
  content : IsText m.content

theorem turnSayings_chatMessage (m : ChatMessage) :
    turnSayings (chatMessage m) = messageSayings m := by
  have hrole : strAt "role" (chatMessage m) = some m.role := rfl
  rw [turnSayings, hrole, messageSayings]
  simp only [Option.some.injEq]
  rfl

theorem isSystemRole_chatMessage {m : ChatMessage} (h : IsTextMessage m) :
    isSystemRole (chatMessage m) = false := by
  have hrole : strAt "role" (chatMessage m) = some m.role := rfl
  rw [isSystemRole, hrole]
  rcases h.role with hrole | hrole <;> simp [hrole]

theorem flatMap_chatMessage (messages : List ChatMessage) :
    ((messages.map chatMessage).map stripMessage).flatMap turnSayings =
      messages.flatMap messageSayings := by
  rw [flatMap_stripMessage, List.flatMap_map]
  exact congrArg (messages.flatMap ·) (funext turnSayings_chatMessage)

theorem keeps_addTools {key : String} (h : key ≠ "tools") (req : ModelRequest) :
    Keeps key (addTools req) := by
  rintro body
  rw [addTools]
  split_ifs
  · rfl
  · exact lookup_btreeInsert_ne h _ _

theorem keeps_addSystem {key : String} (h : key ≠ "system") (req : ModelRequest) :
    Keeps key (addSystem req) := by
  rintro body
  rw [addSystem]
  cases req.system with
  | none => rfl
  | some system => exact lookup_btreeInsert_ne h _ _

theorem join_singleton (s : String) : String.join [s] = s := String.empty_append

theorem system_addSystem (req : ModelRequest) {body : Fields}
    (h : body.lookup "system" = none) :
    String.join (contentTexts (((addSystem req body).lookup "system").getD .null)) =
      req.system.getD "" := by
  rw [addSystem]
  cases req.system with
  | none =>
    rw [h]
    rfl
  | some system =>
    rw [lookup_btreeInsert]
    exact join_singleton system

section built

variable {req : ModelRequest} (hraw : ∀ fields, req.raw ≠ .object fields)
include hraw

theorem anthropic_built :
    readSystem (anthropicWireBody req) .anthropic = req.system.getD "" ∧
      readTurns (anthropicWireBody req) .anthropic = req.messages.flatMap messageSayings := by
  have hbody : anthropicWireBody req =
      .object (addBreakpoints req (addTools req (addSystem req (stripExtraContent
        [("max_tokens", maxTokensField req),
          ("messages", .array (req.messages.map chatMessage)), ("model", modelField req)])))) := by
    rw [anthropicWireBody]
    split
    · rename_i fields hfields
      exact absurd hfields (hraw fields)
    · rfl
  rw [hbody]
  constructor
  · show String.join (contentTexts ((List.lookup "system" _).getD .null)) = _
    rw [system_addBreakpoints, keeps_addTools (by decide)]
    exact system_addSystem req rfl
  · show (elements "messages" _).flatMap turnSayings = _
    have hmessages : elements "messages" (.object (addBreakpoints req (addTools req
        (addSystem req (stripExtraContent [("max_tokens", maxTokensField req),
          ("messages", .array (req.messages.map chatMessage)), ("model", modelField req)]))))) =
        (req.messages.map chatMessage).map stripMessage := by
      refine elements_of_lookup ?_
      rw [keeps_addBreakpoints req (by decide) (by decide), keeps_addTools (by decide),
        keeps_addSystem (by decide)]
      exact messages_stripExtraContent rfl
    rw [hmessages, flatMap_chatMessage]

theorem host_built (version : String) (kind : ProviderKind)
    (hkind : kind = .bedrock ∨ kind = .vertex) :
    readSystem (anthropicMessagesBody req version) kind = req.system.getD "" ∧
      readTurns (anthropicMessagesBody req version) kind =
        req.messages.flatMap messageSayings := by
  have hbody : anthropicMessagesBody req version =
      .object (addTools req (addSystem req (stripExtraContent
        [("anthropic_version", .string version), ("max_tokens", maxTokensField req),
          ("messages", .array (req.messages.map chatMessage))]))) := by
    rw [anthropicMessagesBody]
    split
    · rename_i fields hfields
      exact absurd hfields (hraw fields)
    · rfl
  have hsystem : String.join (contentTexts (((anthropicMessagesBody req version).get "system").getD
      .null)) = req.system.getD "" := by
    rw [hbody]
    show String.join (contentTexts ((List.lookup "system" _).getD .null)) = _
    rw [keeps_addTools (by decide)]
    exact system_addSystem req rfl
  have hturns : (elements "messages" (anthropicMessagesBody req version)).flatMap turnSayings =
      req.messages.flatMap messageSayings := by
    have hmessages : elements "messages" (anthropicMessagesBody req version) =
        (req.messages.map chatMessage).map stripMessage := by
      rw [hbody]
      refine elements_of_lookup ?_
      rw [keeps_addTools (by decide), keeps_addSystem (by decide)]
      exact messages_stripExtraContent rfl
    rw [hmessages, flatMap_chatMessage]
  rcases hkind with rfl | rfl
  · exact ⟨hsystem, hturns⟩
  · exact ⟨hsystem, hturns⟩

theorem openai_built (h : ∀ m ∈ req.messages, IsTextMessage m) :
    readSystem (openaiWireBody req) .openai = req.system.getD "" ∧
      readTurns (openaiWireBody req) .openai = req.messages.flatMap messageSayings := by
  have hmessages : elements "messages" (openaiWireBody req) =
      (req.system.toList.map systemMessage ++ req.messages.map chatMessage).map stripMessage := by
    rw [openaiWireBody]
    split
    · rename_i fields hfields
      exact absurd hfields (hraw fields)
    · refine elements_of_lookup ?_
      rw [keeps_addTools (by decide)]
      exact messages_stripExtraContent rfl
  have hchat : ∀ m ∈ (req.messages.map chatMessage).map stripMessage, isSystemRole m = false := by
    rintro m hm
    obtain ⟨m', hm', rfl⟩ := List.mem_map.mp hm
    obtain ⟨sent, hsent, rfl⟩ := List.mem_map.mp hm'
    rw [isSystemRole_stripMessage]
    exact isSystemRole_chatMessage (h sent hsent)
  have hsystem : ∀ m ∈ (req.system.toList.map systemMessage).map stripMessage,
      isSystemRole m = true := by
    rintro m hm
    obtain ⟨m', hm', rfl⟩ := List.mem_map.mp hm
    obtain ⟨system, -, rfl⟩ := List.mem_map.mp hm'
    rfl
  have hnone : ((req.messages.map chatMessage).map stripMessage).filter isSystemRole = [] :=
    List.filter_eq_nil_iff.mpr fun m hm => by rw [hchat m hm]; exact Bool.false_ne_true
  have hall : ((req.messages.map chatMessage).map stripMessage).filter (!isSystemRole ·) =
      (req.messages.map chatMessage).map stripMessage :=
    List.filter_eq_self.mpr fun m hm => by rw [hchat m hm]; rfl
  constructor
  · rw [readSystem, hmessages, List.map_append, List.filter_append, hnone, List.append_nil,
      List.filter_eq_self.mpr hsystem]
    cases req.system with
    | none => rfl
    | some system => exact join_singleton system
  · have hskip : ((req.system.toList.map systemMessage).map stripMessage).filter
        (!isSystemRole ·) = [] :=
      List.filter_eq_nil_iff.mpr fun m hm => by rw [hsystem m hm]; exact Bool.false_ne_true
    rw [readTurns, hmessages, List.map_append, List.filter_append, hskip, List.nil_append, hall,
      flatMap_chatMessage]

end built

-- ---------------------------------------------------------------------------
-- Gemini
-- ---------------------------------------------------------------------------

def contentSayings (c : Content) : List Saying :=
  sayings (c.1 = "model") (c.2.filterMap (strAt "text"))

theorem sayings_append (assistant : Bool) (xs ys : List String) :
    sayings assistant (xs ++ ys) = sayings assistant xs ++ sayings assistant ys := by
  simp only [sayings, List.filter_append, List.map_append]

theorem contentSayings_pushTurn (contents : List Content) (role : String) (parts : List Value) :
    (pushTurn contents role parts).flatMap contentSayings =
      contents.flatMap contentSayings ++ contentSayings (role, parts) := by
  rw [pushTurn]
  cases hcontents : contents.getLast? with
  | none =>
    rw [List.getLast?_eq_none_iff.mp hcontents]
    simp
  | some c =>
    obtain ⟨last, sofar⟩ := c
    dsimp only
    split_ifs with hrole
    · subst hrole
      have hsplit : contents = contents.dropLast ++ [(last, sofar)] :=
        (List.dropLast_append_getLast? _ hcontents).symm
      rw [List.flatMap_append, List.flatMap_singleton, contentSayings, List.filterMap_append,
        sayings_append]
      conv_rhs => rw [hsplit, List.flatMap_append, List.flatMap_singleton]
      rw [List.append_assoc]
      rfl
    · rw [List.flatMap_append, List.flatMap_singleton]

theorem strAt_setKey_ne {key other : String} (h : other ≠ key) (v val : Value) :
    strAt other (v.setKey key val) = strAt other v :=
  congrArg (·.bind Value.asStr) (get_setKey_ne h v val)

theorem texts_signFirstCall (parts : List Value) :
    (signFirstCall parts).filterMap (strAt "text") = parts.filterMap (strAt "text") := by
  induction parts with
  | nil => rfl
  | cons p parts ih =>
    rw [signFirstCall]
    split_ifs
    · rw [List.filterMap_cons, List.filterMap_cons, strAt_setKey_ne (by decide)]
    · rfl
    · rw [List.filterMap_cons, List.filterMap_cons, ih]

theorem sayings_contentJson (c : Content) :
    sayings (strAt "role" (contentJson c) = some "model") (partTexts (contentJson c)) =
      contentSayings c := by
  obtain ⟨role, parts⟩ := c
  have hrole : strAt "role" (contentJson (role, parts)) = some role := rfl
  have hparts : partTexts (contentJson (role, parts)) = parts.filterMap (strAt "text") := by
    show (if role = "model" then signFirstCall parts else parts).filterMap (strAt "text") = _
    split_ifs
    · exact texts_signFirstCall parts
    · rfl
  rw [hrole, hparts, contentSayings]
  simp only [Option.some.injEq]

section gemini

variable (fromStr : FromStr)

theorem blockParts_text (names : CallNames) {blocks : List Value}
    (h : ∀ b ∈ blocks, IsTextBlock b) :
    (blockParts fromStr names blocks).1.filterMap (strAt "text") = blocks.filterMap blockText := by
  induction blocks generalizing names with
  | nil => rfl
  | cons b blocks ih =>
    obtain ⟨hb, hblocks⟩ := List.forall_mem_cons.mp h
    obtain ⟨text, htext⟩ := hb
    have hpart : blockPart fromStr names b = (some (textPart text), names) := by
      rw [blockText] at htext
      split_ifs at htext with htype
      rw [blockPart, htype]
      simp only [str, htext, Option.getD_some]
    rw [blockParts, hpart, List.filterMap_cons, htext]
    exact congrArg (text :: ·) (ih names hblocks)

/-- What is said in text is said by the parts. -/
theorem messageParts_text (names : CallNames) {m : ChatMessage} (h : IsText m.content) :
    contentSayings (geminiRole m, (messageParts fromStr names m).1) = messageSayings m := by
  have hrole : decide (geminiRole m = "model") = decide (m.role = "assistant") := by
    rw [geminiRole]
    split_ifs with hassistant <;> simp [hassistant]
  rw [contentSayings, messageSayings, hrole]
  cases hcontent : m.content with
  | string s =>
    have hparts : (messageParts fromStr names m).1 = [textPart s] := by
      simp [messageParts, hcontent, Value.asArray, blockParts, textView]
    rw [hparts]
    rfl
  | array blocks =>
    rw [hcontent] at h
    cases h with
    | blocks _ hblocks =>
      have htexts := blockParts_text fromStr names hblocks
      cases blocks with
      | nil =>
        have hparts : (messageParts fromStr names m).1 = [textPart ""] := by
          simp [messageParts, hcontent, Value.asArray, blockParts, textView]
        rw [hparts]
        rfl
      | cons b blocks =>
        have hne : (blockParts fromStr names (b :: blocks)).1 ≠ [] := by
          rintro hnil
          obtain ⟨text, htext⟩ := hblocks b List.mem_cons_self
          rw [hnil, List.filterMap_cons, htext] at htexts
          cases htexts
        have hparts : (messageParts fromStr names m).1 =
            (blockParts fromStr names (b :: blocks)).1 := by
          simp [messageParts, hcontent, Value.asArray, hne]
        rw [hparts]
        exact congrArg (sayings _) htexts
  | _ =>
    rw [hcontent] at h
    cases h

theorem geminiContents_text (names : CallNames) (contents : List Content)
    {messages : List ChatMessage} (h : ∀ m ∈ messages, IsText m.content) :
    (geminiContents fromStr names contents messages).flatMap contentSayings =
      contents.flatMap contentSayings ++ messages.flatMap messageSayings := by
  induction messages generalizing names contents with
  | nil => exact (List.append_nil _).symm
  | cons m messages ih =>
    obtain ⟨hm, hmessages⟩ := List.forall_mem_cons.mp h
    rw [geminiContents, ih _ _ hmessages, contentSayings_pushTurn, List.append_assoc,
      List.flatMap_cons, messageParts_text fromStr names hm]

theorem keeps_addInstruction {key : String} (h : key ≠ "systemInstruction") (req : ModelRequest) :
    Keeps key (addInstruction req) := by
  rintro body
  rw [addInstruction]
  cases req.system with
  | none => rfl
  | some system => exact lookup_btreeInsert_ne h _ _

theorem keeps_addDeclarations {key : String} (h : key ≠ "tools") (req : ModelRequest) :
    Keeps key (addDeclarations req) := by
  rintro body
  rw [addDeclarations]
  split
  · exact lookup_btreeInsert_ne h _ _
  · rfl

theorem keeps_addThinking {key : String} (h : key ≠ "generationConfig") (req : ModelRequest) :
    Keeps key (addThinking req) := by
  rintro body
  rw [addThinking]
  cases effortOf req.raw with
  | none => rfl
  | some effort => exact lookup_btreeInsert_ne h _ _

theorem contents_geminiRequestBody (req : ModelRequest) :
    elements "contents" (geminiRequestBody fromStr req) =
      (geminiContents fromStr [] [] req.messages).map contentJson := by
  rw [geminiRequestBody]
  refine elements_of_lookup ?_
  rw [keeps_addThinking (by decide), keeps_addDeclarations (by decide),
    keeps_addInstruction (by decide)]
  rfl

theorem gemini_built {req : ModelRequest} (h : ∀ m ∈ req.messages, IsText m.content) :
    readSystem (geminiRequestBody fromStr req) .gemini = req.system.getD "" ∧
      readTurns (geminiRequestBody fromStr req) .gemini = req.messages.flatMap messageSayings := by
  constructor
  · rw [geminiRequestBody, readSystem, Value.get, keeps_addThinking (by decide),
      keeps_addDeclarations (by decide), addInstruction]
    cases req.system with
    | none => rfl
    | some system =>
      rw [lookup_btreeInsert]
      exact join_singleton system
  · rw [readTurns, contents_geminiRequestBody, List.flatMap_map]
    simp only [sayings_contentJson]
    exact geminiContents_text fromStr [] [] h

end gemini

end Firstpass.WireBody
