import Firstpass.Proxy.ChatPieces

/-!
# A Chat Completions request is translated faithfully

`chat_faithful_iff`: the translation of a body that is admitted keeps every text, image, call,
result and function definition, and adds nothing, exactly if the body is `Sound`.
-/

namespace Firstpass.ChatRequest

open Json (Value get_setKey_ne lookup_btreeInsert)
open Responses (strAt typeOf textOf)
open Inbound (Body Headers Telemetry Registry imageUrl isHttp rungsAll enforceCanHandle
  extractOpenaiFeatures)

-- ---------------------------------------------------------------------------
-- Messages
-- ---------------------------------------------------------------------------

section fold

variable (fromStr : FromStr)

/-- The message of the request for a message of the body. -/
def messageOf (msg : Value) : Option ChatMessage :=
  match roleOf msg with
  | "user" => (translateOpenaiUserContent ((msg.get "content").getD .null)).map (⟨"user", ·⟩)
  | "assistant" => some ⟨"assistant", assistantContent fromStr msg⟩
  | "tool" => some ⟨"user", toolResult msg⟩
  | _ => none

variable {fromStr} {msg : Value}

theorem user_iff (hfetch : ∀ parts, msg.get "content" = some (.array parts) →
    ∀ p ∈ parts, NoFetch p) :
    (∃ content, translateOpenaiUserContent ((msg.get "content").getD .null) = some content ∧
        Carried (contentPieces (some content)) (contentPieces (msg.get "content"))) ↔
      ∀ parts, msg.get "content" = some (.array parts) → ∀ p ∈ parts, SoundPart p := by
  cases hcontent : msg.get "content" with
  | none => exact iff_of_true ⟨_, rfl, .refl _⟩ fun parts h => by cases h
  | some content =>
    cases content with
    | array parts =>
      have hparts := parts_iff (hfetch parts hcontent)
      constructor
      · rintro ⟨content, htranslated, hcarried⟩ parts' heq
        cases heq
        obtain ⟨blocks, hblocks, rfl⟩ := Option.map_eq_some_iff.mp htranslated
        exact hparts.mp ⟨blocks, hblocks, hcarried⟩
      · intro hsound
        obtain ⟨blocks, hblocks, hcarried⟩ := hparts.mpr (hsound parts rfl)
        exact ⟨_, Option.map_eq_some_iff.mpr ⟨blocks, hblocks, rfl⟩, hcarried⟩
    | _ => exact iff_of_true ⟨_, rfl, .refl _⟩ fun parts h => by cases h

theorem result_iff (callId : Option String) (content : Value) :
    Carried [.result (some (callId.getD "")) content] [.result callId content] ↔
      callId.isSome := by
  rw [← some_getD_eq_iff]
  constructor
  · rintro ⟨hkept, -⟩
    have hpiece : [Piece.result (some (callId.getD "")) content] = [.result callId content] :=
      hkept
    rw [List.cons.injEq, Piece.result.injEq] at hpiece
    exact hpiece.1.1
  · intro hid
    rw [hid]
    exact .refl _

theorem message_iff (hspoken : isSpoken msg = true)
    (hfetch : ∀ parts, msg.get "content" = some (.array parts) → ∀ p ∈ parts, NoFetch p) :
    (∃ m, messageOf fromStr msg = some m ∧ Says fromStr msg m) ↔ SoundMessage fromStr msg := by
  rw [isSpoken, decide_eq_true_eq] at hspoken
  rcases hspoken with huser | hassistant | htool
  · have hmessage : messageOf fromStr msg = (translateOpenaiUserContent
        ((msg.get "content").getD .null)).map (⟨"user", ·⟩) := by
      rw [messageOf, huser]
      rfl
    have hsound : SoundMessage fromStr msg ↔ ∀ parts, msg.get "content" = some (.array parts) →
        ∀ p ∈ parts, SoundPart p := by
      rw [SoundMessage, huser]
      exact Iff.rfl
    have hsaid : messagePieces fromStr msg = contentPieces (msg.get "content") := by
      rw [messagePieces, huser]
      rfl
    rw [hsound, ← user_iff hfetch, hmessage, ← hsaid]
    constructor
    · rintro ⟨m, hm, -, hcarried⟩
      obtain ⟨content, hcontent, rfl⟩ := Option.map_eq_some_iff.mp hm
      exact ⟨content, hcontent, hcarried⟩
    · rintro ⟨content, hcontent, hcarried⟩
      exact ⟨_, Option.map_eq_some_iff.mpr ⟨content, hcontent, rfl⟩, by simp [huser], hcarried⟩
  · have hmessage : messageOf fromStr msg = some ⟨"assistant", assistantContent fromStr msg⟩ := by
      rw [messageOf, hassistant]
      rfl
    have hsound : SoundMessage fromStr msg ↔ SoundAssistant fromStr msg := by
      rw [SoundMessage, hassistant]
      exact Iff.rfl
    have hsaid : messagePieces fromStr msg =
        contentPieces (msg.get "content") ++ (toolCalls msg).map (callPiece fromStr) := by
      rw [messagePieces, hassistant]
      rfl
    rw [hsound, ← assistant_iff, ← hsaid, hmessage]
    constructor
    · rintro ⟨m, hm, -, hcarried⟩
      cases hm
      exact hcarried
    · exact fun hcarried => ⟨_, rfl, by simp [hassistant], hcarried⟩
  · have hmessage : messageOf fromStr msg = some ⟨"user", toolResult msg⟩ := by
      rw [messageOf, htool]
      rfl
    have hsound : SoundMessage fromStr msg ↔ (strAt "tool_call_id" msg).isSome := by
      rw [SoundMessage, htool]
      exact Iff.rfl
    have hsaid : messagePieces fromStr msg =
        [.result (strAt "tool_call_id" msg) ((msg.get "content").getD (.string ""))] := by
      rw [messagePieces, htool]
      rfl
    rw [hsound, ← result_iff _ ((msg.get "content").getD (.string "")), ← hsaid, hmessage]
    constructor
    · rintro ⟨m, hm, -, hcarried⟩
      cases hm
      exact hcarried
    · exact fun hcarried => ⟨_, rfl, by simp [htool], hcarried⟩

theorem soundMessage_of_unspoken (h : isSpoken msg = false) : SoundMessage fromStr msg := by
  simp only [isSpoken, decide_eq_false_iff_not, not_or] at h
  obtain ⟨huser, hassistant, htool⟩ := h
  rw [SoundMessage]
  split
  · exact absurd ‹_› huser
  · exact absurd ‹_› hassistant
  · exact absurd ‹_› htool
  · trivial

/-- What a message of the body does to what is translated so far. -/
inductive Adds (fromStr : FromStr) (t : Translated) (msg : Value) : Option Translated → Prop
  | system : isSystem msg = true → isSpoken msg = false →
      Adds fromStr t msg (some ⟨addText t.system (systemText msg), t.messages⟩)
  | said : isSystem msg = false → isSpoken msg = true → messageOf fromStr msg = some m →
      Adds fromStr t msg (some ⟨t.system, t.messages ++ [m]⟩)
  | skipped : isSystem msg = false → isSpoken msg = false → Adds fromStr t msg (some t)
  | failed : isSpoken msg = true → messageOf fromStr msg = none → Adds fromStr t msg none

theorem translateMessage_adds (t : Translated) (msg : Value) :
    Adds fromStr t msg (translateMessage fromStr t msg) := by
  rw [translateMessage]
  split
  next h => exact .system (by simp [isSystem, h]) (by simp [isSpoken, h])
  next h => exact .system (by simp [isSystem, h]) (by simp [isSpoken, h])
  next h =>
    have hmessage : messageOf fromStr msg = (translateOpenaiUserContent
        ((msg.get "content").getD .null)).map (⟨"user", ·⟩) := by
      rw [messageOf, h]
      rfl
    cases hcontent : translateOpenaiUserContent ((msg.get "content").getD .null) with
    | none =>
      rw [hcontent] at hmessage
      exact .failed (by simp [isSpoken, h]) hmessage
    | some content =>
      rw [hcontent] at hmessage
      exact .said (by simp [isSystem, h]) (by simp [isSpoken, h]) hmessage
  next h =>
    refine .said (by simp [isSystem, h]) (by simp [isSpoken, h]) ?_
    rw [messageOf, h]
    rfl
  next h =>
    refine .said (by simp [isSystem, h]) (by simp [isSpoken, h]) ?_
    rw [messageOf, h]
    rfl
  next hs hd hu ha ht =>
    exact .skipped (decide_eq_false (not_or.mpr ⟨hs, hd⟩))
      (decide_eq_false (not_or.mpr ⟨hu, not_or.mpr ⟨ha, ht⟩⟩))

def systemOf (msgs : List Value) (system : Option String) : Option String :=
  ((msgs.filter isSystem).map systemText).foldl addText system

def messagesOf (fromStr : FromStr) (msgs : List Value) : List ChatMessage :=
  (msgs.filter isSpoken).filterMap (messageOf fromStr)

theorem foldlM_eq {msgs : List Value} {t t' : Translated}
    (h : msgs.foldlM (translateMessage fromStr) t = some t') :
    t' = ⟨systemOf msgs t.system, t.messages ++ messagesOf fromStr msgs⟩ := by
  induction msgs generalizing t with
  | nil =>
    cases h
    simp [systemOf, messagesOf]
  | cons msg msgs ih =>
    rw [List.foldlM_cons] at h
    obtain ⟨t₁, hstep, hrest⟩ := Option.bind_eq_some_iff.mp h
    rw [ih hrest]
    have hadds := @translateMessage_adds fromStr t msg
    rw [hstep] at hadds
    cases hadds with
    | system hsystem hspoken => simp [systemOf, messagesOf, hsystem, hspoken]
    | said hsystem hspoken hm => simp [systemOf, messagesOf, hsystem, hspoken, hm]
    | skipped hsystem hspoken => simp [systemOf, messagesOf, hsystem, hspoken]

theorem isSome_foldlM {msgs : List Value}
    (h : ∀ msg ∈ msgs, isSpoken msg = true → (messageOf fromStr msg).isSome) (t : Translated) :
    (msgs.foldlM (translateMessage fromStr) t).isSome := by
  induction msgs generalizing t with
  | nil => rfl
  | cons msg msgs ih =>
    obtain ⟨hmsg, hmsgs⟩ := List.forall_mem_cons.mp h
    rw [List.foldlM_cons]
    have hadds := @translateMessage_adds fromStr t msg
    cases hstep : translateMessage fromStr t msg with
    | some t₁ => exact ih hmsgs t₁
    | none =>
      rw [hstep] at hadds
      cases hadds with
      | failed hspoken hnone => exact absurd (hmsg hspoken) (by simp [hnone])

theorem foldl_addText (texts : List String) (prev : String) :
    texts.foldl addText (some prev) =
      some ("\n\n".intercalate (prev :: texts.filter (· ≠ ""))) := by
  induction texts generalizing prev with
  | nil => simp
  | cons text texts ih =>
    rw [List.foldl_cons, addText]
    split_ifs with hempty
    · rw [ih, List.filter_cons_of_neg (by simpa using hempty)]
    · rw [ih, List.filter_cons_of_pos (by simpa using hempty)]
      simp [String.append_assoc]

theorem systemOf_none (msgs : List Value) : systemOf msgs none =
    joinSystem ((msgs.filter isSystem).map fun msg => String.join (systemTexts msg)) := by
  have htext : ∀ msg, systemText msg = String.join (systemTexts msg) := by
    intro msg
    rw [systemText, systemTexts]
    cases msg.get "content" with
    | none => rfl
    | some content => cases content <;> simp
  rw [systemOf, funext htext]
  generalize (msgs.filter isSystem).map (fun msg => String.join (systemTexts msg)) = texts
  induction texts with
  | nil => rfl
  | cons text texts ih =>
    rw [List.foldl_cons, addText, joinSystem]
    split_ifs with hempty
    · rw [List.filter_cons_of_neg (by simpa using hempty)]
      exact ih
    · rw [foldl_addText, List.filter_cons_of_pos (by simpa using hempty)]

end fold

-- ---------------------------------------------------------------------------
-- Tools
-- ---------------------------------------------------------------------------

theorem requestDef_tool (tool : Value) : requestDef (toolToAnthropic tool) =
    some { name := ((function tool).get "name").getD (.string "")
           description := (function tool).get "description"
           parameters := ((function tool).get "parameters").getD
             (.object [("type", .string "object")])
           strict := false } := by
  rw [toolToAnthropic, ← function]
  cases hdescription : (function tool).get "description" with
  | none => rfl
  | some desc =>
    have hkeep : ∀ key, key ≠ "description" → ∀ block : Value,
        (block.setKey "description" desc).get key = block.get key :=
      fun key hkey block => get_setKey_ne hkey block desc
    have hset : ∀ fields, ((Value.object fields).setKey "description" desc).get "description" =
        some desc := lookup_btreeInsert _ _
    simp only [requestDef, hkeep "name" (by decide), hkeep "input_schema" (by decide), hset]
    rfl

theorem tool_iff (tool : Value) :
    (∃ d, (functionDef tool).map some = some d ∧ requestDef (toolToAnthropic tool) = d) ↔
      SoundTool tool := by
  rw [requestDef_tool, SoundTool, functionDef, function]
  cases hfunc : tool.get "function" with
  | none => simp
  | some func =>
    cases hname : func.get "name" with
    | none => simp [hname]
    | some name =>
      simp only [Option.getD_some, Option.bind_some, hname, Option.map_some]
      constructor
      · rintro ⟨d, hd, heq⟩
        rw [← Option.some.inj hd, Option.some.injEq, Definition.mk.injEq] at heq
        exact ⟨_, rfl, heq.2.2.2.symm⟩
      · rintro ⟨d, hd, hstrict⟩
        cases hd
        refine ⟨_, rfl, ?_⟩
        rw [Option.some.injEq, Definition.mk.injEq]
        exact ⟨rfl, rfl, rfl, hstrict.symm⟩

theorem tools_iff (ts : List Value) :
    (ts.map toolToAnthropic).map requestDef = (ts.filterMap functionDef).map some ↔
      ∀ tool ∈ ts, SoundTool tool := by
  rw [List.map_map, List.map_filterMap, ← List.forall₂_eq_eq_eq, List.forall₂_map_left_iff,
    Carry.forall₂_filterMap_iff]
  exact forall₂_congr fun tool _ => tool_iff tool

theorem elems_tools (tools : Option Value) :
    elems (some ((tools.map translateOpenaiTools).getD .null)) =
      (elems tools).map toolToAnthropic := by
  cases tools with
  | none => rfl
  | some tools => cases tools <;> rfl

-- ---------------------------------------------------------------------------
-- Admitted bodies
-- ---------------------------------------------------------------------------

theorem not_verbatim {providers : Registry} {ladder : List String}
    (h : Translating providers ladder) :
    rungsAll providers (·.carriesStructuredVerbatim .openai) ladder = false := by
  obtain ⟨hne, hall⟩ := h
  obtain ⟨rung, rest, rfl⟩ := List.exists_cons_of_ne_nil hne
  obtain ⟨hrung, -⟩ := Bool.and_eq_true_iff.mp hall
  rw [rungsAll, List.all_cons, Bool.and_eq_false_iff]
  refine .inl ?_
  cases hprovider : providers (Inbound.providerId rung) with
  | none => rfl
  | some kind =>
    dsimp only at hrung
    rw [hprovider] at hrung
    cases kind with
    | openai => cases hrung
    | _ => rfl

/-- An admitted body with images has none that would have to be fetched. -/
theorem noFetch_of_admitted {body : Body} {json : Value} {msgs : List Value} {headers : Headers}
    {telemetry : Telemetry} {enforceStructured : Bool} {providers : Registry}
    {ladder : List String} (hjson : body.json = some json)
    (hmsgs : json.get "messages" = some (.array msgs)) (hladder : Translating providers ladder)
    (hadmitted : enforceCanHandle (extractOpenaiFeatures headers body telemetry) body
      enforceStructured ladder providers .openai = true) :
    ∀ msg ∈ msgs, ∀ parts, msg.get "content" = some (.array parts) → ∀ p ∈ parts, NoFetch p := by
  rintro msg hmsg parts hparts p hp url htype hurl
  by_contra hhttp
  rw [Bool.not_eq_false] at hhttp
  have hmessages : Inbound.elemsAt "messages" json = msgs := by
    rw [Inbound.elemsAt, hmsgs]
    rfl
  have hcontent : Inbound.elemsAt "content" msg = parts := by
    rw [Inbound.elemsAt, hparts]
    rfl
  have hfetched : body.json.any Inbound.openaiHasHttpImages = true := by
    rw [hjson, Option.any_some, Inbound.openaiHasHttpImages, hmessages, List.any_eq_true]
    refine ⟨msg, hmsg, ?_⟩
    rw [hcontent, List.any_eq_true]
    exact ⟨p, hp, by simp [htype, hurl, hhttp]⟩
  have himages : (extractOpenaiFeatures headers body telemetry).hasImages = true := by
    rw [extractOpenaiFeatures, hjson]
    change Inbound.openaiMessagesHaveImages json = true
    rw [Inbound.openaiMessagesHaveImages, hmessages, List.any_eq_true]
    refine ⟨msg, hmsg, ?_⟩
    rw [Inbound.hasPart, hcontent, List.any_eq_true]
    exact ⟨p, hp, by simp [htype]⟩
  have hstructured : Inbound.isStructured (extractOpenaiFeatures headers body telemetry) body
      .openai = true := by
    simp [Inbound.isStructured, himages]
  simp [enforceCanHandle, hstructured, not_verbatim hladder, hfetched] at hadmitted

-- ---------------------------------------------------------------------------
-- What is kept
-- ---------------------------------------------------------------------------

theorem messages_iff (fromStr : FromStr) {msgs : List Value}
    (hfetch : ∀ msg ∈ msgs, ∀ parts, msg.get "content" = some (.array parts) →
      ∀ p ∈ parts, NoFetch p) :
    List.Forall₂ (Says fromStr) (msgs.filter isSpoken) (messagesOf fromStr msgs) ↔
      ∀ msg ∈ msgs, SoundMessage fromStr msg := by
  rw [messagesOf, Carry.forall₂_filterMap_iff]
  constructor
  · rintro h msg hmsg
    cases hspoken : isSpoken msg with
    | true =>
      exact (message_iff hspoken (hfetch msg hmsg)).mp (h msg (List.mem_filter.mpr ⟨hmsg, hspoken⟩))
    | false => exact soundMessage_of_unspoken hspoken
  · rintro h msg hmsg
    obtain ⟨hmem, hspoken⟩ := List.mem_filter.mp hmsg
    exact (message_iff hspoken (hfetch msg hmem)).mpr (h msg hmem)

/-- Where no image has to be fetched, all is kept exactly if the body is sound. -/
theorem chat_faithful_iff_of_noFetch (fromStr : FromStr) {body : Body} {json : Value}
    {msgs : List Value} (hjson : body.json = some json)
    (hmsgs : json.get "messages" = some (.array msgs))
    (hfetch : ∀ msg ∈ msgs, ∀ parts, msg.get "content" = some (.array parts) →
      ∀ p ∈ parts, NoFetch p) :
    Faithful fromStr body json msgs ↔ Sound fromStr json msgs := by
  have hmessages := messages_iff fromStr hfetch
  have htools := tools_iff (elems (json.get "tools"))
  have harray : (json.get "messages").bind Value.asArray = some msgs := by
    rw [hmsgs]
    rfl
  rw [Faithful, parseOpenaiRequest, hjson, Option.bind_some, harray, Option.bind_some]
  constructor
  · rintro ⟨req, hparse, hkeeps⟩
    obtain ⟨t, hfold, rfl⟩ := Option.map_eq_some_iff.mp hparse
    obtain rfl := foldlM_eq hfold
    refine ⟨hmessages.mp hkeeps.messages, htools.mp ?_⟩
    rw [← elems_tools]
    exact hkeeps.tools
  · rintro ⟨hsaid, hdefined⟩
    have hspoken := hmessages.mpr hsaid
    have hsome : ∀ msg ∈ msgs, isSpoken msg = true → (messageOf fromStr msg).isSome := by
      rintro msg hmsg hspeaks
      rw [messagesOf, Carry.forall₂_filterMap_iff] at hspoken
      obtain ⟨m, hm, -⟩ := hspoken msg (List.mem_filter.mpr ⟨hmsg, hspeaks⟩)
      rw [hm]
      rfl
    obtain ⟨t, hfold⟩ := Option.isSome_iff_exists.mp (isSome_foldlM hsome ⟨none, []⟩)
    refine ⟨_, by rw [hfold]; rfl, ?_, ?_, ?_⟩
    · rw [foldlM_eq hfold]
      exact systemOf_none msgs
    · rw [foldlM_eq hfold]
      exact hspoken
    · rw [← htools.mpr hdefined, ← elems_tools]
      rfl

/-- The translation of an admitted body keeps all of its content, and adds none, exactly if the
body is sound. -/
theorem chat_faithful_iff (fromStr : FromStr) (body : Body) (json : Value) (msgs : List Value)
    (headers : Headers) (telemetry : Telemetry) (enforceStructured : Bool)
    (providers : Registry) (ladder : List String) (hjson : body.json = some json)
    (hmsgs : json.get "messages" = some (.array msgs)) (hladder : Translating providers ladder)
    (hadmitted : enforceCanHandle (extractOpenaiFeatures headers body telemetry) body
      enforceStructured ladder providers .openai = true) :
    Faithful fromStr body json msgs ↔ Sound fromStr json msgs :=
  chat_faithful_iff_of_noFetch fromStr hjson hmsgs (noFetch_of_admitted hjson hmsgs hladder hadmitted)

-- ---------------------------------------------------------------------------
-- Text in parts beside a call
-- ---------------------------------------------------------------------------

def sampleCall : Value :=
  .object
    [("function", .object [("arguments", .string "\x7b\x7d"), ("name", .string "ls")]),
      ("id", .string "call-1"), ("type", .string "function")]

/-- An agent's turn: what it says beside its call is in parts, or a string. -/
def sampleTurn (content : Value) : List Value :=
  [.object [("content", .string "List the files."), ("role", .string "user")],
    .object [("content", content), ("role", .string "assistant"),
      ("tool_calls", .array [sampleCall])],
    .object [("content", .string "a.txt"), ("role", .string "tool"),
      ("tool_call_id", .string "call-1")]]

def sampleJson (content : Value) : Value := .object [("messages", .array (sampleTurn content))]

def sampleFromStr (s : String) : Option Value := if s = "\x7b\x7d" then some emptyObject else none

def sampleProviders (id : String) : Option Inbound.ProviderKind :=
  if id = "anthropic" then some .anthropic else none

def spokenInParts : Value :=
  .array [.object [("text", .string "I will look."), ("type", .string "text")]]

theorem chat_faithful_iff_sample :
    Faithful sampleFromStr (.ofValue (sampleJson (.string "I will look.")))
      (sampleJson (.string "I will look.")) (sampleTurn (.string "I will look.")) := by
  have hsound : Sound sampleFromStr (sampleJson (.string "I will look."))
      (sampleTurn (.string "I will look.")) := by
    refine ⟨fun msg hmsg => ?_, fun tool h => absurd h List.not_mem_nil⟩
    simp only [sampleTurn, List.mem_cons, List.not_mem_nil, or_false] at hmsg
    rcases hmsg with rfl | rfl | rfl
    · exact fun parts h => by cases h
    · refine ⟨fun _ _ parts h => (by cases h), fun call hcall => ?_⟩
      obtain rfl := List.mem_singleton.mp hcall
      exact ⟨rfl, rfl, rfl⟩
    · exact rfl
  exact (chat_faithful_iff sampleFromStr _ _ _ (fun _ => none) ⟨0, 0⟩ true sampleProviders
    ["anthropic/claude"] rfl rfl ⟨List.cons_ne_nil _ _, by decide +kernel⟩
    (by decide +kernel)).mpr hsound

/-- Text in parts beside a call is lost. -/
theorem said_parts_lost :
    ¬ ∀ (fromStr : FromStr) (body : Body) (json : Value) (msgs : List Value) (headers : Headers)
      (telemetry : Telemetry) (enforceStructured : Bool) (providers : Registry)
      (ladder : List String), body.json = some json →
      json.get "messages" = some (.array msgs) → Translating providers ladder →
      enforceCanHandle (extractOpenaiFeatures headers body telemetry) body enforceStructured
        ladder providers .openai = true → Faithful fromStr body json msgs := by
  intro h
  have hladder : Translating sampleProviders ["anthropic/claude"] :=
    ⟨List.cons_ne_nil _ _, by decide +kernel⟩
  have hadmitted : enforceCanHandle (extractOpenaiFeatures (fun _ => none)
      (.ofValue (sampleJson spokenInParts)) ⟨0, 0⟩) (.ofValue (sampleJson spokenInParts)) true
      ["anthropic/claude"] sampleProviders .openai = true := by decide +kernel
  have hfetch := noFetch_of_admitted rfl rfl hladder hadmitted
  have hsound := (chat_faithful_iff_of_noFetch sampleFromStr rfl rfl hfetch).mp
    (h _ _ _ _ _ _ _ _ _ rfl rfl hladder hadmitted)
  have hassistant : SoundAssistant sampleFromStr _ :=
    hsound.messages _ (List.mem_cons_of_mem _ List.mem_cons_self)
  cases hassistant.content [sampleCall] rfl _ rfl

end Firstpass.ChatRequest
