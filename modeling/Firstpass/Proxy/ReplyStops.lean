import Firstpass.Proxy.ReplyFaithful

/-!
# A rendered reply stops for its calls

`rendered_iff`: both renderings of a served reply carry what it says, and say that they stop for
a call exactly if the reply itself does so.
-/

namespace Firstpass.ReplyRender

open Json (Value Document readText FloatText FloatsReadBack maxDepth)
open ChatRequest (FromStr emptyObject textBlock)
open Responses (strAt typeOf textOf member message)

-- ---------------------------------------------------------------------------
-- The calls of a Gemini reply
-- ---------------------------------------------------------------------------

section
variable {fromStr : FromStr} {fresh : Nat → String}

theorem get_geminiCall {key : String} (hkey : key ≠ "extra_content") (id : String)
    (fc part : Value) : (geminiCall id fc part).get key = (Value.object
      [("function", .object
          [("arguments", .string ((fc.get "args").getD emptyObject).toText),
            ("name", (fc.get "name").getD .null)]),
        ("id", .string ((strAt "id" fc).getD ("call_" ++ id))),
        ("type", .string "function")]).get key := by
  rw [geminiCall]
  cases strAt "thoughtSignature" part with
  | none => rfl
  | some sig => exact Json.get_setKey_ne hkey _ _

theorem geminiCall_said {id : String} {fc part : Value} (hpart : WellFormedPart part)
    (hfc : part.get "functionCall" = some fc)
    (hread : fromStr ((fc.get "args").getD emptyObject).toText =
      some ((fc.get "args").getD emptyObject)) :
    WellFormedCall fromStr (geminiCall id fc part) ∧
      (partCall fc).Same (chatCallSaid fromStr (geminiCall id fc part)) := by
  obtain ⟨name, hname, hne⟩ := hpart.name fc hfc
  have hid : strAt "id" (geminiCall id fc part) = some ((strAt "id" fc).getD ("call_" ++ id)) := by
    rw [strAt, get_geminiCall (by decide)]
    rfl
  have hfunction (key : String) (hkey : Json.parseIndex key = none) :
      (geminiCall id fc part).pointer ["function", key] = (Value.object
        [("arguments", .string ((fc.get "args").getD emptyObject).toText),
          ("name", (fc.get "name").getD .null)]).get key := by
    rw [Json.pointer_cons (by decide), get_geminiCall (by decide)]
    show Value.pointer (.object [_, _]) [key] = _
    exact Json.pointer_key hkey _
  have hnameAt : (geminiCall id fc part).pointer ["function", "name"] = some (.string name) := by
    obtain ⟨v, hv, hstr⟩ := Option.bind_eq_some_iff.mp hname
    rw [hfunction "name" (by decide), hv]
    cases v with
    | string s => exact congrArg (fun s => some (Value.string s)) (Option.some.inj hstr)
    | _ => cases hstr
  have hargs : (geminiCall id fc part).pointer ["function", "arguments"] =
      some (.string ((fc.get "args").getD emptyObject).toText) := hfunction "arguments" (by decide)
  have hobject : IsObject ((fc.get "args").getD emptyObject) := by
    cases hget : fc.get "args" with
    | none => exact rfl
    | some args => exact hpart.args fc hfc args hget
  constructor
  · refine ⟨_, name, _, _, hid, ?_, hnameAt, hne, hargs, hread, hobject⟩
    cases hget : fc.get "id" with
    | none => simp [strAt, hget]
    | some v =>
      obtain ⟨s, rfl, hs⟩ := hpart.id fc hfc v hget
      simpa [strAt, hget, Value.asStr] using hs
  · constructor
    · intro s hs
      have hs' : strAt "id" fc = some s := hs
      rw [chatCallSaid, hid, hs']
      rfl
    · rw [chatCallSaid, hnameAt, partCall, hname]
      rfl
    · rw [chatCallSaid, hargs, partCall]
      simp [Value.asStr, hread]

/-- The Chat calls of the parts, from the `k`th on. -/
def geminiCalls (fresh : Nat → String) (k : Nat) (parts : List Value) : List Value :=
  ((parts.filterMap fun p => (p.get "functionCall").map (·, p)).zipIdx k).map
    fun ((fc, p), i) => geminiCall (fresh i) fc p

theorem geminiCalls_said (fresh : Nat → String) {parts : List Value}
    (hparts : ∀ part ∈ parts, WellFormedPart part)
    (hread : ∀ part ∈ parts, ∀ fc ∈ part.get "functionCall",
      fromStr ((fc.get "args").getD emptyObject).toText =
        some ((fc.get "args").getD emptyObject)) (k : Nat) :
    (∀ tc ∈ geminiCalls fresh k parts, WellFormedCall fromStr tc) ∧
      List.Forall₂ Call.Same ((parts.filterMap fun p => p.get "functionCall").map partCall)
        ((geminiCalls fresh k parts).map (chatCallSaid fromStr)) := by
  induction parts generalizing k with
  | nil => exact ⟨by simp [geminiCalls], .nil⟩
  | cons part parts ih =>
    have ih' := fun k => ih (fun p hp => hparts p (List.mem_cons_of_mem part hp))
      (fun p hp => hread p (List.mem_cons_of_mem part hp)) k
    cases hfc : part.get "functionCall" with
    | none =>
      have hcalls : geminiCalls fresh k (part :: parts) = geminiCalls fresh k parts := by
        simp [geminiCalls, hfc]
      simp only [hcalls, List.filterMap_cons, hfc]
      exact ih' k
    | some fc =>
      have hcalls : geminiCalls fresh k (part :: parts) =
          geminiCall (fresh k) fc part :: geminiCalls fresh (k + 1) parts := by
        simp [geminiCalls, hfc, List.zipIdx_cons]
      obtain ⟨hformed, hsame⟩ := geminiCall_said (hparts part List.mem_cons_self) hfc
        (hread part List.mem_cons_self fc hfc)
      obtain ⟨hrest, hsames⟩ := ih' (k + 1)
      simp only [hcalls, List.filterMap_cons, hfc]
      exact ⟨List.forall_mem_cons.mpr ⟨hformed, hrest⟩, .cons hsame hsames⟩

theorem parse_eq_some {body : Value} {parsed : GeminiParsed}
    (h : geminiParseResponse fresh body = some parsed) : ∃ parts, partsOf body = some parts ∧
      parsed = ⟨String.join (parts.filterMap textOf), geminiCalls fresh 0 parts⟩ := by
  obtain ⟨parts, hparts, rfl⟩ := Option.map_eq_some_iff.mp h
  exact ⟨parts, hparts, rfl⟩

end

-- ---------------------------------------------------------------------------
-- The view of a Chat completion
-- ---------------------------------------------------------------------------

section
variable {fromStr : FromStr} {body : Value} {parsed : GeminiParsed}

def viewMessage (parsed : GeminiParsed) : Value :=
  .object
    [("content", if parsed.text = "" then .null else .string parsed.text),
      ("role", .string "assistant"), ("tool_calls", .array parsed.toolCalls)]

def viewFinishReason (body : Value) : String :=
  if (body.pointer ["candidates", "0", "finishReason"]).bind Value.asStr = some "MAX_TOKENS" then
    "length" else "tool_calls"

theorem isObject_of_parts {parts : List Value} (h : partsOf body = some parts) :
    ∃ fields, body = .object fields := by
  rw [partsOf, Json.pointer_cons (by decide)] at h
  cases body with
  | object fields => exact ⟨fields, rfl⟩
  | _ => cases h

theorem view_of_calls (h : parsed.toolCalls ≠ []) :
    geminiRawWithChoices body parsed = body.setKey "choices" (.array [.object
      [("finish_reason", .string (viewFinishReason body)), ("index", tokens 0),
        ("message", viewMessage parsed)]]) := by
  rw [geminiRawWithChoices, if_neg (by simpa using h)]
  rfl

theorem view_without_calls (h : parsed.toolCalls = []) :
    geminiRawWithChoices body parsed = body := by
  rw [geminiRawWithChoices, if_pos (by simp [h])]

theorem pointer_view {parts : List Value} (hparts : partsOf body = some parts)
    (h : parsed.toolCalls ≠ []) (rest : List String) :
    (geminiRawWithChoices body parsed).pointer ("choices" :: "0" :: rest) = (Value.object
      [("finish_reason", .string (viewFinishReason body)), ("index", tokens 0),
        ("message", viewMessage parsed)]).pointer rest := by
  obtain ⟨fields, rfl⟩ := isObject_of_parts hparts
  rw [view_of_calls h, Json.pointer_cons (by decide)]
  simp only [Value.setKey, Value.get, Json.lookup_btreeInsert, Option.bind_some]
  rfl

theorem chatMessageOf_view (hbody : GeminiReply body) (h : parsed.toolCalls ≠ [])
    (hcalls : ∀ tc ∈ parsed.toolCalls, WellFormedCall fromStr tc) :
    ChatMessageOf fromStr (geminiRawWithChoices body parsed) (viewMessage parsed) := by
  obtain ⟨parts, hparts, _⟩ := hbody.parts
  constructor
  · rw [view_of_calls h, Json.get_setKey_ne (by decide), hbody.content]
  · rw [pointer_view hparts h]
    rfl
  · rintro _ ⟨⟩
    split
    · exact Or.inl rfl
    · exact Or.inr ⟨_, rfl⟩
  · rintro _ ⟨⟩
    exact Or.inr ⟨_, rfl, hcalls⟩
  · rw [view_of_calls h, Json.get_setKey_ne (by decide), hbody.stopReason]

/-- The view says what the reply says. -/
theorem carries_view {fresh : Nat → String} (hbody : GeminiReply body)
    (hparsed : geminiParseResponse fresh body = some parsed)
    (hread : ∀ parts ∈ partsOf body, ∀ part ∈ parts, ∀ fc ∈ part.get "functionCall",
      fromStr ((fc.get "args").getD emptyObject).toText =
        some ((fc.get "args").getD emptyObject)) (h : parsed.toolCalls ≠ []) :
    ChatMessageOf fromStr (geminiRawWithChoices body parsed) (viewMessage parsed) ∧
      Carries (geminiSaid body) (openaiSaid fromStr (geminiRawWithChoices body parsed)) := by
  obtain ⟨parts, hparts, hformed⟩ := hbody.parts
  obtain ⟨parts', hparts', rfl⟩ := parse_eq_some hparsed
  obtain rfl : parts' = parts := Option.some.inj (hparts'.symm.trans hparts)
  obtain ⟨hcalls, hsame⟩ := geminiCalls_said fresh hformed (hread parts' hparts) 0
  have hview := chatMessageOf_view hbody h hcalls
  refine ⟨hview, ?_⟩
  rw [hview.openaiSaid, geminiSaid, hparts]
  constructor
  · show ((Value.asStr (if String.join (parts'.filterMap textOf) = "" then .null
      else .string (String.join (parts'.filterMap textOf)))).getD "") = _
    split
    · next hempty => exact hempty.symm
    · rfl
  · exact hsame

end

-- ---------------------------------------------------------------------------
-- The stop reason of a reply that was not cut off
-- ---------------------------------------------------------------------------

theorem finish_reason_ne_length {resp : ModelResponse} (h : resp.truncated = false) :
    (resp.raw.pointer ["choices", "0", "finish_reason"]).bind Value.asStr ≠ some "length" := by
  simp only [ModelResponse.truncated, hitOutputLimit, Bool.or_eq_false_iff, beq_eq_false_iff_ne]
    at h
  exact h.1.1.2

theorem upstreamStopReason_anthropic {raw : Value} (hchoices : raw.get "choices" = none)
    (hcandidates : raw.get "candidates" = none) :
    upstreamStopReason raw = "tool_use" ↔ strAt "stop_reason" raw = some "tool_use" := by
  have hpath (key : String) (hkey : Json.parseIndex key = none) (rest : List String)
      (hnone : raw.get key = none) : raw.pointer (key :: rest) = none := by
    rw [Json.pointer_cons hkey, hnone]
    rfl
  rw [upstreamStopReason, hpath _ (by decide) _ hchoices, hpath _ (by decide) _ hcandidates]
  cases strAt "stop_reason" raw <;> simp

theorem upstreamStopReason_chat {raw : Value} (hstop : raw.get "stop_reason" = none)
    (hcandidates : raw.get "candidates" = none) :
    upstreamStopReason raw = "tool_use" ↔
      ∃ reason ∈ (raw.pointer ["choices", "0", "finish_reason"]).bind Value.asStr,
        reason = "tool_calls" ∨ reason = "tool_use" := by
  have hnone : raw.pointer ["candidates", "0", "finishReason"] = none := by
    rw [Json.pointer_cons (by decide), hcandidates]
    rfl
  rw [upstreamStopReason, strAt, hstop, hnone]
  cases (raw.pointer ["choices", "0", "finish_reason"]).bind Value.asStr with
  | none => simp
  | some reason =>
    simp only [Option.bind_none, Option.map_some, Option.orElse_some, Option.orElse_none,
      Option.getD_some, Option.mem_def, Option.some.injEq, exists_eq_left']
    unfold openaiFinishReasonToAnthropic
    split <;> simp_all

-- ---------------------------------------------------------------------------
-- The renderings
-- ---------------------------------------------------------------------------

theorem exists_toolUse_iff {blocks : List Value} {reply : Said} (h : blocksSaid blocks = reply) :
    (∃ block ∈ blocks, isToolUse block = true) ↔ reply.calls ≠ [] := by
  rw [← h, blocksSaid, ne_eq, List.map_eq_nil_iff, List.filter_eq_nil_iff]
  simp

section
variable {float : List Char → Option FloatText} {body : Value}

/-- The arguments of a block are a part of the body, so their text is read as them. -/
theorem readText_input (hdoc : Document float maxDepth body) {blocks : List Value}
    (hcontent : body.get "content" = some (.array blocks)) {block : Value}
    (hblock : block ∈ blocks) {input : Value} (hinput : block.get "input" = some input) :
    readText float input.toText = some input := by
  have hbody : Document float (124 + 3) body := hdoc
  have hpart : Document float 124 input := (((hbody.get hcontent).elem hblock).get hinput)
  exact Json.readText_toText (hpart.mono (by decide))

theorem readText_args (hdoc : Document float maxDepth body) {parts : List Value}
    (hparts : partsOf body = some parts) {part fc : Value} (hpart : part ∈ parts)
    (hfc : part.get "functionCall" = some fc) :
    readText float ((fc.get "args").getD emptyObject).toText =
      some ((fc.get "args").getD emptyObject) := by
  obtain ⟨v, hv, harray⟩ := Option.bind_eq_some_iff.mp hparts
  cases v with
  | array elems =>
    obtain rfl : elems = parts := Option.some.inj harray
    have hbody : Document float (123 + 4) body := hdoc
    have helems : Document float (120 + 3) (.array elems) := hbody.pointer hv
    refine Json.readText_toText ?_
    cases hargs : fc.get "args" with
    | none => exact Document.object .nil (by simp)
    | some args =>
      have hdocument : Document float 120 args := ((helems.elem hpart).get hfc).get hargs
      exact hdocument.mono (by decide)
  | _ => cases harray

end

section
variable {fromStr : FromStr} {fresh : Nat → String} {resp : ModelResponse}

theorem openaiConsistent_of_blocks {blocks : List Value}
    (h : resp.raw.get "content" = some (.array blocks)) (htruncated : resp.truncated = false)
    (id : String) (created : Nat) : OpenaiConsistent (openaiResponseJson id created resp) := by
  refine (openaiConsistent_iff id created htruncated).mpr ?_
  have hextract := extractOpenaiContentAndTools.eq_def resp.raw resp.text
  simp only [h, Option.bind_some, Value.asArray] at hextract
  rw [hextract]
  cases (blocks.filter isToolUse).map functionCall with
  | nil => rintro _ ⟨⟩
  | cons call calls =>
    rintro _ ⟨⟩
    exact ⟨call, calls, rfl⟩

/-- A Chat message, of whatever provider. -/
theorem rendered_of_chat {msg : Value} (h : ChatMessageOf fromStr resp.raw msg)
    (htext : msg.get "content" = none → resp.text = "") (fresh : Nat → String)
    (id id' : String) (created : Nat) :
    anthropicSaid (anthropicResponseJson fromStr fresh id resp) = openaiSaid fromStr resp.raw ∧
      openaiSaid fromStr (openaiResponseJson id' created resp) = openaiSaid fromStr resp.raw ∧
      (AnthropicConsistent (anthropicResponseJson fromStr fresh id resp) ↔
        (callsOf resp.raw ≠ [] → upstreamStopReason resp.raw = "tool_use")) ∧
      (resp.truncated = false → (OpenaiConsistent (openaiResponseJson id' created resp) ↔
        ∀ calls ∈ message resp.raw "tool_calls", ∃ tc tcs, calls = .array (tc :: tcs))) := by
  obtain ⟨blocks, hblocks, hsaid⟩ := blocksSaid_openaiMessage h fresh
  have hcontent : anthropicContent fromStr fresh resp = .array blocks :=
    (anthropicContent_of_chat h fresh).trans hblocks
  have hcalls : (∃ block ∈ blocks, isToolUse block = true) ↔ callsOf resp.raw ≠ [] := by
    rw [exists_toolUse_iff hsaid]
    simp [openaiSaid]
  refine ⟨?_, openaiSaid_of_chat h htext id' created, ?_, ?_⟩
  · rw [anthropicSaid_anthropicResponseJson fromStr fresh id resp hcontent, hsaid]
  · rw [anthropicConsistent_iff id hcontent, hcalls]
  · intro htruncated
    rw [openaiConsistent_iff id' created htruncated, extract_of_chat h, h.member (by decide)]

end

theorem rendered_of_carries {fromStr : FromStr} {reply : Said} {truncated : Bool} {m chat : Value}
    (hm : Carries reply (anthropicSaid m)) (hchat : Carries reply (openaiSaid fromStr chat)) :
    Rendered fromStr reply truncated m chat ↔
      (truncated = false → AnthropicConsistent m ∧ OpenaiConsistent chat) :=
  ⟨Rendered.consistent, fun h => ⟨hm, hchat, h⟩⟩

section
variable {float : List Char → Option FloatText} {resp : ModelResponse}

theorem rendered_anthropic (hdoc : Document float maxDepth resp.raw)
    (hreply : AnthropicReply resp.raw) (fresh : Nat → String) (id id' : String) (created : Nat) :
    Rendered (readText float) (anthropicSaid resp.raw) resp.truncated
        (anthropicResponseJson (readText float) fresh id resp)
        (openaiResponseJson id' created resp) ↔
      (resp.truncated = false → CallsAnnounced .anthropic resp.raw) := by
  obtain ⟨blocks, hblocks, hformed⟩ := hreply.content
  have hcontent : anthropicContent (readText float) fresh resp = .array blocks :=
    anthropicContent_of_blocks hblocks fresh
  have hof : blocksOf resp.raw = blocks := by
    rw [blocksOf, hblocks]
    rfl
  have hm := anthropicSaid_anthropicResponseJson (readText float) fresh id resp hcontent
  have hchat := openaiSaid_of_blocks hblocks hformed
    (fun block hblock input hinput => readText_input hdoc hblocks hblock hinput) id' created
  rw [anthropicSaid, hof]
  refine (rendered_of_carries (hm ▸ .refl _) (hchat ▸ .refl _)).trans ?_
  refine forall_congr' fun htruncated => ?_
  have hopenai := openaiConsistent_of_blocks hblocks htruncated id' created
  rw [anthropicConsistent_iff id hcontent,
    upstreamStopReason_anthropic hreply.choices hreply.candidates, CallsAnnounced, hof]
  exact and_iff_left hopenai

theorem rendered_openai (hreply : OpenaiReply (readText float) resp.raw)
    (htext : resp.text = ((message resp.raw "content").bind Value.asStr).getD "")
    (fresh : Nat → String) (id id' : String) (created : Nat) :
    Rendered (readText float) (openaiSaid (readText float) resp.raw) resp.truncated
        (anthropicResponseJson (readText float) fresh id resp)
        (openaiResponseJson id' created resp) ↔
      (resp.truncated = false → CallsAnnounced .openai resp.raw) := by
  obtain ⟨msg, hmsg⟩ := hreply.chat
  have hempty : msg.get "content" = none → resp.text = "" := by
    intro hnone
    rw [htext, hmsg.member (by decide), hnone]
    rfl
  obtain ⟨hm, hchat, hanthropic, hopenai⟩ :=
    rendered_of_chat hmsg hempty fresh id id' created
  refine (rendered_of_carries (hm ▸ .refl _) (hchat ▸ .refl _)).trans ?_
  refine forall_congr' fun htruncated => ?_
  rw [hanthropic, hopenai htruncated, upstreamStopReason_chat hmsg.stopReason hreply.candidates,
    CallsAnnounced]
  exact and_comm

/-- A reply without calls is its text. -/
theorem rendered_text {fromStr : FromStr} (hcontent : resp.raw.get "content" = none)
    (hchoices : resp.raw.get "choices" = none) (fresh : Nat → String) (id id' : String)
    (created : Nat) :
    Rendered fromStr ⟨resp.text, []⟩ resp.truncated (anthropicResponseJson fromStr fresh id resp)
      (openaiResponseJson id' created resp) := by
  have hmessage : resp.raw.pointer ["choices", "0", "message"] = none := by
    rw [Json.pointer_cons (by decide), hchoices]
    rfl
  have hblocks : anthropicContent fromStr fresh resp = .array [textBlock resp.text] := by
    rw [anthropicContent, hcontent, hmessage]
    rfl
  have hextract : extractOpenaiContentAndTools resp.raw resp.text = (.string resp.text, none) := by
    rw [extractOpenaiContentAndTools, hcontent, hmessage]
    rfl
  have hm : anthropicSaid (anthropicResponseJson fromStr fresh id resp) = ⟨resp.text, []⟩ := by
    have hjoin : String.join [resp.text] = resp.text := by simp [String.join]
    rw [anthropicSaid_anthropicResponseJson fromStr fresh id resp hblocks]
    exact congrArg (Said.mk · []) hjoin
  have hchat : openaiSaid fromStr (openaiResponseJson id' created resp) = ⟨resp.text, []⟩ := by
    rw [openaiSaid, callsOf, content_openaiResponseJson, tool_calls_openaiResponseJson, hextract]
    rfl
  refine (rendered_of_carries (hm ▸ .refl _) (hchat ▸ .refl _)).mpr fun htruncated => ⟨?_, ?_⟩
  · refine (anthropicConsistent_iff id hblocks).mpr ?_
    rintro ⟨block, hmem, huse⟩
    obtain rfl := List.mem_singleton.mp hmem
    cases huse
  · refine (openaiConsistent_iff id' created htruncated).mpr ?_
    rw [hextract]
    rintro _ ⟨⟩

/-- A reply of a Gemini rung announces its calls: what the view says is made up from them. -/
theorem rendered_gemini {body : Value} {parsed : GeminiParsed} {fresh' : Nat → String}
    (hdoc : Document float maxDepth body) (hreply : GeminiReply body)
    (hparsed : geminiParseResponse fresh' body = some parsed)
    (hraw : resp.raw = geminiRawWithChoices body parsed) (htext : resp.text = parsed.text)
    (fresh : Nat → String) (id id' : String) (created : Nat) :
    Rendered (readText float) (geminiSaid body) resp.truncated
      (anthropicResponseJson (readText float) fresh id resp)
      (openaiResponseJson id' created resp) := by
  have hread : ∀ parts ∈ partsOf body, ∀ part ∈ parts, ∀ fc ∈ part.get "functionCall",
      readText float ((fc.get "args").getD emptyObject).toText =
        some ((fc.get "args").getD emptyObject) :=
    fun parts hparts part hpart fc hfc => readText_args hdoc hparts hpart hfc
  by_cases hcalls : parsed.toolCalls = []
  · obtain ⟨parts, hparts, hformed⟩ := hreply.parts
    obtain ⟨parts', hparts', rfl⟩ := parse_eq_some hparsed
    obtain rfl : parts' = parts := Option.some.inj (hparts'.symm.trans hparts)
    obtain ⟨_, hsame⟩ := geminiCalls_said fresh' hformed (hread parts' hparts) 0
    have hnil : (parts'.filterMap fun p => p.get "functionCall").map partCall = [] := by
      rw [show geminiCalls fresh' 0 parts' = [] from hcalls] at hsame
      exact List.forall₂_nil_right_iff.mp hsame
    have hsaid : geminiSaid body = ⟨resp.text, []⟩ := by
      rw [geminiSaid, hparts, htext]
      exact congrArg (Said.mk _) hnil
    rw [view_without_calls hcalls] at hraw
    rw [hsaid]
    exact rendered_text (hraw ▸ hreply.content) (hraw ▸ hreply.choices) fresh id id' created
  · obtain ⟨hmsg, hcarries⟩ := carries_view hreply hparsed hread hcalls
    obtain ⟨parts, hparts, _⟩ := hreply.parts
    rw [← hraw] at hmsg hcarries
    have hsome : (viewMessage parsed).get "content" = none → resp.text = "" := by rintro ⟨⟩
    obtain ⟨hm, hchat, hanthropic, hopenai⟩ :=
      rendered_of_chat hmsg hsome fresh id id' created
    refine (rendered_of_carries (hm ▸ hcarries) (hchat ▸ hcarries)).mpr fun htruncated => ?_
    have hfinish : resp.raw.pointer ["choices", "0", "finish_reason"] =
        some (.string (viewFinishReason body)) := by
      rw [hraw, pointer_view hparts hcalls]
      rfl
    have hreason : viewFinishReason body = "tool_calls" := by
      have hlength := finish_reason_ne_length htruncated
      rw [hfinish] at hlength
      unfold viewFinishReason at hlength ⊢
      split
      · next hmax => simp [hmax, Value.asStr] at hlength
      · rfl
    constructor
    · refine hanthropic.mpr fun _ => ?_
      rw [upstreamStopReason, strAt, hmsg.stopReason, hfinish, hreason]
      rfl
    · refine (hopenai htruncated).mpr ?_
      rw [hmsg.member (by decide)]
      rintro _ ⟨⟩
      obtain ⟨tc, tcs, hcons⟩ := List.exists_cons_of_ne_nil hcalls
      exact ⟨tc, tcs, by rw [hcons]⟩

end

/-- Both renderings of a served reply carry its text and its calls, with their ids. Unless it was
cut off, they also stop for a call exactly where they have one, if and only if the reply announces
its calls. -/
theorem rendered_iff {float : List Char → Option FloatText} (hfloat : FloatsReadBack float)
    {wire : String} {body : Value} (hbody : readText float wire = some body) {w : Wire}
    {resp : ModelResponse} (hserved : Served (readText float) w body resp)
    (fresh : Nat → String) (id id' : String) (created : Nat) :
    Rendered (readText float) (said (readText float) w body) resp.truncated
        (anthropicResponseJson (readText float) fresh id resp)
        (openaiResponseJson id' created resp) ↔
      (resp.truncated = false → CallsAnnounced w body) := by
  have hdoc := Json.document_of_readText hfloat hbody
  cases hserved with
  | anthropic hreply hraw =>
    subst hraw
    exact rendered_anthropic hdoc hreply fresh id id' created
  | openai hreply hraw htext =>
    subst hraw
    exact rendered_openai hreply htext fresh id id' created
  | gemini hreply hparsed hraw htext =>
    exact iff_of_true (rendered_gemini hdoc hreply hparsed hraw htext fresh id id' created)
      fun _ => trivial

-- ---------------------------------------------------------------------------
-- Two replies that are not announced
-- ---------------------------------------------------------------------------

def noFloats : List Char → Option FloatText := fun _ => none

/-- A Chat completion of one message. -/
def sampleBody (finishReason : String) (calls : List Value) : Value :=
  .object [("choices", .array [.object
    [("finish_reason", .string finishReason), ("message", .object
      [("content", .string "hi"), ("role", .string "assistant"),
        ("tool_calls", .array calls)])]])]

def sampleCall : Value :=
  .object
    [("function", .object [("arguments", .string "\x7b\x7d"), ("name", .string "ls")]),
      ("id", .string "call_1"), ("type", .string "function")]

def sampleResponse (body : Value) : ModelResponse := ⟨"openai/gpt-5", "hi", 1, 0, 0, 1, body⟩

theorem readText_sampleBody : readText noFloats (sampleBody "tool_calls" [sampleCall]).toText =
    some (sampleBody "tool_calls" [sampleCall]) :=
  Json.readText_toText ⟨rfl, by simp [sampleBody, sampleCall, maxDepth, Json.Readable]⟩

theorem served_sampleBody (finishReason : String) {calls : List Value}
    (h : ∀ call ∈ calls, WellFormedCall (readText noFloats) call) :
    Served (readText noFloats) .openai (sampleBody finishReason calls)
      (sampleResponse (sampleBody finishReason calls)) := by
  refine .openai ⟨⟨.object [("content", .string "hi"), ("role", .string "assistant"),
    ("tool_calls", .array calls)], ?_⟩, rfl⟩ rfl rfl
  refine ⟨rfl, rfl, ?_, ?_, rfl⟩
  · rintro _ ⟨⟩
    exact Or.inr ⟨"hi", rfl⟩
  · rintro _ ⟨⟩
    exact Or.inr ⟨calls, rfl, h⟩

theorem wellFormed_sampleCall : ∀ call ∈ [sampleCall], WellFormedCall (readText noFloats) call := by
  intro call hcall
  obtain rfl := List.mem_singleton.mp hcall
  exact ⟨"call_1", "ls", "\x7b\x7d", emptyObject, rfl, by decide, rfl, by decide, rfl, rfl, rfl⟩

def SampleRendered (finishReason : String) (calls : List Value) : Prop :=
  Rendered (readText noFloats) (openaiSaid (readText noFloats) (sampleBody finishReason calls))
    (sampleResponse (sampleBody finishReason calls)).truncated
    (anthropicResponseJson (readText noFloats) (fun _ => "0") "1"
      (sampleResponse (sampleBody finishReason calls)))
    (openaiResponseJson "2" 3 (sampleResponse (sampleBody finishReason calls)))

theorem rendered_iff_sample : SampleRendered "tool_calls" [sampleCall] := by
  refine (rendered_iff (w := .openai) (fun _ _ h => by cases h) readText_sampleBody
    (served_sampleBody "tool_calls" wellFormed_sampleCall) _ _ _ _).mpr fun _ => ⟨?_, ?_⟩
  · rintro _ ⟨⟩
    exact ⟨sampleCall, [], rfl⟩
  · exact fun _ => ⟨"tool_calls", rfl, Or.inl rfl⟩

/-- An empty list of calls is taken for a call in a Chat completion, and a call of a reply that
says `stop` is not in a message. -/
theorem rendered_unannounced :
    (Served (readText noFloats) .openai (sampleBody "stop" [])
        (sampleResponse (sampleBody "stop" [])) ∧ ¬SampleRendered "stop" []) ∧
      Served (readText noFloats) .openai (sampleBody "stop" [sampleCall])
        (sampleResponse (sampleBody "stop" [sampleCall])) ∧
      ¬SampleRendered "stop" [sampleCall] := by
  refine ⟨⟨served_sampleBody "stop" (by simp), fun h => ?_⟩,
    served_sampleBody "stop" wellFormed_sampleCall, fun h => ?_⟩
  · obtain ⟨_, hchat⟩ := h.consistent rfl
    obtain ⟨tcs, htcs, hne⟩ := hchat.mp rfl
    cases htcs
    exact hne rfl
  · obtain ⟨hm, _⟩ := h.consistent rfl
    have hstop := hm.mpr ⟨_, List.mem_cons_of_mem _ List.mem_cons_self, rfl⟩
    have hne : "end_turn" ≠ "tool_use" := by decide
    exact hne (Option.some.inj hstop)

end Firstpass.ReplyRender
