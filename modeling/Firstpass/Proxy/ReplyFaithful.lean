import Firstpass.Proxy.ReplyRender
import Mathlib.Data.List.Forall2

/-!
# A rendered reply says what the reply says

Whatever provider a reply came from, both renderings carry its text and its tool calls. Whether
they also say that they stop for a call is another matter: `rendered_iff`.
-/

namespace Firstpass.ReplyRender

open Json (Value Document readText FloatText FloatsReadBack maxDepth)
open ChatRequest (FromStr emptyObject textBlock)
open Responses (strAt typeOf textOf member message)

-- ---------------------------------------------------------------------------
-- What a reply says
-- ---------------------------------------------------------------------------

structure Call where
  id : Option String
  name : String
  arguments : Value

structure Said where
  text : String
  calls : List Call

/-- The same call, under the same id if it had one. -/
structure Call.Same (c c' : Call) : Prop where
  id : ∀ id ∈ c.id, c'.id = some id
  name : c'.name = c.name
  arguments : c'.arguments = c.arguments

/-- The text, and the calls in order. -/
structure Carries (said said' : Said) : Prop where
  text : said'.text = said.text
  calls : List.Forall₂ Call.Same said.calls said'.calls

theorem Call.Same.refl (c : Call) : c.Same c := ⟨fun _ h => h, rfl, rfl⟩

theorem Call.Same.trans {c c' c'' : Call} (h : c.Same c') (h' : c'.Same c'') : c.Same c'' where
  id := fun id hid => h'.id id (h.id id hid)
  name := h'.name.trans h.name
  arguments := h'.arguments.trans h.arguments

theorem Carries.refl (said : Said) : Carries said said :=
  ⟨rfl, List.forall₂_same.mpr fun c _ => .refl c⟩

theorem same_trans {cs cs' cs'' : List Call} (h : List.Forall₂ Call.Same cs cs')
    (h' : List.Forall₂ Call.Same cs' cs'') : List.Forall₂ Call.Same cs cs'' := by
  induction h generalizing cs'' with
  | nil => exact h'
  | cons hc _ ih =>
    cases h' with
    | cons hc' htail => exact .cons (hc.trans hc') (ih htail)

theorem Carries.trans {said said' said'' : Said} (h : Carries said said')
    (h' : Carries said' said'') : Carries said said'' :=
  ⟨h'.text.trans h.text, same_trans h.calls h'.calls⟩

def blocksOf (m : Value) : List Value := ((m.get "content").bind Value.asArray).getD []

def blockCall (block : Value) : Call :=
  ⟨strAt "id" block, (strAt "name" block).getD "", (block.get "input").getD .null⟩

def blocksSaid (blocks : List Value) : Said :=
  ⟨String.join (blocks.filterMap blockText), (blocks.filter isToolUse).map blockCall⟩

def anthropicSaid (m : Value) : Said := blocksSaid (blocksOf m)

def callsOf (m : Value) : List Value := ((message m "tool_calls").bind Value.asArray).getD []

def chatCallSaid (fromStr : FromStr) (tc : Value) : Call :=
  ⟨strAt "id" tc, ((tc.pointer ["function", "name"]).bind Value.asStr).getD "",
    (((tc.pointer ["function", "arguments"]).bind Value.asStr).bind fromStr).getD .null⟩

def openaiSaid (fromStr : FromStr) (m : Value) : Said :=
  ⟨((message m "content").bind Value.asStr).getD "", (callsOf m).map (chatCallSaid fromStr)⟩

/-- Arguments that are not there are an empty object. -/
def partCall (fc : Value) : Call :=
  ⟨strAt "id" fc, (strAt "name" fc).getD "", (fc.get "args").getD emptyObject⟩

def geminiSaid (json : Value) : Said :=
  let parts := (partsOf json).getD []
  ⟨String.join (parts.filterMap textOf),
    (parts.filterMap fun p => p.get "functionCall").map partCall⟩

-- ---------------------------------------------------------------------------
-- Well-formed replies
-- ---------------------------------------------------------------------------

def IsObject (v : Value) : Prop := v.asObject.isSome

structure WellFormedBlock (block : Value) : Prop where
  text : typeOf block = some "text" → ∃ text, textOf block = some text
  toolUse : isToolUse block = true → ∃ id name input, strAt "id" block = some id ∧
    strAt "name" block = some name ∧ block.get "input" = some input ∧ IsObject input

structure AnthropicReply (body : Value) : Prop where
  content : ∃ blocks, body.get "content" = some (.array blocks) ∧
    ∀ block ∈ blocks, WellFormedBlock block
  choices : body.get "choices" = none
  candidates : body.get "candidates" = none

/-- A call of a function, its arguments the text of an object. -/
def WellFormedCall (fromStr : FromStr) (tc : Value) : Prop :=
  ∃ id name arguments input, strAt "id" tc = some id ∧ id ≠ "" ∧
    tc.pointer ["function", "name"] = some (.string name) ∧ name ≠ "" ∧
    tc.pointer ["function", "arguments"] = some (.string arguments) ∧
    fromStr arguments = some input ∧ IsObject input

/-- The text may be null, and so may the list of calls, which may also be empty. -/
structure ChatMessageOf (fromStr : FromStr) (raw msg : Value) : Prop where
  content : raw.get "content" = none
  message : raw.pointer ["choices", "0", "message"] = some msg
  text : ∀ text ∈ msg.get "content", text = .null ∨ ∃ s, text = .string s
  toolCalls : ∀ calls ∈ msg.get "tool_calls", calls = .null ∨
    ∃ tcs, calls = .array tcs ∧ ∀ tc ∈ tcs, WellFormedCall fromStr tc
  stopReason : raw.get "stop_reason" = none

structure OpenaiReply (fromStr : FromStr) (body : Value) : Prop where
  chat : ∃ msg, ChatMessageOf fromStr body msg
  candidates : body.get "candidates" = none

structure WellFormedPart (part : Value) : Prop where
  id : ∀ fc ∈ part.get "functionCall", ∀ id ∈ fc.get "id", ∃ s, id = .string s ∧ s ≠ ""
  name : ∀ fc ∈ part.get "functionCall", ∃ name, strAt "name" fc = some name ∧ name ≠ ""
  args : ∀ fc ∈ part.get "functionCall", ∀ args ∈ fc.get "args", IsObject args

structure GeminiReply (body : Value) : Prop where
  parts : ∃ parts, partsOf body = some parts ∧ ∀ part ∈ parts, WellFormedPart part
  content : body.get "content" = none
  choices : body.get "choices" = none
  stopReason : body.get "stop_reason" = none

inductive Wire
  | anthropic
  | openai
  | gemini

/-- What a provider makes of the body of its reply. -/
inductive Served (fromStr : FromStr) : Wire → Value → ModelResponse → Prop
  | anthropic : AnthropicReply body → resp.raw = body → Served fromStr .anthropic body resp
  | openai : OpenaiReply fromStr body → resp.raw = body →
      resp.text = ((message body "content").bind Value.asStr).getD "" →
      Served fromStr .openai body resp
  | gemini : GeminiReply body → geminiParseResponse fresh body = some parsed →
      resp.raw = geminiRawWithChoices body parsed → resp.text = parsed.text →
      Served fromStr .gemini body resp

def said (fromStr : FromStr) : Wire → Value → Said
  | .anthropic => anthropicSaid
  | .openai => openaiSaid fromStr
  | .gemini => geminiSaid

-- ---------------------------------------------------------------------------
-- What a rendering has to be
-- ---------------------------------------------------------------------------

def AnthropicConsistent (m : Value) : Prop :=
  strAt "stop_reason" m = some "tool_use" ↔ ∃ block ∈ blocksOf m, isToolUse block = true

def OpenaiConsistent (m : Value) : Prop :=
  (m.pointer ["choices", "0", "finish_reason"]).bind Value.asStr = some "tool_calls" ↔
    ∃ tcs, message m "tool_calls" = some (.array tcs) ∧ tcs ≠ []

/-- The two renderings of a reply carry what it says, and unless it was cut off they stop for a
call exactly where they have one. -/
structure Rendered (fromStr : FromStr) (reply : Said) (truncated : Bool)
    (m chat : Value) : Prop where
  anthropic : Carries reply (anthropicSaid m)
  openai : Carries reply (openaiSaid fromStr chat)
  consistent : truncated = false → AnthropicConsistent m ∧ OpenaiConsistent chat

/-- The reply says that it stops for its calls, and has no list of calls without one. -/
def CallsAnnounced : Wire → Value → Prop
  | .anthropic, body =>
    (∃ block ∈ blocksOf body, isToolUse block = true) → strAt "stop_reason" body = some "tool_use"
  | .openai, body =>
    (∀ calls ∈ message body "tool_calls", ∃ tc tcs, calls = .array (tc :: tcs)) ∧
      (callsOf body ≠ [] → ∃ reason ∈ (body.pointer ["choices", "0", "finish_reason"]).bind
        Value.asStr, reason = "tool_calls" ∨ reason = "tool_use")
  | .gemini, _ => True

-- ---------------------------------------------------------------------------
-- The fields of the renderings
-- ---------------------------------------------------------------------------

section
variable (fromStr : FromStr) (fresh : Nat → String) (id : String) (created : Nat)
  (resp : ModelResponse)

theorem get_content_anthropicResponseJson :
    (anthropicResponseJson fromStr fresh id resp).get "content" =
      some (anthropicContent fromStr fresh resp) := rfl

theorem stop_reason_anthropicResponseJson :
    strAt "stop_reason" (anthropicResponseJson fromStr fresh id resp) =
      some (stopReason resp.raw (anthropicContent fromStr fresh resp)) := rfl

theorem finish_reason_openaiResponseJson :
    ((openaiResponseJson id created resp).pointer ["choices", "0", "finish_reason"]).bind
      Value.asStr = some (finishReason resp
        (extractOpenaiContentAndTools resp.raw resp.text).2) := rfl

theorem content_openaiResponseJson :
    message (openaiResponseJson id created resp) "content" =
      some (extractOpenaiContentAndTools resp.raw resp.text).1 := rfl

theorem tool_calls_openaiResponseJson :
    message (openaiResponseJson id created resp) "tool_calls" =
      (extractOpenaiContentAndTools resp.raw resp.text).2 := by
  rw [openaiResponseJson]
  obtain ⟨content, _ | toolCalls⟩ := extractOpenaiContentAndTools resp.raw resp.text
  · rfl
  · rfl

theorem anthropicSaid_anthropicResponseJson {blocks : List Value}
    (h : anthropicContent fromStr fresh resp = .array blocks) :
    anthropicSaid (anthropicResponseJson fromStr fresh id resp) = blocksSaid blocks := by
  rw [anthropicSaid, blocksOf, get_content_anthropicResponseJson, h]
  rfl

end

-- ---------------------------------------------------------------------------
-- An Anthropic reply
-- ---------------------------------------------------------------------------

section
variable {fromStr : FromStr} {resp : ModelResponse} {blocks : List Value}

theorem anthropicContent_of_blocks (h : resp.raw.get "content" = some (.array blocks))
    (fresh : Nat → String) : anthropicContent fromStr fresh resp = .array blocks := by
  rw [anthropicContent, h]
  rfl

/-- The call of a block is a Chat call that says the same, its arguments as text. -/
theorem chatCallSaid_functionCall {block : Value} (hblock : WellFormedBlock block)
    (huse : isToolUse block = true)
    (hread : ∀ input ∈ block.get "input", fromStr input.toText = some input) :
    chatCallSaid fromStr (functionCall block) = blockCall block := by
  obtain ⟨id, name, input, hid, hname, hinput, _⟩ := hblock.toolUse huse
  have harguments : fromStr (inputText block) = some input := by
    rw [inputText, hinput]
    exact hread input hinput
  have hcall : chatCallSaid fromStr (functionCall block) =
      ⟨some ((strAt "id" block).getD ""), (strAt "name" block).getD "",
        (fromStr (inputText block)).getD .null⟩ := rfl
  rw [hcall, harguments, blockCall, hid, hname, hinput]
  rfl

theorem openaiSaid_of_blocks (h : resp.raw.get "content" = some (.array blocks))
    (hblocks : ∀ block ∈ blocks, WellFormedBlock block)
    (hread : ∀ block ∈ blocks, ∀ input ∈ block.get "input",
      fromStr input.toText = some input) (id : String) (created : Nat) :
    openaiSaid fromStr (openaiResponseJson id created resp) = blocksSaid blocks := by
  have hcalls : ((blocks.filter isToolUse).map functionCall).map (chatCallSaid fromStr) =
      (blocks.filter isToolUse).map blockCall := by
    rw [List.map_map]
    refine List.map_congr_left fun block hmem => ?_
    obtain ⟨hmem, huse⟩ := List.mem_filter.mp hmem
    exact chatCallSaid_functionCall (hblocks block hmem) huse (hread block hmem)
  have hextract := extractOpenaiContentAndTools.eq_def resp.raw resp.text
  simp only [h, Option.bind_some, Value.asArray] at hextract
  rw [openaiSaid, callsOf, content_openaiResponseJson, tool_calls_openaiResponseJson, hextract,
    blocksSaid, ← hcalls]
  generalize (blocks.filter isToolUse).map functionCall = calls
  generalize blocks.filterMap blockText = texts
  cases calls with
  | nil => rfl
  | cons call calls =>
    cases texts with
    | nil => rfl
    | cons text texts => rfl

end

-- ---------------------------------------------------------------------------
-- A Chat completion
-- ---------------------------------------------------------------------------

section
variable {fromStr : FromStr} {raw msg : Value}

theorem ChatMessageOf.member (h : ChatMessageOf fromStr raw msg) {key : String}
    (hkey : Json.parseIndex key = none) : Responses.message raw key = msg.get key := by
  have hpath : raw.pointer (["choices", "0", "message"] ++ [key]) =
      (raw.pointer ["choices", "0", "message"]).bind (Value.pointer · [key]) :=
    Json.pointer_append _ _ raw
  rw [Responses.message]
  refine hpath.trans ?_
  rw [h.message, Option.bind_some, Json.pointer_key hkey]

theorem ChatMessageOf.openaiSaid (h : ChatMessageOf fromStr raw msg) :
    openaiSaid fromStr raw = ⟨(strAt "content" msg).getD "",
      (((msg.get "tool_calls").bind Value.asArray).getD []).map (chatCallSaid fromStr)⟩ := by
  rw [ReplyRender.openaiSaid, callsOf, h.member (by decide), h.member (by decide)]
  rfl

def toolUse (id name : String) (input : Value) : Value :=
  .object
    [("id", .string id), ("input", input), ("name", .string name), ("type", .string "tool_use")]

theorem blockCall_toolUse (id name : String) (input : Value) :
    blockCall (toolUse id name input) = ⟨some id, name, input⟩ := rfl

theorem toolUseBlock_of_wellFormed {tc : Value} (h : WellFormedCall fromStr tc) (fresh : String) :
    ∃ id name input, toolUseBlock fromStr fresh tc = some (toolUse id name input) ∧
      chatCallSaid fromStr tc = ⟨some id, name, input⟩ := by
  obtain ⟨id, name, arguments, input, hid, hidne, hname, hnamene, harguments, hinput, hobject⟩ := h
  have hobject' : input.asObject.isSome = true := hobject
  refine ⟨id, name, input, ?_, ?_⟩
  · simp [toolUseBlock, toolUse, hid, Option.filter, hidne, hname, hnamene, harguments, hinput,
      hobject', Value.asStr]
  · simp [chatCallSaid, hid, hname, harguments, hinput, Value.asStr]

def toolUseBlocks (fromStr : FromStr) (fresh : Nat → String) (k : Nat) (tcs : List Value) :
    List Value :=
  (tcs.zipIdx k).filterMap fun (tc, i) => toolUseBlock fromStr (fresh i) tc

/-- The blocks of the calls say what the calls do, and have no text. -/
theorem toolUseBlocks_said {tcs : List Value} (h : ∀ tc ∈ tcs, WellFormedCall fromStr tc)
    (fresh : Nat → String) (k : Nat) :
    (toolUseBlocks fromStr fresh k tcs).filter isToolUse = toolUseBlocks fromStr fresh k tcs ∧
      (toolUseBlocks fromStr fresh k tcs).filterMap blockText = [] ∧
      (toolUseBlocks fromStr fresh k tcs).map blockCall = tcs.map (chatCallSaid fromStr) := by
  induction tcs generalizing k with
  | nil => exact ⟨rfl, rfl, rfl⟩
  | cons tc tcs ih =>
    obtain ⟨huse, htext, hcalls⟩ := ih (fun tc' htc => h tc' (List.mem_cons_of_mem tc htc)) (k + 1)
    obtain ⟨id, name, input, hblock, hsaid⟩ :=
      toolUseBlock_of_wellFormed (h tc List.mem_cons_self) (fresh k)
    have hcons : toolUseBlocks fromStr fresh k (tc :: tcs) =
        toolUse id name input :: toolUseBlocks fromStr fresh (k + 1) tcs := by
      rw [toolUseBlocks, List.zipIdx_cons, List.filterMap_cons]
      simp only [hblock]
      rfl
    rw [hcons]
    refine ⟨?_, ?_, ?_⟩
    · rw [List.filter_cons_of_pos rfl, huse]
    · rw [List.filterMap_cons_none rfl, htext]
    · rw [List.map_cons, List.map_cons, hcalls, hsaid, blockCall_toolUse]

theorem blockText_textBlock (text : String) : blockText (textBlock text) = some text := rfl

theorem blocksSaid_append (text : Option String) {calls : List Value}
    (huse : calls.filter isToolUse = calls) (htext : calls.filterMap blockText = []) :
    blocksSaid (text.toList.map textBlock ++ calls) = ⟨text.getD "", calls.map blockCall⟩ := by
  cases text with
  | none => simp [blocksSaid, huse, htext]
  | some text =>
    have hplain : isToolUse (textBlock text) = false := rfl
    simp [blocksSaid, huse, htext, blockText_textBlock, hplain]

theorem getD_filter_ne_empty (text : Option String) :
    (text.filter fun s => decide (s ≠ "")).getD "" = text.getD "" := by
  cases text with
  | none => rfl
  | some s => by_cases hs : s = "" <;> simp [Option.filter, hs]

/-- The blocks of a Chat message say what the message says. -/
theorem blocksSaid_openaiMessage (h : ChatMessageOf fromStr raw msg) (fresh : Nat → String) :
    ∃ blocks, openaiMessageToAnthropicContent fromStr fresh msg = .array blocks ∧
      blocksSaid blocks = openaiSaid fromStr raw := by
  have hcalls : ∀ tc ∈ ((msg.get "tool_calls").bind Value.asArray).getD [],
      WellFormedCall fromStr tc := by
    cases hget : msg.get "tool_calls" with
    | none => simp
    | some calls =>
      obtain rfl | ⟨tcs, rfl, htcs⟩ := h.toolCalls calls hget
      · simp [Value.asArray]
      · simpa [Value.asArray] using htcs
  have hblocks : ∀ text : Option String,
      blocksSaid (if (text.toList.map textBlock ++ toolUseBlocks fromStr fresh 0
          (((msg.get "tool_calls").bind Value.asArray).getD [])).isEmpty then [textBlock ""]
        else text.toList.map textBlock ++ toolUseBlocks fromStr fresh 0
          (((msg.get "tool_calls").bind Value.asArray).getD [])) =
      ⟨text.getD "", (((msg.get "tool_calls").bind Value.asArray).getD []).map
        (chatCallSaid fromStr)⟩ := by
    intro text
    obtain ⟨huse, htext, hsaid⟩ := toolUseBlocks_said hcalls fresh 0
    rw [← hsaid]
    split
    · next hempty =>
      obtain ⟨hnone, hnil⟩ := List.append_eq_nil_iff.mp (List.isEmpty_iff.mp hempty)
      obtain rfl : text = none := by cases text <;> simp_all
      rw [hnil]
      rfl
    · exact blocksSaid_append text huse htext
  rw [h.openaiSaid]
  refine ⟨_, rfl, ?_⟩
  rw [← getD_filter_ne_empty]
  exact hblocks _

theorem anthropicContent_of_chat {resp : ModelResponse} (h : ChatMessageOf fromStr resp.raw msg)
    (fresh : Nat → String) : anthropicContent fromStr fresh resp =
      openaiMessageToAnthropicContent fromStr fresh msg := by
  rw [anthropicContent, h.content, h.message]
  rfl

theorem extract_of_chat {resp : ModelResponse} (h : ChatMessageOf fromStr resp.raw msg) :
    extractOpenaiContentAndTools resp.raw resp.text =
      ((msg.get "content").getD (.string resp.text), msg.get "tool_calls") := by
  rw [extractOpenaiContentAndTools, h.content, h.message]
  rfl

theorem openaiSaid_of_chat {resp : ModelResponse} (h : ChatMessageOf fromStr resp.raw msg)
    (htext : msg.get "content" = none → resp.text = "") (id : String) (created : Nat) :
    openaiSaid fromStr (openaiResponseJson id created resp) = openaiSaid fromStr resp.raw := by
  rw [h.openaiSaid, ReplyRender.openaiSaid, callsOf, content_openaiResponseJson,
    tool_calls_openaiResponseJson, extract_of_chat h, strAt]
  cases hcontent : msg.get "content" with
  | none =>
    rw [htext hcontent]
    rfl
  | some content => rfl

end

-- ---------------------------------------------------------------------------
-- Stopping for a call
-- ---------------------------------------------------------------------------

section
variable {fromStr : FromStr} {fresh : Nat → String} {resp : ModelResponse}

/-- A message never stops for a call it has not, so it has to stop for those it has. -/
theorem anthropicConsistent_iff {blocks : List Value} (id : String)
    (h : anthropicContent fromStr fresh resp = .array blocks) :
    AnthropicConsistent (anthropicResponseJson fromStr fresh id resp) ↔
      ((∃ block ∈ blocks, isToolUse block = true) → upstreamStopReason resp.raw = "tool_use") := by
  have hblocks : blocksOf (anthropicResponseJson fromStr fresh id resp) = blocks := by
    rw [blocksOf, get_content_anthropicResponseJson, h]
    rfl
  have huse : hasToolUse (.array blocks) = true ↔ ∃ block ∈ blocks, isToolUse block = true := by
    rw [hasToolUse]
    exact List.any_eq_true
  rw [AnthropicConsistent, hblocks, stop_reason_anthropicResponseJson, h, ← huse, stopReason]
  cases hasToolUse (.array blocks) with
  | true => simp
  | false =>
    by_cases hreason : upstreamStopReason resp.raw = "tool_use"
    · simp [hreason]
    · simp [hreason]

theorem openaiConsistent_iff (id : String) (created : Nat) (htruncated : resp.truncated = false) :
    OpenaiConsistent (openaiResponseJson id created resp) ↔
      ∀ calls ∈ (extractOpenaiContentAndTools resp.raw resp.text).2,
        ∃ tc tcs, calls = .array (tc :: tcs) := by
  rw [OpenaiConsistent, finish_reason_openaiResponseJson, tool_calls_openaiResponseJson]
  cases (extractOpenaiContentAndTools resp.raw resp.text).2 with
  | none => simp [finishReason, htruncated]
  | some calls =>
    simp only [finishReason, htruncated, Bool.false_eq_true, if_false, Option.isSome_some, if_true,
      true_iff, Option.some.injEq, Option.mem_def, forall_eq']
    constructor
    · rintro ⟨_ | ⟨tc, tcs⟩, rfl, hne⟩
      · exact (hne rfl).elim
      · exact ⟨tc, tcs, rfl⟩
    · rintro ⟨tc, tcs, rfl⟩
      exact ⟨tc :: tcs, rfl, List.cons_ne_nil tc tcs⟩

end

end Firstpass.ReplyRender
