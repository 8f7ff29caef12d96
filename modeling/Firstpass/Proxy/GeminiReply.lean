import Firstpass.Proxy.ReplyStops
import Firstpass.Proxy.TokenUsage

/-!
# A reply to a Gemini client

A served reply reaches a Gemini client by way of a Chat completion: its text is one part, and
each call a `functionCall` part. A Gemini call has no id of its own there.
-/

namespace Firstpass.GeminiReply

open Json (Value Document readText FloatText FloatsReadBack maxDepth)
open ChatRequest (FromStr emptyObject)
open ReplyRender
open Responses (strAt textOf message)
open TokenUsage (addTokens tokensAt)

-- ---------------------------------------------------------------------------
-- Chat to Gemini
-- ---------------------------------------------------------------------------

def chatFinishReasonToGemini (reason : String) : String :=
  if reason = "length" then "MAX_TOKENS" else "STOP"

def signatureOf (tc : Value) : Option String :=
  (tc.pointer ["extra_content", "google", "thought_signature"]).bind Value.asStr

def callPart (fromStr : FromStr) (tc : Value) : Value :=
  let name := ((tc.pointer ["function", "name"]).bind Value.asStr).getD ""
  let argsStr := ((tc.pointer ["function", "arguments"]).bind Value.asStr).getD "\x7b\x7d"
  let part := Value.object [("functionCall", .object
    [("args", (fromStr argsStr).getD emptyObject), ("name", .string name)])]
  match signatureOf tc with
  | some sig => part.setKey "thoughtSignature" (.string sig)
  | none => part

def textPart (text : String) : Value := .object [("text", .string text)]

def responseParts (fromStr : FromStr) (chat : Value) : List Value :=
  let text := ((message chat "content").bind Value.asStr).getD ""
  let parts := (if text = "" then [] else [textPart text]) ++
    (callsOf chat).map (callPart fromStr)
  if parts.isEmpty then [textPart ""] else parts

def responseFromChat (fromStr : FromStr) (chat : Value) : Value :=
  let finishReason := (((chat.pointer ["choices", "0", "finish_reason"]).bind Value.asStr).map
    chatFinishReasonToGemini).getD "STOP"
  let inTok := tokensAt chat ["usage", "prompt_tokens"]
  let outTok := tokensAt chat ["usage", "completion_tokens"]
  .object
    [("candidates", .array [.object
        [("content", .object
            [("parts", .array (responseParts fromStr chat)), ("role", .string "model")]),
          ("finishReason", .string finishReason)]]),
      ("usageMetadata", .object
        [("candidatesTokenCount", tokens outTok), ("promptTokenCount", tokens inTok),
          ("totalTokenCount", tokens (addTokens inTok outTok))])]

-- ---------------------------------------------------------------------------
-- What a Gemini client is told
-- ---------------------------------------------------------------------------

/-- The same call, but for its id. -/
structure SameCall (c c' : Call) : Prop where
  name : c'.name = c.name
  arguments : c'.arguments = c.arguments

/-- The text, and the calls in order. -/
structure Told (reply told : Said) : Prop where
  text : told.text = reply.text
  calls : List.Forall₂ SameCall reply.calls told.calls

/-- The thought signatures of the calls of a Gemini reply. -/
def signatures (json : Value) : List (Option String) :=
  (((partsOf json).getD []).filter fun p => (p.get "functionCall").isSome).map
    (strAt "thoughtSignature")

section
variable (fromStr : FromStr)

theorem partsOf_responseFromChat (chat : Value) :
    partsOf (responseFromChat fromStr chat) = some (responseParts fromStr chat) := rfl

theorem get_callPart {key : String} (hkey : key ≠ "thoughtSignature") (tc : Value) :
    (callPart fromStr tc).get key = (Value.object [("functionCall", .object
      [("args", (fromStr (((tc.pointer ["function", "arguments"]).bind Value.asStr).getD
          "\x7b\x7d")).getD emptyObject),
        ("name", .string (((tc.pointer ["function", "name"]).bind Value.asStr).getD
          ""))])]).get key := by
  rw [callPart]
  cases signatureOf tc with
  | none => rfl
  | some sig => exact Json.get_setKey_ne hkey _ _

theorem textOf_callPart (tc : Value) : textOf (callPart fromStr tc) = none := by
  rw [textOf, strAt, get_callPart fromStr (by decide)]
  rfl

/-- A call whose arguments are read is told. -/
theorem sameCall_callPart {tc : Value} (hread : (chatCallSaid fromStr tc).arguments ≠ .null) :
    ∃ fc, (callPart fromStr tc).get "functionCall" = some fc ∧
      SameCall (chatCallSaid fromStr tc) (partCall fc) := by
  refine ⟨_, get_callPart fromStr (by decide) tc, rfl, ?_⟩
  revert hread
  show (((tc.pointer ["function", "arguments"]).bind Value.asStr).bind fromStr).getD .null ≠ .null →
    (fromStr (((tc.pointer ["function", "arguments"]).bind Value.asStr).getD "\x7b\x7d")).getD
      emptyObject = (((tc.pointer ["function", "arguments"]).bind Value.asStr).bind fromStr).getD
        .null
  cases (tc.pointer ["function", "arguments"]).bind Value.asStr with
  | none => exact fun hread => (hread rfl).elim
  | some arguments =>
    simp only [Option.bind_some, Option.getD_some]
    cases fromStr arguments with
    | none => exact fun hread => (hread rfl).elim
    | some v => exact fun _ => rfl

theorem thoughtSignature_callPart (tc : Value) :
    strAt "thoughtSignature" (callPart fromStr tc) = signatureOf tc := by
  rw [callPart]
  cases signatureOf tc with
  | none => rfl
  | some sig =>
    rw [strAt, Json.get_setKey rfl]
    rfl

/-- The text parts and the call parts. -/
theorem responseParts_eq (chat : Value) : ∃ texts : List String,
    responseParts fromStr chat = texts.map textPart ++ (callsOf chat).map (callPart fromStr) ∧
      String.join texts = ((message chat "content").bind Value.asStr).getD "" := by
  rw [responseParts]
  by_cases htext : ((message chat "content").bind Value.asStr).getD "" = ""
  · cases hcalls : (callsOf chat).map (callPart fromStr) with
    | nil => exact ⟨[""], by simp [htext], by simp [htext, String.join]⟩
    | cons part parts => exact ⟨[], by simp [htext], by simp [htext, String.join]⟩
  · exact ⟨[((message chat "content").bind Value.asStr).getD ""], by simp [htext],
      by simp [String.join]⟩

theorem filterMap_textOf (texts : List String) (calls : List Value) :
    (texts.map textPart ++ calls.map (callPart fromStr)).filterMap textOf = texts := by
  have htexts : (texts.map textPart).filterMap textOf = texts := by
    rw [List.filterMap_map]
    exact List.filterMap_some
  have hcalls : (calls.map (callPart fromStr)).filterMap textOf = [] := by
    simp [textOf_callPart]
  rw [List.filterMap_append, htexts, hcalls, List.append_nil]

theorem get_textPart (text : String) : (textPart text).get "functionCall" = none := rfl

theorem sameCall_callParts {calls : List Value}
    (hread : ∀ tc ∈ calls, (chatCallSaid fromStr tc).arguments ≠ .null) :
    List.Forall₂ SameCall (calls.map (chatCallSaid fromStr))
      (((calls.map (callPart fromStr)).filterMap fun p => p.get "functionCall").map partCall) := by
  induction calls with
  | nil => exact .nil
  | cons tc calls ih =>
    obtain ⟨hnow, hlater⟩ := List.forall_mem_cons.mp hread
    obtain ⟨fc, hfc, hsame⟩ := sameCall_callPart fromStr hnow
    simp only [List.map_cons, List.filterMap_cons, hfc]
    exact .cons hsame (ih hlater)

theorem told_responseFromChat {chat : Value}
    (hread : ∀ tc ∈ callsOf chat, (chatCallSaid fromStr tc).arguments ≠ .null) :
    Told (openaiSaid fromStr chat) (geminiSaid (responseFromChat fromStr chat)) := by
  obtain ⟨texts, hparts, hjoin⟩ := responseParts_eq fromStr chat
  have htexts : (texts.map textPart).filterMap (fun p => p.get "functionCall") = [] := by
    simp [get_textPart]
  rw [geminiSaid, partsOf_responseFromChat, hparts, Option.getD_some, filterMap_textOf,
    List.filterMap_append, htexts, List.nil_append]
  exact ⟨hjoin, sameCall_callParts fromStr hread⟩

theorem signatures_responseFromChat (chat : Value) :
    signatures (responseFromChat fromStr chat) = (callsOf chat).map signatureOf := by
  obtain ⟨texts, hparts, -⟩ := responseParts_eq fromStr chat
  have htexts : (texts.map textPart).filter (fun p => (p.get "functionCall").isSome) = [] := by
    simp [get_textPart]
  have hcalls (tc : Value) : ((callPart fromStr tc).get "functionCall").isSome = true := by
    rw [get_callPart fromStr (by decide)]
    rfl
  rw [signatures, partsOf_responseFromChat, hparts, Option.getD_some, List.filter_append, htexts,
    List.nil_append, List.filter_eq_self.mpr (by simpa using fun tc _ => hcalls tc), List.map_map]
  exact List.map_congr_left fun tc _ => thoughtSignature_callPart fromStr tc

end

-- ---------------------------------------------------------------------------
-- A reply of each provider
-- ---------------------------------------------------------------------------

section
variable {fromStr : FromStr} {fresh : Nat → String} {body : Value}

theorem signatureOf_geminiCall (id : String) (fc part : Value) :
    signatureOf (geminiCall id fc part) = strAt "thoughtSignature" part := by
  rw [geminiCall, signatureOf, Json.pointer_cons (by decide)]
  cases strAt "thoughtSignature" part with
  | none => rfl
  | some sig =>
    rw [Json.get_setKey rfl]
    rfl

theorem signatureOf_geminiCalls (k : Nat) (parts : List Value) :
    (geminiCalls fresh k parts).map signatureOf =
      (parts.filter fun p => (p.get "functionCall").isSome).map (strAt "thoughtSignature") := by
  induction parts generalizing k with
  | nil => rfl
  | cons part parts ih =>
    cases hfc : part.get "functionCall" with
    | none =>
      have hcalls : geminiCalls fresh k (part :: parts) = geminiCalls fresh k parts := by
        simp [geminiCalls, hfc]
      rw [hcalls, ih]
      simp [hfc]
    | some fc =>
      have hcalls : geminiCalls fresh k (part :: parts) =
          geminiCall (fresh k) fc part :: geminiCalls fresh (k + 1) parts := by
        simp [geminiCalls, hfc, List.zipIdx_cons]
      rw [hcalls, List.map_cons, ih, signatureOf_geminiCall]
      simp [hfc]

theorem calls_wellFormed {raw msg : Value} (h : ChatMessageOf fromStr raw msg) :
    ∀ tc ∈ ((msg.get "tool_calls").bind Value.asArray).getD [], WellFormedCall fromStr tc := by
  rintro tc htc
  cases hcalls : msg.get "tool_calls" with
  | none => simp [hcalls] at htc
  | some calls =>
    rw [hcalls] at htc
    rcases h.toolCalls calls hcalls with rfl | ⟨tcs, rfl, hformed⟩
    · cases htc
    · exact hformed tc htc

/-- The arguments of a call are an object in every dialect. -/
theorem isObject_said {w : Wire} {resp : ModelResponse} (h : Served fromStr w body resp) :
    ∀ c ∈ (said fromStr w body).calls, IsObject c.arguments := by
  cases h with
  | anthropic hreply hraw =>
    obtain ⟨blocks, hblocks, hformed⟩ := hreply.content
    rw [said, anthropicSaid, blocksOf, hblocks]
    rintro c hc
    obtain ⟨block, hblock, rfl⟩ := List.mem_map.mp hc
    obtain ⟨hmem, huse⟩ := List.mem_filter.mp hblock
    obtain ⟨_, _, input, _, _, hinput, hobject⟩ := (hformed block hmem).toolUse huse
    rw [blockCall, hinput]
    exact hobject
  | openai hreply hraw htext =>
    obtain ⟨msg, hmsg⟩ := hreply.chat
    rw [said, hmsg.openaiSaid]
    rintro c hc
    obtain ⟨tc, htc, rfl⟩ := List.mem_map.mp hc
    obtain ⟨_, _, _, input, _, _, _, _, harguments, hinput, hobject⟩ := calls_wellFormed hmsg tc htc
    rw [chatCallSaid, harguments]
    simpa [Value.asStr, hinput] using hobject
  | gemini hreply hparsed hraw htext =>
    obtain ⟨parts, hparts, hformed⟩ := hreply.parts
    rw [said, geminiSaid, hparts]
    rintro c hc
    obtain ⟨fc, hfc, rfl⟩ := List.mem_map.mp hc
    obtain ⟨part, hpart, hget⟩ := List.mem_filterMap.mp hfc
    rw [partCall]
    cases hargs : fc.get "args" with
    | none => exact rfl
    | some args => exact (hformed part hpart).args fc hget args hargs

end

section
variable {float : List Char → Option FloatText} {body : Value} {resp : ModelResponse}

/-- The Chat completion of a served reply carries what the reply says. -/
theorem carries_openaiResponseJson {w : Wire} (hdoc : Document float maxDepth body)
    (hserved : Served (readText float) w body resp) (id : String) (created : Nat) :
    Carries (said (readText float) w body)
      (openaiSaid (readText float) (openaiResponseJson id created resp)) := by
  cases hserved with
  | anthropic hreply hraw =>
    subst hraw
    obtain ⟨blocks, hblocks, hformed⟩ := hreply.content
    have hchat := openaiSaid_of_blocks hblocks hformed
      (fun block hblock input hinput => readText_input hdoc hblocks hblock hinput) id created
    rw [hchat, said, anthropicSaid, blocksOf, hblocks]
    exact .refl _
  | openai hreply hraw htext =>
    subst hraw
    obtain ⟨msg, hmsg⟩ := hreply.chat
    have hempty : msg.get "content" = none → resp.text = "" := by
      intro hnone
      rw [htext, hmsg.member (by decide), hnone]
      rfl
    rw [openaiSaid_of_chat hmsg hempty]
    exact .refl _
  | gemini hreply hparsed hraw htext =>
    exact (rendered_gemini hdoc hreply hparsed hraw htext (fun _ => "") "" id created).openai

theorem arguments_of_same {fromStr : FromStr} {calls : List Call} {tcs : List Value}
    (h : List.Forall₂ Call.Same calls (tcs.map (chatCallSaid fromStr)))
    (hobject : ∀ c ∈ calls, IsObject c.arguments) :
    ∀ tc ∈ tcs, (chatCallSaid fromStr tc).arguments ≠ .null := by
  induction tcs generalizing calls with
  | nil => simp
  | cons tc tcs ih =>
    cases h with
    | cons hsame hrest =>
      obtain ⟨hnow, hlater⟩ := List.forall_mem_cons.mp hobject
      refine List.forall_mem_cons.mpr ⟨fun hnull => ?_, ih hrest hlater⟩
      rw [← hsame.arguments, hnull] at hnow
      cases hnow

theorem Told.of_carries {reply said' told : Said} (h : Carries reply said')
    (h' : Told said' told) : Told reply told where
  text := h'.text.trans h.text
  calls := by
    obtain ⟨_, hcalls⟩ := h
    obtain ⟨_, hcalls'⟩ := h'
    generalize reply.calls = cs, said'.calls = cs', told.calls = cs'' at hcalls hcalls'
    induction hcalls generalizing cs'' with
    | nil => exact hcalls'
    | cons hsame _ ih =>
      cases hcalls' with
      | cons hsame' hrest' =>
        exact .cons ⟨hsame'.name.trans hsame.name, hsame'.arguments.trans hsame.arguments⟩
          (ih _ hrest')

theorem callsOf_gemini (hdoc : Document float maxDepth body) (hreply : GeminiReply body)
    {fresh : Nat → String} {parsed : GeminiParsed}
    (hparsed : geminiParseResponse fresh body = some parsed)
    (hraw : resp.raw = geminiRawWithChoices body parsed) (id : String) (created : Nat) :
    callsOf (openaiResponseJson id created resp) = parsed.toolCalls := by
  rw [callsOf, tool_calls_openaiResponseJson]
  by_cases hcalls : parsed.toolCalls = []
  · rw [view_without_calls hcalls] at hraw
    have hmessage : resp.raw.pointer ["choices", "0", "message"] = none := by
      rw [Json.pointer_cons (by decide), hraw, hreply.choices]
      rfl
    rw [extractOpenaiContentAndTools, hraw, hreply.content, ← hraw, hmessage, hcalls]
    rfl
  · have hread : ∀ parts ∈ partsOf body, ∀ part ∈ parts, ∀ fc ∈ part.get "functionCall",
        readText float ((fc.get "args").getD emptyObject).toText =
          some ((fc.get "args").getD emptyObject) :=
      fun parts hparts part hpart fc hfc => readText_args hdoc hparts hpart hfc
    obtain ⟨hmsg, _⟩ := carries_view hreply hparsed hread hcalls
    rw [← hraw] at hmsg
    rw [extract_of_chat hmsg]
    rfl

end

-- ---------------------------------------------------------------------------
-- A call with its signature
-- ---------------------------------------------------------------------------

def samplePart : Value :=
  .object
    [("functionCall", .object [("args", emptyObject), ("name", .string "ls")]),
      ("thoughtSignature", .string "c2ln")]

def sampleReply : Value :=
  .object [("candidates", .array [.object
    [("content", .object [("parts", .array [samplePart])]), ("finishReason", .string "STOP")]])]

def sampleParsed : GeminiParsed := ⟨"", geminiCalls (fun _ => "0") 0 [samplePart]⟩

def sampleServed : ModelResponse :=
  ⟨"gemini/gemini-3-pro", "", 1, 0, 0, 1, geminiRawWithChoices sampleReply sampleParsed⟩

theorem readText_sampleReply : readText noFloats sampleReply.toText = some sampleReply :=
  Json.readText_toText ⟨rfl, by simp [sampleReply, samplePart, emptyObject, maxDepth, Json.Readable]⟩

theorem wellFormed_samplePart : WellFormedPart samplePart where
  id := by rintro _ ⟨⟩ _ ⟨⟩
  name := by
    rintro _ ⟨⟩
    exact ⟨"ls", rfl, by decide⟩
  args := by
    rintro _ ⟨⟩ _ ⟨⟩
    rfl

theorem served_sampleReply : Served (readText noFloats) .gemini sampleReply sampleServed :=
  .gemini ⟨⟨[samplePart], rfl, by simpa using wellFormed_samplePart⟩, rfl, rfl, rfl⟩
    (show geminiParseResponse (fun _ => "0") sampleReply = some sampleParsed from rfl) rfl rfl

end Firstpass.GeminiReply
