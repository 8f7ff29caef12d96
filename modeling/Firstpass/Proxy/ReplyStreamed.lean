import Firstpass.Proxy.ReplyAccumulate

/-!
# The streamed reply and the buffered one

A client that asked for a stream has the reply that a client without one gets, where each block
of an Anthropic message can be streamed, and where the content of a Chat completion is text or
nothing and its calls are objects.
-/

namespace Firstpass.ReplyStream

open Json
open ChatRequest (FromStr emptyObject textBlock)
open ReplyRender (IsObject anthropicContent anthropicResponseJson blocksOf callsOf inputText
  noFloats openaiResponseJson sampleResponse tokens)
open Responses (frame frame_injective message strAt)

-- ---------------------------------------------------------------------------
-- The Anthropic message
-- ---------------------------------------------------------------------------

structure SameMessage (m m' : Value) : Prop where
  content : m'.get "content" = m.get "content"
  stopReason : m'.get "stop_reason" = m.get "stop_reason"
  stopSequence : m'.get "stop_sequence" = m.get "stop_sequence"
  usage : m'.get "usage" = m.get "usage"

/-- A client that reads the events of the message has the message. -/
def MessageStreamed (parse : FromStr) (m : Value) : Prop :=
  ∃ events m', EventStream.read (anthropicSseFromMessage m).toList = events.map frame ∧
    accumulate parse events = some m' ∧ SameMessage m m'

/-- A block that is a document, with an input that can be read from its text. -/
structure Fillable (float : List Char → Option FloatText) (block : Value) : Prop where
  canonical : canonicalize block = block
  input : ∀ input, block.get "input" = some input → Document float maxDepth input

section

variable {float : List Char → Option FloatText}

theorem document_emptyObject {depth : Nat} : Document float (depth + 1) emptyObject :=
  .object .nil (by simp)

theorem Fillable.parse {block : Value} (h : Fillable float block) :
    readText float (inputText block) = some ((block.get "input").getD emptyObject) := by
  unfold inputText
  cases hinput : block.get "input" with
  | none => exact readText_toText document_emptyObject
  | some input => exact readText_toText (h.input input hinput)

theorem fillable_textBlock (text : String) : Fillable float (textBlock text) where
  canonical := canonical_object (sorted_of_keys ["text", "type"] rfl (by decide +kernel))
    (by simp [canonicalize])
  input := by rintro _ ⟨⟩

theorem messageStreamed_iff {m : Value} {blocks : List Value} (henvelope : Envelope m)
    (hcontent : m.get "content" = some (.array blocks))
    (hblocks : ∀ block ∈ blocks, Fillable float block) :
    MessageStreamed (readText float) m ↔ ∀ block ∈ blocks, Streamable block := by
  have hof : blocksOf m = blocks := by
    simp [blocksOf, hcontent, Value.asArray]
  have hsame := henvelope.sameBut (blocks.map received)
  have hparse : ∀ block ∈ blocksOf m, readText float (inputText block) =
      some ((block.get "input").getD emptyObject) := fun block hblock =>
    (hblocks block (hof ▸ hblock)).parse
  have hrun := foldlM_messageEvents hparse
  rw [hof] at hrun
  have hreceived : blocks.map received = blocks ↔ ∀ block ∈ blocks, Streamable block := by
    rw [map_eq_self]
    exact forall₂_congr fun block hblock => received_eq_iff (hblocks block hblock).canonical
  rw [← hreceived]
  constructor
  · rintro ⟨events, m', hread, haccumulated, hm'⟩
    rw [read_anthropicSse] at hread
    rw [← List.map_injective_iff.mpr frame_injective hread, hrun] at haccumulated
    obtain rfl := Option.some.inj haccumulated
    have hcontents := hsame.content.symm.trans (hm'.content.trans hcontent)
    exact Value.array.inj (Option.some.inj hcontents)
  · rintro heq
    refine ⟨_, _, read_anthropicSse m, hrun, ?_, hsame.stopReason, hsame.stopSequence,
      hsame.usage⟩
    rw [hsame.content, heq, hcontent]

theorem object_usage (resp : ModelResponse) : ∃ fields n,
    ReplyRender.usage resp = .object fields ∧ Sorted fields ∧
      fields.lookup "output_tokens" = some n := by
  have hbase : Sorted [("input_tokens", tokens resp.inTokens),
      ("output_tokens", tokens resp.outTokens)] :=
    sorted_of_keys ["input_tokens", "output_tokens"] rfl (by decide +kernel)
  have hwritten : ∀ (fields : Fields) (key : String) (n : Nat), key ≠ "output_tokens" →
      Sorted fields ∧ fields.lookup "output_tokens" = some (tokens resp.outTokens) →
      Sorted (btreeInsert key (tokens n) fields) ∧
        (btreeInsert key (tokens n) fields).lookup "output_tokens" =
          some (tokens resp.outTokens) := by
    rintro fields key n hkey ⟨hsorted, hlookup⟩
    exact ⟨btreeInsert_sorted hsorted, (lookup_btreeInsert_ne hkey.symm _ _).trans hlookup⟩
  unfold ReplyRender.usage
  dsimp only
  split_ifs
  · have hone := hwritten _ "cache_creation_input_tokens" resp.cacheWriteTokens (by decide)
      ⟨hbase, rfl⟩
    exact ⟨_, _, rfl, hwritten _ "cache_read_input_tokens" resp.cacheReadTokens (by decide) hone⟩
  · exact ⟨_, _, rfl, hwritten _ "cache_read_input_tokens" resp.cacheReadTokens (by decide)
      ⟨hbase, rfl⟩⟩
  · exact ⟨_, _, rfl, hwritten _ "cache_creation_input_tokens" resp.cacheWriteTokens (by decide)
      ⟨hbase, rfl⟩⟩
  · exact ⟨_, _, rfl, hbase, rfl⟩

theorem envelope_anthropicResponseJson (fromStr : FromStr) (fresh : Nat → String) (id : String)
    (resp : ModelResponse) : Envelope (anthropicResponseJson fromStr fresh id resp) where
  object := rfl
  stopReason := ⟨_, rfl⟩
  stopSequence := ⟨_, rfl⟩
  usage := by
    obtain ⟨fields, n, husage, hsorted, hlookup⟩ := object_usage resp
    exact ⟨fields, n, congrArg some husage, hsorted, hlookup⟩

theorem document_toolInput (hfloat : FloatsReadBack float) (arguments : Option String) :
    Document float maxDepth (((arguments.bind (readText float)).filter fun v =>
      v.asObject.isSome).getD emptyObject) := by
  cases hinput : (arguments.bind (readText float)).filter fun v => v.asObject.isSome with
  | none => exact document_emptyObject
  | some input =>
    obtain ⟨hread, _⟩ := Option.filter_eq_some_iff.mp hinput
    obtain ⟨text, _, htext⟩ := Option.bind_eq_some_iff.mp hread
    exact document_of_readText hfloat htext

theorem fillable_toolUse (id name : String) {input : Value} (h : Document float maxDepth input) :
    Fillable float (ReplyRender.toolUse id name input) where
  canonical :=
    canonical_object (sorted_of_keys ["id", "input", "name", "type"] rfl (by decide +kernel))
      (by simp [canonicalize, h.canonical])
  input := by
    rintro _ hinput
    obtain rfl : input = _ := Option.some.inj hinput
    exact h

theorem fillable_toolUseBlock (hfloat : FloatsReadBack float) {fresh : String} {tc block : Value}
    (h : ReplyRender.toolUseBlock (readText float) fresh tc = some block) :
    Fillable float block := by
  unfold ReplyRender.toolUseBlock at h
  dsimp only at h
  split_ifs at h
  obtain rfl := Option.some.inj h
  exact fillable_toolUse _ _ (document_toolInput hfloat _)

theorem fillable_document {block : Value} (h : Document float maxDepth block) :
    Fillable float block where
  canonical := h.canonical
  input := fun _ hinput => (h.succ.get hinput)

theorem fillable_openaiMessage (hfloat : FloatsReadBack float) (fresh : Nat → String)
    (msg : Value) :
    ∃ blocks, ReplyRender.openaiMessageToAnthropicContent (readText float) fresh msg =
        .array blocks ∧ ∀ block ∈ blocks, Fillable float block := by
  refine ⟨_, rfl, ?_⟩
  split
  · rintro block hblock
    rw [List.mem_singleton.mp hblock]
    exact fillable_textBlock ""
  · rintro block hblock
    rcases List.mem_append.mp hblock with hblock | hblock
    · obtain ⟨text, _, rfl⟩ := List.mem_map.mp hblock
      exact fillable_textBlock text
    · obtain ⟨⟨tc, i⟩, _, htc⟩ := List.mem_filterMap.mp hblock
      exact fillable_toolUseBlock hfloat htc

theorem fillable_content (hfloat : FloatsReadBack float) {resp : ModelResponse}
    (hraw : Document float maxDepth resp.raw) (fresh : Nat → String) :
    ∃ blocks, anthropicContent (readText float) fresh resp = .array blocks ∧
      ∀ block ∈ blocks, Fillable float block := by
  unfold anthropicContent
  split
  · next content hcontent =>
    obtain ⟨hget, harray⟩ := Option.filter_eq_some_iff.mp hcontent
    cases content with
    | array blocks =>
      exact ⟨blocks, rfl, fun block hblock =>
        fillable_document ((hraw.succ.get hget).succ.elem hblock)⟩
    | _ => cases harray
  · split
    · exact fillable_openaiMessage hfloat fresh _
    · exact ⟨_, rfl, by simp [fillable_textBlock]⟩

end

-- ---------------------------------------------------------------------------
-- The Chat completion
-- ---------------------------------------------------------------------------

def dataFrame (data : String) : EventStream.Frame := ⟨none, data.toList⟩

def completionFrames (chunks : List Value) : List EventStream.Frame :=
  chunks.map (dataFrame ·.toText) ++ [dataFrame "[DONE]"]

/-- Null is no text. -/
def contentText (m : Value) : Option String :=
  match message m "content" with
  | some (.string text) => some text
  | some .null => some ""
  | _ => none

/-- The dialect has usage where the client asked for it, and an index in every call. -/
structure SameCompletion (includeUsage : Bool) (m : Value) (c : Completion) : Prop where
  text : contentText m = some c.text
  calls : c.calls = (callsOf m).map withoutIndex
  finishReason : (firstChoice m).bind (·.get "finish_reason") = some c.finishReason
  usage : c.usage = (m.get "usage").filter fun _ => includeUsage

/-- A client that reads the chunks of the completion has the completion. -/
def CompletionStreamed (includeUsage : Bool) (m : Value) : Prop :=
  ∃ text chunks c, openaiSseFromMessage m includeUsage = some text ∧
    EventStream.read text.toList = completionFrames chunks ∧
      chunks.foldlM Completion.take .start = some c ∧ SameCompletion includeUsage m c

theorem text_sseChunks (chunks : List String) (out : String) :
    (chunks.foldl sseChunk out).toList =
      out.toList ++ (chunks.map dataFrame).flatMap EventStream.Frame.text := by
  induction chunks generalizing out with
  | nil => simp
  | cons data chunks ih =>
    rw [List.foldl_cons, ih]
    simp [sseChunk, dataFrame, EventStream.Frame.text, EventStream.line, EventStream.dataField]

theorem oneLine_completionFrames (chunks : List Value) :
    ∀ f ∈ completionFrames chunks, f.OneLine := by
  have hdone : (dataFrame "[DONE]").OneLine := ⟨by simp [dataFrame], by simp [dataFrame]⟩
  simp only [completionFrames, List.forall_mem_append, List.forall_mem_singleton,
    List.forall_mem_map]
  refine ⟨fun v _ => ⟨by simp [dataFrame], fun hmem => ?_⟩, hdone⟩
  have hplain : '\n' ∈ print v := by simpa [dataFrame, Value.toText] using hmem
  exact absurd (plain_print v _ hplain) (by decide)

theorem read_openaiSse {m : Value} {includeUsage : Bool} {chunks : List Value}
    (h : completionChunks m includeUsage = some chunks) :
    ∃ text, openaiSseFromMessage m includeUsage = some text ∧
      EventStream.read text.toList = completionFrames chunks := by
  refine ⟨_, congrArg _ h, ?_⟩
  rw [text_sseChunks, String.toList_empty, List.nil_append, List.map_append, List.map_map]
  exact EventStream.read_text (oneLine_completionFrames chunks)

theorem completionFrames_injective : Function.Injective completionFrames := by
  rintro chunks chunks' h
  have hmap := List.append_cancel_right h
  refine List.map_injective_iff.mpr (fun v w heq => ?_) hmap
  have htext : (Value.toText v).toList = (Value.toText w).toList :=
    congrArg EventStream.Frame.data heq
  exact print_injective (by simpa [Value.toText] using htext)

-- ---------------------------------------------------------------------------
-- Accumulating a completion
-- ---------------------------------------------------------------------------

/-- The call a client has, of null an empty one. -/
def receivedCall : Value → Value
  | .null => emptyObject
  | call => withoutIndex call

def Indexable (call : Value) : Prop := IsObject call ∨ call = .null

theorem indexCalls_isSome (i : Nat) (calls : List Value) :
    (indexCalls i calls).isSome ↔ ∀ call ∈ calls, Indexable call := by
  induction calls generalizing i with
  | nil => simp [indexCalls]
  | cons call calls ih =>
    have hcall : (indexed i call).isSome ↔ Indexable call := by
      cases call <;> simp [indexed, Indexable, IsObject, Value.asObject]
    rw [List.forall_mem_cons, ← hcall, ← ih (i + 1), indexCalls]
    cases indexed i call <;> simp

theorem addCall_indexed {call call' : Value} {calls : List Value}
    (h : indexed calls.length call = some call') :
    addCall calls call' = some (calls ++ [receivedCall call]) := by
  cases call with
  | object fields =>
    obtain rfl := Option.some.inj h
    simp [addCall, Value.get, tokens, Value.asU64, receivedCall, withoutIndex,
      removeKey_btreeInsert]
  | null =>
    obtain rfl := Option.some.inj h
    simp [addCall, Value.get, tokens, Value.asU64, receivedCall, withoutIndex, removeKey,
      emptyObject]
  | _ => cases h

/-- Every call is new to the client, under the next index. -/
theorem foldlM_addCall (done : List Value) {calls indexed : List Value}
    (h : indexCalls done.length calls = some indexed) :
    indexed.foldlM addCall done = some (done ++ calls.map receivedCall) := by
  induction calls generalizing indexed done with
  | nil =>
    obtain rfl := Option.some.inj h
    simp
  | cons call calls ih =>
    obtain ⟨call', hcall, hrest⟩ := Option.bind_eq_some_iff.mp h
    obtain ⟨rest, hrest, rfl⟩ := Option.map_eq_some_iff.mp hrest
    have hnext := ih (done ++ [receivedCall call]) (by simpa using hrest)
    simpa [List.foldlM_cons, addCall_indexed hcall] using hnext

section

variable {m : Value}

theorem take_deltaChunk (c : Completion) (delta : Fields) :
    c.take (deltaChunk m delta .null) =
      ((((((Value.object delta).get "tool_calls").bind Value.asArray).getD []).foldlM addCall
        c.calls).map fun calls =>
          { c with text := c.text ++ (strAt "content" (.object delta)).getD "", calls }) := rfl

theorem take_role (c : Completion) :
    c.take (deltaChunk m [("content", .string ""), ("role", .string "assistant")] .null) =
      some c := by
  rw [take_deltaChunk]
  simp [Value.get, strAt, Value.asStr, List.lookup_cons]

theorem take_text (c : Completion) (text : String) :
    c.take (deltaChunk m [("content", .string text)] .null) =
      some { c with text := c.text ++ text } := by
  rw [take_deltaChunk]
  simp [Value.get, strAt, Value.asStr, List.lookup_cons]

theorem take_calls (c : Completion) (calls : List Value) :
    c.take (deltaChunk m [("tool_calls", .array calls)] .null) =
      (calls.foldlM addCall c.calls).map fun calls => { c with calls } := by
  rw [take_deltaChunk]
  simp [Value.get, strAt, Value.asArray, List.lookup_cons]

theorem take_finish (c : Completion) (reason : String) :
    c.take (deltaChunk m [] (.string reason)) = some { c with finishReason := .string reason } := by
  have htake : c.take (deltaChunk m [] (.string reason)) =
      some { c with text := c.text ++ "", finishReason := .string reason } := rfl
  rw [htake, String.append_empty]

theorem take_usage (c : Completion) (usage : Value) :
    c.take (chunk m (.array []) (some usage)) = some { c with usage := some usage } := rfl

/-- The content of a completion, its calls and why it stopped. -/
structure Chat (m content : Value) (toolCalls : Option Value) (reason : String) : Prop where
  message : ∃ msg, (firstChoice m).bind (·.get "message") = some msg ∧
    msg.get "content" = some content ∧ msg.get "tool_calls" = toolCalls
  finishReason : (firstChoice m).bind (·.get "finish_reason") = some (.string reason)

/-- What a client has of a completion. -/
def receivedCompletion (includeUsage : Bool) (m content : Value) (toolCalls : Option Value)
    (reason : String) : Completion :=
  ⟨content.asStr.getD "", ((toolCalls.bind Value.asArray).getD []).map receivedCall,
    .string reason, (m.get "usage").filter fun _ => includeUsage⟩

theorem take_content (c : Completion) (text : String) :
    (if text = "" then [] else [deltaChunk m [("content", .string text)] .null]).foldlM
      Completion.take c = some { c with text := c.text ++ text } := by
  split_ifs with hempty
  · simp [hempty]
  · simp [take_text]

theorem foldlM_usage (c : Completion) (usage : Option Value) (hnone : c.usage = none) :
    (usage.toList.map fun usage => chunk m (.array []) (some usage)).foldlM Completion.take c =
      some { c with usage } := by
  obtain ⟨text, calls, reason, usage'⟩ := c
  obtain rfl : usage' = none := hnone
  cases usage with
  | none => simp
  | some usage => simp [take_usage]

theorem foldlM_completionChunks {content : Value} {toolCalls : Option Value} {reason : String}
    (h : Chat m content toolCalls reason) {includeUsage : Bool} {chunks : List Value}
    (hchunks : completionChunks m includeUsage = some chunks) :
    chunks.foldlM Completion.take .start =
      some (receivedCompletion includeUsage m content toolCalls reason) := by
  obtain ⟨msg, hmsg, hcontent, htools⟩ := h.message
  simp only [completionChunks, hmsg, h.finishReason, Option.bind_some, hcontent, htools,
    Option.getD_some] at hchunks
  obtain ⟨toolChunks, htoolChunks, rfl⟩ := Option.map_eq_some_iff.mp hchunks
  have hcalls : ∀ text, toolChunks.foldlM Completion.take ⟨text, [], .null, none⟩ =
      some ⟨text, ((toolCalls.bind Value.asArray).getD []).map receivedCall, .null, none⟩ := by
    rintro text
    cases toolCalls with
    | none =>
      obtain rfl := Option.some.inj htoolChunks
      simp
    | some calls =>
      obtain ⟨indexed, hindexed, rfl⟩ := Option.map_eq_some_iff.mp htoolChunks
      have hrun := foldlM_addCall [] hindexed
      simp [take_calls, hrun]
  simp only [List.foldlM_append, List.foldlM_cons, List.foldlM_nil, take_role, take_content,
    Completion.start, Option.pure_def, Option.bind_eq_bind, Option.bind_some, hcalls, take_finish,
    String.empty_append]
  exact foldlM_usage _ _ rfl

theorem completionChunks_isSome {content : Value} {toolCalls : Option Value} {reason : String}
    (h : Chat m content toolCalls reason) (includeUsage : Bool) :
    (completionChunks m includeUsage).isSome ↔
      ∀ call ∈ (toolCalls.bind Value.asArray).getD [], Indexable call := by
  obtain ⟨msg, hmsg, hcontent, htools⟩ := h.message
  simp only [completionChunks, hmsg, Option.bind_some, htools, Option.isSome_map]
  cases toolCalls with
  | none => simp
  | some calls => simp [indexCalls_isSome]

/-- The client has the same calls unless it has an empty one of null. -/
theorem map_receivedCall {calls : List Value} :
    calls.map receivedCall = calls.map withoutIndex ↔ ∀ call ∈ calls, call ≠ .null := by
  rw [List.map_inj_left]
  refine forall₂_congr fun call _ => ?_
  cases call <;> simp [receivedCall, withoutIndex, emptyObject]

theorem completionStreamed_iff {content : Value} {toolCalls : Option Value} {reason : String}
    (h : Chat m content toolCalls reason) (hcontent : message m "content" = some content)
    (hcalls : message m "tool_calls" = toolCalls) (includeUsage : Bool) :
    CompletionStreamed includeUsage m ↔
      (content = .null ∨ ∃ text, content = .string text) ∧ ∀ call ∈ callsOf m, IsObject call := by
  have hof : callsOf m = (toolCalls.bind Value.asArray).getD [] := by rw [callsOf, hcalls]
  have htext : contentText m = some (content.asStr.getD "") ↔
      content = .null ∨ ∃ text, content = .string text := by
    rw [contentText, hcontent]
    cases content <;> simp [Value.asStr]
  have hsome := completionChunks_isSome h includeUsage
  rw [← hof] at hsome
  constructor
  · rintro ⟨text, chunks, c, hemit, hread, hrun, hsame⟩
    obtain ⟨sent, hsent, _⟩ := Option.map_eq_some_iff.mp hemit
    obtain ⟨text', hemit', hread'⟩ := read_openaiSse hsent
    obtain rfl := Option.some.inj (hemit.symm.trans hemit')
    obtain rfl := completionFrames_injective (hread.symm.trans hread')
    obtain rfl := Option.some.inj (hrun.symm.trans (foldlM_completionChunks h hsent))
    refine ⟨htext.mp hsame.text, fun call hcall => ?_⟩
    have hne := map_receivedCall.mp (hof ▸ hsame.calls) call hcall
    exact (hsome.mp (by simp [hsent]) call hcall).resolve_right hne
  · rintro ⟨hplain, hobjects⟩
    obtain ⟨sent, hsent⟩ := Option.isSome_iff_exists.mp
      (hsome.mpr fun call hcall => .inl (hobjects call hcall))
    obtain ⟨text, hemit, hread⟩ := read_openaiSse hsent
    refine ⟨text, sent, _, hemit, hread, foldlM_completionChunks h hsent, htext.mpr hplain, ?_,
      h.finishReason, rfl⟩
    rw [hof]
    refine map_receivedCall.mpr fun call hcall hnull => ?_
    have hobject := hobjects call (hof ▸ hcall)
    rw [hnull] at hobject
    cases hobject

end

theorem chat_openaiResponseJson (id : String) (created : Nat) (resp : ModelResponse) :
    Chat (openaiResponseJson id created resp)
      (ReplyRender.extractOpenaiContentAndTools resp.raw resp.text).1
      (ReplyRender.extractOpenaiContentAndTools resp.raw resp.text).2
      (ReplyRender.finishReason resp
        (ReplyRender.extractOpenaiContentAndTools resp.raw resp.text).2) := by
  rw [openaiResponseJson]
  obtain ⟨content, _ | toolCalls⟩ := ReplyRender.extractOpenaiContentAndTools resp.raw resp.text
  · exact ⟨⟨_, rfl, rfl, rfl⟩, rfl⟩
  · exact ⟨⟨_, rfl, rfl, rfl⟩, rfl⟩

-- ---------------------------------------------------------------------------
-- Both dialects
-- ---------------------------------------------------------------------------

/-- The content of a completion is text or nothing, and its calls are objects. -/
def PlainCompletion (m : Value) : Prop :=
  (∃ content, message m "content" = some content ∧
    (content = .null ∨ ∃ text, content = .string text)) ∧ ∀ call ∈ callsOf m, IsObject call

theorem stream_equals_buffered_iff {float : List Char → Option FloatText}
    (hfloat : FloatsReadBack float) {resp : ModelResponse}
    (hraw : Document float maxDepth resp.raw) (fresh : Nat → String) (id : String)
    (created : Nat) (includeUsage : Bool) :
    (MessageStreamed (readText float) (anthropicResponseJson (readText float) fresh id resp) ↔
        ∀ block ∈ blocksOf (anthropicResponseJson (readText float) fresh id resp),
          Streamable block) ∧
      (CompletionStreamed includeUsage (openaiResponseJson id created resp) ↔
        PlainCompletion (openaiResponseJson id created resp)) := by
  obtain ⟨blocks, hblocks, hfillable⟩ := fillable_content hfloat hraw fresh
  have hcontent := congrArg some hblocks
  have hof : blocksOf (anthropicResponseJson (readText float) fresh id resp) = blocks := by
    simp [blocksOf, ReplyRender.get_content_anthropicResponseJson, hblocks, Value.asArray]
  constructor
  · rw [hof]
    exact messageStreamed_iff (envelope_anthropicResponseJson _ fresh id resp) hcontent hfillable
  · rw [completionStreamed_iff (chat_openaiResponseJson id created resp)
      (ReplyRender.content_openaiResponseJson id created resp)
      (ReplyRender.tool_calls_openaiResponseJson id created resp), PlainCompletion,
      ReplyRender.content_openaiResponseJson]
    simp

/-- A reply of one block. -/
def oneBlock (block : Value) : ModelResponse :=
  sampleResponse (.object [("content", .array [block]), ("stop_reason", .string "end_turn")])

def oneBlockMessage (block : Value) : Value :=
  anthropicResponseJson (readText noFloats) (fun _ => "0") "1" (oneBlock block)

theorem document_oneBlock {block : Value} (h : Document noFloats 64 block) :
    Document noFloats maxDepth (oneBlock block).raw := by
  have hcontent : Document noFloats 65 (.array [block]) := .array (by simpa using h)
  have hraw : Document noFloats 66 (oneBlock block).raw :=
    .object (sorted_of_keys ["content", "stop_reason"] rfl (by decide +kernel))
      (by simp [hcontent])
  exact hraw.mono (by decide)

theorem document_textBlock (text : String) : Document noFloats 64 (textBlock text) :=
  .object (sorted_of_keys ["text", "type"] rfl (by decide +kernel)) (by simp)

theorem stream_equals_buffered_iff_sample :
    MessageStreamed (readText noFloats) (oneBlockMessage (textBlock "hi")) ∧
      CompletionStreamed true (openaiResponseJson "1" 3 (oneBlock (textBlock "hi"))) := by
  obtain ⟨hmessage, hcompletion⟩ := stream_equals_buffered_iff (fun _ _ h => by cases h)
    (document_oneBlock (document_textBlock "hi")) (fun _ => "0") "1" 3 true
  have hcontent := ReplyRender.content_openaiResponseJson "1" 3 (oneBlock (textBlock "hi"))
  have hcalls := ReplyRender.tool_calls_openaiResponseJson "1" 3 (oneBlock (textBlock "hi"))
  refine ⟨hmessage.mpr ?_, hcompletion.mpr ⟨⟨_, hcontent, .inr ⟨_, rfl⟩⟩, ?_⟩⟩
  · rintro block hblock
    obtain rfl : block = textBlock "hi" := List.mem_singleton.mp hblock
    exact ⟨"hi", rfl⟩
  · rintro call hcall
    rw [callsOf, hcalls] at hcall
    cases hcall

def serverToolUse : Value :=
  .object [("id", .string "srvtoolu_1"), ("input", emptyObject), ("name", .string "web_search"),
    ("type", .string "server_tool_use")]

/-- A block of another kind reaches a streaming client as an empty text. -/
theorem server_tool_use_lost :
    Document noFloats maxDepth (oneBlock serverToolUse).raw ∧
      blocksOf (oneBlockMessage serverToolUse) = [serverToolUse] ∧
        ¬MessageStreamed (readText noFloats) (oneBlockMessage serverToolUse) := by
  have hblock : Document noFloats 64 serverToolUse :=
    .object (sorted_of_keys ["id", "input", "name", "type"] rfl (by decide +kernel))
      (by simp [document_emptyObject])
  refine ⟨document_oneBlock hblock, rfl, fun h => ?_⟩
  have hfillable : ∀ block ∈ [serverToolUse], Fillable noFloats block := by
    simpa using fillable_document (hblock.mono (by decide))
  have hstreamable := (messageStreamed_iff (envelope_anthropicResponseJson _ _ "1" _) rfl
    hfillable).mp h serverToolUse List.mem_cons_self
  obtain ⟨text, htext⟩ : ∃ text, serverToolUse = textBlock text := hstreamable
  have hlength := congrArg (fun v : Value => (v.asObject.getD []).length) htext
  cases hlength

end Firstpass.ReplyStream
