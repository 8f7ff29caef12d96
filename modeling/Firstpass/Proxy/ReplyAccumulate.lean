import Firstpass.Proxy.ReplyStream
import Firstpass.Proxy.ReplyStops

/-!
# Accumulating a message

A client of the Messages API has, in the end, the message with every block as it was sent. A
block is sent as it is where it has no more than its kind of delta can carry.
-/

namespace Firstpass.ReplyStream

open Json
open ChatRequest (FromStr emptyObject textBlock)
open ReplyRender (blocksOf inputText tokens)
open Responses (Sent frame frame_injective strAt typeOf)

-- ---------------------------------------------------------------------------
-- From the text to the events
-- ---------------------------------------------------------------------------

@[simp] theorem typeOf_typed (kind : String) (fields : Fields) :
    typeOf (typed kind fields) = some kind := by
  simp [typed, typeOf, strAt, Value.get, Value.asStr]

theorem get_typed {key : String} (h : key ≠ "type") (kind : String) (fields : Fields) :
    (typed kind fields).get key = fields.lookup key :=
  lookup_btreeInsert_ne h _ fields

def kinds : List String :=
  ["message_start", "content_block_start", "content_block_delta", "content_block_stop",
    "message_delta", "message_stop"]

/-- An event is sent under the kind that its data gives. -/
def IsEvent (e : Sent) : Prop := e.1 ∈ kinds ∧ typeOf e.2 = some e.1

theorem isEvent_event {kind : String} (h : kind ∈ kinds) (fields : Fields) :
    IsEvent (event kind fields) := ⟨h, typeOf_typed kind fields⟩

theorem isEvent_blockStart (i : Nat) (block : Value) : IsEvent (blockStart i block) :=
  isEvent_event (by simp [kinds]) _

theorem isEvent_blockDelta (i : Nat) (kind field text : String) :
    IsEvent (blockDelta i kind field text) :=
  isEvent_event (by simp [kinds]) _

theorem isEvent_blockEvents (i : Nat) (block : Value) : ∀ e ∈ blockEvents i block, IsEvent e := by
  have hstop : IsEvent (event "content_block_stop" [("index", tokens i)]) :=
    isEvent_event (by simp [kinds]) _
  simp only [blockEvents, List.forall_mem_append, List.forall_mem_singleton]
  refine ⟨?_, hstop⟩
  unfold blockBody
  split
  · simp [isEvent_blockStart, isEvent_blockDelta]
  · simp only [List.forall_mem_append]
    refine ⟨by simp [isEvent_blockStart, isEvent_blockDelta], ?_⟩
    split <;> simp [isEvent_blockDelta]
  · simp [isEvent_blockStart]
  · simp [isEvent_blockStart, isEvent_blockDelta]

theorem isEvent_contentEvents (i : Nat) (blocks : List Value) :
    ∀ e ∈ contentEvents i blocks, IsEvent e := by
  induction blocks generalizing i with
  | nil => simp [contentEvents]
  | cons block blocks ih =>
    exact List.forall_mem_append.mpr ⟨isEvent_blockEvents i block, ih (i + 1)⟩

theorem isEvent_messageEvents (m : Value) : ∀ e ∈ messageEvents m, IsEvent e := by
  have hstart : IsEvent (event "message_start" [("message", startMessage m)]) :=
    isEvent_event (by simp [kinds]) _
  have hdelta : IsEvent (event "message_delta"
      [("delta", stopDelta m), ("usage", outputUsage m)]) :=
    isEvent_event (by simp [kinds]) _
  have hstop : IsEvent (event "message_stop" []) := isEvent_event (by simp [kinds]) _
  simp only [messageEvents, List.forall_mem_append, List.forall_mem_cons]
  exact ⟨⟨⟨hstart, by simp⟩, isEvent_contentEvents 0 _⟩, hdelta, hstop, by simp⟩

theorem text_sseEvents {events : List Sent} (h : ∀ e ∈ events, IsEvent e) (out : String) :
    (events.foldl sseEvent out).toList =
      out.toList ++ (events.map fun e => frame e.2).flatMap EventStream.Frame.text := by
  induction events generalizing out with
  | nil => simp
  | cons e events ih =>
    obtain ⟨he, hevents⟩ := List.forall_mem_cons.mp h
    rw [List.foldl_cons, ih hevents]
    simp [sseEvent, frame, he.2, EventStream.Frame.text, EventStream.line,
      EventStream.eventField, EventStream.dataField, Value.toText]

theorem oneLine_frame {e : Sent} (h : IsEvent e) : (frame e.2).OneLine where
  event := by
    have hkinds : ∀ kind ∈ kinds, '\n' ∉ kind.toList := by simp [kinds]
    simpa [frame, h.2] using hkinds e.1 h.1
  data hmem := absurd (plain_print _ _ hmem) (by decide)

/-- What is read from the stream is what was sent. -/
theorem read_anthropicSse (m : Value) :
    EventStream.read (anthropicSseFromMessage m).toList =
      ((messageEvents m).map Prod.snd).map frame := by
  have hevents := isEvent_messageEvents m
  rw [anthropicSseFromMessage, text_sseEvents hevents, String.toList_empty, List.nil_append,
    List.map_map]
  refine EventStream.read_text fun f hf => ?_
  obtain ⟨e, he, rfl⟩ := List.mem_map.mp hf
  exact oneLine_frame (hevents e he)

-- ---------------------------------------------------------------------------
-- Blocks
-- ---------------------------------------------------------------------------

def thinkingBlock (thinking : String) (signature : Option String) : Value :=
  .object (Responses.member "signature" (signature.map .string) ++
    [("thinking", .string thinking), ("type", .string "thinking")])

/-- The block a client has. -/
def received (block : Value) : Value :=
  match blockKind block with
  | .toolUse => block.setKey "input" ((block.get "input").getD emptyObject)
  | .thinking =>
    thinkingBlock ((strAt "thinking" block).getD "")
      ((strAt "signature" block).filter (· ≠ ""))
  | .redactedThinking => block
  | .text => textBlock ((strAt "text" block).getD "")

/-- The block has what its deltas carry, and no more. -/
def Streamable (block : Value) : Prop :=
  match blockKind block with
  | .toolUse => (block.get "input").isSome
  | .thinking =>
    ∃ thinking, ∃ signature : Option String, (∀ s ∈ signature, s ≠ "") ∧
      block = thinkingBlock thinking signature
  | .redactedThinking => True
  | .text => ∃ text, block = textBlock text

section run

variable {parse : FromStr} {m : Value} {content : List Value}

theorem take_blockStart (block : Value) :
    Client.take parse ⟨some m, content, none, false⟩ (blockStart content.length block).2 =
      some ⟨some m, content, some ⟨block, none⟩, false⟩ := by
  simp [Client.take, blockStart, event, get_typed, tokens, Value.asU64, List.lookup_cons]

theorem take_blockDelta (a : Filling) (kind field text : String) :
    Client.take parse ⟨some m, content, some a, false⟩
        (blockDelta content.length kind field text).2 =
      (a.fill (typed kind [(field, .string text)])).map fun a =>
        ⟨some m, content, some a, false⟩ := by
  simp [Client.take, blockDelta, event, get_typed, tokens, Value.asU64, List.lookup_cons]

theorem take_blockStop (a : Filling) :
    Client.take parse ⟨some m, content, some a, false⟩
        (event "content_block_stop" [("index", tokens content.length)]).2 =
      (a.close parse).map fun block => ⟨some m, content ++ [block], none, false⟩ := by
  simp [Client.take, event, get_typed, tokens, Value.asU64]

theorem grow_emptyBlock_text (text : String) :
    grow (emptyBlock "text") "text" text = textBlock text := by
  have hgrown : grow (emptyBlock "text") "text" text = textBlock ("" ++ text) := rfl
  rw [hgrown, String.empty_append]

theorem grow_emptyBlock_thinking (text : String) :
    grow (emptyBlock "thinking") "thinking" text = thinkingBlock text none := by
  have hgrown : grow (emptyBlock "thinking") "thinking" text = thinkingBlock ("" ++ text) none :=
    rfl
  rw [hgrown, String.empty_append]

theorem setKey_signature (thinking signature : String) :
    (thinkingBlock thinking none).setKey "signature" (.string signature) =
      thinkingBlock thinking (some signature) := rfl

theorem fill_text (a : Filling) (text : String) :
    a.fill (typed "text_delta" [("text", .string text)]) =
      some { a with block := grow a.block "text" text } := by
  simp [Filling.fill, strAt, get_typed, Value.asStr]

theorem fill_thinking (a : Filling) (text : String) :
    a.fill (typed "thinking_delta" [("thinking", .string text)]) =
      some { a with block := grow a.block "thinking" text } := by
  simp [Filling.fill, strAt, get_typed, Value.asStr]

theorem fill_signature (a : Filling) (text : String) :
    a.fill (typed "signature_delta" [("signature", .string text)]) =
      some { a with block := a.block.setKey "signature" (.string text) } := by
  simp [Filling.fill, strAt, get_typed, Value.asStr]

theorem fill_json (block : Value) (text : String) :
    Filling.fill ⟨block, none⟩ (typed "input_json_delta" [("partial_json", .string text)]) =
      some ⟨block, some text⟩ := by
  simp [Filling.fill, strAt, get_typed, Value.asStr]

/-- The events of a block add the block as it is received. -/
theorem foldlM_blockEvents {block : Value}
    (hparse : parse (inputText block) = some ((block.get "input").getD emptyObject)) :
    ((blockEvents content.length block).map Prod.snd).foldlM (Client.take parse)
        ⟨some m, content, none, false⟩ =
      some ⟨some m, content ++ [received block], none, false⟩ := by
  cases hkind : blockKind block with
  | toolUse =>
    simp [blockEvents, blockBody, received, hkind, List.foldlM_cons, take_blockStart,
      take_blockDelta, take_blockStop, fill_json, Filling.close, hparse, setKey_setKey]
  | thinking =>
    by_cases hsignature : (strAt "signature" block).getD "" = ""
    · have hnone : (strAt "signature" block).filter (· ≠ "") = none := by
        cases hs : strAt "signature" block <;> simp_all
      simp only [blockEvents, blockBody, received, hkind, hsignature, hnone]
      simp [List.foldlM_cons, take_blockStart, take_blockDelta, take_blockStop, fill_thinking,
        Filling.close, grow_emptyBlock_thinking]
    · obtain ⟨signature, hs⟩ : ∃ signature, strAt "signature" block = some signature :=
        Option.ne_none_iff_exists'.mp fun hnone => hsignature (by simp [hnone])
      have hne : signature ≠ "" := by simpa [hs] using hsignature
      simp [blockEvents, blockBody, received, hkind, List.foldlM_cons, take_blockStart,
        take_blockDelta, take_blockStop, fill_thinking, fill_signature, Filling.close, hs,
        Option.filter, hne, grow_emptyBlock_thinking, setKey_signature]
  | redactedThinking =>
    simp [blockEvents, blockBody, received, hkind, List.foldlM_cons, take_blockStart,
      take_blockStop, Filling.close]
  | text =>
    simp [blockEvents, blockBody, received, hkind, List.foldlM_cons, take_blockStart,
      take_blockDelta, take_blockStop, fill_text, Filling.close, grow_emptyBlock_text]

theorem foldlM_contentEvents (content : List Value) {blocks : List Value}
    (hparse : ∀ block ∈ blocks,
      parse (inputText block) = some ((block.get "input").getD emptyObject)) :
    ((contentEvents content.length blocks).map Prod.snd).foldlM (Client.take parse)
        ⟨some m, content, none, false⟩ =
      some ⟨some m, content ++ blocks.map received, none, false⟩ := by
  induction blocks generalizing content with
  | nil => simp [contentEvents]
  | cons block blocks ih =>
    obtain ⟨hblock, hblocks⟩ := List.forall_mem_cons.mp hparse
    have hrest := ih (content ++ [received block]) hblocks
    rw [List.length_append, List.length_singleton] at hrest
    rw [contentEvents, List.map_append, List.foldlM_append, foldlM_blockEvents hblock]
    simpa using hrest

end run

-- ---------------------------------------------------------------------------
-- The whole message
-- ---------------------------------------------------------------------------

/-- A message as it is rendered, with the tokens of its usage. -/
structure Envelope (m : Value) : Prop where
  object : m.asObject.isSome
  stopReason : ∃ reason, m.get "stop_reason" = some reason
  stopSequence : ∃ sequence, m.get "stop_sequence" = some sequence
  usage : ∃ fields n, m.get "usage" = some (.object fields) ∧ Sorted fields ∧
    fields.lookup "output_tokens" = some n

/-- The message with other content. -/
structure SameBut (content : List Value) (m m' : Value) : Prop where
  content : m'.get "content" = some (.array content)
  stopReason : m'.get "stop_reason" = m.get "stop_reason"
  stopSequence : m'.get "stop_sequence" = m.get "stop_sequence"
  usage : m'.get "usage" = m.get "usage"

theorem foldlM_messageEvents {parse : FromStr} {m : Value} (hparse : ∀ block ∈ blocksOf m,
      parse (inputText block) = some ((block.get "input").getD emptyObject)) :
    accumulate parse ((messageEvents m).map Prod.snd) =
      some ((stopped (startMessage m) (event "message_delta"
        [("delta", stopDelta m), ("usage", outputUsage m)]).2).setKey "content"
          (.array ((blocksOf m).map received))) := by
  have hcontent := foldlM_contentEvents (m := startMessage m) [] hparse
  have hstart : Client.take parse .start (event "message_start" [("message", startMessage m)]).2 =
      some ⟨some (startMessage m), [], none, false⟩ := by
    simp [Client.take, Client.start, event, get_typed]
  simp only [List.length_nil, List.nil_append] at hcontent
  simp only [accumulate, messageEvents, List.map_append, List.map_cons, List.map_nil,
    List.foldlM_append, List.foldlM_cons, List.foldlM_nil, hstart, Option.pure_def,
    Option.bind_eq_bind, Option.bind_some, hcontent]
  simp [Client.take, event]

/-- The end of a message gives back what the envelope has left out. -/
theorem Envelope.stopped_eq {m reason sequence : Value} {usage : Fields} {n : Value}
    (h : Envelope m) (hreason : m.get "stop_reason" = some reason)
    (hsequence : m.get "stop_sequence" = some sequence)
    (husage : m.get "usage" = some (.object usage)) (hsorted : Sorted usage)
    (htokens : usage.lookup "output_tokens" = some n) :
    stopped (startMessage m) (event "message_delta"
        [("delta", stopDelta m), ("usage", outputUsage m)]).2 =
      (((startMessage m).setKey "stop_reason" reason).setKey "stop_sequence" sequence).setKey
        "usage" (.object usage) := by
  obtain ⟨fields, rfl⟩ := isSome_asObject.mp h.object
  have hlookup : fields.lookup "usage" = some (.object usage) := husage
  have hstart : (startMessage (.object fields)).get "usage" =
      some (.object (btreeInsert "output_tokens" (tokens 0) usage)) := by
    simp only [startMessage, husage, Option.getD_some, Value.setKey]
    exact lookup_btreeInsert _ _ _
  have houtput : outputUsage (.object fields) = .object [("output_tokens", n)] := by
    simp [outputUsage, Value.pointer, hlookup, htokens]
  have hdelta : stopDelta (.object fields) =
      .object [("stop_reason", reason), ("stop_sequence", sequence)] := by
    rw [stopDelta, hreason, hsequence]
    rfl
  have hcounted : btreeInsert "output_tokens" n usage = usage :=
    btreeInsert_of_lookup hsorted htokens
  have hsaid : (event "message_delta" [("delta", stopDelta (.object fields)),
      ("usage", outputUsage (.object fields))]).2.get "delta" =
        some (.object [("stop_reason", reason), ("stop_sequence", sequence)]) := by
    simp [event, get_typed, hdelta]
  have hused : (event "message_delta" [("delta", stopDelta (.object fields)),
      ("usage", outputUsage (.object fields))]).2.get "usage" =
        some (.object [("output_tokens", n)]) := by
    simp [event, get_typed, houtput, List.lookup_cons]
  have hmerged : (Value.object (btreeInsert "output_tokens" (tokens 0) usage)).setKey
      "output_tokens" n = .object usage := by
    simp [Value.setKey, hcounted]
  unfold stopped
  rw [hsaid, hused, hstart]
  exact congrArg (Value.setKey (((startMessage (.object fields)).setKey "stop_reason"
    reason).setKey "stop_sequence" sequence) "usage") hmerged

/-- A client has the message, but for the blocks it receives. -/
theorem Envelope.sameBut {m : Value} (h : Envelope m) (content : List Value) :
    SameBut content m ((stopped (startMessage m) (event "message_delta"
      [("delta", stopDelta m), ("usage", outputUsage m)]).2).setKey "content"
        (.array content)) := by
  obtain ⟨reason, hreason⟩ := h.stopReason
  obtain ⟨sequence, hsequence⟩ := h.stopSequence
  obtain ⟨usage, n, husage, hsorted, htokens⟩ := h.usage
  have hstart : (startMessage m).asObject.isSome :=
    isSome_asObject_setKey (isSome_asObject_setKey (isSome_asObject_setKey
      (isSome_asObject_setKey h.object _ _) _ _) _ _) _ _
  have hwithReason := isSome_asObject_setKey hstart "stop_reason" reason
  have hwithSequence := isSome_asObject_setKey hwithReason "stop_sequence" sequence
  rw [h.stopped_eq hreason hsequence husage hsorted htokens]
  exact {
    content := get_setKey (isSome_asObject_setKey hwithSequence _ _) _ _
    stopReason := by
      rw [get_setKey_ne (by decide), get_setKey_ne (by decide), get_setKey_ne (by decide),
        get_setKey hstart, hreason]
    stopSequence := by
      rw [get_setKey_ne (by decide), get_setKey_ne (by decide), get_setKey hwithReason, hsequence]
    usage := by rw [get_setKey_ne (by decide), get_setKey hwithSequence, husage] }

/-- A block that is received as it was sent is one that can be streamed. -/
theorem received_eq_iff {block : Value} (h : canonicalize block = block) :
    received block = block ↔ Streamable block := by
  unfold received Streamable
  cases hkind : blockKind block with
  | toolUse =>
    cases block with
    | object fields =>
      cases hinput : fields.lookup "input" with
      | none =>
        simp only [Value.get, hinput, Value.setKey, Value.object.injEq, Option.getD_none]
        refine ⟨fun heq => ?_, fun hsome => absurd hsome (by simp)⟩
        have hlookup := lookup_btreeInsert "input" emptyObject fields
        rw [heq, hinput] at hlookup
        cases hlookup
      | some input =>
        simp [Value.get, hinput, Value.setKey,
          btreeInsert_of_lookup (canonical_fields h).1 hinput]
    | _ => simp [blockKind, typeOf, strAt, Value.get] at hkind
  | thinking =>
    constructor
    · rintro heq
      exact ⟨_, _, by simp [Option.mem_def, Option.filter_eq_some_iff], heq.symm⟩
    · rintro ⟨thinking, signature, hsignature, rfl⟩
      cases signature with
      | none => rfl
      | some signature =>
        have hne := hsignature signature rfl
        have hkept : (some signature).filter (· ≠ "") = some signature := by
          simp [Option.filter, hne]
        exact congrArg (thinkingBlock thinking) hkept
  | redactedThinking => simp
  | text =>
    constructor
    · exact fun heq => ⟨_, heq.symm⟩
    · rintro ⟨text, rfl⟩
      rfl

end Firstpass.ReplyStream
