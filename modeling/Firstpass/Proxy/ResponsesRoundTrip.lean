import Firstpass.Core.JsonText
import Firstpass.Proxy.ResponsesFold
import Mathlib.Data.List.Forall2

/-!
# A reply comes back as it was

The output items of a translated reply, sent back as the input of the next
request, are translated to the assistant message they were made from.
-/

namespace Firstpass.Responses

open Json

section
variable (fromStr : String → Option Value)

/-- A Chat tool call with a string for its id, its name and its arguments. -/
structure CallOf (call : Value) (id name arguments : String) : Prop where
  id : call.get "id" = some (.string id)
  name : call.pointer ["function", "name"] = some (.string name)
  arguments : call.pointer ["function", "arguments"] = some (.string arguments)

/-- The call has the form `{"input": string}` if its tool is a custom one. -/
def Answerable (customTools : List String) (call : Value) : Prop :=
  ∃ id name arguments, CallOf call id name arguments ∧
    (name ∈ customTools → ∃ input,
      fromStr arguments = some (.object [(customInputArg, .string input)]))

/-- The same id and name, and arguments that are the same text or parse to the
same value. -/
def SameCall (call call' : Value) : Prop :=
  ∃ id name arguments arguments', CallOf call id name arguments ∧
    CallOf call' id name arguments' ∧
    (arguments' = arguments ∨ ∃ v, fromStr arguments = some v ∧ fromStr arguments' = some v)

def messageText (m : Value) : String := (strAt "content" m).getD ""

def replyCalls (chat : Value) : List Value :=
  ((message chat "tool_calls").bind Value.asArray).getD []

-- ---------------------------------------------------------------------------
-- One item
-- ---------------------------------------------------------------------------

theorem turn_messageItem (id text : String) :
    turnToMessage (messageItem id text) = some (turnMessage (.string text) "assistant") := by
  have hcontent : contentToChat ((messageItem id text).get "content") =
      some (.string (String.join [text])) := rfl
  have hjoin : String.join [text] = text := by simp [String.join]
  have hturn : turnToMessage (messageItem id text) =
      (contentToChat ((messageItem id text).get "content")).map fun content =>
        turnMessage content "assistant" := rfl
  rw [hturn, hcontent, hjoin]
  rfl

theorem callOf_chatCall (id name arguments : String) :
    CallOf (chatCall (.string id) (.string name) (.string arguments)) id name arguments :=
  ⟨rfl, rfl, rfl⟩

variable {fromStr} {customTools : List String} {call : Value}

theorem turn_callItem
    (hparse : ∀ input, fromStr (wrapInput input) = some (.object [(customInputArg, .string input)]))
    (h : Answerable fromStr customTools call) (id : String) (i : Nat) :
    ∃ m, turnToMessage (callItem fromStr customTools id i call) = some m ∧
      ∃ callId name arguments : Value, m = assistantCall callId name arguments ∧
        SameCall fromStr call (chatCall callId name arguments) := by
  obtain ⟨callId, name, arguments, hcall, hcustom⟩ := h
  by_cases hname : name ∈ customTools
  · obtain ⟨input, hinput⟩ := hcustom hname
    have hunwrap : customInput fromStr arguments = input := by
      rw [customInput, hinput]
      rfl
    have hitem : turnToMessage (callItem fromStr customTools id i call) =
        some (assistantCall (.string callId) (.string name) (.string (wrapInput input))) := by
      simp only [callItem, hcall.id, hcall.name, hcall.arguments, Option.bind_some, Value.asStr,
        Option.filter_some, hname, decide_true, if_true, Option.getD_some, hunwrap]
      rfl
    refine ⟨_, hitem, _, _, _, rfl, callId, name, arguments, wrapInput input, hcall,
      callOf_chatCall _ _ _, .inr ⟨_, hinput, hparse input⟩⟩
  · have hitem : turnToMessage (callItem fromStr customTools id i call) =
        some (assistantCall (.string callId) (.string name) (.string arguments)) := by
      simp only [callItem, hcall.id, hcall.name, hcall.arguments, Option.bind_some, Value.asStr,
        Option.filter_some, hname, decide_false, Bool.false_eq_true, if_false, Option.getD_some]
      rfl
    exact ⟨_, hitem, _, _, _, rfl, callId, name, arguments, arguments, hcall,
      callOf_chatCall _ _ _, .inl rfl⟩

theorem not_dropped (h : turnToMessage item = some m) : isDroppedItem item = false := by
  have hturns := turnToMessage_turns h
  rw [isDroppedItem, decide_eq_false_iff_not]
  intro hkind
  cases hturns with
  | call hcall => simp [isCall, hkind] at hcall
  | output houtput => simp [isOutput, hkind] at houtput
  | turn hmessage => exact absurd (hmessage _ hkind) (by decide)

theorem filterMap_turn (h : turnToMessage item = some m) (items : List Value) :
    ((item :: items).filter fun t => !isDroppedItem t).filterMap turnToMessage =
      m :: (items.filter fun t => !isDroppedItem t).filterMap turnToMessage := by
  have hkeep : (!isDroppedItem item) = true := by
    rw [not_dropped h]
    rfl
  rw [List.filter_cons, if_pos hkeep, List.filterMap_cons, h]

-- ---------------------------------------------------------------------------
-- All items
-- ---------------------------------------------------------------------------

/-- The calls come back one by one, whatever the items' own ids. -/
theorem turn_calls {calls : List Value} (f : ℕ → Value → Value)
    (h : ∀ call ∈ calls, ∀ i, ∃ m, turnToMessage (f i call) = some m ∧
      ∃ callId name arguments : Value, m = assistantCall callId name arguments ∧
        SameCall fromStr call (chatCall callId name arguments)) :
    ∃ ms, ((calls.mapIdx f).filter fun t => !isDroppedItem t).filterMap turnToMessage = ms ∧
      (∀ m ∈ ms, ∃ callId name arguments, m = assistantCall callId name arguments) ∧
      List.Forall₂ (SameCall fromStr) calls (ms.flatMap toolCalls) := by
  induction calls generalizing f with
  | nil => exact ⟨[], rfl, fun m hm => absurd hm List.not_mem_nil, .nil⟩
  | cons call calls ih =>
    obtain ⟨hcall, hcalls⟩ := List.forall_mem_cons.mp h
    obtain ⟨m, hm, callId, name, arguments, rfl, hsame⟩ := hcall 0
    obtain ⟨ms, hms, hshape, hsames⟩ := ih (fun i => f (i + 1)) fun c hc i => hcalls c hc (i + 1)
    refine ⟨assistantCall callId name arguments :: ms, ?_, ?_, .cons hsame hsames⟩
    · rw [List.mapIdx_cons, filterMap_turn hm, hms]
    · intro m hm
      rcases List.mem_cons.mp hm with rfl | hm
      · exact ⟨_, _, _, rfl⟩
      · exact hshape m hm

/-- What the round trip gives: one assistant message with the reply's text and calls. -/
def ReturnsAs (fromStr : String → Option Value) (chat m : Value) : Prop :=
  isAssistant m = true ∧ messageText m = replyText chat ∧
    List.Forall₂ (SameCall fromStr) (replyCalls chat) (toolCalls m)

/-- The assistant item at the front takes all the calls after it. -/
theorem push_turn (text : String) (base : List Value) {calls ms : List Value}
    (hshape : ∀ m ∈ ms, ∃ callId name arguments, m = assistantCall callId name arguments)
    (hsame : List.Forall₂ (SameCall fromStr) calls (ms.flatMap toolCalls)) :
    ∃ m, (turnMessage (.string text) "assistant" :: ms).foldl pushMessage base = base ++ [m] ∧
      isAssistant m = true ∧ messageText m = text ∧
        List.Forall₂ (SameCall fromStr) calls (toolCalls m) := by
  have hplain : Plain (turnMessage (.string text) "assistant") := rfl
  rw [List.foldl_cons, push_plain hplain]
  have hobject : IsObject (turnMessage (.string text) "assistant") := rfl
  obtain ⟨m, hfold, hview⟩ := foldl_push_calls hobject rfl base hshape
  refine ⟨m, hfold, ?_, ?_, ?_⟩
  · rw [isAssistant_eq, hview]
    rfl
  · have hcontent : m.get "content" = some (.string text) := congrArg View.content hview
    rw [messageText, strAt, hcontent]
    rfl
  · have hcalls : toolCalls m = ms.flatMap toolCalls := congrArg View.calls hview
    rwa [hcalls]

/-- Without text, the first call makes the message and takes the others. -/
theorem push_first_call {base calls ms : List Value} {m : Value}
    (hbase : ∀ prev ∈ base.getLast?, isAssistant prev = false)
    (hshape : ∀ m' ∈ m :: ms, ∃ callId name arguments, m' = assistantCall callId name arguments)
    (hsame : List.Forall₂ (SameCall fromStr) calls ((m :: ms).flatMap toolCalls)) :
    ∃ folded, (m :: ms).foldl pushMessage base = base ++ [folded] ∧
      isAssistant folded = true ∧ messageText folded = "" ∧
        List.Forall₂ (SameCall fromStr) calls (toolCalls folded) := by
  obtain ⟨⟨callId, name, arguments, hm⟩, hrest⟩ := List.forall_mem_cons.mp hshape
  subst hm
  rw [List.foldl_cons, push_first hbase]
  have hobject : IsObject (assistantCall callId name arguments) := rfl
  obtain ⟨folded, hfold, hview⟩ := foldl_push_calls hobject rfl base hrest
  refine ⟨folded, hfold, ?_, ?_, ?_⟩
  · rw [isAssistant_eq, hview]
    rfl
  · have hcontent : folded.get "content" = some .null := congrArg View.content hview
    rw [messageText, strAt, hcontent]
    rfl
  · have hcalls : toolCalls folded =
        toolCalls (assistantCall callId name arguments) ++ ms.flatMap toolCalls :=
      congrArg View.calls hview
    rwa [hcalls, ← List.flatMap_cons]

theorem pushTurns_outputItems
    (hparse : ∀ input, fromStr (wrapInput input) = some (.object [(customInputArg, .string input)]))
    {chat : Value} (hcalls : ∀ call ∈ replyCalls chat, Answerable fromStr customTools call)
    {base : List Value} (hbase : ∀ prev ∈ base.getLast?, isAssistant prev = false) :
    ∃ m, pushTurns base (outputItems fromStr chat customTools) = base ++ [m] ∧
      ReturnsAs fromStr chat m := by
  obtain ⟨ms, hms, hshape, hsame⟩ := turn_calls
    (callItem fromStr customTools (replyId chat)) fun call hcall i =>
      turn_callItem hparse (hcalls call hcall) (replyId chat) i
  have hfront : ∀ text items, pushTurns base (messageItem (replyId chat) text :: items) =
      (turnMessage (.string text) "assistant" ::
        (items.filter fun t => !isDroppedItem t).filterMap turnToMessage).foldl
          pushMessage base := by
    intro text items
    rw [pushTurns, filterMap_turn (turn_messageItem _ text)]
  by_cases htext : replyText chat = ""
  · cases hreply : replyCalls chat with
    | nil =>
      have hitems : outputItems fromStr chat customTools = [messageItem (replyId chat) ""] := by
        rw [outputItems, ← replyCalls, hreply]
        simp [htext]
      have hnone : List.Forall₂ (SameCall fromStr) [] (([] : List Value).flatMap toolCalls) := .nil
      obtain ⟨m, hfold, hassistant, hsaid, hsames⟩ :=
        push_turn "" base (fun _ h => absurd h List.not_mem_nil) hnone
      refine ⟨m, ?_, hassistant, hsaid.trans htext.symm, hreply ▸ hsames⟩
      rw [hitems, hfront]
      exact hfold
    | cons call calls =>
      have hitems : outputItems fromStr chat customTools =
          (replyCalls chat).mapIdx (callItem fromStr customTools (replyId chat)) := by
        rw [outputItems, ← replyCalls, hreply]
        simp [htext]
      cases ms with
      | nil =>
        rw [hreply] at hsame
        cases hsame
      | cons m ms =>
        obtain ⟨folded, hfold, hassistant, hsaid, hsames⟩ := push_first_call hbase hshape hsame
        refine ⟨folded, ?_, hassistant, hsaid.trans htext.symm, hsames⟩
        rw [hitems, pushTurns, hms]
        exact hfold
  · have hitems : outputItems fromStr chat customTools =
        messageItem (replyId chat) (replyText chat) ::
          (replyCalls chat).mapIdx (callItem fromStr customTools (replyId chat)) := by
      rw [outputItems, ← replyCalls]
      simp [htext]
    obtain ⟨m, hfold, hassistant, hsaid, hsames⟩ := push_turn (replyText chat) base hshape hsame
    refine ⟨m, ?_, hassistant, hsaid, hsames⟩
    rw [hitems, hfront, hms]
    exact hfold

/-- The output of a translated reply, sent back as input, is translated to the
one assistant message with the same text and the same calls in order. -/
theorem reply_round_trip (fromStr : String → Option Value)
    (hparse : ∀ input, fromStr (wrapInput input) = some (.object [(customInputArg, .string input)]))
    (chat : Value) (customTools : List String)
    (hcalls : ∀ call ∈ replyCalls chat, Answerable fromStr customTools call)
    (obj : Fields) (hinput : obj.lookup "input" =
      (responseFromChat fromStr chat customTools).get "output") :
    ∃ m, (requestToChat (.object obj)).get "messages" =
        some (.array (instructionMessages obj ++ [m])) ∧
      isAssistant m = true ∧ messageText m = replyText chat ∧
        List.Forall₂ (SameCall fromStr) (replyCalls chat) (toolCalls m) := by
  have houtput : (responseFromChat fromStr chat customTools).get "output" =
      some (.array (outputItems fromStr chat customTools)) := by
    unfold responseFromChat
    by_cases htruncated :
        (chat.pointer ["choices", "0", "finish_reason"]).bind Value.asStr = some "length"
    · simp only [htruncated, if_true]
      rfl
    · simp only [htruncated, if_false]
      rfl
  obtain ⟨m, hpush, hreturns⟩ :=
    pushTurns_outputItems hparse hcalls (instructions_not_assistant obj)
  have hmessages : inputMessages obj = instructionMessages obj ++ [m] := by
    rw [inputMessages, hinput, houtput]
    exact hpush
  have hne : inputMessages obj ≠ [] := by
    rw [hmessages]
    exact List.append_ne_nil_of_right_ne_nil _ (List.cons_ne_nil _ _)
  refine ⟨m, ?_, hreturns⟩
  rw [get_messages, if_neg hne, hmessages]

-- ---------------------------------------------------------------------------
-- A reader of wrapped inputs
-- ---------------------------------------------------------------------------

/-- The text up to the closing quote, and what is left from the quote on. -/
def readChars : Nat → List Char → List Char × List Char
  | 0, text => ([], text)
  | fuel + 1, text =>
    match unescape text with
    | some (c, rest) => (c :: (readChars fuel rest).1, (readChars fuel rest).2)
    | none => ([], text)

theorem readChars_escape (chars rest : List Char) (h : chars.length ≤ fuel) :
    readChars fuel (chars.flatMap escapeChar ++ '"' :: rest) = (chars, '"' :: rest) := by
  induction chars generalizing fuel with
  | nil => cases fuel <;> rfl
  | cons c chars ih =>
    obtain ⟨fuel, rfl⟩ : ∃ n, fuel = n + 1 := ⟨fuel - 1, by grind⟩
    have hrest := ih (Nat.le_of_succ_le_succ h)
    rw [List.flatMap_cons, List.append_assoc, readChars, unescape_escapeChar]
    simp only [hrest]

theorem length_le_flatMap_escapeChar (chars : List Char) :
    chars.length ≤ (chars.flatMap escapeChar).length := by
  induction chars with
  | nil => exact Nat.le_refl 0
  | cons c chars ih =>
    have hescaped : escapeChar c ≠ [] := by
      intro h
      have hc := unescape_escapeChar c []
      rw [h] at hc
      cases hc
    have hlength := List.length_pos_of_ne_nil hescaped
    rw [List.flatMap_cons, List.length_append, List.length_cons]
    omega

def inputOpen : List Char := ['{', '"', 'i', 'n', 'p', 'u', 't', '"', ':', '"']

/-- The value of a text of the form `{"input": string}`, as compactly printed. -/
def readInput (text : String) : Option Value :=
  if inputOpen <+: text.toList then
    let (input, rest) := readChars text.length (text.toList.drop inputOpen.length)
    if rest = ['"', '}'] then some (.object [(customInputArg, .string (String.ofList input))])
    else none
  else none

theorem readInput_wrapInput (input : String) :
    readInput (wrapInput input) = some (.object [(customInputArg, .string input)]) := by
  have htext : (wrapInput input).toList =
      inputOpen ++ (input.toList.flatMap escapeChar ++ '"' :: ['}']) := by
    have hprint : print (.object [(customInputArg, .string input)]) =
        inputOpen ++ (input.toList.flatMap escapeChar ++ ['"']) ++ ['}'] := rfl
    rw [wrapInput, Value.toText, String.toList_ofList, hprint]
    simp only [List.append_assoc, List.cons_append, List.nil_append]
  have hfuel : input.toList.length ≤ (wrapInput input).length := by
    rw [← String.length_toList, htext]
    have hescape := length_le_flatMap_escapeChar input.toList
    simp only [List.length_append]
    omega
  rw [readInput, htext, if_pos (List.prefix_append _ _), List.drop_left,
    readChars_escape _ _ hfuel]
  simp only [if_true, String.ofList_toList]

def patchCalls : List Value :=
  [chatCall (.string "c1") (.string "read") (.string "\x7b\"path\": \"a.rs\"\x7d"),
    chatCall (.string "c2") (.string "apply_patch") (.string (wrapInput "*** Begin Patch"))]

def patchReply : Value :=
  .object [("choices", .array [.object [("message", .object
    [("content", .string "Looking first."), ("role", .string "assistant"),
      ("tool_calls", .array patchCalls)])]])]

def patchOutput : Value :=
  ((responseFromChat readInput patchReply ["apply_patch"]).get "output").getD .null

theorem reply_round_trip_patch :
    ∃ m, (requestToChat (.object [("input", patchOutput)])).get "messages" =
        some (.array (instructionMessages [("input", patchOutput)] ++ [m])) ∧
      isAssistant m = true ∧ messageText m = replyText patchReply ∧
        List.Forall₂ (SameCall readInput) (replyCalls patchReply) (toolCalls m) := by
  refine reply_round_trip readInput readInput_wrapInput patchReply ["apply_patch"] ?_ _ rfl
  intro call hcall
  have hcalls : replyCalls patchReply = patchCalls := rfl
  rw [hcalls] at hcall
  rcases List.mem_cons.mp hcall with rfl | hcall
  · exact ⟨_, _, _, callOf_chatCall _ _ _, fun h => absurd h (by decide)⟩
  · rw [List.mem_singleton.mp hcall]
    exact ⟨_, _, _, callOf_chatCall _ _ _, fun _ => ⟨_, readInput_wrapInput _⟩⟩

end

end Firstpass.Responses
