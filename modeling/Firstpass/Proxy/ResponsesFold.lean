import Firstpass.Proxy.Responses

/-!
# Folding tool calls into assistant messages

The items of a request come out in groups, one message a group: an item, or an
assistant item with the calls right after it.
-/

namespace Firstpass.Responses

open Json

-- ---------------------------------------------------------------------------
-- What a message says
-- ---------------------------------------------------------------------------

def toolCalls (m : Value) : List Value := ((m.get "tool_calls").bind Value.asArray).getD []

/-- The members of a Chat message that carry content. -/
structure View where
  role : Option String
  content : Option Value
  calls : List Value
  callId : Option Value

def view (m : Value) : View := ⟨strAt "role" m, m.get "content", toolCalls m, m.get "tool_call_id"⟩

def addCalls (m : Value) (calls : List Value) : Value :=
  m.setKey "tool_calls" (.array (toolCalls m ++ calls))

def IsObject (v : Value) : Prop := v.asObject.isSome = true

theorem isObject_addCalls (h : IsObject m) (calls : List Value) : IsObject (addCalls m calls) :=
  isSome_asObject_setKey h _ _

theorem view_addCalls (h : IsObject m) (calls : List Value) :
    view (addCalls m calls) = { view m with calls := toolCalls m ++ calls } := by
  have hcalls : toolCalls (addCalls m calls) = toolCalls m ++ calls := by
    rw [toolCalls, addCalls, get_setKey h]
    rfl
  have hother : ∀ key : String, key ≠ "tool_calls" → (addCalls m calls).get key = m.get key :=
    fun key hkey => get_setKey_ne hkey _ _
  rw [view, hcalls, hother "content" (by decide), hother "tool_call_id" (by decide), strAt,
    hother "role" (by decide)]
  rfl

theorem isAssistant_eq (m : Value) : isAssistant m = decide ((view m).role = some "assistant") :=
  rfl

theorem isAssistant_addCalls (h : IsObject m) (calls : List Value) :
    isAssistant (addCalls m calls) = isAssistant m := by
  rw [isAssistant_eq, isAssistant_eq, view_addCalls h]

-- ---------------------------------------------------------------------------
-- One push
-- ---------------------------------------------------------------------------

/-- The call an assistant message of the translation carries. -/
def chatCall (id name arguments : Value) : Value :=
  .object [("function", .object [("arguments", arguments), ("name", name)]), ("id", id),
    ("type", .string "function")]

/-- A message that carries no tool calls. -/
def Plain (m : Value) : Prop := m.get "tool_calls" = none

theorem push_first {base : List Value} (h : ∀ prev ∈ base.getLast?, isAssistant prev = false)
    (m : Value) : pushMessage base m = base ++ [m] := by
  rw [pushMessage]
  cases hlast : base.getLast? with
  | none =>
    rw [List.getLast?_eq_none_iff.mp hlast]
    rfl
  | some prev => simp [h prev hlast]

theorem push_plain (h : Plain m) (messages : List Value) :
    pushMessage messages m = messages ++ [m] := by
  rw [pushMessage, h]
  cases hlast : messages.getLast? with
  | none =>
    rw [List.getLast?_eq_none_iff.mp hlast]
    rfl
  | some prev => exact ite_self _

theorem push_call {prev : Value} (h : isAssistant prev = true) (messages : List Value)
    (id name arguments : Value) :
    pushMessage (messages ++ [prev]) (assistantCall id name arguments) =
      messages ++ [addCalls prev [chatCall id name arguments]] := by
  have hcalls : (assistantCall id name arguments).get "tool_calls" =
      some (.array [chatCall id name arguments]) := rfl
  simp [pushMessage, h, hcalls, addCalls, toolCalls]

/-- Calls after an assistant message all go into it. -/
theorem foldl_push_calls {prev : Value} (hobject : IsObject prev) (h : isAssistant prev = true)
    (messages : List Value) {calls : List Value}
    (hcalls : ∀ m ∈ calls, ∃ id name arguments, m = assistantCall id name arguments) :
    ∃ folded, calls.foldl pushMessage (messages ++ [prev]) = messages ++ [folded] ∧
      view folded = { view prev with calls := toolCalls prev ++ calls.flatMap toolCalls } := by
  induction calls generalizing prev with
  | nil => exact ⟨prev, rfl, by rw [List.flatMap_nil, List.append_nil]; rfl⟩
  | cons m calls ih =>
    obtain ⟨⟨id, name, arguments, rfl⟩, hrest⟩ := List.forall_mem_cons.mp hcalls
    rw [List.foldl_cons, push_call h]
    have hnext := isObject_addCalls hobject [chatCall id name arguments]
    have hassistant := (isAssistant_addCalls hobject [chatCall id name arguments]).trans h
    obtain ⟨folded, hfold, hview⟩ := ih hnext hassistant hrest
    refine ⟨folded, hfold, ?_⟩
    have hsum : toolCalls (addCalls prev [chatCall id name arguments]) =
        toolCalls prev ++ [chatCall id name arguments] :=
      congrArg View.calls (view_addCalls hobject _)
    rw [hview, view_addCalls hobject, hsum, List.append_assoc]
    rfl

-- ---------------------------------------------------------------------------
-- Items
-- ---------------------------------------------------------------------------

def isCall (item : Value) : Bool :=
  typeOf item = some "function_call" ∨ typeOf item = some "custom_tool_call"

def isOutput (item : Value) : Bool :=
  typeOf item = some "function_call_output" ∨ typeOf item = some "custom_tool_call_output"

def callId (item : Value) : Option Value := (item.get "call_id").orElse fun _ => item.get "id"

/-- The arguments of a call item; a freeform input is wrapped. -/
def callArguments (item : Value) : Value :=
  if typeOf item = some "function_call" then (item.get "arguments").getD (.string "\x7b\x7d")
  else .string (wrapInput ((strAt "input" item).getD ""))

def outputMessage (id : Value) (text : String) : Value :=
  .object [("content", .string text), ("role", .string "tool"), ("tool_call_id", id)]

def turnMessage (content : Value) (role : String) : Value :=
  .object [("content", content), ("role", .string role)]

/-- What an item translates to, by its kind. -/
inductive Turns (item : Value) : Value → Prop
  | call {id name : Value} : isCall item = true → callId item = some id →
      item.get "name" = some name → Turns item (assistantCall id name (callArguments item))
  | output {id : Value} {text : String} : isOutput item = true → item.get "call_id" = some id →
      (item.get "output").bind outputText = some text → Turns item (outputMessage id text)
  | turn {content : Value} : (∀ kind ∈ typeOf item, kind = "message") →
      contentToChat (item.get "content") = some content →
      Turns item (turnMessage content (roleOf item))

theorem functionCall_turns {obj : Fields} (hkind : typeOf (.object obj) = some "function_call")
    (h : functionCallToChat obj = some m) : Turns (.object obj) m := by
  simp only [functionCallToChat, Option.ite_none_left_eq_some, Option.bind_eq_some_iff,
    Option.map_eq_some_iff] at h
  obtain ⟨-, id, hid, name, hname, rfl⟩ := h
  have harguments : callArguments (.object obj) =
      (obj.lookup "arguments").getD (.string "\x7b\x7d") := by
    rw [callArguments, if_pos hkind]
    rfl
  rw [← harguments]
  exact .call (by simp [isCall, hkind]) hid hname

theorem customCall_turns {obj : Fields} (hkind : typeOf (.object obj) = some "custom_tool_call")
    (h : customCallToChat obj = some m) : Turns (.object obj) m := by
  simp only [customCallToChat, Option.ite_none_left_eq_some, Option.bind_eq_some_iff,
    Option.map_eq_some_iff] at h
  obtain ⟨-, input, ⟨v, hv, hinput⟩, id, hid, name, hname, rfl⟩ := h
  have harguments : callArguments (.object obj) = .string (wrapInput input) := by
    have hstr : strAt "input" (.object obj) = some input := by
      rw [strAt, Value.get, hv]
      exact hinput
    rw [callArguments, hkind, if_neg (by decide), hstr]
    rfl
  rw [← harguments]
  refine .call (by simp [isCall, hkind]) ?_ hname
  rw [callId, Value.get, hid]
  rfl

theorem turnToMessage_turns (h : turnToMessage item = some m) : Turns item m := by
  cases item with
  | object obj => ?_
  | _ => cases h
  have hmessage : ∀ m, turnToMessage.message (.object obj) obj = some m →
      (∀ kind ∈ typeOf (.object obj), kind = "message") → Turns (.object obj) m := by
    intro m hm hkind
    obtain ⟨content, hcontent, rfl⟩ := Option.map_eq_some_iff.mp hm
    exact .turn hkind hcontent
  simp only [turnToMessage, Value.asObject, Option.bind_some] at h
  split at h
  next kind hkind =>
    split_ifs at h with hcall hcustom houtput hturn
    · exact functionCall_turns (hcall ▸ hkind) h
    · exact customCall_turns (hcustom ▸ hkind) h
    · simp only [functionOutputToChat, Option.bind_eq_some_iff, Option.map_eq_some_iff] at h
      obtain ⟨text, ⟨v, hv, htext⟩, id, hid, rfl⟩ := h
      refine .output ?_ hid (Option.bind_eq_some_iff.mpr ⟨v, hv, htext⟩)
      rcases houtput with rfl | rfl <;> simp [isOutput, hkind]
    · refine hmessage m h fun k hk => ?_
      rw [hkind] at hk
      cases hk
      exact hturn
  next hkind =>
    refine hmessage m h fun k hk => ?_
    rw [hkind] at hk
    cases hk

-- ---------------------------------------------------------------------------
-- The members of the request
-- ---------------------------------------------------------------------------

/-- The members that the translation renames or strips, beside `messages`,
`tools` and `tool_choice`. -/
def editedKeys : List String :=
  ["input", "instructions", "max_output_tokens", "max_tokens", "reasoning_effort",
    "parallel_tool_calls"] ++ responsesOnly

theorem get_requestToChat (obj : Fields) (h : key ∉ editedKeys) :
    (requestToChat (.object obj)).get key =
      (setMessages (inputMessages obj) (setToolChoice obj (setTools obj obj))).lookup key := by
  obtain ⟨hedited, honly⟩ := not_or.mp (mt List.mem_append.mpr h)
  simp only [List.mem_cons, List.not_mem_nil, or_false, not_or] at hedited
  obtain ⟨hinput, hinstructions, hmaxOut, hmax, heffort, hparallel⟩ := hedited
  have hdrop : ∀ out, (dropParallel out).lookup key = out.lookup key := by
    intro out
    rw [dropParallel]
    split_ifs
    · exact lookup_removeKey_ne hparallel out
    · rfl
  have hset : ∀ out, (setEffort obj out).lookup key = out.lookup key := by
    intro out
    rw [setEffort]
    split
    · exact lookup_btreeInsert_ne heffort _ out
    · rfl
  have hrename : ∀ out, (renameMaxTokens out).lookup key = out.lookup key := by
    intro out
    rw [renameMaxTokens]
    split
    · rw [lookup_btreeInsert_ne hmax, lookup_removeKey_ne hmaxOut]
    · rfl
  rw [requestToChat, Value.get, hdrop, lookup_foldl_removeKey honly, hset, hrename,
    lookup_removeKey_ne hinstructions, lookup_removeKey_ne hinput]

theorem setTools_lookup {key : String} (h : key ≠ "tools") (obj out : Fields) :
    (setTools obj out).lookup key = out.lookup key := by
  rw [setTools]
  split
  · dsimp only
    split_ifs
    · exact lookup_btreeInsert_ne h _ out
    · rfl
  · rfl

theorem setToolChoice_lookup {key : String} (h : key ≠ "tool_choice") (obj out : Fields) :
    (setToolChoice obj out).lookup key = out.lookup key := by
  rw [setToolChoice]
  split
  · split
    · exact lookup_btreeInsert_ne h _ out
    · exact lookup_removeKey_ne h out
  · rfl

theorem setMessages_lookup {key : String} (h : key ≠ "messages") (messages : List Value)
    (out : Fields) : (setMessages messages out).lookup key = out.lookup key := by
  rw [setMessages]
  split_ifs
  · rfl
  · exact lookup_btreeInsert_ne h _ out

theorem get_messages (obj : Fields) :
    (requestToChat (.object obj)).get "messages" =
      if inputMessages obj = [] then obj.lookup "messages"
      else some (.array (inputMessages obj)) := by
  rw [get_requestToChat obj (by decide), setMessages]
  split_ifs
  · rw [setToolChoice_lookup (by decide), setTools_lookup (by decide)]
  · rw [lookup_btreeInsert]

theorem instructions_not_assistant (obj : Fields) :
    ∀ prev ∈ (instructionMessages obj).getLast?, isAssistant prev = false := by
  intro prev hprev
  rw [instructionMessages] at hprev
  split at hprev
  · cases hprev
    rfl
  · cases hprev

end Firstpass.Responses
