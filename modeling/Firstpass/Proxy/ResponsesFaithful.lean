import Firstpass.Proxy.ResponsesPieces

/-!
# What a translated request carries

`faithful_iff`: the translation of an accepted request carries all its content
exactly if the request is `Sound`. Items whose `type` is not a string pass the
check of their parts, and a call that is not answered right after its group
stays so.
-/

namespace Firstpass.Responses

open Json

-- ---------------------------------------------------------------------------
-- The content of a request
-- ---------------------------------------------------------------------------

def items (obj : Fields) : List Value :=
  match obj.lookup "input" with
  | some (.string s) => [.object [("content", .string s), ("role", .string "user")]]
  | some (.array turns) => turns.filter fun t => !isDroppedItem t
  | _ => []

def instructionItems (obj : Fields) : List Value :=
  (obj.lookup "instructions").toList.map fun v =>
    .object [("content", v), ("role", .string "system")]

/-- The messages the caller sent beside the input. -/
def ownMessages (obj : Fields) : List Value :=
  ((obj.lookup "messages").bind Value.asArray).getD []

/-- What stands before the messages of the items. -/
def leading (obj : Fields) : List Value :=
  if items obj = [] ∧ instructionItems obj = [] then ownMessages obj else instructionItems obj

def chatMessages (obj : Fields) : List Value :=
  (((requestToChat (.object obj)).get "messages").bind Value.asArray).getD []

/-- The texts of a freeform tool: its description and its grammar. -/
def customTexts (tool : Value) : List String :=
  let grammar := (tool.get "format").filter fun f => typeOf f = some "grammar"
  (strAt "description" tool).toList ++ (grammar.bind (strAt "syntax")).toList ++
    (grammar.bind (strAt "definition")).toList

def ToolCarried (tool chat : Value) : Prop :=
  if (tool.get "function").isSome then chat = tool
  else
    typeOf chat = some "function" ∧ chat.pointer ["function", "name"] = tool.get "name" ∧
      if typeOf tool = some "function" then
        ∀ key ∈ ["description", "parameters", "strict"],
          chat.pointer ["function", key] = tool.get key
      else
        ∃ description, chat.pointer ["function", "description"] = some (.string description) ∧
          ∀ text ∈ customTexts tool, text.toList <:+: description.toList

def ChoiceCarried (tc chat : Value) : Prop :=
  if tc.asStr.isSome ∨ (tc.get "function").isSome then chat = tc
  else typeOf chat = some "function" ∧ chat.pointer ["function", "name"] = tc.get "name"

/-- Nothing the caller said is lost, and every answered call is answered at once. -/
structure Faithful (obj : Fields) : Prop where
  content : ∃ ms, chatMessages obj = leading obj ++ ms ∧ Carries (items obj) ms
  tools : ∀ tools, obj.lookup "tools" = some (.array tools) →
    ∃ chat, (requestToChat (.object obj)).get "tools" = some (.array chat) ∧
      List.Forall₂ ToolCarried tools chat
  toolChoice : ∀ tc, obj.lookup "tool_choice" = some tc →
    ∃ chat, (requestToChat (.object obj)).get "tool_choice" = some chat ∧ ChoiceCarried tc chat
  followed : OutputsAfter (items obj) → Followed (chatMessages obj)

/-- An item with a `type` that is not a string. -/
def oddKind (item : Value) : Bool := (item.get "type").any fun t => t.asStr.isNone

structure Sound (obj : Fields) : Prop where
  parts : ∀ item ∈ items obj, oddKind item = true → KeptParts (item.get "content")
  order : OutputsAfter (items obj) → OutputsDirectlyAfter (items obj)
  own : items obj = [] → instructionItems obj = [] → Followed (ownMessages obj)

-- ---------------------------------------------------------------------------
-- Tools
-- ---------------------------------------------------------------------------

theorem lookup_member (key : String) (v : Option Value) : (member key v).lookup key = v := by
  cases v with
  | none => rfl
  | some v => simp [member]

theorem lookup_member_ne {key other : String} (h : other ≠ key) (v : Option Value) :
    (member key v).lookup other = none := by
  cases v with
  | none => rfl
  | some v =>
    rw [member, Option.map_some, Option.toList_some, List.lookup_cons, beq_false_of_ne h]
    rfl

theorem pointer_chatFunction (key : String) (fields : Fields) :
    (chatFunction (.object fields)).pointer ["function", key] = fields.lookup key :=
  Option.bind_fun_some _

theorem function_carried {obj : Fields} {name : Value} (hname : obj.lookup "name" = some name)
    (hfunction : (obj.lookup "function").isSome = false)
    (hkind : typeOf (.object obj) = some "function") :
    ToolCarried (.object obj) (chatFunction <| .object (member "description"
      (obj.lookup "description") ++ [("name", name)] ++ member "parameters"
        (obj.lookup "parameters") ++ member "strict" (obj.lookup "strict"))) := by
  rw [ToolCarried, if_neg (by rw [Value.get, hfunction]; decide), if_pos hkind]
  refine ⟨rfl, ?_, ?_⟩
  · rw [pointer_chatFunction, Value.get, hname]
    simp [List.lookup_append, lookup_member_ne]
  · intro key hkey
    rw [pointer_chatFunction, Value.get]
    simp only [List.mem_cons, List.not_mem_nil, or_false] at hkey
    rcases hkey with rfl | rfl | rfl
    · cases obj.lookup "description" <;>
        simp [List.lookup_append, List.lookup_cons, lookup_member, lookup_member_ne]
    · simp [List.lookup_append, List.lookup_cons, lookup_member, lookup_member_ne]
    · simp [List.lookup_append, List.lookup_cons, lookup_member, lookup_member_ne]

/-- The note on a format has all texts of its grammar in it. -/
theorem customFormat_texts {format : Option Value} (h : customFormat format = some (note, pattern))
    (hgrammar : format.filter (fun f => typeOf f = some "grammar") = some f) :
    ∃ grammar definition, strAt "syntax" f = some grammar ∧ strAt "definition" f = some definition ∧
      note = "\n\nThe `input` text must match this " ++ grammar ++ " grammar:\n" ++ definition := by
  obtain ⟨rfl, hkind⟩ := Option.filter_eq_some_iff.mp hgrammar
  have hkind : typeOf f = some "grammar" := of_decide_eq_true hkind
  simp only [customFormat, hkind, Option.some.injEq, String.reduceEq, if_false, if_true,
    Option.bind_eq_some_iff] at h
  obtain ⟨grammar, hsyntax, definition, hdefinition, h⟩ := h
  split_ifs at h with hpatch
  cases h
  exact ⟨grammar, definition, hsyntax, hdefinition, rfl⟩

theorem infix_append_left {text : String} (before after : String)
    (h : text.toList <:+: before.toList) : text.toList <:+: (before ++ after).toList := by
  rw [String.toList_append]
  exact h.trans (List.prefix_append _ _).isInfix

theorem infix_append_right {text : String} (before after : String)
    (h : text.toList <:+: after.toList) : text.toList <:+: (before ++ after).toList := by
  rw [String.toList_append]
  exact h.trans (List.suffix_append _ _).isInfix

/-- The description a custom tool gets has its own description and its grammar in it. -/
theorem custom_carried {obj : Fields} (hkind : typeOf (.object obj) = some "custom")
    (hfunction : (obj.lookup "function").isSome = false)
    (h : customToolToChat obj = some chat) : ToolCarried (.object obj) chat := by
  simp only [customToolToChat, Option.bind_eq_some_iff, Option.map_eq_some_iff, Prod.exists] at h
  obtain ⟨name, hname, note, pattern, hformat, rfl⟩ := h
  have hnot : typeOf (.object obj) ≠ some "function" := by
    rw [hkind]
    decide
  rw [ToolCarried, if_neg (by rw [Value.get, hfunction]; decide), if_neg hnot]
  refine ⟨rfl, ?_, _, pointer_chatFunction _ _, ?_⟩
  · rw [pointer_chatFunction, Value.get, hname]
    rfl
  · intro text htext
    rw [customTexts, List.mem_append, List.mem_append, Option.mem_toList, Option.mem_toList,
      Option.mem_toList, or_assoc] at htext
    rcases htext with hdescription | hgrammar
    · refine infix_append_left _ _ (infix_append_left _ _ ?_)
      have hgiven : (obj.lookup "description").bind Value.asStr = some text := hdescription
      rw [hgiven, Option.getD_some]
      split_ifs
      · exact List.infix_rfl
      · exact infix_append_left _ _ List.infix_rfl
    · cases hfilter : ((Value.object obj).get "format").filter fun f =>
        typeOf f = some "grammar" with
      | none =>
        rw [hfilter] at hgrammar
        rcases hgrammar with h | h <;> cases h
      | some f =>
        obtain ⟨grammar, definition, hsyntax, hdefinition, rfl⟩ :=
          customFormat_texts hformat hfilter
        rw [hfilter, Option.bind_some, Option.bind_some, hsyntax, hdefinition] at hgrammar
        refine infix_append_right _ _ ?_
        rcases hgrammar with hsaid | hsaid
        · cases hsaid
          exact infix_append_left _ _ (infix_append_left _ _
            (infix_append_right _ _ List.infix_rfl))
        · cases hsaid
          exact infix_append_right _ _ List.infix_rfl

theorem toolToChat_carried (h : toolToChat tool = some chat) : ToolCarried tool chat := by
  cases tool with
  | object obj => ?_
  | _ => cases h
  simp only [toolToChat, Value.asObject, Option.bind_some] at h
  split_ifs at h with hchat hkind hkind
  · cases h
    rw [ToolCarried, Value.get, if_pos hchat]
  · obtain ⟨name, hname, rfl⟩ := Option.map_eq_some_iff.mp h
    exact function_carried hname (Bool.eq_false_of_not_eq_true hchat) hkind
  · exact custom_carried hkind (Bool.eq_false_of_not_eq_true hchat) h

theorem toolChoiceToChat_carried (h : toolChoiceToChat tc = some chat) : ChoiceCarried tc chat := by
  cases tc with
  | string s =>
    cases h
    rw [ChoiceCarried, if_pos (.inl rfl)]
  | object obj =>
    simp only [toolChoiceToChat] at h
    split_ifs at h with hchat
    · cases h
      rw [ChoiceCarried, Value.get, if_pos (.inr hchat)]
    · obtain ⟨name, hname, rfl⟩ := Option.map_eq_some_iff.mp h
      have hno : ¬((Value.object obj).asStr.isSome = true ∨
          ((Value.object obj).get "function").isSome = true) :=
        not_or.mpr ⟨Bool.false_ne_true, hchat⟩
      rw [ChoiceCarried, if_neg hno, pointer_chatFunction, Value.get, hname]
      exact ⟨rfl, rfl⟩
  | _ => cases h

theorem tools_carried {tools : List Value} (h : ∀ t ∈ tools, (toolToChat t).isNone = false) :
    (tools.filterMap toolToChat).length = tools.length ∧
      List.Forall₂ ToolCarried tools (tools.filterMap toolToChat) := by
  induction tools with
  | nil => exact ⟨rfl, .nil⟩
  | cons tool tools ih =>
    obtain ⟨htool, htools⟩ := List.forall_mem_cons.mp h
    obtain ⟨hlength, hcarried⟩ := ih htools
    cases hchat : toolToChat tool with
    | none => exact absurd htool (by rw [hchat]; decide)
    | some chat =>
      rw [List.filterMap_cons, hchat]
      exact ⟨congrArg Nat.succ hlength, .cons (toolToChat_carried hchat) hcarried⟩

theorem get_tools {obj : Fields} {tools : List Value} (h : obj.lookup "tools" = some (.array tools))
    (hall : ∀ t ∈ tools, (toolToChat t).isNone = false) :
    (requestToChat (.object obj)).get "tools" =
      some (.array (tools.filterMap toolToChat)) := by
  rw [get_requestToChat obj (by decide), setMessages_lookup (by decide),
    setToolChoice_lookup (by decide), setTools, h]
  dsimp only
  rw [if_pos (tools_carried hall).1, lookup_btreeInsert]

theorem get_toolChoice {obj : Fields} (h : obj.lookup "tool_choice" = some tc)
    (hchat : toolChoiceToChat tc = some chat) :
    (requestToChat (.object obj)).get "tool_choice" = some chat := by
  rw [get_requestToChat obj (by decide), setMessages_lookup (by decide), setToolChoice, h]
  dsimp only
  rw [hchat]
  exact lookup_btreeInsert _ _ _

-- ---------------------------------------------------------------------------
-- Items that are accepted
-- ---------------------------------------------------------------------------

theorem kept_of_accepted {p : Value} (h : isUntranslatablePart p = false) (withImage : Bool) :
    KeptPart withImage p := by
  rw [isUntranslatablePart] at h
  split_ifs at h with htext himage
  · exact .inl htext
  · refine .inr (.inl ⟨himage, ?_⟩)
    rw [partToChat, if_neg (by rw [not_text_of_image himage]; decide), if_pos himage,
      Option.isNone_map] at h
    rw [← Option.not_isNone, h]
    rfl

theorem oddKind_typeOf (h : oddKind item = true) : typeOf item = none := by
  obtain ⟨t, ht, hstr⟩ := (Option.any_eq_true _ _).mp h
  rw [typeOf, strAt, ht]
  exact Option.isNone_iff_eq_none.mp hstr

theorem contentToChat_isSome (h : (match content with
      | some (.string _) => false
      | some (.array parts) => parts.any isUntranslatablePart
      | _ => true) = false) :
    (contentToChat content).isSome = true ∧ KeptParts content := by
  match content, h with
  | some (.string s), h => exact ⟨rfl, fun parts hparts => nomatch hparts⟩
  | some (.array parts), h =>
    constructor
    · rw [contentToChat]
      split_ifs <;> rfl
    · rintro _ ⟨rfl⟩ p hp
      exact kept_of_accepted (Bool.eq_false_of_not_eq_true (List.any_eq_false.mp h p hp)) _

/-- An item with no `type`, or the type `message`. -/
theorem accepted_message {obj : Fields}
    (hkind : typeOf (.object obj) = none ∨ typeOf (.object obj) = some "message")
    (hcontent : (contentToChat (obj.lookup "content")).isSome = true) :
    (turnToMessage (.object obj)).isSome = true := by
  have hmessage : turnToMessage (.object obj) = turnToMessage.message (.object obj) obj := by
    rcases hkind with hk | hk <;> simp [turnToMessage, Value.asObject, hk]
  rw [hmessage, turnToMessage.message, Option.isSome_map]
  exact hcontent

theorem accepted_turn (h : isUntranslatableTurn item = false) (hkept : isDroppedItem item = false) :
    (turnToMessage item).isSome = true ∧
      (KeptItem item ↔ (oddKind item = true → KeptParts (item.get "content"))) := by
  rw [isUntranslatableTurn, hkept, if_neg (by decide)] at h
  cases item with
  | object obj => ?_
  | _ => cases h
  simp only [Value.asObject] at h
  split_ifs at h with htyped hrole
  · -- the translator was asked
    have hturn : (turnToMessage (.object obj)).isSome = true := by
      rw [← Option.not_isNone, h]
      rfl
    refine ⟨hturn, ?_⟩
    obtain ⟨t, ht, hne⟩ := (Option.any_eq_true _ _).mp htyped
    cases hodd : oddKind (.object obj) with
    | true =>
      have hnone := oddKind_typeOf hodd
      have hplain : isCall (.object obj) = false ∧ isOutput (.object obj) = false :=
        not_typed fun kind hk => by rw [hnone] at hk; cases hk
      exact ⟨fun hitem _ => hitem hplain.1 hplain.2, fun hparts _ _ => hparts rfl⟩
    | false =>
      obtain ⟨m, hm⟩ := Option.isSome_iff_exists.mp hturn
      refine iff_of_true (fun hcall houtput => ?_) fun hno => absurd hno (by decide)
      cases turnToMessage_turns hm with
      | call hyes => exact absurd (hcall.symm.trans hyes) (by decide)
      | output hyes => exact absurd (houtput.symm.trans hyes) (by decide)
      | turn hmessage =>
        have hstr : t.asStr.isNone = false := by
          rw [oddKind, Value.get, ht] at hodd
          exact hodd
        obtain ⟨kind, hkind⟩ := Option.isSome_iff_exists.mp
          (by rw [← Option.not_isNone, hstr]; rfl : t.asStr.isSome = true)
        have htype : typeOf (.object obj) = some kind := by
          rw [typeOf, strAt, Value.get, ht]
          exact hkind
        rw [hkind, hmessage kind htype] at hne
        exact absurd hne (by decide)
  · have hkind : typeOf (.object obj) = none ∨ typeOf (.object obj) = some "message" := by
      rw [typeOf, strAt, Value.get]
      cases ht : obj.lookup "type" with
      | none => exact .inl rfl
      | some t =>
        rw [ht, Option.any_some, decide_eq_true_eq, not_not] at htyped
        exact .inr htyped
    have hodd : oddKind (.object obj) = false := by
      rw [oddKind, Value.get]
      cases ht : obj.lookup "type" with
      | none => rfl
      | some t =>
        rw [ht, Option.any_some, decide_eq_true_eq, not_not] at htyped
        rw [Option.any_some, htyped]
        rfl
    obtain ⟨hcontent, hparts⟩ := contentToChat_isSome h
    refine ⟨accepted_message hkind hcontent, ?_⟩
    rw [hodd]
    exact iff_of_true (fun _ _ => hparts) fun hno => absurd hno (by decide)

-- ---------------------------------------------------------------------------
-- The messages of an accepted request
-- ---------------------------------------------------------------------------

/-- The input is a string or an array. -/
def InputGiven (obj : Fields) : Prop :=
  (∃ s, obj.lookup "input" = some (.string s)) ∨ ∃ turns, obj.lookup "input" = some (.array turns)

theorem items_accepted {obj : Fields} (h : hasUntranslatableContent (.object obj) = false) :
    ∀ item ∈ items obj, (turnToMessage item).isSome = true ∧
      (KeptItem item ↔ (oddKind item = true → KeptParts (item.get "content"))) := by
  intro item hitem
  rw [hasUntranslatableContent, Bool.or_eq_false_iff] at h
  have hturns := h.2
  rw [Value.get] at hturns
  rw [items] at hitem
  split at hitem
  next s hinput =>
    rw [List.mem_singleton.mp hitem]
    refine accepted_turn ?_ rfl
    rfl
  next turns hinput =>
    rw [hinput, Bool.or_eq_false_iff, List.any_eq_false] at hturns
    obtain ⟨hmem, hkept⟩ := List.mem_filter.mp hitem
    have hdropped : isDroppedItem item = false := by simpa using hkept
    exact accepted_turn (Bool.eq_false_of_not_eq_true (hturns.2 item hmem)) hdropped
  next => exact absurd hitem List.not_mem_nil

theorem inputMessages_rendered {obj : Fields} (hinput : InputGiven obj)
    (h : ∀ item ∈ items obj, (turnToMessage item).isSome = true) :
    ∃ ms, inputMessages obj = instructionMessages obj ++ ms ∧ Rendered (items obj) ms := by
  rcases hinput with ⟨s, hs⟩ | ⟨turns, hturns⟩
  · refine ⟨[.object [("content", .string s), ("role", .string "user")]], ?_, ?_⟩
    · rw [inputMessages, hs]
    · rw [items, hs]
      exact .single rfl rfl .nil
  · obtain ⟨ms, hms, hrendered⟩ := push_rendered (items obj) (instructionMessages obj)
      (fun prev hprev ha => absurd ha (by rw [instructions_not_assistant obj prev hprev]; decide)) h
    refine ⟨ms, ?_, hrendered⟩
    rw [← hms, inputMessages, hturns, items, hturns]
    rfl

theorem rendered_nil_iff {turns ms : List Value} (h : Rendered turns ms) :
    ms = [] ↔ turns = [] := by
  cases h with
  | nil => exact iff_of_true rfl rfl
  | group => exact iff_of_false (List.cons_ne_nil _ _) (List.cons_ne_nil _ _)

theorem instructionMessages_eq {obj : Fields}
    (h : ∀ v, obj.lookup "instructions" = some v → ∃ s, v = .string s) :
    instructionMessages obj = instructionItems obj := by
  rw [instructionMessages, instructionItems]
  cases hv : obj.lookup "instructions" with
  | none => rfl
  | some v =>
    obtain ⟨s, rfl⟩ := h v hv
    rfl

theorem chatMessages_eq {obj : Fields} (hinput : InputGiven obj)
    (hinstructions : ∀ v, obj.lookup "instructions" = some v → ∃ s, v = .string s)
    (h : ∀ item ∈ items obj, (turnToMessage item).isSome = true) :
    ∃ ms, chatMessages obj = leading obj ++ ms ∧ Rendered (items obj) ms := by
  obtain ⟨ms, hms, hrendered⟩ := inputMessages_rendered hinput h
  refine ⟨ms, ?_, hrendered⟩
  rw [instructionMessages_eq hinstructions] at hms
  rw [chatMessages, get_messages, hms, leading]
  by_cases hempty : items obj = [] ∧ instructionItems obj = []
  · have hnil := (rendered_nil_iff hrendered).mpr hempty.1
    rw [if_pos hempty, hnil, hempty.2, List.append_nil, List.append_nil, if_pos rfl]
    rfl
  · have hne : instructionItems obj ++ ms ≠ [] := by
      intro hnil
      obtain ⟨hfront, hback⟩ := List.append_eq_nil_iff.mp hnil
      exact hempty ⟨(rendered_nil_iff hrendered).mp hback, hfront⟩
    rw [if_neg hempty, if_neg hne]
    rfl

theorem followed_instructions (obj : Fields) (ms : List Value) :
    Followed (instructionItems obj ++ ms) ↔ Followed ms := by
  rw [instructionItems]
  cases obj.lookup "instructions" with
  | none => exact Iff.rfl
  | some v => exact followed_cons.trans ⟨fun h => h.2, fun h => ⟨fun ha => (nomatch ha), h⟩⟩

theorem accepted_tools {obj : Fields} (h : hasUntranslatableContent (.object obj) = false)
    {tools : List Value} (htools : obj.lookup "tools" = some (.array tools)) :
    ∀ t ∈ tools, (toolToChat t).isNone = false := by
  simp only [hasUntranslatableContent, Bool.or_eq_false_iff] at h
  have hall := h.1.1.1.1.2
  rw [Value.get, htools] at hall
  exact fun t ht => Bool.eq_false_of_not_eq_true (List.any_eq_false.mp hall t ht)

theorem accepted_toolChoice {obj : Fields} (h : hasUntranslatableContent (.object obj) = false)
    (htc : obj.lookup "tool_choice" = some tc) : ∃ chat, toolChoiceToChat tc = some chat := by
  simp only [hasUntranslatableContent, Bool.or_eq_false_iff] at h
  have hchoice := h.1.1.1.2
  rw [Value.get, htc, Option.any_some] at hchoice
  refine Option.isSome_iff_exists.mp ?_
  rw [← Option.not_isNone, hchoice]
  rfl

def userText (text : String) : Value :=
  .object [("content", .array [.object [("text", .string text), ("type", .string "input_text")]]),
    ("role", .string "user")]

def toolCall : Value :=
  .object [("arguments", .string "\x7b\x7d"), ("call_id", .string "c1"), ("name", .string "read"),
    ("type", .string "function_call")]

def toolOutput : Value :=
  .object [("call_id", .string "c1"), ("output", .string "done"),
    ("type", .string "function_call_output")]

def agentTurn : Fields :=
  [("input", .array [userText "Read it.", toolCall, toolOutput]),
    ("tools", .array [.object [("name", .string "read"), ("type", .string "function")]])]

/-- A file beside a text, in an item whose `type` is `null`. -/
def lostFile : Fields :=
  [("input", .array [.object
    [("content", .array
        [.object [("text", .string "Sum up."), ("type", .string "input_text")],
          .object [("file_id", .string "f1"), ("type", .string "input_file")]]),
      ("role", .string "user"), ("type", .null)]])]

end Firstpass.Responses
