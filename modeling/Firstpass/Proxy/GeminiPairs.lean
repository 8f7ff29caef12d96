import Firstpass.Proxy.GeminiTurns

/-!
# Results and their calls

`Conversation` is what the pairing check accepts: plain turns, and turns with
calls each followed by a turn of as many results.
-/

namespace Firstpass.Gemini

open Json
open Responses (strAt toolCalls isTool isAssistant)

-- ---------------------------------------------------------------------------
-- Paired messages
-- ---------------------------------------------------------------------------

def resultIds (messages : List Value) : List (Option Value) :=
  messages.map fun t => t.get "tool_call_id"

/-- The tool messages right after a message answer its calls, each once. -/
def AnswersCalls (m : Value) (rest : List Value) : Prop :=
  (resultIds (rest.takeWhile isTool)).Perm ((toolCalls m).map fun call => call.get "id") ∧
    (toolCalls m ≠ [] → isAssistant m = true)

def Later (messages : List Value) : Prop :=
  ∀ m rest, m :: rest <:+ messages → isTool m = false → AnswersCalls m rest

/-- Each group of tool messages answers the calls of the message before it. -/
structure Paired (messages : List Value) : Prop where
  front : messages.takeWhile isTool = []
  later : Later messages

theorem later_nil : Later [] := Carry.forall_suffix_nil

theorem later_cons : Later (m :: ms) ↔ (isTool m = false → AnswersCalls m ms) ∧ Later ms :=
  Carry.forall_suffix_cons (p := fun m rest => isTool m = false → AnswersCalls m rest)

theorem later_tools {tools : List Value} (h : ∀ t ∈ tools, isTool t = true) (ms : List Value) :
    Later (tools ++ ms) ↔ Later ms := by
  induction tools with
  | nil => exact Iff.rfl
  | cons t tools ih =>
    obtain ⟨ht, htools⟩ := List.forall_mem_cons.mp h
    rw [List.cons_append, later_cons, ih htools, ht]
    exact and_iff_right fun hno => absurd hno (by decide)

-- ---------------------------------------------------------------------------
-- What the pairing check accepts
-- ---------------------------------------------------------------------------

inductive Conversation : List Value → Prop
  | nil : Conversation []
  | plain {c : Value} {contents : List Value} : names c "functionResponse" = [] →
      names c "functionCall" = [] → Conversation contents → Conversation (c :: contents)
  | exchange {c c' : Value} {contents : List Value} : names c "functionResponse" = [] →
      names c "functionCall" ≠ [] → names c' "functionResponse" = names c "functionCall" →
      (partsOf c').length = (names c' "functionResponse").length →
      Conversation contents → Conversation (c :: c' :: contents)

/-- With calls pending, the next turn holds their results and nothing else. -/
theorem conversation_of_pairing {pending : List String} {contents : List Value}
    (h : pairingFrom pending contents = true) :
    (pending = [] → Conversation contents) ∧
      (pending ≠ [] → ∃ c rest, contents = c :: rest ∧ names c "functionResponse" = pending ∧
        (partsOf c).length = (names c "functionResponse").length ∧ Conversation rest) := by
  induction contents generalizing pending with
  | nil =>
    refine ⟨fun _ => .nil, fun hne => absurd (List.isEmpty_iff.mp h) hne⟩
  | cons c contents ih =>
    simp only [pairingFrom] at h
    split_ifs at h with hresponses hbad hpending
    · obtain ⟨hsame, hlength⟩ := not_or.mp hbad
      rw [not_not] at hsame hlength
      refine ⟨fun hnil => absurd (hsame.trans hnil) hresponses, fun _ => ?_⟩
      exact ⟨c, contents, rfl, hsame, hlength, (ih h).1 rfl⟩
    · rw [not_not] at hresponses hpending
      refine ⟨fun _ => ?_, fun hne => absurd hpending hne⟩
      by_cases hcalls : names c "functionCall" = []
      · exact .plain hresponses hcalls ((ih h).1 hcalls)
      · obtain ⟨c', rest, rfl, hsame, hlength, hrest⟩ := (ih h).2 hcalls
        exact .exchange hresponses hcalls hsame hlength hrest

/-- A turn with results holds nothing else. -/
theorem results_fill {contents : List Value} (h : Conversation contents) :
    ∀ c ∈ contents, names c "functionResponse" ≠ [] →
      (partsOf c).length = (names c "functionResponse").length := by
  induction h with
  | nil => exact fun c hc => absurd hc List.not_mem_nil
  | plain hresults _ _ ih =>
    exact List.forall_mem_cons.mpr ⟨fun hne => absurd hresults hne, ih⟩
  | exchange hresults _ _ hlength _ ih =>
    exact List.forall_mem_cons.mpr ⟨fun hne => absurd hresults hne,
      List.forall_mem_cons.mpr ⟨fun _ => hlength, ih⟩⟩

-- ---------------------------------------------------------------------------
-- How many calls and results a turn gives
-- ---------------------------------------------------------------------------

def nameStr (key : String) (p : Value) : Option String := (p.get key).bind (strAt "name")

theorem nameStr_eq (key : String) (p : Value) :
    nameStr key p = (nameAt key p).bind Value.asStr := by
  rw [nameStr, nameAt, Option.bind_assoc]
  rfl

theorem get_of_nameStr {key : String} {p : Value} (h : (nameStr key p).isSome = true) :
    ∃ v, p.get key = some v ∧ (strAt "name" v).isSome = true := by
  obtain ⟨name, hname⟩ := Option.isSome_iff_exists.mp h
  obtain ⟨v, hv, hstr⟩ := Option.bind_eq_some_iff.mp hname
  exact ⟨v, hv, Option.isSome_iff_exists.mpr ⟨name, hstr⟩⟩

/-- Where what is at a key is named, no name means that nothing is there. -/
theorem get_none_of_named {key : String} {p : Value}
    (h : ∀ v, p.get key = some v → (strAt "name" v).isSome = true) (hnone : nameStr key p = none) :
    p.get key = none := by
  cases hv : p.get key with
  | none => rfl
  | some v =>
    have hname := h v hv
    rw [nameStr, hv, Option.bind_some] at hnone
    rw [hnone] at hname
    cases hname

theorem length_names (c : Value) (key : String) :
    (names c key).length = (partsOf c).countP fun p => (nameStr key p).isSome :=
  List.length_filterMap_eq_countP

theorem length_chatCalls (turn : Nat) (parts : List Value) :
    (chatCalls turn parts).length = parts.countP fun p => (nameAt "functionCall" p).isSome := by
  rw [← List.length_map chatSaid, said_chatCalls, List.length_filterMap_eq_countP]
  refine congrArg (parts.countP ·) (funext fun p => ?_)
  rw [callGiven, Option.isSome_map]

theorem length_toolMessages (turn : Nat) (c : Value) :
    (toolMessages turn (partsOf c)).length = (names c "functionResponse").length := by
  rw [← List.length_map fun t => t.get "content", said_toolMessages,
    List.length_filterMap_eq_countP, length_names]
  refine congrArg ((partsOf c).countP ·) (funext fun p => ?_)
  rw [responseGiven, nameStr]
  cases p.get "functionResponse" with
  | none => rfl
  | some r => rw [Option.bind_some, Option.bind_some, Option.isSome_map]

theorem toolMessages_eq_nil {turn : Nat} {c : Value} :
    toolMessages turn (partsOf c) = [] ↔ names c "functionResponse" = [] := by
  rw [← List.length_eq_zero_iff, length_toolMessages, List.length_eq_zero_iff]

theorem chatCalls_eq_nil {turn : Nat} {parts : List Value} :
    chatCalls turn parts = [] ↔ ∀ p ∈ parts, nameAt "functionCall" p = none := by
  rw [← List.length_eq_zero_iff, length_chatCalls, List.countP_eq_zero]
  refine forall₂_congr fun p _ => ?_
  rw [Bool.not_eq_true, Option.isSome_eq_false_iff, Option.isNone_iff_eq_none]

/-- A named call is a call. -/
theorem chatCalls_ne_nil {c : Value} (h : names c "functionCall" ≠ []) (turn : Nat) :
    chatCalls turn (partsOf c) ≠ [] := by
  intro hnil
  refine h (List.filterMap_eq_nil_iff.mpr fun p hp => ?_)
  have hnone := nameStr_eq "functionCall" p
  rw [chatCalls_eq_nil.mp hnil p hp] at hnone
  exact hnone

theorem countP_imp {α : Type} {p q : α → Bool} {xs : List α} (himp : ∀ x, p x = true → q x = true)
    (h : xs.countP q = xs.countP p) : ∀ x ∈ xs, q x = true → p x = true := by
  induction xs with
  | nil => exact fun x hx => absurd hx List.not_mem_nil
  | cons x xs ih =>
    have hle : xs.countP p ≤ xs.countP q := List.countP_mono_left fun x _ => himp x
    rw [List.countP_cons, List.countP_cons] at h
    refine List.forall_mem_cons.mpr ⟨fun hq => ?_, ih ?_⟩
    · by_contra hp
      rw [if_pos hq, if_neg hp] at h
      omega
    · split_ifs at h with hq hp hp
      · omega
      · omega
      · exact absurd (himp x hp) hq
      · omega

/-- As many names as calls: every name is a string. -/
theorem string_names {c : Value}
    (h : (chatCalls turn (partsOf c)).length = (names c "functionCall").length) :
    ∀ p ∈ partsOf c, ∀ name, nameAt "functionCall" p = some name → name.asStr.isSome = true := by
  intro p hp name hname
  rw [length_chatCalls, length_names] at h
  have himp : ∀ p, (nameStr "functionCall" p).isSome = true →
      (nameAt "functionCall" p).isSome = true := by
    intro p hsome
    obtain ⟨n, hn⟩ := Option.isSome_iff_exists.mp hsome
    rw [nameStr_eq] at hn
    obtain ⟨v, hv, -⟩ := Option.bind_eq_some_iff.mp hn
    rw [hv]
    rfl
  have hstr := countP_imp himp h p hp (by rw [hname]; rfl)
  rwa [nameStr_eq, hname] at hstr

-- ---------------------------------------------------------------------------
-- The messages of a conversation
-- ---------------------------------------------------------------------------

/-- A turn without calls and results is not a tool's. -/
def Spoken (c : Value) : Prop :=
  (∀ p ∈ partsOf c, nameAt "functionCall" p = none) → names c "functionResponse" = [] →
    turnRole c ≠ "tool"

theorem messages_plain (h : IsTurn c) {turn : Nat} (hcalls : chatCalls turn (partsOf c) = [])
    (hresults : names c "functionResponse" = []) : contentToMessages c turn = [plainMessage c] := by
  rw [turn_messages h, if_neg (not_not.mpr hcalls),
    if_neg (not_not.mpr (toolMessages_eq_nil.mpr hresults))]

theorem messages_calls (h : IsTurn c) {turn : Nat} (hcalls : chatCalls turn (partsOf c) ≠ []) :
    contentToMessages c turn =
      [assistantMessage (textFromParts (partsOf c)) (chatCalls turn (partsOf c))] := by
  rw [turn_messages h, if_pos hcalls]

theorem messages_results (h : IsTurn c) {turn : Nat} (hcalls : chatCalls turn (partsOf c) = [])
    (hresults : names c "functionResponse" ≠ []) :
    contentToMessages c turn = toolMessages turn (partsOf c) := by
  rw [turn_messages h, if_neg (not_not.mpr hcalls), if_pos (mt toolMessages_eq_nil.mp hresults)]

theorem isTool_plain (c : Value) : isTool (plainMessage c) = decide (turnRole c = "tool") := by
  have hrole : strAt "role" (plainMessage c) = some (turnRole c) := rfl
  simp [isTool, hrole]

theorem takeWhile_tools {tools : List Value} (h : ∀ t ∈ tools, isTool t = true) (ms : List Value) :
    (tools ++ ms).takeWhile isTool = tools ++ ms.takeWhile isTool :=
  List.takeWhile_append_of_pos h

/-- A turn of which every call has a string name, and every result stands alone. -/
structure GoodTurn (c : Value) : Prop where
  turn : IsTurn c
  named : ∀ p ∈ partsOf c, ∀ v, p.get "functionCall" = some v → (strAt "name" v).isSome = true
  alone : ∀ p ∈ partsOf c, (p.get "functionResponse").isSome = true → p.get "functionCall" = none
  spoken : Spoken c

theorem GoodTurn.names_eq (h : GoodTurn c) (hcalls : names c "functionCall" = []) :
    ∀ p ∈ partsOf c, nameAt "functionCall" p = none := by
  intro p hp
  rw [nameAt, get_none_of_named (h.named p hp) (List.filterMap_eq_nil_iff.mp hcalls p hp)]
  rfl

theorem GoodTurn.ids (h : GoodTurn c) (turn : Nat) :
    ((chatCalls turn (partsOf c)).map fun call => call.get "id") =
      placeIds turn 0 (names c "functionCall").length := by
  have hlength : ((partsOf c).filterMap callObject).length = (names c "functionCall").length := by
    rw [List.length_filterMap_eq_countP, length_names]
    refine List.countP_congr fun p hp => ?_
    rcases callObject_cases p with ⟨fc, part, rfl, hpart⟩ | ⟨hnone, hname⟩
    · have hname := h.named _ hp _ hpart
      rw [callObject_object hpart, nameStr, Value.get, hpart]
      exact iff_of_true rfl hname
    · rw [hnone, nameStr_eq, hname]
      rfl
  rw [← hlength]
  refine ids_eq (byPlace_chatCall turn) (fun x hx idx => ?_) 0
  obtain ⟨p, hp, hobject⟩ := List.mem_filterMap.mp hx
  rcases callObject_cases p with ⟨fc, part, rfl, hpart⟩ | ⟨hnone, -⟩
  · rw [callObject_object hpart] at hobject
    cases hobject
    obtain ⟨name, hname⟩ := Option.isSome_iff_exists.mp (h.named _ hp _ hpart)
    obtain ⟨v, hv, -⟩ := Option.bind_eq_some_iff.mp hname
    have hlookup : fc.lookup "name" = some v := hv
    rw [chatCall, hlookup]
    rfl
  · rw [hnone] at hobject
    cases hobject

/-- Where every part is a named result, none is a call. -/
theorem GoodTurn.no_calls (h : GoodTurn c)
    (hlength : (partsOf c).length = (names c "functionResponse").length) :
    ∀ p ∈ partsOf c, p.get "functionCall" = none := by
  intro p hp
  obtain ⟨r, hr, -⟩ := get_of_nameStr (List.filterMap_length_eq_length.mp hlength.symm p hp)
  refine h.alone p hp ?_
  rw [hr]
  rfl

/-- A part that is a named result. -/
theorem responseObject_named (h : (nameStr "functionResponse" p).isSome = true) :
    ∃ fr name, responseObject p = some fr ∧ fr.lookup "name" = some (.string name) := by
  obtain ⟨name, hname⟩ := Option.isSome_iff_exists.mp h
  obtain ⟨r, hr, hstr⟩ := Option.bind_eq_some_iff.mp hname
  obtain ⟨v, hv, hv'⟩ := Option.bind_eq_some_iff.mp hstr
  cases p with
  | object part =>
    cases r with
    | object fr =>
      cases v with
      | string s =>
        refine ⟨fr, s, ?_, hv⟩
        have hpart : part.lookup "functionResponse" = some (.object fr) := hr
        simp [responseObject, Value.asObject, hpart]
      | _ => cases hv'
    | _ => cases hv
  | _ => cases hr

theorem ids_results {c : Value} (h : (partsOf c).length = (names c "functionResponse").length)
    (turn : Nat) : resultIds (toolMessages (turn + 1) (partsOf c)) =
      placeIds turn 0 (names c "functionResponse").length := by
  have hnamed : ∀ p ∈ partsOf c, (nameStr "functionResponse" p).isSome = true :=
    List.filterMap_length_eq_length.mp h.symm
  have hlength : ((partsOf c).filterMap responseObject).length = (partsOf c).length := by
    refine List.filterMap_length_eq_length.mpr fun p hp => ?_
    obtain ⟨fr, name, hobject, -⟩ := responseObject_named (hnamed p hp)
    rw [hobject]
    rfl
  rw [← h, ← hlength]
  refine ids_eq (byPlace_toolMessage (turn + 1)) (fun fr hfr idx => ?_) 0
  obtain ⟨p, hp, hobject⟩ := List.mem_filterMap.mp hfr
  obtain ⟨fr', name, hobject', hname⟩ := responseObject_named (hnamed p hp)
  rw [hobject] at hobject'
  cases hobject'
  rw [toolMessage, hname]
  rfl

-- ---------------------------------------------------------------------------
-- Good turns are paired
-- ---------------------------------------------------------------------------

/-- The messages of good turns pair up, and list calls and results in the same order. -/
structure InStep (messages : List Value) : Prop where
  paired : Paired messages
  ids : callIds messages = resultIds (messages.filter isTool)

theorem inStep_plain {ms : List Value} (hm : isTool m = false) (hcalls : toolCalls m = [])
    (h : InStep ms) : InStep (m :: ms) := by
  refine ⟨⟨List.takeWhile_cons_of_neg (by rw [hm]; decide), later_cons.mpr ⟨fun _ => ?_,
    h.paired.later⟩⟩, ?_⟩
  · rw [AnswersCalls, h.paired.front, hcalls]
    exact ⟨List.Perm.refl _, fun hne => absurd rfl hne⟩
  · rw [callIds, List.flatMap_cons, hcalls, List.nil_append,
      List.filter_cons_of_neg (by rw [hm]; decide)]
    exact h.ids

theorem inStep_exchange {tools ms : List Value} (hm : isTool m = false)
    (hassistant : isAssistant m = true) (htools : ∀ t ∈ tools, isTool t = true)
    (hnone : tools.flatMap toolCalls = [])
    (hids : ((toolCalls m).map fun call => call.get "id") = resultIds tools) (h : InStep ms) :
    InStep (m :: (tools ++ ms)) := by
  refine ⟨⟨List.takeWhile_cons_of_neg (by rw [hm]; decide), later_cons.mpr ⟨fun _ => ?_,
    (later_tools htools ms).mpr h.paired.later⟩⟩, ?_⟩
  · rw [AnswersCalls, takeWhile_tools htools, h.paired.front, List.append_nil, hids]
    exact ⟨List.Perm.refl _, fun _ => hassistant⟩
  · rw [callIds, List.flatMap_cons, List.flatMap_append, hnone, List.nil_append, List.map_append,
      hids, List.filter_cons_of_neg (by rw [hm]; decide), List.filter_append,
      List.filter_eq_self.mpr htools, resultIds, resultIds, List.map_append]
    exact congrArg _ h.ids

theorem inStep_of_good {contents : List Value} (h : Conversation contents)
    (hgood : ∀ c ∈ contents, GoodTurn c) (turn : Nat) : InStep (messagesFrom turn contents) := by
  induction h generalizing turn with
  | nil => exact ⟨⟨rfl, later_nil⟩, rfl⟩
  | @plain c contents hresults hcalls _ ih =>
    obtain ⟨hc, hcontents⟩ := List.forall_mem_cons.mp hgood
    have hnames := hc.names_eq hcalls
    rw [messagesFrom_cons, messages_plain hc.turn (chatCalls_eq_nil.mpr hnames) hresults]
    refine inStep_plain ?_ rfl (ih hcontents (turn + 1))
    rw [isTool_plain]
    exact decide_eq_false (hc.spoken hnames hresults)
  | @exchange c c' contents hresults hcalls hsame hlength _ ih =>
    obtain ⟨hc, hrest⟩ := List.forall_mem_cons.mp hgood
    obtain ⟨hc', hcontents⟩ := List.forall_mem_cons.mp hrest
    have hnone : chatCalls (turn + 1) (partsOf c') = [] := by
      refine chatCalls_eq_nil.mpr fun p hp => ?_
      rw [nameAt, hc'.no_calls hlength p hp]
      rfl
    have htools : names c' "functionResponse" ≠ [] := hsame ▸ hcalls
    rw [messagesFrom_cons, messagesFrom_cons, messages_calls hc.turn (chatCalls_ne_nil hcalls turn),
      messages_results hc'.turn hnone htools, List.singleton_append]
    refine inStep_exchange rfl rfl isTool_toolMessages (toolCalls_toolMessages _ _) ?_
      (ih hcontents (turn + 2))
    rw [ids_results hlength, hsame]
    exact hc.ids turn

-- ---------------------------------------------------------------------------
-- Paired messages are of good turns
-- ---------------------------------------------------------------------------

/-- What the pairing of the messages says of a turn. -/
structure PairedTurn (c : Value) : Prop where
  spoken : Spoken c
  strings : ∀ p ∈ partsOf c, ∀ name, nameAt "functionCall" p = some name →
    name.asStr.isSome = true
  alone : names c "functionResponse" ≠ [] → ∀ p ∈ partsOf c, nameAt "functionCall" p = none

/-- Ids that answer calls are there. -/
theorem isSome_of_answers {parts : List Value} {ids : List (Option Value)}
    (h : ids.Perm ((chatCalls turn parts).map fun call => call.get "id")) :
    ∀ id ∈ ids, id.isSome = true := by
  intro id hid
  obtain ⟨idx, -, rfl⟩ := List.mem_map.mp ((ids_chatCalls turn parts).subset (h.subset hid))
  rfl

/-- Calls that no tool message follows are none. -/
theorem toolCalls_of_unanswered {ms : List Value} (h : AnswersCalls m ms)
    (hfront : ms.takeWhile isTool = []) : toolCalls m = [] := by
  have hlength := h.1.length_eq
  rw [hfront, List.length_map] at hlength
  exact List.length_eq_zero_iff.mp hlength.symm

theorem pairedTurns {contents : List Value} (h : Conversation contents)
    (hturns : ∀ c ∈ contents, IsTurn c) (turn : Nat) (hlater : Later (messagesFrom turn contents))
    (hids : ∀ id ∈ resultIds ((messagesFrom turn contents).takeWhile isTool), id.isSome = true) :
    (messagesFrom turn contents).takeWhile isTool = [] ∧ ∀ c ∈ contents, PairedTurn c := by
  induction h generalizing turn with
  | nil => exact ⟨rfl, fun c hc => absurd hc List.not_mem_nil⟩
  | @plain c contents hresults hcalls _ ih =>
    obtain ⟨hc, hcontents⟩ := List.forall_mem_cons.mp hturns
    rw [messagesFrom_cons] at hlater hids ⊢
    by_cases hnone : chatCalls turn (partsOf c) = []
    · rw [messages_plain hc hnone hresults, List.singleton_append] at hlater hids ⊢
      have hm : isTool (plainMessage c) = false := by
        by_contra htool
        rw [List.takeWhile_cons_of_pos (Bool.eq_true_of_not_eq_false htool)] at hids
        have hid : ((plainMessage c).get "tool_call_id").isSome = true :=
          hids _ List.mem_cons_self
        cases hid
      have hanswers := (later_cons.mp hlater).1 hm
      have hfront : resultIds ((messagesFrom (turn + 1) contents).takeWhile isTool) = [] :=
        List.perm_nil.mp hanswers.1
      obtain ⟨-, hrest⟩ := ih hcontents (turn + 1) (later_cons.mp hlater).2 (by
        rw [hfront]
        exact fun id hid => absurd hid List.not_mem_nil)
      refine ⟨List.takeWhile_cons_of_neg (by rw [hm]; decide), List.forall_mem_cons.mpr ⟨?_, hrest⟩⟩
      refine ⟨fun _ _ hrole => ?_, fun p hp name hname => ?_, fun hne => absurd hresults hne⟩
      · rw [isTool_plain, decide_eq_false_iff_not] at hm
        exact hm hrole
      · rw [chatCalls_eq_nil.mp hnone p hp] at hname
        cases hname
    · -- calls that nothing answers
      rw [messages_calls hc hnone, List.singleton_append] at hlater
      have hanswers := (later_cons.mp hlater).1 rfl
      obtain ⟨hfront, -⟩ := ih hcontents (turn + 1) (later_cons.mp hlater).2
        (isSome_of_answers hanswers.1)
      exact absurd (toolCalls_of_unanswered hanswers hfront) hnone
  | @exchange c c' contents hresults hcalls hsame hlength _ ih =>
    obtain ⟨hc, hrest⟩ := List.forall_mem_cons.mp hturns
    obtain ⟨hc', hcontents⟩ := List.forall_mem_cons.mp hrest
    have hsome := chatCalls_ne_nil hcalls turn
    have htools : names c' "functionResponse" ≠ [] := hsame ▸ hcalls
    rw [messagesFrom_cons, messagesFrom_cons, messages_calls hc hsome, List.singleton_append]
      at hlater ⊢
    obtain ⟨hanswers, hlater⟩ := later_cons.mp hlater
    have hnone : chatCalls (turn + 1) (partsOf c') = [] := by
      -- else calls follow calls, and those before have no answer
      by_contra hmore
      refine hsome (toolCalls_of_unanswered (hanswers rfl) ?_)
      rw [messages_calls hc' hmore, List.singleton_append,
        List.takeWhile_cons_of_neg Bool.false_ne_true]
    have hanswers := (hanswers rfl).1
    rw [messages_results hc' hnone htools] at hlater hanswers
    rw [takeWhile_tools isTool_toolMessages, resultIds, List.map_append] at hanswers
    obtain ⟨hfront, hgood⟩ := ih hcontents (turn + 2)
      ((later_tools isTool_toolMessages _).mp hlater)
      fun id hid => isSome_of_answers hanswers id (List.mem_append_right _ hid)
    refine ⟨List.takeWhile_cons_of_neg Bool.false_ne_true, List.forall_mem_cons.mpr ⟨?_,
      List.forall_mem_cons.mpr ⟨?_, hgood⟩⟩⟩
    · have hlength := hanswers.length_eq
      rw [hfront, List.map_nil, List.append_nil, List.length_map, List.length_map,
        length_toolMessages, hsame] at hlength
      refine ⟨fun hno => ?_, string_names hlength.symm, fun hne => absurd hresults hne⟩
      exact absurd (chatCalls_eq_nil.mpr hno) hsome
    · refine ⟨fun _ hno => absurd hno htools, fun p hp name hname => ?_,
        fun _ => chatCalls_eq_nil.mp hnone⟩
      rw [chatCalls_eq_nil.mp hnone p hp] at hname
      cases hname

end Firstpass.Gemini
