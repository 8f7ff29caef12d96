import Firstpass.Core.JsonText
import Firstpass.Proxy.Gemini
import Firstpass.Proxy.ResponsesGroups
import Mathlib.Data.List.Basic
import Mathlib.Data.List.Nodup

/-!
# The messages of one turn

The ids of the calls of a turn are those of their places, and no two calls of a
request have one id. What the messages of a turn say is read off its parts.
-/

namespace Firstpass.Gemini

open Json
open Responses (strAt member toolCalls isTool isAssistant)

-- ---------------------------------------------------------------------------
-- Ids
-- ---------------------------------------------------------------------------

theorem callId_inj (h : callId turn idx = callId turn' idx') : turn = turn' ∧ idx = idx' := by
  have hfree : ∀ n, '_' ∉ Nat.toDigits 10 n := fun n => not_mem_toDigits (by decide)
  have htext : ∀ turn idx, (callId turn idx).toList =
      "call_".toList ++ (Nat.toDigits 10 turn ++ '_' :: Nat.toDigits 10 idx) := by
    intro turn idx
    simp [callId, String.toList_append]
  have hchars := congrArg String.toList h
  rw [htext, htext] at hchars
  obtain ⟨hturn, -, hidx⟩ := (List.append_cons_inj_of_notMem (hfree turn) (hfree idx)).mp
    (List.append_cancel_left hchars)
  exact ⟨toDigits_injective hturn, toDigits_injective hidx⟩

/-- The ids by place, of the places from `first` on. -/
def placeIds (turn first count : Nat) : List (Option Value) :=
  (List.range' first count).map fun idx => some (.string (callId turn idx))

theorem nodup_placeIds (turn first count : Nat) : (placeIds turn first count).Nodup := by
  refine List.Nodup.map (fun idx idx' h => ?_) List.nodup_range'
  simp only [Option.some.injEq, Value.string.injEq] at h
  exact (callId_inj h).2

section
variable {α : Type} {f : α → Nat → Option Value} {key : String}

/-- What is given place by place, with the place's id at a key. -/
def ByPlace (f : α → Nat → Option Value) (turn : Nat) (key : String) : Prop :=
  ∀ x idx v, f x idx = some v → v.get key = some (.string (callId turn idx))

theorem placeIds_succ (turn first count : Nat) : placeIds turn first (count + 1) =
    some (.string (callId turn first)) :: placeIds turn (first + 1) count := rfl

theorem ids_sublist (h : ByPlace f turn key) (xs : List α) (first : Nat) :
    (((xs.zipIdx first).filterMap fun x => f x.1 x.2).map fun v => v.get key).Sublist
      (placeIds turn first xs.length) := by
  induction xs generalizing first with
  | nil => exact List.Sublist.refl _
  | cons x xs ih =>
    rw [List.zipIdx_cons, List.length_cons, placeIds_succ, List.filterMap_cons]
    cases hx : f x first with
    | none => exact (ih (first + 1)).cons _
    | some v =>
      rw [List.map_cons, h x first v hx]
      exact (ih (first + 1)).cons_cons _

theorem ids_eq (h : ByPlace f turn key) {xs : List α}
    (hsome : ∀ x ∈ xs, ∀ idx, (f x idx).isSome = true) (first : Nat) :
    (((xs.zipIdx first).filterMap fun x => f x.1 x.2).map fun v => v.get key) =
      placeIds turn first xs.length := by
  induction xs generalizing first with
  | nil => rfl
  | cons x xs ih =>
    obtain ⟨hx, hxs⟩ := List.forall_mem_cons.mp hsome
    obtain ⟨v, hv⟩ := Option.isSome_iff_exists.mp (hx first)
    rw [List.zipIdx_cons, List.length_cons, placeIds_succ, List.filterMap_cons, hv, List.map_cons,
      h x first v hv, ih hxs]

/-- What does not depend on the place can be read off without it. -/
theorem map_byPlace {β : Type} {g : α → Option β} {said : Value → β} {xs : List α}
    (h : ∀ x ∈ xs, ∀ idx, (f x idx).map said = g x) (first : Nat) :
    ((xs.zipIdx first).filterMap fun x => f x.1 x.2).map said = xs.filterMap g := by
  induction xs generalizing first with
  | nil => rfl
  | cons x xs ih =>
    obtain ⟨hx, hxs⟩ := List.forall_mem_cons.mp h
    rw [List.zipIdx_cons, List.filterMap_cons, List.filterMap_cons, ← ih hxs (first + 1),
      ← hx first]
    cases f x first with
    | none => rfl
    | some v => rfl

end

theorem byPlace_chatCall (turn : Nat) :
    ByPlace (fun (x : Fields × Fields) idx => chatCall turn idx x.1 x.2) turn "id" := by
  intro x idx v h
  obtain ⟨name, -, rfl⟩ := Option.map_eq_some_iff.mp h
  cases signatureExtra x.2 with
  | none => rfl
  | some extra => rfl

theorem byPlace_toolMessage (turn : Nat) :
    ByPlace (fun fr idx => toolMessage turn idx fr) (turn - 1) "tool_call_id" := by
  intro fr idx v h
  obtain ⟨name, -, rfl⟩ := Option.map_eq_some_iff.mp h
  rfl

theorem ids_chatCalls (turn : Nat) (parts : List Value) :
    ((chatCalls turn parts).map fun v => v.get "id").Sublist
      (placeIds turn 0 (parts.filterMap callObject).length) :=
  ids_sublist (byPlace_chatCall turn) _ 0

-- ---------------------------------------------------------------------------
-- What parts and messages say
-- ---------------------------------------------------------------------------

def nameAt (key : String) (p : Value) : Option Value := (p.get key).bind (·.get "name")

structure CallSaid where
  name : Option Value
  arguments : Option Value
  signature : Option Value

/-- What a call part says; arguments it has not are an empty object. -/
def partSaid (p : Value) : CallSaid where
  name := nameAt "functionCall" p
  arguments :=
    some (.string (((p.get "functionCall").bind (·.get "args")).getD (.object [])).toText)
  signature := (strAt "thoughtSignature" p).map .string

def chatSaid (call : Value) : CallSaid where
  name := call.pointer ["function", "name"]
  arguments := call.pointer ["function", "arguments"]
  signature := call.pointer ["extra_content", "google", "thought_signature"]

/-- What a result says, as the content of its tool message. -/
def responseSaid (r : Value) : Option Value :=
  some (.string ((r.get "response").getD (.object [])).toText)

def callGiven (p : Value) : Option CallSaid := (nameAt "functionCall" p).map fun _ => partSaid p

def responseGiven (p : Value) : Option (Option Value) :=
  (p.get "functionResponse").bind fun r => (strAt "name" r).map fun _ => responseSaid r

theorem said_chatCall {fc part : Fields} (hpart : part.lookup "functionCall" = some (.object fc))
    (idx : Nat) : (chatCall turn idx fc part).map chatSaid = callGiven (.object part) := by
  have hname : nameAt "functionCall" (.object part) = fc.lookup "name" := by
    rw [nameAt, Value.get, hpart]
    rfl
  rw [callGiven, hname, chatCall, Option.map_map]
  cases hsaid : fc.lookup "name" with
  | none => rfl
  | some name =>
    have hget : (Value.object part).get "functionCall" = some (.object fc) := hpart
    rw [Option.map_some, Option.map_some, partSaid, hname, hsaid, hget, strAt, Value.get]
    refine congrArg some ?_
    cases hsig : (part.lookup "thoughtSignature").bind Value.asStr with
    | none =>
      have hextra : signatureExtra part = none := by rw [signatureExtra, hsig]; rfl
      rw [Function.comp_apply, hextra]
      rfl
    | some sig =>
      have hextra : signatureExtra part =
          some (.object [("google", .object [("thought_signature", .string sig)])]) := by
        rw [signatureExtra, hsig]; rfl
      rw [Function.comp_apply, hextra]
      rfl

/-- A part has an object for a call, or no name for one. -/
theorem callObject_cases (p : Value) :
    (∃ fc part, p = .object part ∧ part.lookup "functionCall" = some (.object fc)) ∨
      (callObject p = none ∧ nameAt "functionCall" p = none) := by
  cases p with
  | object part =>
    cases hcall : part.lookup "functionCall" with
    | none =>
      exact .inr ⟨by simp [callObject, Value.asObject, hcall], by simp [nameAt, Value.get, hcall]⟩
    | some v =>
      cases v with
      | object fc => exact .inl ⟨fc, part, rfl, hcall⟩
      | _ =>
        exact .inr ⟨by simp [callObject, Value.asObject, hcall],
          by simp [nameAt, Value.get, hcall]⟩
  | _ => exact .inr ⟨rfl, rfl⟩

theorem callObject_object {fc part : Fields}
    (h : part.lookup "functionCall" = some (.object fc)) :
    callObject (.object part) = some (fc, part) := by
  simp [callObject, Value.asObject, h]

theorem mem_callObjects {parts : List Value} {x : Fields × Fields}
    (h : x ∈ parts.filterMap callObject) : x.2.lookup "functionCall" = some (.object x.1) := by
  obtain ⟨p, -, hp⟩ := List.mem_filterMap.mp h
  rcases callObject_cases p with ⟨fc, part, rfl, hpart⟩ | ⟨hnone, -⟩
  · rw [callObject_object hpart] at hp
    cases hp
    exact hpart
  · rw [hnone] at hp
    cases hp

theorem said_chatCalls (turn : Nat) (parts : List Value) :
    (chatCalls turn parts).map chatSaid = parts.filterMap callGiven := by
  have hplace : ∀ x ∈ parts.filterMap callObject, ∀ idx,
      (chatCall turn idx x.1 x.2).map chatSaid = callGiven (.object x.2) :=
    fun x hx idx => said_chatCall (mem_callObjects hx) idx
  refine (map_byPlace hplace 0).trans ?_
  rw [List.filterMap_filterMap]
  refine List.filterMap_congr fun p _ => ?_
  rcases callObject_cases p with ⟨fc, part, rfl, hpart⟩ | ⟨hnone, hname⟩
  · rw [callObject_object hpart]
    rfl
  · rw [hnone, callGiven, hname]
    rfl

theorem said_toolMessages (turn : Nat) (parts : List Value) :
    ((toolMessages turn parts).map fun t => t.get "content") = parts.filterMap responseGiven := by
  have hplace : ∀ fr ∈ parts.filterMap responseObject, ∀ idx,
      (toolMessage turn idx fr).map (fun t => t.get "content") =
        (strAt "name" (.object fr)).map fun _ => responseSaid (.object fr) := by
    intro fr _ idx
    rw [toolMessage, Option.map_map]
    rfl
  refine (map_byPlace hplace 0).trans ?_
  rw [List.filterMap_filterMap]
  refine List.filterMap_congr fun p _ => ?_
  cases p with
  | object part =>
    cases hpart : part.lookup "functionResponse" with
    | none => simp [responseObject, responseGiven, Value.asObject, Value.get, hpart]
    | some v =>
      cases v with
      | object fr => simp [responseObject, responseGiven, Value.asObject, Value.get, hpart]
      | _ => simp [responseObject, responseGiven, Value.asObject, Value.get, hpart, strAt]
  | _ => rfl

-- ---------------------------------------------------------------------------
-- The messages of a turn
-- ---------------------------------------------------------------------------

/-- A turn with an array of parts. -/
def IsTurn (c : Value) : Prop := ((c.get "parts").bind Value.asArray).isSome = true

def turnRole (c : Value) : String := chatRole (c.asObject.getD [])

def plainMessage (c : Value) : Value :=
  .object [("content", .string (textFromParts (partsOf c))), ("role", .string (turnRole c))]

theorem turn_messages (h : IsTurn c) (turn : Nat) : contentToMessages c turn =
    if chatCalls turn (partsOf c) ≠ [] then
      [assistantMessage (textFromParts (partsOf c)) (chatCalls turn (partsOf c))]
    else if toolMessages turn (partsOf c) ≠ [] then toolMessages turn (partsOf c)
    else [plainMessage c] := by
  obtain ⟨parts, hparts⟩ := Option.isSome_iff_exists.mp h
  cases c with
  | object obj =>
    have hlookup : (obj.lookup "parts").bind Value.asArray = some parts := hparts
    have hpartsOf : partsOf (.object obj) = parts := by
      rw [partsOf, hparts]
      rfl
    rw [contentToMessages, plainMessage, hpartsOf]
    simp only [Value.asObject, hlookup]
    rfl
  | _ => cases hparts

theorem toolMessage_cases {parts : List Value} (h : t ∈ toolMessages turn parts) :
    ∃ (idx : Nat) (fr : Fields), t = .object
      [("content", .string ((fr.lookup "response").getD (.object [])).toText),
        ("role", .string "tool"), ("tool_call_id", .string (callId (turn - 1) idx))] := by
  obtain ⟨⟨fr, idx⟩, -, ht⟩ := List.mem_filterMap.mp h
  obtain ⟨name, -, rfl⟩ := Option.map_eq_some_iff.mp ht
  exact ⟨idx, fr, rfl⟩

theorem toolCalls_toolMessages (turn : Nat) (parts : List Value) :
    (toolMessages turn parts).flatMap toolCalls = [] := by
  refine List.flatMap_eq_nil_iff.mpr fun t ht => ?_
  obtain ⟨idx, fr, rfl⟩ := toolMessage_cases ht
  rfl

theorem isTool_toolMessages {parts : List Value} :
    ∀ t ∈ toolMessages turn parts, isTool t = true := by
  intro t ht
  obtain ⟨idx, fr, rfl⟩ := toolMessage_cases ht
  rfl

/-- A turn's messages hold the calls of its parts. -/
theorem toolCalls_turn (h : IsTurn c) (turn : Nat) :
    (contentToMessages c turn).flatMap toolCalls = chatCalls turn (partsOf c) := by
  rw [turn_messages h]
  split_ifs with hcalls htools
  · rw [List.flatMap_singleton]
    rfl
  · rw [toolCalls_toolMessages, not_not.mp hcalls]
  · rw [List.flatMap_singleton, not_not.mp hcalls]
    rfl

/-- The messages of turns, the first of which has the given index. -/
def messagesFrom (turn : Nat) (contents : List Value) : List Value :=
  (contents.zipIdx turn).flatMap fun (content, turn) => contentToMessages content turn

theorem messagesFrom_cons (turn : Nat) (c : Value) (contents : List Value) :
    messagesFrom turn (c :: contents) =
      contentToMessages c turn ++ messagesFrom (turn + 1) contents := rfl

def callIds (messages : List Value) : List (Option Value) :=
  (messages.flatMap toolCalls).map fun call => call.get "id"

theorem callIds_append (ms ms' : List Value) : callIds (ms ++ ms') = callIds ms ++ callIds ms' := by
  rw [callIds, List.flatMap_append, List.map_append]
  rfl

theorem callIds_turn (h : IsTurn c) (turn : Nat) :
    (callIds (contentToMessages c turn)).Sublist
      (placeIds turn 0 ((partsOf c).filterMap callObject).length) := by
  rw [callIds, toolCalls_turn h]
  exact ids_chatCalls turn _

theorem callIds_from {contents : List Value} (h : ∀ c ∈ contents, IsTurn c) :
    ∀ id ∈ callIds (messagesFrom turn contents),
      ∃ turn' idx, turn ≤ turn' ∧ id = some (.string (callId turn' idx)) := by
  induction contents generalizing turn with
  | nil => exact fun id hid => absurd hid List.not_mem_nil
  | cons c contents ih =>
    obtain ⟨hc, hcontents⟩ := List.forall_mem_cons.mp h
    intro id hid
    rw [messagesFrom_cons, callIds_append, List.mem_append] at hid
    rcases hid with hid | hid
    · obtain ⟨idx, -, rfl⟩ := List.mem_map.mp ((callIds_turn hc turn).subset hid)
      exact ⟨turn, idx, le_rfl, rfl⟩
    · obtain ⟨turn', idx, hle, rfl⟩ := ih hcontents id hid
      exact ⟨turn', idx, Nat.le_of_succ_le hle, rfl⟩

/-- No two calls have one id, whatever the turns hold. -/
theorem nodup_callIds {contents : List Value} (h : ∀ c ∈ contents, IsTurn c) (turn : Nat) :
    (callIds (messagesFrom turn contents)).Nodup := by
  induction contents generalizing turn with
  | nil => exact List.nodup_nil
  | cons c contents ih =>
    obtain ⟨hc, hcontents⟩ := List.forall_mem_cons.mp h
    rw [messagesFrom_cons, callIds_append, List.nodup_append']
    refine ⟨(nodup_placeIds _ _ _).sublist (callIds_turn hc turn), ih hcontents _, ?_⟩
    intro id hid hlater
    obtain ⟨idx, -, rfl⟩ := List.mem_map.mp ((callIds_turn hc turn).subset hid)
    obtain ⟨turn', idx', hle, heq⟩ := callIds_from hcontents _ hlater
    simp only [Option.some.injEq, Value.string.injEq] at heq
    have hturn := (callId_inj heq).1
    omega

end Firstpass.Gemini
