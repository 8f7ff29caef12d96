import Firstpass.Core.Fingerprint
import Firstpass.Core.JsonText
import Firstpass.Proxy.Inbound

/-!
# The id of a conversation

A `conv:` id hashes what a conversation opens with, which no later turn changes.
Of a list of messages that is all through the first of the user, of an input its
first item only.
-/

namespace Firstpass.Inbound

open Json (Value print_injective pointer_cons)
open Responses (strAt)
open Routing (Bytes hexEncode utf8)

variable {sha256 : Bytes → Bytes} {salt id : String} {json json' : Value}

-- ---------------------------------------------------------------------------
-- The branch of the opening
-- ---------------------------------------------------------------------------

def IsConv (id : String) : Prop := ∃ digest : String, id = "conv" ++ ":" ++ digest

def sessionUser (json : Value) : Option String :=
  ((json.pointer ["metadata", "user_id"]).bind Value.asStr).filter
    (Responses.contains · "session_")

/-- The turns whose number is looked at. -/
def turns (json : Value) : List Value :=
  (((json.get "messages").bind Value.asArray).orElse fun _ =>
    (json.get "input").bind Value.asArray).getD []

def toolNames (json : Value) : List String :=
  ((elemsAt "tools" json).filterMap toolName).insertionSort (· ≤ ·)

def systemOf (json : Value) : Value := (json.get "system").getD .null

def instructionsOf (json : Value) : Value := (json.get "instructions").getD .null

/-- What is hashed into a `conv:` id. -/
def convText (json : Value) : Option Bytes :=
  (opening json).map fun opening => utf8 (Value.array
    ([systemOf json, instructionsOf json, .array ((toolNames json).map .string)] ++ opening)).toText

/-- No other id comes before that of the opening. -/
structure ByOpening (json : Value) : Prop where
  user : sessionUser json = none
  shaped : ¬ ((turns json).length ≤ 1 ∧ elemsAt "tools" json = [])
  key : nonBlank (strAt "prompt_cache_key" json) = none

theorem sessionOf_eq_some {kind : String} {text : Bytes}
    (h : sessionOf sha256 kind salt text = some id) :
    id = kind ++ ":" ++ String.ofList ((promptHash sha256 salt text).toList.take 16) := by
  unfold sessionOf at h
  dsimp only at h
  split at h
  · cases h
  · exact (Option.some.inj h).symm

/-- An id of another kind has another first letter. -/
theorem not_isConv {kind : String} {text : Bytes} (hkind : kind.toList.head? ≠ some 'c')
    (hne : kind.toList ≠ []) (h : sessionOf sha256 kind salt text = some id) : ¬ IsConv id := by
  rintro ⟨digest, hconv⟩
  rw [sessionOf_eq_some h] at hconv
  have hhead := congrArg (fun s : String => s.toList.head?) hconv
  simp only [String.toList_append, List.append_assoc, List.head?_append_of_ne_nil _ hne] at hhead
  exact hkind (hhead.trans rfl)

theorem bodySession_conv (h : bodySession sha256 json salt = some id) (hconv : IsConv id) :
    ByOpening json ∧ ∃ text, convText json = some text ∧
      sessionOf sha256 "conv" salt text = some id := by
  have hother {kind : String} {text : Bytes} (hkind : kind.toList.head? ≠ some 'c')
      (hne : kind.toList ≠ []) : sessionOf sha256 kind salt text ≠ some id :=
    fun hid => not_isConv hkind hne hid hconv
  unfold bodySession at h
  dsimp only at h
  split at h
  · exact absurd h (hother (by decide) (by decide))
  next huser =>
    split at h
    · obtain ⟨raw, -, hid⟩ := Option.bind_eq_some_iff.mp h
      exact absurd hid (hother (by decide) (by decide))
    next hshaped =>
      split at h
      · exact absurd h (hother (by decide) (by decide))
      next hkey =>
        obtain ⟨first, hfirst, hid⟩ := Option.bind_eq_some_iff.mp h
        exact ⟨⟨huser, hshaped, hkey⟩, _, by rw [convText, hfirst]; rfl, hid⟩

theorem bodySession_of_byOpening (h : ByOpening json) :
    bodySession sha256 json salt = (convText json).bind (sessionOf sha256 "conv" salt) := by
  have huser : ((json.pointer ["metadata", "user_id"]).bind Value.asStr).filter
      (Responses.contains · "session_") = none := h.user
  have hshaped := h.shaped
  unfold turns at hshaped
  unfold bodySession
  simp only [huser, if_neg hshaped, h.key, convText]
  cases opening json <;> rfl

-- ---------------------------------------------------------------------------
-- A conversation that grows
-- ---------------------------------------------------------------------------

/-- The list of the key goes on, and nothing else differs. -/
structure Extends (key : String) (json json' : Value) (given : List Value) : Prop where
  before : json.get key = some (.array given)
  after : ∃ more, json'.get key = some (.array (given ++ more))
  others : ∀ other, other ≠ key → json'.get other = json.get other

/-- More turns at the end of the list that the conversation is read from. -/
inductive Grows (json json' : Value) : Prop
  | messages (given : List Value) (goesOn : Extends "messages" json json' given)
    (user : ∃ m ∈ given, strAt "role" m = some "user")
  | input (given : List Value) (goesOn : Extends "input" json json' given)
    (alone : (json.get "messages").bind Value.asArray = none)

theorem throughFirstUser_append {given : List Value} (h : ∃ m ∈ given, strAt "role" m = some "user")
    (more : List Value) : throughFirstUser (given ++ more) = throughFirstUser given := by
  induction given with
  | nil => simp at h
  | cons m given ih =>
    simp only [List.cons_append, throughFirstUser]
    split
    · rfl
    next hrole =>
      obtain ⟨n, hn, huser⟩ := h
      rcases List.mem_cons.mp hn with rfl | hn
      · exact absurd huser hrole
      · rw [ih ⟨n, hn, huser⟩]

namespace Grows

/-- Every field but the list itself. -/
theorem same (h : Grows json json') (key : String) (hmessages : key ≠ "messages")
    (hinput : key ≠ "input") : json'.get key = json.get key := by
  cases h with
  | messages given goesOn user => exact goesOn.others key hmessages
  | input given goesOn alone => exact goesOn.others key hinput

theorem turns_le (h : Grows json json') : (turns json).length ≤ (turns json').length := by
  cases h with
  | messages given goesOn user =>
    obtain ⟨more, hafter⟩ := goesOn.after
    simp [turns, goesOn.before, hafter, Value.asArray]
  | input given goesOn alone =>
    obtain ⟨more, hafter⟩ := goesOn.after
    have halone : (json'.get "messages").bind Value.asArray = none := by
      rw [goesOn.others "messages" (by decide), alone]
    simp [turns, alone, halone, goesOn.before, hafter, Value.asArray]

theorem byOpening (h : Grows json json') (hopening : ByOpening json) : ByOpening json' where
  user := by
    have hsame := h.same "metadata" (by decide) (by decide)
    have huser := hopening.user
    rw [sessionUser, pointer_cons (by decide)] at huser ⊢
    rwa [hsame]
  shaped := by
    rintro ⟨hfew, htools⟩
    refine hopening.shaped ⟨h.turns_le.trans hfew, ?_⟩
    rwa [elemsAt, h.same "tools" (by decide) (by decide)] at htools
  key := by
    rw [strAt, h.same "prompt_cache_key" (by decide) (by decide)]
    exact hopening.key

theorem opening_eq (h : Grows json json') {first : List Value} (hfirst : opening json = some first) :
    opening json' = some first := by
  cases h with
  | messages given goesOn user =>
    obtain ⟨more, hafter⟩ := goesOn.after
    simp only [opening, goesOn.before, hafter, Option.bind_some, Value.asArray] at hfirst ⊢
    rw [throughFirstUser_append user, hfirst]
  | input given goesOn alone =>
    obtain ⟨more, hafter⟩ := goesOn.after
    have halone : (json'.get "messages").bind Value.asArray = none := by
      rw [goesOn.others "messages" (by decide), alone]
    simp only [opening, alone, halone, goesOn.before, hafter] at hfirst ⊢
    cases given with
    | nil => simp [firstInput] at hfirst
    | cons item given => exact hfirst

theorem convText_eq (h : Grows json json') {text : Bytes} (htext : convText json = some text) :
    convText json' = some text := by
  obtain ⟨first, hfirst, htext⟩ := Option.map_eq_some_iff.mp htext
  rw [convText, h.opening_eq hfirst, ← htext]
  simp only [systemOf, instructionsOf, toolNames, elemsAt, Option.map_some,
    h.same "system" (by decide) (by decide),
    h.same "instructions" (by decide) (by decide),
    h.same "tools" (by decide) (by decide)]

end Grows

-- ---------------------------------------------------------------------------
-- What an id stands for
-- ---------------------------------------------------------------------------

/-- Two of the texts share the kept digits of their hash only if they are the same. -/
def CollisionFree (sha256 : Bytes → Bytes) (salt : String) (texts : Set Bytes) : Prop :=
  ∀ a ∈ texts, ∀ b ∈ texts,
    (promptHash sha256 salt a).toList.take 16 = (promptHash sha256 salt b).toList.take 16 → a = b

/-- The two bodies open the same conversation. An absent field counts as null. -/
structure SameOpening (json json' : Value) : Prop where
  system : systemOf json = systemOf json'
  instructions : instructionsOf json = instructionsOf json'
  tools : toolNames json = toolNames json'
  first : opening json = opening json'

theorem sameOpening_of_convText {text : Bytes} (h : convText json = some text)
    (h' : convText json' = some text) : SameOpening json json' := by
  obtain ⟨first, hfirst, htext⟩ := Option.map_eq_some_iff.mp h
  obtain ⟨first', hfirst', htext'⟩ := Option.map_eq_some_iff.mp h'
  have hprint := ConfigFile.utf8_injective (htext.trans htext'.symm)
  have hvalue := print_injective (String.ofList_inj.mp hprint)
  simp only [List.cons_append, List.nil_append, Value.array.injEq, List.cons.injEq] at hvalue
  obtain ⟨hsystem, hinstructions, htools, hfirsts⟩ := hvalue
  refine ⟨hsystem, hinstructions, ?_, by rw [hfirst, hfirst', hfirsts]⟩
  exact List.map_injective_iff.mpr (fun a b hab => Value.string.inj hab) htools

theorem conv_injective (hfree : CollisionFree sha256 salt
      {text | convText json = some text ∨ convText json' = some text})
    (h : bodySession sha256 json salt = some id) (h' : bodySession sha256 json' salt = some id)
    (hconv : IsConv id) : SameOpening json json' := by
  obtain ⟨-, text, htext, hid⟩ := bodySession_conv h hconv
  obtain ⟨-, text', htext', hid'⟩ := bodySession_conv h' hconv
  have heq := (sessionOf_eq_some hid).symm.trans (sessionOf_eq_some hid')
  have hdigest : (promptHash sha256 salt text).toList.take 16 =
      (promptHash sha256 salt text').toList.take 16 := by
    have hlists := congrArg String.toList heq
    simpa only [String.toList_append, String.toList_ofList, List.append_cancel_left_eq] using hlists
  obtain rfl := hfree text (.inl htext) text' (.inr htext') hdigest
  exact sameOpening_of_convText htext htext'

theorem conv_grows (hgrows : Grows json json') (h : bodySession sha256 json salt = some id)
    (hconv : IsConv id) : bodySession sha256 json' salt = some id := by
  obtain ⟨hopening, text, htext, hid⟩ := bodySession_conv h hconv
  rw [bodySession_of_byOpening (hgrows.byOpening hopening), hgrows.convText_eq htext]
  exact hid

/-- A conversation keeps its id as it grows, and shares it only with those that
open alike. -/
theorem conversation_id (sha256 : Bytes → Bytes) (salt : String) :
    (∀ json json' id, Grows json json' → bodySession sha256 json salt = some id → IsConv id →
      bodySession sha256 json' salt = some id) ∧
    ∀ json json' id,
      CollisionFree sha256 salt {text | convText json = some text ∨ convText json' = some text} →
      bodySession sha256 json salt = some id → bodySession sha256 json' salt = some id →
      IsConv id → SameOpening json json' :=
  ⟨fun _ _ _ hgrows h hconv => conv_grows hgrows h hconv,
    fun _ _ _ hfree h h' hconv => conv_injective hfree h h' hconv⟩

-- ---------------------------------------------------------------------------
-- An input that does not open with the user
-- ---------------------------------------------------------------------------

/-- A digest that is the same for all texts. -/
def blankDigest : Bytes → Bytes := fun _ => List.replicate 32 0

theorem sessionOf_blankDigest (text : Bytes) :
    sessionOf blankDigest "conv" salt text = some ("conv" ++ ":" ++ "0000000000000000") := by
  have hdigest : promptHash blankDigest salt text = hexEncode (List.replicate 32 0) := rfl
  rw [sessionOf, hdigest]
  decide +kernel

def turn (role content : String) : Value :=
  .object [("content", .string content), ("role", .string role)]

/-- A developer's instruction, then the user. -/
def developerFirst (content : String) : Value :=
  .object [("input", .array [turn "developer" "Be terse.", turn "user" content])]

theorem byOpening_developerFirst (content : String) : ByOpening (developerFirst content) where
  user := rfl
  shaped := by simp [developerFirst, turns, Value.get, Value.asArray, List.lookup_cons]
  key := rfl

theorem bodySession_developerFirst (content : String) :
    bodySession blankDigest (developerFirst content) salt =
      some ("conv" ++ ":" ++ "0000000000000000") := by
  rw [bodySession_of_byOpening (byOpening_developerFirst content)]
  exact sessionOf_blankDigest _

theorem conversation_id_sample :
    bodySession blankDigest (.object [("input", .array [turn "developer" "Be terse.",
      turn "user" "Hello.", turn "assistant" "Hello."])]) "salt" =
        some ("conv" ++ ":" ++ "0000000000000000") := by
  have hgrows : Grows (developerFirst "Hello.") (.object [("input", .array
      [turn "developer" "Be terse.", turn "user" "Hello.", turn "assistant" "Hello."])]) := by
    refine .input [turn "developer" "Be terse.", turn "user" "Hello."]
      ⟨rfl, ⟨[turn "assistant" "Hello."], rfl⟩, fun other hother => ?_⟩ rfl
    have hmiss : (other == "input") = false := beq_false_of_ne hother
    simp [developerFirst, Value.get, List.lookup_cons, hmiss]
  exact (conversation_id blankDigest "salt").1 _ _ _ hgrows (bodySession_developerFirst _) ⟨_, rfl⟩

/-- What the user first says does not count behind a developer's instruction. -/
theorem developer_first_merges :
    ¬ ∀ (sha256 : Bytes → Bytes) (salt : String) (json json' : Value) (id : String),
      CollisionFree sha256 salt {text | convText json = some text ∨ convText json' = some text} →
      bodySession sha256 json salt = some id → bodySession sha256 json' salt = some id →
      IsConv id → throughFirstUser (turns json) = throughFirstUser (turns json') := by
  intro h
  have hsame := h blankDigest "salt" (developerFirst "Fix the build.") (developerFirst "Write a poem.")
    _ ?_ (bodySession_developerFirst _) (bodySession_developerFirst _) ⟨_, rfl⟩
  · simp [developerFirst, turns, turn, Value.get, Value.asArray, List.lookup_cons, throughFirstUser,
      strAt, Value.asStr] at hsame
  · have hconst : convText (developerFirst "Fix the build.") =
      convText (developerFirst "Write a poem.") := rfl
    rintro a ha b hb -
    simp only [hconst, or_self, Set.mem_ofPred_eq] at ha hb
    exact Option.some.inj (ha.symm.trans hb)

end Firstpass.Inbound
