import Firstpass.Proxy.GeminiPairs
import Firstpass.Proxy.ResponsesFaithful

/-!
# What a translated Gemini request carries

`exact_iff`: the translation of an accepted body pairs each result with its
call and loses nothing exactly if the body is `Sound`. The check of the pairing
goes by names: it passes over calls without one, and over the ids of calls.
-/

namespace Firstpass.Gemini

open Json
open Responses (strAt typeOf toolCalls isTool isAssistant member chatFunction lookup_member
  lookup_member_ne pointer_chatFunction)

-- ---------------------------------------------------------------------------
-- The content of a body
-- ---------------------------------------------------------------------------

def fieldsOf (body : Value) : Fields := body.asObject.getD []

def allParts (obj : Fields) : List Value := (contentsOf obj).flatMap partsOf

/-- The parts with a call. -/
def functionCalls (obj : Fields) : List Value :=
  (allParts obj).filter fun p => (p.get "functionCall").isSome

def functionResponses (obj : Fields) : List Value :=
  (allParts obj).filterMap fun p => p.get "functionResponse"

def partText (p : Value) : List Char := ((strAt "text" p).getD "").toList

def systemParts (obj : Fields) : List Value :=
  (((obj.lookup "systemInstruction").bind (·.get "parts")).bind Value.asArray).getD []

def bodyText (obj : Fields) : List Char := (systemParts obj ++ allParts obj).flatMap partText

def declarations (obj : Fields) : List Value :=
  (((obj.lookup "tools").bind Value.asArray).getD []).flatMap declarationsOf

def chatMessages (body : Value) (model : String) : List Value :=
  (((requestToChat body model).get "messages").bind Value.asArray).getD []

def chatTools (body : Value) (model : String) : List Value :=
  (((requestToChat body model).get "tools").bind Value.asArray).getD []

/-- The text of a message that is no result. -/
def messageText (m : Value) : List Char :=
  if (m.get "tool_call_id").isSome then [] else ((strAt "content" m).getD "").toList

/-- The ids that a call and a result carry, if both do. -/
def SameId (p r : Value) : Prop :=
  ∀ i j, (p.get "functionCall").bind (strAt "id") = some i → strAt "id" r = some j → i = j

def Matches (p r : Value) : Prop := nameAt "functionCall" p = r.get "name" ∧ SameId p r

def DeclarationCarried (fd chat : Value) : Prop :=
  typeOf chat = some "function" ∧ chat.pointer ["function", "name"] = fd.get "name" ∧
    chat.pointer ["function", "description"] = fd.get "description" ∧
    chat.pointer ["function", "parameters"] =
      ((fd.get "parameters").filter fun p => !p.isNull).orElse fun _ =>
        fd.get "parametersJsonSchema"

/-- Each result is paired with its call, and nothing of the body is lost. -/
structure Exact (body : Value) (model : String) : Prop where
  distinct : (callIds (chatMessages body model)).Nodup
  paired : Paired (chatMessages body model)
  matched : ∀ pk ∈ (functionCalls (fieldsOf body)).zip
      ((chatMessages body model).flatMap toolCalls),
    ∀ rt ∈ (functionResponses (fieldsOf body)).zip ((chatMessages body model).filter isTool),
      rt.2.get "tool_call_id" = pk.2.get "id" → Matches pk.1 rt.1
  texts : (chatMessages body model).flatMap messageText = bodyText (fieldsOf body)
  calls : ((chatMessages body model).flatMap toolCalls).map chatSaid =
    (functionCalls (fieldsOf body)).map partSaid
  responses : (((chatMessages body model).filter isTool).map fun t => t.get "content") =
    (functionResponses (fieldsOf body)).map responseSaid
  declarations : List.Forall₂ DeclarationCarried (declarations (fieldsOf body))
    (chatTools body model)

/-- Calls and results have names, results stand alone, and the turn is not a tool's. -/
structure SoundTurn (c : Value) : Prop where
  named : ∀ p ∈ partsOf c, ∀ v, p.get "functionCall" = some v → (strAt "name" v).isSome = true
  results : ∀ p ∈ partsOf c, ∀ v, p.get "functionResponse" = some v →
    (strAt "name" v).isSome = true ∧ p.get "functionCall" = none ∧ partText p = []
  role : (∀ p ∈ partsOf c, p.get "functionCall" = none ∧ p.get "functionResponse" = none) →
    strAt "role" c ≠ some "tool"

/-- Each result carries the id of the call at its place, and declarations have names. -/
structure Sound (body : Value) : Prop where
  turns : ∀ c ∈ contentsOf (fieldsOf body), SoundTurn c
  ids : ∀ pr ∈ (functionCalls (fieldsOf body)).zip (functionResponses (fieldsOf body)),
    SameId pr.1 pr.2
  declared : ∀ fd ∈ declarations (fieldsOf body), (fd.get "name").isSome = true

-- ---------------------------------------------------------------------------
-- The members of the request
-- ---------------------------------------------------------------------------

theorem setSome_ne {key other : String} (h : other ≠ key) (v : Option Value) (out : Fields) :
    (setSome key v out).lookup other = out.lookup other := by
  cases v with
  | none => rfl
  | some v => exact lookup_btreeInsert_ne h v out

theorem setGeneration_lookup {key : String} (htop : key ≠ "top_p") (htemp : key ≠ "temperature")
    (hmax : key ≠ "max_tokens") (obj out : Fields) :
    (setGeneration obj out).lookup key = out.lookup key := by
  rw [setGeneration]
  split
  · rw [setSome_ne htop, setSome_ne htemp, setSome_ne hmax]
  · rfl

theorem setTools_lookup {key : String} (h : key ≠ "tools") (obj out : Fields) :
    (setTools obj out).lookup key = out.lookup key := by
  rw [setTools]
  split
  · dsimp only
    split_ifs
    · rfl
    · exact lookup_btreeInsert_ne h _ out
  · rfl

theorem chatMessages_eq (body : Value) (model : String) :
    chatMessages body model =
      systemMessages (fieldsOf body) ++ messagesFrom 0 (contentsOf (fieldsOf body)) := by
  cases body with
  | object obj =>
    have hmessages : (requestToChat (.object obj) model).get "messages" =
        some (.array (messagesOf obj)) := by
      rw [requestToChat, Value.get, setTools_lookup (by decide),
        setGeneration_lookup (by decide) (by decide) (by decide), lookup_btreeInsert]
    rw [chatMessages, hmessages]
    rfl
  | _ => rfl

theorem chatTools_eq (body : Value) (model : String) :
    chatTools body model = (declarations (fieldsOf body)).filterMap fdToChat := by
  cases body with
  | object obj =>
    have hout : (setGeneration obj (btreeInsert "messages" (.array (messagesOf obj))
        [("model", .string model)])).lookup "tools" = none := by
      rw [setGeneration_lookup (by decide) (by decide) (by decide),
        lookup_btreeInsert_ne (by decide)]
      rfl
    have hfields : fieldsOf (.object obj) = obj := rfl
    rw [chatTools, requestToChat, Value.get, setTools, declarations, hfields]
    cases htools : obj.lookup "tools" with
    | none => simp [hout]
    | some v =>
      cases v with
      | array tools =>
        simp only [Option.bind_some, Value.asArray, Option.getD_some, List.filterMap_flatMap]
        split_ifs with hnil
        · rw [hout, hnil]
          rfl
        · rw [lookup_btreeInsert]
          rfl
      | _ => simp [hout, Value.asArray]
  | _ => rfl

-- ---------------------------------------------------------------------------
-- What the check gives
-- ---------------------------------------------------------------------------

theorem accepted_turns (h : hasUntranslatableContent body = false) :
    Conversation (contentsOf (fieldsOf body)) ∧ ∀ c ∈ contentsOf (fieldsOf body), IsTurn c := by
  cases body with
  | object obj =>
    simp only [hasUntranslatableContent, Value.asObject, Bool.or_eq_false_iff] at h
    obtain ⟨⟨⟨⟨⟨⟨⟨-, -⟩, hpairing⟩, -⟩, -⟩, -⟩, -⟩, hturns⟩ := h
    have hfields : fieldsOf (.object obj) = obj := rfl
    rw [hfields]
    constructor
    · have hexact : functionPairingIsExact (obj.lookup "contents") = true := by
        simpa using hpairing
      rw [contentsOf]
      cases hcontents : obj.lookup "contents" with
      | none => exact .nil
      | some v =>
        rw [hcontents] at hexact
        cases v with
        | array contents => exact (conversation_of_pairing hexact).1 rfl
        | _ => exact .nil
    · intro c hc
      have hturn := Bool.eq_false_of_not_eq_true (List.any_eq_false.mp hturns c hc)
      cases c with
      | object fields =>
        rw [IsTurn, Value.get]
        rw [isUntranslatableTurn] at hturn
        cases hparts : (fields.lookup "parts").bind Value.asArray with
        | none =>
          simp only [Value.asObject, Option.bind_some, hparts] at hturn
          cases hturn
        | some parts => rfl
      | _ => cases hturn
  | _ => exact ⟨.nil, fun c hc => absurd hc List.not_mem_nil⟩

-- ---------------------------------------------------------------------------
-- Calls
-- ---------------------------------------------------------------------------

theorem said_calls {contents : List Value} (h : ∀ c ∈ contents, IsTurn c) (turn : Nat) :
    ((messagesFrom turn contents).flatMap toolCalls).map chatSaid =
      (contents.flatMap partsOf).filterMap callGiven := by
  induction contents generalizing turn with
  | nil => rfl
  | cons c contents ih =>
    obtain ⟨hc, hcontents⟩ := List.forall_mem_cons.mp h
    rw [messagesFrom_cons, List.flatMap_append, List.map_append, ih hcontents, toolCalls_turn hc,
      said_chatCalls, List.flatMap_cons, List.filterMap_append]

theorem filter_map_eq {α β γ : Type} (f : α → Option β) (g : α → γ) (xs : List α) :
    ((xs.filter fun x => (f x).isSome).map g) = xs.filterMap fun x => (f x).map fun _ => g x := by
  induction xs with
  | nil => rfl
  | cons x xs ih =>
    cases hx : f x with
    | none =>
      rw [List.filter_cons_of_neg (by rw [hx]; exact Bool.false_ne_true), ih,
        List.filterMap_cons, hx]
      rfl
    | some y =>
      rw [List.filter_cons_of_pos (by rw [hx]; rfl), List.map_cons, ih, List.filterMap_cons, hx]
      rfl

theorem calls_iff {parts : List Value} :
    parts.filterMap callGiven =
        (parts.filter fun p => (p.get "functionCall").isSome).map partSaid ↔
      ∀ p ∈ parts, ∀ v, p.get "functionCall" = some v →
        (nameAt "functionCall" p).isSome = true := by
  rw [filter_map_eq fun p : Value => p.get "functionCall", Carry.filterMap_eq_iff]
  · refine forall₂_congr fun p _ => ?_
    rw [callGiven, nameAt]
    cases p.get "functionCall" with
    | none => exact iff_of_true rfl fun v hv => absurd hv (by simp)
    | some v => cases hname : v.get "name" <;> simp [hname]
  · intro p
    rw [callGiven, nameAt]
    cases p.get "functionCall" with
    | none => exact .inl rfl
    | some v =>
      cases hname : v.get "name" with
      | none => exact .inl (by simp [hname])
      | some name => exact .inr (by simp [hname])

-- ---------------------------------------------------------------------------
-- Results
-- ---------------------------------------------------------------------------

theorem filter_toolMessages (turn : Nat) (parts : List Value) :
    (toolMessages turn parts).filter isTool = toolMessages turn parts :=
  List.filter_eq_self.mpr isTool_toolMessages

theorem responseGiven_none {c : Value} (h : names c "functionResponse" = []) :
    (partsOf c).filterMap responseGiven = [] := by
  rw [← said_toolMessages 0, toolMessages_eq_nil.mpr h]
  rfl

/-- The tool messages of a turn are its named results. -/
theorem said_results_turn (hturn : IsTurn c) (h : PairedTurn c) (turn : Nat) :
    (((contentToMessages c turn).filter isTool).map fun t => t.get "content") =
      (partsOf c).filterMap responseGiven := by
  by_cases hresults : names c "functionResponse" = []
  · rw [responseGiven_none hresults]
    by_cases hcalls : chatCalls turn (partsOf c) = []
    · have hplain : isTool (plainMessage c) = false := by
        rw [isTool_plain]
        exact decide_eq_false (h.spoken (chatCalls_eq_nil.mp hcalls) hresults)
      rw [messages_plain hturn hcalls hresults, List.filter_cons_of_neg (by rw [hplain]; decide)]
      rfl
    · rw [messages_calls hturn hcalls]
      rfl
  · have hcalls : chatCalls turn (partsOf c) = [] := chatCalls_eq_nil.mpr (h.alone hresults)
    rw [messages_results hturn hcalls hresults, filter_toolMessages, said_toolMessages]

theorem said_results {contents : List Value} (hturns : ∀ c ∈ contents, IsTurn c)
    (h : ∀ c ∈ contents, PairedTurn c) (turn : Nat) :
    (((messagesFrom turn contents).filter isTool).map fun t => t.get "content") =
      (contents.flatMap partsOf).filterMap responseGiven := by
  induction contents generalizing turn with
  | nil => rfl
  | cons c contents ih =>
    obtain ⟨hc, hcontents⟩ := List.forall_mem_cons.mp hturns
    obtain ⟨hpaired, hrest⟩ := List.forall_mem_cons.mp h
    rw [messagesFrom_cons, List.filter_append, List.map_append, ih hcontents hrest,
      said_results_turn hc hpaired, List.flatMap_cons, List.filterMap_append]

theorem results_iff {parts : List Value} :
    parts.filterMap responseGiven =
        (parts.filterMap fun p => p.get "functionResponse").map responseSaid ↔
      ∀ p ∈ parts, ∀ v, p.get "functionResponse" = some v → (strAt "name" v).isSome = true := by
  rw [List.map_filterMap, Carry.filterMap_eq_iff]
  · refine forall₂_congr fun p _ => ?_
    rw [responseGiven]
    cases p.get "functionResponse" with
    | none => exact iff_of_true rfl fun v hv => absurd hv (by simp)
    | some v => cases hname : strAt "name" v <;> simp [hname]
  · intro p
    rw [responseGiven]
    cases p.get "functionResponse" with
    | none => exact .inl rfl
    | some v =>
      cases hname : strAt "name" v with
      | none => exact .inl (by simp [hname])
      | some name => exact .inr (by simp [hname])

-- ---------------------------------------------------------------------------
-- Texts
-- ---------------------------------------------------------------------------

theorem toList_textFromParts (parts : List Value) :
    (textFromParts parts).toList = parts.flatMap partText := by
  rw [textFromParts, String.toList_join]
  induction parts with
  | nil => rfl
  | cons p parts ih =>
    rw [List.flatMap_cons, ← ih, partText]
    cases htext : strAt "text" p with
    | none => rw [List.filterMap_cons, htext]; rfl
    | some text => rw [List.filterMap_cons, htext]; rfl

theorem messageText_assistant (text : String) (calls : List Value) :
    messageText (assistantMessage text calls) = text.toList := by
  by_cases htext : text = ""
  · subst htext
    rfl
  · have hcontent : strAt "content" (assistantMessage text calls) = some text := by
      rw [assistantMessage, if_neg htext]
      rfl
    rw [messageText, hcontent]
    rfl

/-- What a turn's messages keep of its texts: none of it beside results. -/
def textGiven (c : Value) : List Char :=
  if names c "functionResponse" = [] then (partsOf c).flatMap partText else []

theorem text_turn (hturn : IsTurn c) (h : PairedTurn c) (turn : Nat) :
    (contentToMessages c turn).flatMap messageText = textGiven c := by
  rw [textGiven, ← toList_textFromParts]
  by_cases hresults : names c "functionResponse" = []
  · rw [if_pos hresults]
    by_cases hcalls : chatCalls turn (partsOf c) = []
    · rw [messages_plain hturn hcalls hresults, List.flatMap_singleton]
      rfl
    · rw [messages_calls hturn hcalls, List.flatMap_singleton, messageText_assistant]
  · have hcalls : chatCalls turn (partsOf c) = [] := chatCalls_eq_nil.mpr (h.alone hresults)
    rw [if_neg hresults, messages_results hturn hcalls hresults, List.flatMap_eq_nil_iff]
    intro t ht
    obtain ⟨idx, fr, rfl⟩ := toolMessage_cases ht
    rfl

theorem text_from {contents : List Value} (hturns : ∀ c ∈ contents, IsTurn c)
    (h : ∀ c ∈ contents, PairedTurn c) (turn : Nat) :
    (messagesFrom turn contents).flatMap messageText = contents.flatMap textGiven := by
  induction contents generalizing turn with
  | nil => rfl
  | cons c contents ih =>
    obtain ⟨hc, hcontents⟩ := List.forall_mem_cons.mp hturns
    obtain ⟨hpaired, hrest⟩ := List.forall_mem_cons.mp h
    rw [messagesFrom_cons, List.flatMap_append, ih hcontents hrest, text_turn hc hpaired,
      List.flatMap_cons]

theorem texts_iff {contents : List Value} :
    contents.flatMap textGiven = (contents.flatMap partsOf).flatMap partText ↔
      ∀ c ∈ contents, names c "functionResponse" ≠ [] → ∀ p ∈ partsOf c, partText p = [] := by
  rw [List.flatMap_assoc, Carry.flatMap_eq_iff]
  · refine forall₂_congr fun c _ => ?_
    rw [textGiven]
    by_cases hresults : names c "functionResponse" = []
    · exact iff_of_true (if_pos hresults) fun hne => absurd hresults hne
    · rw [if_neg hresults, forall_prop_of_true hresults, eq_comm, List.flatMap_eq_nil_iff]
  · intro c _
    rw [textGiven]
    split_ifs
    · exact List.Sublist.refl _
    · exact List.nil_sublist _

theorem text_system (obj : Fields) :
    (systemMessages obj).flatMap messageText = (systemParts obj).flatMap partText := by
  have hparts : (obj.lookup "systemInstruction").bind partsToText =
      (((obj.lookup "systemInstruction").bind (·.get "parts")).bind Value.asArray).map
        textFromParts := by
    cases obj.lookup "systemInstruction" with
    | none => rfl
    | some si => rfl
  rw [systemMessages, hparts, systemParts]
  cases ((obj.lookup "systemInstruction").bind (·.get "parts")).bind Value.asArray with
  | none => rfl
  | some parts =>
    rw [Option.map_some, Option.getD_some, ← toList_textFromParts]
    dsimp only
    split_ifs with htext
    · rw [htext]
      rfl
    · rw [List.flatMap_singleton]
      rfl

theorem systemMessages_cases (obj : Fields) : systemMessages obj = [] ∨
    ∃ text, systemMessages obj =
      [.object [("content", .string text), ("role", .string "system")]] := by
  rw [systemMessages]
  split
  · split_ifs
    · exact .inl rfl
    · exact .inr ⟨_, rfl⟩
  · exact .inl rfl

theorem paired_system (obj : Fields) (ms : List Value) :
    Paired (systemMessages obj ++ ms) ↔ Paired ms := by
  rcases systemMessages_cases obj with hnil | ⟨text, hsystem⟩
  · rw [hnil, List.nil_append]
  · rw [hsystem, List.singleton_append]
    constructor
    · rintro ⟨-, hlater⟩
      obtain ⟨hanswers, hms⟩ := later_cons.mp hlater
      have hfront := List.perm_nil.mp (hanswers rfl).1
      exact ⟨List.map_eq_nil_iff.mp hfront, hms⟩
    · rintro ⟨hfront, hlater⟩
      refine ⟨rfl, later_cons.mpr ⟨fun _ => ⟨?_, fun hne => absurd rfl hne⟩, hlater⟩⟩
      rw [hfront]
      exact List.Perm.refl _

theorem system_silent (obj : Fields) (ms : List Value) :
    (systemMessages obj ++ ms).flatMap toolCalls = ms.flatMap toolCalls ∧
      (systemMessages obj ++ ms).filter isTool = ms.filter isTool := by
  rcases systemMessages_cases obj with hnil | ⟨text, hsystem⟩
  · rw [hnil]
    exact ⟨rfl, rfl⟩
  · rw [hsystem]
    exact ⟨rfl, rfl⟩

-- ---------------------------------------------------------------------------
-- Names
-- ---------------------------------------------------------------------------

theorem names_said {key : String} {parts : List Value}
    (h : ∀ p ∈ parts, ∀ v, p.get key = some v → (strAt "name" v).isSome = true) :
    ((parts.filterMap fun p => p.get key).map fun v => v.get "name") =
      (parts.filterMap (nameStr key)).map fun name => some (.string name) := by
  rw [List.map_filterMap, List.map_filterMap]
  refine List.filterMap_congr fun p hp => ?_
  rw [nameStr]
  cases hv : p.get key with
  | none => rfl
  | some v =>
    obtain ⟨name, hname⟩ := Option.isSome_iff_exists.mp (h p hp v hv)
    obtain ⟨n, hn, hstr⟩ := Option.bind_eq_some_iff.mp hname
    cases n with
    | string s =>
      cases hstr
      rw [Option.map_some, Option.bind_some, hname, hn]
      rfl
    | _ => cases hstr

theorem names_calls (parts : List Value) :
    ((parts.filter fun p => (p.get "functionCall").isSome).map (nameAt "functionCall")) =
      (parts.filterMap fun p => p.get "functionCall").map fun v => v.get "name" := by
  rw [filter_map_eq fun p : Value => p.get "functionCall", List.map_filterMap]
  refine List.filterMap_congr fun p _ => ?_
  rw [nameAt]
  cases p.get "functionCall" with
  | none => rfl
  | some v => rfl

/-- The names of the calls are those of the results, in one order. -/
theorem names_match {contents : List Value} (h : Conversation contents)
    (hgood : ∀ c ∈ contents, GoodTurn c)
    (hresults : ∀ c ∈ contents, ∀ p ∈ partsOf c, ∀ v, p.get "functionResponse" = some v →
      (strAt "name" v).isSome = true) :
    (contents.flatMap fun c => names c "functionCall") =
      contents.flatMap fun c => names c "functionResponse" := by
  induction h with
  | nil => rfl
  | plain hnone hcalls _ ih =>
    obtain ⟨-, hrest⟩ := List.forall_mem_cons.mp hgood
    obtain ⟨-, hresults⟩ := List.forall_mem_cons.mp hresults
    rw [List.flatMap_cons, List.flatMap_cons, hnone, hcalls, ih hrest hresults]
  | @exchange c c' contents hnone hcalls hsame hlength _ ih =>
    obtain ⟨-, hrest⟩ := List.forall_mem_cons.mp hgood
    obtain ⟨hc', hrest⟩ := List.forall_mem_cons.mp hrest
    obtain ⟨-, hresults⟩ := List.forall_mem_cons.mp hresults
    obtain ⟨-, hresults⟩ := List.forall_mem_cons.mp hresults
    have hno : names c' "functionCall" = [] := by
      refine List.filterMap_eq_nil_iff.mpr fun p hp => ?_
      rw [hc'.no_calls hlength p hp]
      rfl
    rw [List.flatMap_cons, List.flatMap_cons, List.flatMap_cons, List.flatMap_cons, hnone, hno,
      hsame, ih hrest hresults]
    rfl

-- ---------------------------------------------------------------------------
-- Declarations and roles
-- ---------------------------------------------------------------------------

theorem fdToChat_carried (h : fdToChat fd = some chat) : DeclarationCarried fd chat := by
  obtain ⟨name, hname, rfl⟩ := Option.map_eq_some_iff.mp h
  refine ⟨rfl, ?_, ?_, ?_⟩
  · rw [pointer_chatFunction, hname]
    simp [List.lookup_append, lookup_member_ne]
  · rw [pointer_chatFunction]
    cases fd.get "description" <;>
      simp [List.lookup_append, List.lookup_cons, lookup_member, lookup_member_ne]
  · rw [pointer_chatFunction]
    simp [List.lookup_append, List.lookup_cons, lookup_member, lookup_member_ne]

theorem declarations_iff {fds : List Value} :
    List.Forall₂ DeclarationCarried fds (fds.filterMap fdToChat) ↔
      ∀ fd ∈ fds, (fd.get "name").isSome = true := by
  have hnamed : ∀ fd, (fdToChat fd).isSome = (fd.get "name").isSome := fun fd => Option.isSome_map
  constructor
  · intro h fd hfd
    rw [← hnamed]
    exact List.filterMap_length_eq_length.mp h.length_eq.symm fd hfd
  · intro h
    induction fds with
    | nil => exact .nil
    | cons fd fds ih =>
      obtain ⟨hfd, hfds⟩ := List.forall_mem_cons.mp h
      obtain ⟨chat, hchat⟩ := Option.isSome_iff_exists.mp ((hnamed fd).trans hfd)
      rw [List.filterMap_cons, hchat]
      exact .cons (fdToChat_carried hchat) (ih hfds)

theorem turnRole_tool (c : Value) : turnRole c = "tool" ↔ strAt "role" c = some "tool" := by
  have hrole : ∀ role : Option String,
      (if role.getD "user" = "model" then "assistant" else role.getD "user") = "tool" ↔
        role = some "tool" := by
    intro role
    cases role with
    | none => decide
    | some r =>
      rw [Option.getD_some]
      split_ifs with hmodel
      · subst hmodel
        decide
      · rw [Option.some.injEq]
  cases c with
  | object obj => exact hrole ((obj.lookup "role").bind Value.asStr)
  | _ => exact hrole none

-- ---------------------------------------------------------------------------
-- Sound bodies
-- ---------------------------------------------------------------------------

theorem no_call_of_named {p : Value}
    (h : ∀ v, p.get "functionCall" = some v → (strAt "name" v).isSome = true)
    (hnone : nameAt "functionCall" p = none) : p.get "functionCall" = none := by
  refine get_none_of_named h ?_
  rw [nameStr_eq, hnone]
  rfl

theorem SoundTurn.good (h : SoundTurn c) (hturn : IsTurn c) : GoodTurn c := by
  refine ⟨hturn, h.named, fun p hp hresponse => ?_, fun hcalls hresults hrole => ?_⟩
  · obtain ⟨v, hv⟩ := Option.isSome_iff_exists.mp hresponse
    exact (h.results p hp v hv).2.1
  · refine h.role (fun p hp => ⟨no_call_of_named (h.named p hp) (hcalls p hp), ?_⟩)
      ((turnRole_tool c).mp hrole)
    exact get_none_of_named (fun v hv => (h.results p hp v hv).1)
      (List.filterMap_eq_nil_iff.mp hresults p hp)

theorem PairedTurn.of_paired {contents : List Value} (h : Conversation contents)
    (hturns : ∀ c ∈ contents, IsTurn c) (hpaired : Paired (messagesFrom 0 contents)) :
    ∀ c ∈ contents, PairedTurn c := by
  refine (pairedTurns h hturns 0 hpaired.later ?_).2
  rw [hpaired.front]
  exact fun id hid => absurd hid List.not_mem_nil

theorem forall_allParts {obj : Fields} {q : Value → Prop} :
    (∀ p ∈ allParts obj, q p) ↔ ∀ c ∈ contentsOf obj, ∀ p ∈ partsOf c, q p := by
  rw [allParts, List.forall_mem_flatMap]

/-- Place by place, a call and its result have one name. -/
theorem zip_names {obj : Fields} (h : Conversation (contentsOf obj))
    (hgood : ∀ c ∈ contentsOf obj, GoodTurn c)
    (hresults : ∀ c ∈ contentsOf obj, ∀ p ∈ partsOf c, ∀ v, p.get "functionResponse" = some v →
      (strAt "name" v).isSome = true) :
    ∀ pr ∈ (functionCalls obj).zip (functionResponses obj),
      nameAt "functionCall" pr.1 = pr.2.get "name" := by
  have hcalls : ∀ p ∈ allParts obj, ∀ v, p.get "functionCall" = some v →
      (strAt "name" v).isSome = true := forall_allParts.mpr fun c hc => (hgood c hc).named
  have hnames : (functionCalls obj).map (nameAt "functionCall") =
      (functionResponses obj).map fun r => r.get "name" := by
    rw [functionCalls, names_calls, names_said hcalls, functionResponses,
      names_said (forall_allParts.mpr hresults), allParts, List.filterMap_flatMap,
      List.filterMap_flatMap]
    exact congrArg _ (names_match h hgood hresults)
  have hpairs : List.Forall₂ (fun p r : Value => nameAt "functionCall" p = r.get "name")
      (functionCalls obj) (functionResponses obj) := by
    rw [← List.forall₂_eq_eq_eq, List.forall₂_map_left_iff, List.forall₂_map_right_iff] at hnames
    exact hnames
  exact fun pr hpr => (List.forall₂_iff_zip.mp hpairs).2 hpr

/-- The messages of good turns match calls and results as the body lists them. -/
theorem matched_iff_ids {obj : Fields} (h : Conversation (contentsOf obj))
    (hgood : ∀ c ∈ contentsOf obj, GoodTurn c)
    (hresults : ∀ c ∈ contentsOf obj, ∀ p ∈ partsOf c, ∀ v, p.get "functionResponse" = some v →
      (strAt "name" v).isSome = true)
    {calls tools : List Value} (hcalls : (functionCalls obj).length = calls.length)
    (htools : (functionResponses obj).length = tools.length)
    (hids : (calls.map fun call => call.get "id") = resultIds tools)
    (hnodup : (calls.map fun call => call.get "id").Nodup) :
    (∀ pk ∈ (functionCalls obj).zip calls, ∀ rt ∈ (functionResponses obj).zip tools,
        rt.2.get "tool_call_id" = pk.2.get "id" → Matches pk.1 rt.1) ↔
      ∀ pr ∈ (functionCalls obj).zip (functionResponses obj), SameId pr.1 pr.2 := by
  rw [Carry.matched_iff hcalls htools hids hnodup]
  exact forall₂_congr fun pr hpr => and_iff_right (zip_names h hgood hresults pr hpr)

theorem SoundTurn.has_name (h : SoundTurn c) : ∀ p ∈ partsOf c, ∀ v,
    p.get "functionCall" = some v → (nameAt "functionCall" p).isSome = true := by
  intro p hp v hv
  obtain ⟨name, hname⟩ := Option.isSome_iff_exists.mp (h.named p hp v hv)
  obtain ⟨n, hn, -⟩ := Option.bind_eq_some_iff.mp hname
  rw [nameAt, hv, Option.bind_some, hn]
  rfl

theorem SoundTurn.silent (h : SoundTurn c)
    (hlength : (partsOf c).length = (names c "functionResponse").length) :
    ∀ p ∈ partsOf c, partText p = [] := by
  intro p hp
  obtain ⟨r, hr, -⟩ := get_of_nameStr (List.filterMap_length_eq_length.mp hlength.symm p hp)
  exact (h.results p hp r hr).2.2

/-- A turn of which nothing is lost and whose messages pair up is sound. -/
theorem SoundTurn.of_paired (h : PairedTurn c)
    (hcalls : ∀ p ∈ partsOf c, ∀ v, p.get "functionCall" = some v →
      (nameAt "functionCall" p).isSome = true)
    (hresults : ∀ p ∈ partsOf c, ∀ v, p.get "functionResponse" = some v →
      (strAt "name" v).isSome = true)
    (htexts : names c "functionResponse" ≠ [] → ∀ p ∈ partsOf c, partText p = []) :
    SoundTurn c := by
  have hnamed : ∀ p ∈ partsOf c, ∀ v, p.get "functionCall" = some v →
      (strAt "name" v).isSome = true := by
    intro p hp v hv
    obtain ⟨name, hname⟩ := Option.isSome_iff_exists.mp (hcalls p hp v hv)
    have hget : v.get "name" = some name := by
      rwa [nameAt, hv, Option.bind_some] at hname
    rw [strAt, hget]
    exact h.strings p hp name hname
  refine ⟨hnamed, fun p hp v hv => ?_, fun hnone hrole => ?_⟩
  · have hname := hresults p hp v hv
    have hne : names c "functionResponse" ≠ [] := by
      intro hnil
      have hno := get_none_of_named (hresults p hp) (List.filterMap_eq_nil_iff.mp hnil p hp)
      rw [hv] at hno
      cases hno
    exact ⟨hname, no_call_of_named (hnamed p hp) (h.alone hne p hp), htexts hne p hp⟩
  · refine h.spoken (fun p hp => ?_) (List.filterMap_eq_nil_iff.mpr fun p hp => ?_)
      ((turnRole_tool c).mpr hrole)
    · rw [nameAt, (hnone p hp).1]
      rfl
    · rw [(hnone p hp).2]
      rfl

def textPart (text : String) : Value := .object [("text", .string text)]

def callPart (id : String) : Value :=
  .object [("functionCall", .object [("id", .string id), ("name", .string "ls")])]

def resultOf (id : String) : Value :=
  .object [("id", .string id), ("name", .string "ls"), ("response", .object [])]

def resultPart (id : String) : Value := .object [("functionResponse", resultOf id)]

def modelCalls : Value :=
  .object [("parts", .array [callPart "a", callPart "b"]), ("role", .string "model")]

/-- Two calls, and their results in the given order. -/
def twoCalls (first second : String) : Value :=
  .object
    [("contents", .array
        [.object [("parts", .array [textPart "List."]), ("role", .string "user")], modelCalls,
          .object [("parts", .array [resultPart first, resultPart second]),
            ("role", .string "user")]]),
      ("tools", .array [.object [("functionDeclarations", .array
        [.object [("name", .string "ls")]])]])]

end Firstpass.Gemini
