import Firstpass.Lib.Carry
import Firstpass.Proxy.ResponsesFold
import Mathlib.Data.List.TakeWhile

/-!
# The messages of a list of items

`Rendered` relates the items to the messages, a group of items a message.
Tool messages directly follow the calls they answer exactly if the items do.
-/

namespace Firstpass.Responses

open Json

-- ---------------------------------------------------------------------------
-- The message of one item
-- ---------------------------------------------------------------------------

theorem isObject_turn (h : turnToMessage item = some m) : IsObject m := by
  cases turnToMessage_turns h <;> rfl

theorem turn_call (hcall : isCall item = true) (h : turnToMessage item = some m) :
    ∃ id name, callId item = some id ∧ item.get "name" = some name ∧
      m = assistantCall id name (callArguments item) := by
  cases turnToMessage_turns h with
  | call _ hid hname => exact ⟨_, _, hid, hname, rfl⟩
  | output houtput => rcases of_decide_eq_true houtput with hk | hk <;> simp [isCall, hk] at hcall
  | turn hmessage =>
    rcases of_decide_eq_true hcall with hk | hk
    · exact absurd (hmessage _ hk) (by decide)
    · exact absurd (hmessage _ hk) (by decide)

theorem turn_plain (hcall : isCall item = false) (h : turnToMessage item = some m) : Plain m := by
  cases turnToMessage_turns h with
  | call hyes => exact absurd (hcall.symm.trans hyes) (by decide)
  | output => rfl
  | turn => rfl

theorem isAssistant_turn_call (hcall : isCall item = true) (h : turnToMessage item = some m) :
    isAssistant m = true := by
  obtain ⟨id, name, -, -, rfl⟩ := turn_call hcall h
  rfl

/-- The calls of the message are the item, if it is a call. -/
theorem forall_toolCalls_turn (h : turnToMessage item = some m) (p : Option Value → Prop) :
    (∀ c ∈ toolCalls m, p (c.get "id")) ↔ (isCall item = true → p (callId item)) := by
  by_cases hcall : isCall item = true
  · obtain ⟨id, name, hid, -, rfl⟩ := turn_call hcall h
    have hcalls : toolCalls (assistantCall id name (callArguments item)) =
        [chatCall id name (callArguments item)] := rfl
    rw [hcalls, List.forall_mem_singleton, hid]
    exact ⟨fun hp _ => hp, fun hp => hp hcall⟩
  · have hplain := turn_plain (Bool.eq_false_of_not_eq_true hcall) h
    rw [toolCalls, hplain]
    exact ⟨fun _ hc => absurd hc hcall, fun _ c hc => absurd hc List.not_mem_nil⟩

-- ---------------------------------------------------------------------------
-- Groups
-- ---------------------------------------------------------------------------

def groupCalls (calls : List Value) : List Value :=
  (calls.filterMap turnToMessage).flatMap toolCalls

theorem groupCalls_cons (h : turnToMessage call = some m) (calls : List Value) :
    groupCalls (call :: calls) = toolCalls m ++ groupCalls calls := by
  rw [groupCalls, List.filterMap_cons, h, List.flatMap_cons]
  rfl

/-- An item by itself, or an assistant item and all calls right after it. -/
inductive Rendered : List Value → List Value → Prop
  | nil : Rendered [] []
  | group {item head m : Value} {calls items ms : List Value} :
      turnToMessage item = some head →
      (∀ c ∈ calls, isCall c = true ∧ (turnToMessage c).isSome = true) →
      (calls ≠ [] → isAssistant head = true) →
      (isAssistant head = true → ∀ next ∈ items.head?, isCall next = false) →
      view m = { view head with calls := toolCalls head ++ groupCalls calls } →
      Rendered items ms → Rendered (item :: (calls ++ items)) (m :: ms)

/-- An item by itself. -/
theorem Rendered.single (hhead : turnToMessage item = some head)
    (hassistant : isAssistant head = false) (hrest : Rendered items ms) :
    Rendered (item :: items) (head :: ms) := by
  have hview : view head = { view head with calls := toolCalls head ++ groupCalls [] } := by
    rw [groupCalls, List.filterMap_nil, List.flatMap_nil, List.append_nil]
    rfl
  exact .group hhead (fun c hc => absurd hc List.not_mem_nil) (fun hne => absurd rfl hne)
    (fun ha => absurd ha (by rw [hassistant]; decide)) hview hrest

theorem push_start {base : List Value}
    (hbase : ∀ prev ∈ base.getLast?, isAssistant prev = true → isCall item = false)
    (h : turnToMessage item = some head) : pushMessage base head = base ++ [head] := by
  by_cases hcall : isCall item = true
  · refine push_first (fun prev hprev => ?_) head
    by_contra hassistant
    have hno := hbase prev hprev (Bool.eq_true_of_not_eq_false hassistant)
    exact absurd hcall (by rw [hno]; decide)
  · exact push_plain (turn_plain (Bool.eq_false_of_not_eq_true hcall) h) base

theorem filterMap_calls {calls : List Value}
    (h : ∀ c ∈ calls, isCall c = true ∧ (turnToMessage c).isSome = true) :
    ∀ m ∈ calls.filterMap turnToMessage,
      ∃ id name arguments, m = assistantCall id name arguments := by
  intro m hm
  obtain ⟨c, hc, hturn⟩ := List.mem_filterMap.mp hm
  obtain ⟨id, name, -, -, rfl⟩ := turn_call (h c hc).1 hturn
  exact ⟨id, name, _, rfl⟩

theorem head?_dropWhile_isCall (items : List Value) :
    ∀ next ∈ (items.dropWhile isCall).head?, isCall next = false := by
  intro next hnext
  have hnot := List.head?_dropWhile_not isCall items
  rw [Option.mem_def.mp hnext] at hnot
  simpa using hnot

theorem push_rendered (items base : List Value)
    (hbase : ∀ prev ∈ base.getLast?, isAssistant prev = true →
      ∀ next ∈ items.head?, isCall next = false)
    (h : ∀ item ∈ items, (turnToMessage item).isSome = true) :
    ∃ ms, (items.filterMap turnToMessage).foldl pushMessage base = base ++ ms ∧
      Rendered items ms := by
  induction hn : items.length using Nat.strong_induction_on generalizing items base with
  | _ n ih =>
  cases items with
  | nil => exact ⟨[], (List.append_nil base).symm, .nil⟩
  | cons item rest =>
    obtain ⟨hitem, hrest⟩ := List.forall_mem_cons.mp h
    obtain ⟨head, hhead⟩ := Option.isSome_iff_exists.mp hitem
    have hstart := push_start (fun prev hp ha => hbase prev hp ha item rfl) hhead
    by_cases hassistant : isAssistant head = true
    · -- the calls right after it go into the message
      have hsplit := List.takeWhile_append_dropWhile (p := isCall) (l := rest)
      have hcalls : ∀ c ∈ rest.takeWhile isCall,
          isCall c = true ∧ (turnToMessage c).isSome = true := fun c hc =>
        ⟨List.mem_takeWhile_imp hc, hrest c (List.takeWhile_subset _ hc)⟩
      obtain ⟨m, hfold, hview⟩ := foldl_push_calls (isObject_turn hhead) hassistant base
        (filterMap_calls hcalls)
      have hshort : (rest.dropWhile isCall).length < n := by
        have := (List.dropWhile_suffix (l := rest) isCall).length_le
        simp only [List.length_cons] at hn
        omega
      obtain ⟨ms, hms, hrendered⟩ := ih _ hshort (rest.dropWhile isCall) (base ++ [m])
        (fun _ _ _ => head?_dropWhile_isCall rest)
        (fun c hc => hrest c ((List.dropWhile_suffix isCall).subset hc)) rfl
      refine ⟨m :: ms, ?_, ?_⟩
      · rw [List.filterMap_cons, hhead, List.foldl_cons, hstart, ← hsplit, List.filterMap_append,
          List.foldl_append, hfold, hms, List.append_assoc]
        rfl
      · rw [← hsplit]
        exact .group hhead hcalls (fun _ => hassistant)
          (fun _ => head?_dropWhile_isCall rest) hview hrendered
    · have hshort : rest.length < n := by
        simp only [List.length_cons] at hn
        omega
      have hlast : ∀ prev ∈ (base ++ [head]).getLast?, isAssistant prev = true →
          ∀ next ∈ rest.head?, isCall next = false := by
        intro prev hprev ha
        rw [List.getLast?_append, List.getLast?_singleton, Option.some_or] at hprev
        cases hprev
        exact absurd ha hassistant
      obtain ⟨ms, hms, hrendered⟩ := ih _ hshort rest (base ++ [head]) hlast hrest rfl
      refine ⟨head :: ms, ?_, ?_⟩
      · rw [List.filterMap_cons, hhead, List.foldl_cons, hstart, hms, List.append_assoc]
        rfl
      · exact .single hhead (Bool.eq_false_of_not_eq_true hassistant) hrendered

-- ---------------------------------------------------------------------------
-- What follows a call
-- ---------------------------------------------------------------------------

/-- The role of the message an item becomes. -/
def itemRole (item : Value) : String :=
  if isCall item then "assistant" else if isOutput item then "tool" else roleOf item

def isToolItem (item : Value) : Bool := itemRole item = "tool"

def isTool (m : Value) : Bool := strAt "role" m = some "tool"

def Answers (call output : Value) : Prop :=
  isOutput output = true ∧ output.get "call_id" = callId call

/-- Each call has its output somewhere after the group of calls it belongs to. -/
def OutputsAfter (items : List Value) : Prop :=
  ∀ call rest, call :: rest <:+ items → isCall call = true →
    ∃ output ∈ rest.dropWhile isCall, Answers call output

/-- Each call has its output among the tool items that directly follow its group. -/
def OutputsDirectlyAfter (items : List Value) : Prop :=
  ∀ call rest, call :: rest <:+ items → isCall call = true →
    ∃ output ∈ (rest.dropWhile isCall).takeWhile isToolItem, Answers call output

/-- The tool messages right after a message answer the calls in it. -/
def AnsweredBy (m : Value) (rest : List Value) : Prop :=
  ∀ c ∈ toolCalls m, ∃ t ∈ rest.takeWhile isTool, t.get "tool_call_id" = c.get "id"

def Followed (messages : List Value) : Prop :=
  ∀ m rest, m :: rest <:+ messages → isAssistant m = true → AnsweredBy m rest

theorem outputsAfter_nil : OutputsAfter [] := Carry.forall_suffix_nil

theorem outputsDirectlyAfter_nil : OutputsDirectlyAfter [] := Carry.forall_suffix_nil

theorem followed_nil : Followed [] := Carry.forall_suffix_nil

theorem followed_cons : Followed (m :: ms) ↔
    (isAssistant m = true → AnsweredBy m ms) ∧ Followed ms :=
  Carry.forall_suffix_cons (p := fun m rest => isAssistant m = true → AnsweredBy m rest)

theorem outputsDirectlyAfter_cons : OutputsDirectlyAfter (item :: items) ↔
    (isCall item = true →
      ∃ output ∈ (items.dropWhile isCall).takeWhile isToolItem, Answers item output) ∧
        OutputsDirectlyAfter items :=
  Carry.forall_suffix_cons (p := fun call rest => isCall call = true →
    ∃ output ∈ (rest.dropWhile isCall).takeWhile isToolItem, Answers call output)

theorem dropWhile_calls {calls items : List Value} (hcalls : ∀ c ∈ calls, isCall c = true)
    (hnext : ∀ next ∈ items.head?, isCall next = false) :
    (calls ++ items).dropWhile isCall = items := by
  rw [List.dropWhile_append_of_pos hcalls]
  cases items with
  | nil => rfl
  | cons next items => rw [List.dropWhile_cons_of_neg (by rw [hnext next rfl]; decide)]

/-- The calls of one group all look for their outputs in the same place. -/
theorem outputsDirectlyAfter_group {calls items : List Value}
    (hcalls : ∀ c ∈ calls, isCall c = true) (hnext : ∀ next ∈ items.head?, isCall next = false) :
    OutputsDirectlyAfter (calls ++ items) ↔
      (∀ call ∈ calls, ∃ output ∈ items.takeWhile isToolItem, Answers call output) ∧
        OutputsDirectlyAfter items := by
  induction calls with
  | nil => exact ⟨fun h => ⟨fun _ hc => absurd hc List.not_mem_nil, h⟩, fun h => h.2⟩
  | cons call calls ih =>
    obtain ⟨hcall, hrest⟩ := List.forall_mem_cons.mp hcalls
    rw [List.cons_append, outputsDirectlyAfter_cons, dropWhile_calls hrest hnext, ih hrest,
      List.forall_mem_cons, and_assoc]
    exact and_congr_left fun _ => ⟨fun h => h hcall, fun h _ => h⟩

/-- A turn is neither a call nor an output. -/
theorem not_typed (h : ∀ kind ∈ typeOf item, kind = "message") :
    isCall item = false ∧ isOutput item = false := by
  cases hk : typeOf item with
  | none => simp [isCall, isOutput, hk]
  | some kind => simp [isCall, isOutput, hk, h kind hk]

theorem not_call_of_output (h : isOutput item = true) : isCall item = false := by
  rcases of_decide_eq_true h with hk | hk <;> simp [isCall, hk]

theorem role_turn (h : turnToMessage item = some m) : strAt "role" m = some (itemRole item) := by
  cases turnToMessage_turns h with
  | call hcall =>
    rw [itemRole, if_pos hcall]
    rfl
  | output houtput =>
    rw [itemRole, not_call_of_output houtput, houtput]
    rfl
  | turn hmessage =>
    rw [itemRole, (not_typed hmessage).1, (not_typed hmessage).2]
    rfl

theorem isTool_turn (h : turnToMessage item = some m) : isTool m = isToolItem item := by
  simp [isTool, isToolItem, role_turn h]

theorem answers_turn (h : turnToMessage item = some m) (id : Value) :
    m.get "tool_call_id" = some id ↔ isOutput item = true ∧ item.get "call_id" = some id := by
  cases turnToMessage_turns h with
  | call hcall =>
    have houtput : isOutput item = false := by
      rcases of_decide_eq_true hcall with hk | hk <;> simp [isOutput, hk]
    rw [houtput]
    constructor
    · intro hid
      cases hid
    · rintro ⟨hno, -⟩
      cases hno
  | output houtput hid => rw [hid, and_iff_right houtput]; rfl
  | turn hmessage =>
    rw [(not_typed hmessage).2]
    constructor
    · intro hid
      cases hid
    · rintro ⟨hno, -⟩
      cases hno

/-- The tool messages at the front are those of the tool items at the front. -/
theorem tool_run (h : Rendered items ms) (id : Value) :
    (∃ t ∈ ms.takeWhile isTool, t.get "tool_call_id" = some id) ↔
      ∃ output ∈ items.takeWhile isToolItem,
        isOutput output = true ∧ output.get "call_id" = some id := by
  induction h with
  | nil => exact ⟨fun ⟨_, ht, _⟩ => (nomatch ht), fun ⟨_, ht, _⟩ => (nomatch ht)⟩
  | @group item head m calls items ms hhead hcalls hassistant hnext hview _ ih =>
    have hrole : isTool m = isTool head := by
      have hview' : (view m).role = (view head).role := by rw [hview]
      exact congrArg (fun role => decide (role = some "tool")) hview'
    have hid : m.get "tool_call_id" = head.get "tool_call_id" := congrArg View.callId hview
    have htool := isTool_turn hhead
    by_cases hrun : isTool head = true
    · have hnot : isAssistant head = false := by
        have hr : strAt "role" head = some "tool" := of_decide_eq_true hrun
        simp [isAssistant, hr]
      have hnil : calls = [] := by
        by_contra hne
        exact absurd (hassistant hne) (by rw [hnot]; decide)
      rw [List.takeWhile_cons_of_pos (hrole.trans hrun), hnil, List.nil_append,
        List.takeWhile_cons_of_pos (htool.symm.trans hrun)]
      simp only [List.exists_mem_cons_iff]
      rw [ih, hid, answers_turn hhead]
    · rw [List.takeWhile_cons_of_neg (by rwa [hrole]),
        List.takeWhile_cons_of_neg (by rwa [← htool])]
      exact ⟨fun ⟨_, ht, _⟩ => (nomatch ht), fun ⟨_, ht, _⟩ => (nomatch ht)⟩

theorem forall_groupCalls {calls : List Value} (p : Option Value → Prop)
    (h : ∀ c ∈ calls, isCall c = true ∧ (turnToMessage c).isSome = true) :
    (∀ c ∈ groupCalls calls, p (c.get "id")) ↔ ∀ call ∈ calls, p (callId call) := by
  induction calls with
  | nil =>
    exact iff_of_true (fun _ hc => absurd hc List.not_mem_nil)
      fun _ hc => absurd hc List.not_mem_nil
  | cons call calls ih =>
    obtain ⟨⟨hcall, hturn⟩, hrest⟩ := List.forall_mem_cons.mp h
    obtain ⟨m, hm⟩ := Option.isSome_iff_exists.mp hturn
    rw [groupCalls_cons hm, List.forall_mem_append, forall_toolCalls_turn hm, ih hrest,
      List.forall_mem_cons]
    exact and_congr_left fun _ => ⟨fun hp => hp hcall, fun hp _ => hp⟩

theorem answered_iff (h : Rendered items ms) {call : Value} (hcall : (callId call).isSome = true) :
    (∃ t ∈ ms.takeWhile isTool, t.get "tool_call_id" = callId call) ↔
      ∃ output ∈ items.takeWhile isToolItem, Answers call output := by
  obtain ⟨id, hid⟩ := Option.isSome_iff_exists.mp hcall
  have hrun := tool_run h id
  simp only [Answers, hid]
  exact hrun

theorem callId_isSome (hcall : isCall item = true) (h : turnToMessage item = some m) :
    (callId item).isSome = true := by
  obtain ⟨id, name, hid, -, -⟩ := turn_call hcall h
  rw [hid]
  rfl

/-- The calls of a message are answered exactly if those of its group are. -/
theorem answeredBy_iff (h : Rendered items ms) {calls : List Value}
    (hhead : turnToMessage item = some head)
    (hcalls : ∀ c ∈ calls, isCall c = true ∧ (turnToMessage c).isSome = true)
    (hm : toolCalls m = toolCalls head ++ groupCalls calls) :
    AnsweredBy m ms ↔
      (isCall item = true → ∃ output ∈ items.takeWhile isToolItem, Answers item output) ∧
        ∀ call ∈ calls, ∃ output ∈ items.takeWhile isToolItem, Answers call output := by
  rw [AnsweredBy, hm, List.forall_mem_append,
    forall_toolCalls_turn hhead fun id => ∃ t ∈ ms.takeWhile isTool, t.get "tool_call_id" = id,
    forall_groupCalls (fun id => ∃ t ∈ ms.takeWhile isTool, t.get "tool_call_id" = id) hcalls]
  refine and_congr (imp_congr_right fun hcall => ?_) (forall₂_congr fun call hmem => ?_)
  · exact answered_iff h (callId_isSome hcall hhead)
  · obtain ⟨hcall, hturn⟩ := hcalls call hmem
    obtain ⟨m, hm⟩ := Option.isSome_iff_exists.mp hturn
    exact answered_iff h (callId_isSome hcall hm)

/-- The messages keep the order of calls and outputs, and give nothing beyond it. -/
theorem followed_iff (h : Rendered items ms) : Followed ms ↔ OutputsDirectlyAfter items := by
  induction h with
  | nil => exact iff_of_true followed_nil outputsDirectlyAfter_nil
  | @group item head m calls items ms hhead hcalls hassistant hnext hview hrest ih =>
    have hrole : isAssistant m = isAssistant head := by
      have hview' : (view m).role = (view head).role := by rw [hview]
      exact congrArg (fun role => decide (role = some "assistant")) hview'
    have hsum : toolCalls m = toolCalls head ++ groupCalls calls := congrArg View.calls hview
    rw [followed_cons, hrole, answeredBy_iff hrest hhead hcalls hsum, ih]
    by_cases ha : isAssistant head = true
    · rw [forall_prop_of_true ha]
      by_cases hcall : isCall item = true
      · have hall : ∀ c ∈ item :: calls, isCall c = true :=
          List.forall_mem_cons.mpr ⟨hcall, fun c hc => (hcalls c hc).1⟩
        rw [← List.cons_append, outputsDirectlyAfter_group hall (hnext ha), List.forall_mem_cons,
          forall_prop_of_true hcall]
      · rw [outputsDirectlyAfter_cons,
          outputsDirectlyAfter_group (fun c hc => (hcalls c hc).1) (hnext ha),
          forall_prop_of_false hcall, forall_prop_of_false hcall, and_assoc]
    · have hnil : calls = [] := by
        by_contra hne
        exact ha (hassistant hne)
      have hcall : ¬isCall item = true := fun hcall => ha (isAssistant_turn_call hcall hhead)
      rw [forall_prop_of_false ha, hnil, List.nil_append, outputsDirectlyAfter_cons,
        forall_prop_of_false hcall]

end Firstpass.Responses
