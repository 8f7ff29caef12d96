import Firstpass.Core.JsonParse
import Firstpass.Proxy.ResponsesFollow

/-!
# The stream reassembles to the answer

The events that are read from the stream of a Responses object are those that
were pushed, numbered from zero. A client that follows them has the items of the
object in the end, where every function call has its arguments as a string.
-/

namespace Firstpass.Responses

open Json

def ofKind (kind : String) (e : Value) : Bool := typeOf e = some kind

structure Reassembles (resp : Value) (events : List Value) : Prop where
  numbered : events.map (·.get "sequence_number") =
    (List.range events.length).map fun n => some (number n)
  added : (events.filter (ofKind "response.output_item.added")).map
      (fun e => (e.get "output_index", (e.get "item").bind (·.get "id"))) =
    (itemsOf resp).zipIdx.map fun (item, i) => (some (number i), item.get "id")
  done : (events.filter (ofKind "response.output_item.done")).map
      (fun e => (e.get "output_index", e.get "item")) =
    (itemsOf resp).zipIdx.map fun (item, i) => (some (number i), some item)
  followed : ∃ c kind, events.foldlM Client.follow .start = some c ∧ c.output = itemsOf resp ∧
    c.ended = some (kind, resp) ∧
    (kind = "response.incomplete" ↔ strAt "status" resp = some "incomplete")

-- ---------------------------------------------------------------------------
-- From the text to the events
-- ---------------------------------------------------------------------------

theorem text_pushEvents (events : List Sent) (out : Out) :
    (events.foldl (fun out e => pushEvent out e.1 e.2) out).text.toList =
      out.text.toList ++ ((stamped out.seq events).map frame).flatMap EventStream.Frame.text := by
  induction events generalizing out with
  | nil => simp [stamped]
  | cons e events ih =>
    rw [List.foldl_cons, ih]
    simp [pushEvent, stamped, frame, EventStream.Frame.text, EventStream.line,
      EventStream.eventField, EventStream.dataField, Value.toText]

/-- The kinds of the events between the two that frame an item. -/
def innerKinds : List String :=
  ["response.content_part.added", "response.output_text.delta", "response.output_text.done",
    "response.content_part.done", "response.function_call_arguments.delta",
    "response.function_call_arguments.done", "response.custom_tool_call_input.delta",
    "response.custom_tool_call_input.done"]

def outerKinds : List String := ["response.output_item.added", "response.output_item.done"]

def kinds : List String :=
  ["response.created", "response.in_progress", "response.completed", "response.incomplete"] ++
    outerKinds ++ innerKinds

theorem innerKinds_partEvents (itemId : Value) (i : Nat) (part : Value) (j : Nat) :
    ∀ e ∈ partEvents itemId i part j, e.1 ∈ innerKinds := by
  unfold partEvents
  dsimp only
  split_ifs <;> simp [innerKinds]

theorem innerKinds_contentEvents (kind : String) (itemId : Value) (i : Nat) (item : Value) :
    ∀ e ∈ contentEvents kind itemId i item, e.1 ∈ innerKinds := by
  unfold contentEvents
  split
  · rintro e he
    obtain ⟨⟨part, j⟩, -, he⟩ := List.mem_flatMap.mp he
    exact innerKinds_partEvents itemId i part j e he
  · simp [callEvents, callKinds, innerKinds]
  · simp [callEvents, callKinds, innerKinds]
  · simp

theorem kinds_responseEvents (resp : Value) : ∀ e ∈ responseEvents resp, e.1 ∈ kinds := by
  simp only [responseEvents, List.mem_append, List.mem_flatMap]
  rintro e ((he | ⟨⟨item, i⟩, -, he⟩) | he)
  · revert e
    simp [kinds]
  · simp only [itemEvents, List.mem_append] at he
    rcases he with (he | he) | he
    · simp_all [kinds, outerKinds]
    · exact List.mem_append_right _ (innerKinds_contentEvents _ _ _ _ e he)
    · simp_all [kinds, outerKinds]
  · obtain rfl := List.mem_singleton.mp he
    unfold terminalKind
    split_ifs <;> simp [kinds]

theorem oneLine_kinds : ∀ kind ∈ kinds, '\n' ∉ kind.toList := by
  simp [kinds, outerKinds, innerKinds]

theorem oneLine_frame {e : Sent} (h : e.1 ∈ kinds) (seq : Nat) :
    (frame (stamp seq e.1 e.2)).OneLine where
  event := by
    simp only [frame, typeOf_stamp, Option.map_some, Option.mem_some_iff]
    rintro event rfl
    exact oneLine_kinds e.1 h
  data hmem := absurd (plain_print _ _ hmem) (by decide)

theorem oneLine_stamped {events : List Sent} (h : ∀ e ∈ events, e.1 ∈ kinds) (seq : Nat) :
    ∀ f ∈ (stamped seq events).map frame, f.OneLine := by
  induction events generalizing seq with
  | nil => simp [stamped]
  | cons e events ih =>
    obtain ⟨he, hevents⟩ := List.forall_mem_cons.mp h
    simp only [stamped, List.map_cons, List.forall_mem_cons]
    exact ⟨oneLine_frame he seq, ih hevents _⟩

/-- What is read from the stream is what was pushed. -/
theorem read_sseFromResponse (resp : Value) :
    EventStream.read (sseFromResponse resp).toList =
      (stamped 0 (responseEvents resp)).map frame := by
  rw [sseFromResponse, text_pushEvents, String.toList_empty, List.nil_append]
  exact EventStream.read_text (oneLine_stamped (kinds_responseEvents resp) 0)

-- ---------------------------------------------------------------------------
-- All items
-- ---------------------------------------------------------------------------

/-- A function call has its arguments as a string. -/
def hasText (item : Value) : Bool :=
  typeOf item ≠ some "function_call" || (strAt "arguments" item).isSome

/-- A client takes the item from its events exactly where that is so. -/
def Taken (item : Value) : Prop := ∀ seq rid output, ∃ seq',
  (waiting seq rid output).run (itemEvents item output.length) =
    if hasText item then some (waiting seq' rid (output ++ [item])) else none

theorem taken_messageItem (id text : String) : Taken (messageItem id text) :=
  fun seq rid output => run_messageItem seq rid output id text

def isCustomCall (customTools : List String) (call : Value) : Bool :=
  ((call.pointer ["function", "name"]).bind Value.asStr).any fun name => name ∈ customTools

theorem callItem_custom {customTools : List String} {call : Value}
    (h : isCustomCall customTools call = true) (fromStr : String → Option Value) (id : String)
    (i : Nat) : ∃ callId itemId input name,
      callItem fromStr customTools id i call = customItem callId itemId input name := by
  unfold isCustomCall at h
  unfold callItem
  cases hname : (call.pointer ["function", "name"]).bind Value.asStr with
  | none => simp [hname] at h
  | some name =>
    rw [hname] at h
    have hcustom : decide (name ∈ customTools) = true := h
    rw [Option.filter_some, if_pos hcustom]
    exact ⟨_, _, _, _, rfl⟩

theorem callItem_function {customTools : List String} {call : Value}
    (h : isCustomCall customTools call = false) (fromStr : String → Option Value) (id : String)
    (i : Nat) : ∃ callId itemId name, callItem fromStr customTools id i call =
      functionItem ((call.pointer ["function", "arguments"]).getD (.string "\x7b\x7d")) callId
        itemId name := by
  have hnone : ((call.pointer ["function", "name"]).bind Value.asStr).filter
      (fun n => n ∈ customTools) = none := by
    unfold isCustomCall at h
    cases hname : (call.pointer ["function", "name"]).bind Value.asStr with
    | none => rfl
    | some name =>
      rw [hname] at h
      rw [Option.filter_some, if_neg (by simpa using h)]
  unfold callItem
  rw [hnone]
  exact ⟨_, _, _, rfl⟩

theorem taken_callItem (fromStr : String → Option Value) (customTools : List String) (id : String)
    (i : Nat) (call : Value) : Taken (callItem fromStr customTools id i call) := by
  rintro seq rid output
  cases hcustom : isCustomCall customTools call with
  | true =>
    obtain ⟨callId, itemId, input, name, hitem⟩ := callItem_custom hcustom fromStr id i
    rw [hitem]
    exact run_customItem seq rid output callId itemId input name
  | false =>
    obtain ⟨callId, itemId, name, hitem⟩ := callItem_function hcustom fromStr id i
    rw [hitem]
    exact ⟨seq + 4, run_functionItem seq rid output _ callId itemId name⟩

theorem run_items {items : List Value} (htaken : ∀ item ∈ items, Taken item) (seq : Nat)
    (rid : Value) (output : List Value) :
    ∃ seq', (waiting seq rid output).run ((items.zipIdx output.length).flatMap fun x =>
        itemEvents x.1 x.2) =
      if items.all hasText then some (waiting seq' rid (output ++ items)) else none := by
  induction items generalizing seq output with
  | nil => exact ⟨seq, by simp [Client.run]⟩
  | cons item items ih =>
    obtain ⟨hitem, hitems⟩ := List.forall_mem_cons.mp htaken
    obtain ⟨seq', hfirst⟩ := hitem seq rid output
    obtain ⟨seq'', hrest⟩ := ih hitems seq' (output ++ [item])
    refine ⟨seq'', ?_⟩
    rw [List.zipIdx_cons, List.flatMap_cons, run_append, hfirst, List.all_cons]
    cases hasText item with
    | false => rfl
    | true => simpa using hrest

-- ---------------------------------------------------------------------------
-- The whole stream
-- ---------------------------------------------------------------------------

section response

variable (fromStr : String → Option Value) (chat : Value) (customTools : List String)

theorem taken_outputItems : ∀ item ∈ outputItems fromStr chat customTools, Taken item := by
  have hcalls : ∀ calls : List Value,
      ∀ item ∈ calls.mapIdx (callItem fromStr customTools (replyId chat)), Taken item := by
    rintro calls item hitem
    obtain ⟨i, hi, rfl⟩ := List.mem_mapIdx.mp hitem
    exact taken_callItem fromStr customTools _ i _
  unfold outputItems
  dsimp only
  split_ifs
  · simp [taken_messageItem]
  · exact hcalls _
  · simp [taken_messageItem]
  · simpa [taken_messageItem] using hcalls _

theorem get_id_responseFromChat : (responseFromChat fromStr chat customTools).get "id" =
    some (.string (replyId chat)) := rfl

theorem get_output_responseFromChat : (responseFromChat fromStr chat customTools).get "output" =
    some (.array (outputItems fromStr chat customTools)) := by
  unfold responseFromChat
  dsimp only
  split_ifs <;> rfl

theorem itemsOf_responseFromChat : itemsOf (responseFromChat fromStr chat customTools) =
    outputItems fromStr chat customTools := by
  rw [itemsOf, get_output_responseFromChat]
  rfl

end response

/-- The snapshot is the response under way, by its id. -/
theorem get_id_inProgressSnapshot (resp : Value) :
    (inProgressSnapshot resp).get "id" = resp.get "id" := by
  cases resp with
  | object m =>
    simp [inProgressSnapshot, Value.get, lookup_removeKey_ne, lookup_btreeInsert_ne]
  | _ => rfl

theorem run_opening {resp id : Value} (hid : resp.get "id" = some id) :
    Client.start.run [("response.created", .object [("response", inProgressSnapshot resp)]),
      ("response.in_progress", .object [("response", inProgressSnapshot resp)])] =
    some (waiting 2 id []) := by
  have hsnapshot := (get_id_inProgressSnapshot resp).trans hid
  simp [Client.run, Client.follow, Client.start, Client.take, Client.created, Client.inProgress,
    get_stamp, hsnapshot, waiting]

theorem run_terminal {seq : Nat} {resp id : Value} {output : List Value}
    (hid : resp.get "id" = some id) (houtput : resp.get "output" = some (.array output)) :
    (waiting seq id output).run [(terminalKind resp, .object [("response", resp)])] =
      some ⟨seq + 1, some id, output, none, some (terminalKind resp, resp)⟩ := by
  unfold terminalKind
  split_ifs <;>
    simp [Client.run, Client.follow, waiting, Client.take, Client.terminal, get_stamp, hid, houtput]

theorem run_responseEvents {resp id : Value} (hid : resp.get "id" = some id)
    (houtput : resp.get "output" = some (.array (itemsOf resp)))
    (htaken : ∀ item ∈ itemsOf resp, Taken item) :
    ∃ seq', Client.start.run (responseEvents resp) =
      if (itemsOf resp).all hasText then
        some ⟨seq', some id, itemsOf resp, none, some (terminalKind resp, resp)⟩
      else none := by
  obtain ⟨seq', hitems⟩ := run_items htaken 2 id []
  refine ⟨seq' + 1, ?_⟩
  rw [responseEvents, run_append, run_append, run_opening hid, Option.bind_some]
  refine (congrArg (Option.bind · _) hitems).trans ?_
  split_ifs
  · rw [Option.bind_some, List.nil_append, run_terminal hid houtput]
  · rfl

-- ---------------------------------------------------------------------------
-- Numbers, and what is announced
-- ---------------------------------------------------------------------------

theorem numbers_stamped (seq : Nat) (events : List Sent) :
    (stamped seq events).map (·.get "sequence_number") =
      (List.range' seq (stamped seq events).length).map fun n => some (number n) := by
  induction events generalizing seq with
  | nil => rfl
  | cons e events ih => simp [stamped, List.range'_succ, ih]

theorem get_stamp_data {key : String} (hnumber : key ≠ "sequence_number") (htype : key ≠ "type")
    (seq : Nat) (e : Sent) : (stamp seq e.1 e.2).get key = e.2.get key := by
  obtain ⟨kind, data⟩ := e
  cases data with
  | object fields => exact get_stamp hnumber htype seq kind fields
  | _ =>
    simp [stamp, Value.get, Value.asObject, lookup_btreeInsert_ne hnumber,
      lookup_btreeInsert_ne htype]

theorem filter_stamped {β : Type} (kind : String) {read : Value → β}
    (hread : ∀ seq (e : Sent), read (stamp seq e.1 e.2) = read e.2) (seq : Nat)
    (events : List Sent) : ((stamped seq events).filter (ofKind kind)).map read =
      (events.filter (·.1 = kind)).map fun e => read e.2 := by
  induction events generalizing seq with
  | nil => rfl
  | cons e events ih =>
    have hkind : ofKind kind (stamp seq e.1 e.2) = decide (e.1 = kind) := by simp [ofKind]
    rw [stamped, List.filter_cons, List.filter_cons, hkind]
    split_ifs <;> simp [hread, ih]

theorem filter_contentEvents {kind : String} (hkind : kind ∈ outerKinds) (type : String)
    (itemId : Value) (i : Nat) (item : Value) :
    (contentEvents type itemId i item).filter (·.1 = kind) = [] := by
  refine List.filter_eq_nil_iff.mpr fun e he => ?_
  have hinner := innerKinds_contentEvents type itemId i item e he
  rintro h
  obtain rfl : e.1 = kind := by simpa using h
  revert hinner hkind
  generalize e.1 = k
  simp only [outerKinds, innerKinds]
  rintro hkind hinner
  simp at hkind hinner
  grind

/-- What is announced of an item, or given at its end. -/
def outerItem (kind : String) (item : Value) : Value :=
  if kind = "response.output_item.added" then shellOf ((typeOf item).getD "") item else item

theorem filter_itemEvents {kind : String} (hkind : kind ∈ outerKinds) (item : Value) (i : Nat) :
    (itemEvents item i).filter (·.1 = kind) =
      [(kind, .object [("item", outerItem kind item), ("output_index", number i)])] := by
  rw [itemEvents]
  simp only [List.filter_append, filter_contentEvents hkind]
  simp only [outerKinds, List.mem_cons, List.not_mem_nil, or_false] at hkind
  rcases hkind with rfl | rfl <;> simp [outerItem]

theorem filter_responseEvents {kind : String} (hkind : kind ∈ outerKinds) (resp : Value) :
    (responseEvents resp).filter (·.1 = kind) = (itemsOf resp).zipIdx.map fun x =>
      (kind, .object [("item", outerItem kind x.1), ("output_index", number x.2)]) := by
  have hterminal : terminalKind resp ≠ kind := by
    simp only [outerKinds, List.mem_cons, List.not_mem_nil, or_false] at hkind
    unfold terminalKind
    rcases hkind with rfl | rfl <;> split_ifs <;> simp
  have hopening : "response.created" ≠ kind ∧ "response.in_progress" ≠ kind := by
    simp only [outerKinds, List.mem_cons, List.not_mem_nil, or_false] at hkind
    rcases hkind with rfl | rfl <;> simp
  simp only [responseEvents, List.filter_append, List.filter_flatMap, filter_itemEvents hkind]
  simpa [hterminal, hopening] using List.map_eq_flatMap.symm

/-- What frames the items, as it is read. -/
theorem outer_stamped {β : Type} {kind : String} (hkind : kind ∈ outerKinds)
    (read : Option Value → Option Value → β) (resp : Value) :
    ((stamped 0 (responseEvents resp)).filter (ofKind kind)).map
        (fun e => read (e.get "output_index") (e.get "item")) =
      (itemsOf resp).zipIdx.map fun x =>
        read (some (number x.2)) (some (outerItem kind x.1)) := by
  rw [filter_stamped kind fun seq e => by
      rw [get_stamp_data (by decide) (by decide), get_stamp_data (by decide) (by decide)],
    filter_responseEvents hkind, List.map_map]
  exact List.map_congr_left fun _ _ => rfl

theorem get_id_shellOf (kind : String) (item : Value) :
    (shellOf kind item).get "id" = item.get "id" := by
  have hfield : ∀ f ∈ filledField kind, "id" ≠ f.1 := by
    unfold filledField
    split <;> simp
  cases item with
  | object m =>
    simp only [shellOf, Value.get]
    split
    · rename_i field empty hfilled
      have hne := hfield _ hfilled
      split_ifs
      · rw [lookup_btreeInsert_ne (by decide), lookup_btreeInsert_ne hne]
      · rw [lookup_btreeInsert_ne hne]
    · split_ifs
      · rw [lookup_btreeInsert_ne (by decide)]
      · rfl
  | _ => rfl

-- ---------------------------------------------------------------------------
-- Calls with text
-- ---------------------------------------------------------------------------

def callsOf (chat : Value) : List Value := ((message chat "tool_calls").bind Value.asArray).getD []

/-- A call to a function that gives arguments gives them as a string. -/
def TextArguments (chat : Value) (customTools : List String) : Prop :=
  ∀ call ∈ callsOf chat, isCustomCall customTools call = false →
    ∀ v, call.pointer ["function", "arguments"] = some v → ∃ text, v = .string text

theorem hasText_callItem (fromStr : String → Option Value) (customTools : List String) (id : String)
    (i : Nat) (call : Value) : hasText (callItem fromStr customTools id i call) = true ↔
      (isCustomCall customTools call = false →
        ∀ v, call.pointer ["function", "arguments"] = some v → ∃ text, v = .string text) := by
  cases hcustom : isCustomCall customTools call with
  | true =>
    obtain ⟨callId, itemId, input, name, hitem⟩ := callItem_custom hcustom fromStr id i
    have htrue : hasText (customItem callId itemId input name) = true := rfl
    simp [hitem, htrue]
  | false =>
    obtain ⟨callId, itemId, name, hitem⟩ := callItem_function hcustom fromStr id i
    have htext : ∀ v, hasText (functionItem v callId itemId name) = v.asStr.isSome := fun _ => rfl
    rw [hitem, htext]
    cases call.pointer ["function", "arguments"] with
    | none => simp [Value.asStr]
    | some v => cases v <;> simp [Value.asStr]

theorem hasText_outputItems (fromStr : String → Option Value) (chat : Value)
    (customTools : List String) :
    (outputItems fromStr chat customTools).all hasText = true ↔ TextArguments chat customTools := by
  have hcalls : ((callsOf chat).mapIdx (callItem fromStr customTools (replyId chat))).all hasText =
      true ↔ TextArguments chat customTools := by
    rw [List.all_eq_true]
    constructor
    · rintro h call hcall
      obtain ⟨i, hi, rfl⟩ := List.getElem_of_mem hcall
      exact (hasText_callItem fromStr customTools _ i _).mp
        (h _ (List.mem_mapIdx.mpr ⟨i, hi, rfl⟩))
    · rintro h item hitem
      obtain ⟨i, hi, rfl⟩ := List.mem_mapIdx.mp hitem
      exact (hasText_callItem fromStr customTools _ i _).mpr (h _ (List.getElem_mem hi))
  have hmessage : ∀ text, hasText (messageItem (replyId chat) text) = true := fun _ => rfl
  rw [← hcalls]
  unfold outputItems
  rw [← callsOf]
  dsimp only
  split_ifs with htext hnone hnone
  · simp_all
  · simp
  · simp_all
  · simp [hmessage]

section stream

variable (fromStr : String → Option Value) (chat : Value) (customTools : List String)

/-- A client that follows the stream. -/
theorem follow_responseFromChat :
    ∃ seq, (stamped 0 (responseEvents (responseFromChat fromStr chat customTools))).foldlM
        Client.follow .start =
      if (outputItems fromStr chat customTools).all hasText then
        some ⟨seq, some (.string (replyId chat)), outputItems fromStr chat customTools, none,
          some (terminalKind (responseFromChat fromStr chat customTools),
            responseFromChat fromStr chat customTools)⟩
      else none := by
  have hitems := itemsOf_responseFromChat fromStr chat customTools
  have houtput := get_output_responseFromChat fromStr chat customTools
  have htaken := taken_outputItems fromStr chat customTools
  rw [← hitems] at houtput htaken
  obtain ⟨seq, hrun⟩ := run_responseEvents (get_id_responseFromChat fromStr chat customTools)
    houtput htaken
  rw [← foldlM_stamped, hitems] at hrun
  exact ⟨seq, hrun⟩

theorem text_of_reassembles {events : List Value}
    (hread : EventStream.read
      (sseFromResponse (responseFromChat fromStr chat customTools)).toList = events.map frame)
    (h : Reassembles (responseFromChat fromStr chat customTools) events) :
    TextArguments chat customTools := by
  rw [read_sseFromResponse] at hread
  obtain rfl := List.map_injective_iff.mpr frame_injective hread
  obtain ⟨c, kind, hfollowed, -⟩ := h.followed
  obtain ⟨seq, hrun⟩ := follow_responseFromChat fromStr chat customTools
  rw [← hasText_outputItems fromStr]
  by_contra hnot
  rw [if_neg hnot] at hrun
  cases hrun.symm.trans hfollowed

theorem reassembles_of_text (h : TextArguments chat customTools) :
    Reassembles (responseFromChat fromStr chat customTools)
      (stamped 0 (responseEvents (responseFromChat fromStr chat customTools))) := by
  obtain ⟨seq, hrun⟩ := follow_responseFromChat fromStr chat customTools
  rw [if_pos ((hasText_outputItems fromStr chat customTools).mpr h)] at hrun
  have hitems := itemsOf_responseFromChat fromStr chat customTools
  refine ⟨?_, ?_, ?_, _, _, hrun, hitems.symm, rfl, ?_⟩
  · rw [numbers_stamped, List.range_eq_range']
  · refine (outer_stamped (by simp [outerKinds])
      (fun i item => (i, item.bind (·.get "id"))) _).trans ?_
    exact List.map_congr_left fun x _ => congrArg (Prod.mk _) (get_id_shellOf _ x.1)
  · exact outer_stamped (by simp [outerKinds]) Prod.mk _
  · unfold terminalKind
    split_ifs with hstatus <;> simp [hstatus]

/-- The events that are read from the stream reassemble to the response exactly
where every function call gives its arguments as a string. -/
theorem stream_reassembles_iff :
    (∃ events, EventStream.read
        (sseFromResponse (responseFromChat fromStr chat customTools)).toList = events.map frame ∧
      Reassembles (responseFromChat fromStr chat customTools) events) ↔
      TextArguments chat customTools := by
  constructor
  · rintro ⟨events, hread, h⟩
    exact text_of_reassembles fromStr chat customTools hread h
  · rintro h
    exact ⟨_, read_sseFromResponse _, reassembles_of_text fromStr chat customTools h⟩

end stream

def objectArgumentsChat : Value :=
  .object [("choices", .array [.object [("message", .object [("tool_calls", .array
    [.object [("function", .object [("arguments", .object [("city", .string "Paris")]),
      ("name", .string "get_weather")]), ("id", .string "call_1")]])])]])]

/-- Arguments that are an object are in the item, and are an empty string in the events. -/
theorem stream_loses_arguments : ¬ ∀ (fromStr : String → Option Value) (chat : Value)
    (customTools : List String), ∃ events, EventStream.read
        (sseFromResponse (responseFromChat fromStr chat customTools)).toList = events.map frame ∧
      Reassembles (responseFromChat fromStr chat customTools) events := by
  rintro h
  obtain ⟨events, hread, hre⟩ := h (fun _ => none) objectArgumentsChat []
  have htext := text_of_reassembles (fun _ => none) objectArgumentsChat [] hread hre
  obtain ⟨text, hargs⟩ := htext _ List.mem_cons_self rfl _ rfl
  cases hargs

end Firstpass.Responses
