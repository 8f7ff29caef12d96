import Firstpass.Core.JsonObject
import Firstpass.Proxy.ResponsesStream

/-!
# Following the Responses event stream

What each event does to a client, and what the events of one item do. A message
and a custom call are taken as they are; a function call is taken exactly where
its arguments are a string.
-/

namespace Firstpass.Responses

open Json

attribute [local instance] Value.decEq

-- ---------------------------------------------------------------------------
-- Events
-- ---------------------------------------------------------------------------

/-- The events numbered from `seq` on. -/
def stamped (seq : Nat) : List Sent → List Value
  | [] => []
  | e :: events => stamp seq e.1 e.2 :: stamped (seq + 1) events

@[simp] theorem typeOf_stamp (seq : Nat) (kind : String) (data : Value) :
    typeOf (stamp seq kind data) = some kind := by
  simp [typeOf, strAt, stamp, Value.get, lookup_btreeInsert_ne, Value.asStr]

@[simp] theorem number_stamp (seq : Nat) (kind : String) (data : Value) :
    (stamp seq kind data).get "sequence_number" = some (number seq) := by
  simp [stamp, Value.get]

/-- The other fields are the event's own. -/
theorem get_stamp {key : String} (hnumber : key ≠ "sequence_number") (htype : key ≠ "type")
    (seq : Nat) (kind : String) (fields : Fields) :
    (stamp seq kind (.object fields)).get key = fields.lookup key := by
  rw [stamp, Value.get, lookup_btreeInsert_ne hnumber, lookup_btreeInsert_ne htype]
  rfl

-- ---------------------------------------------------------------------------
-- Following the events
-- ---------------------------------------------------------------------------

/-- The client after events that are numbered as it expects. -/
def Client.run (c : Client) : List Sent → Option Client
  | [] => some c
  | e :: events => (c.follow (stamp c.seq e.1 e.2)).bind fun c' => c'.run events

theorem run_append (c : Client) (xs ys : List Sent) :
    c.run (xs ++ ys) = (c.run xs).bind fun c' => c'.run ys := by
  induction xs generalizing c with
  | nil => rfl
  | cons e xs ih =>
    rw [List.cons_append, Client.run, Client.run, Option.bind_assoc]
    exact congrArg _ (funext ih)

theorem seq_take {c c' : Client} {e : Value} (h : c.take e = some c') : c'.seq = c.seq := by
  unfold Client.take at h
  split at h
  all_goals
    first
    | cases h
    | simp only [Client.created, Client.inProgress, Client.added, Client.partAdded, Client.delta,
        Client.summed, Client.partDone, Client.done, Client.terminal] at h
      grind

theorem seq_follow {c c' : Client} {e : Value} (h : c.follow e = some c') :
    c'.seq = c.seq + 1 := by
  unfold Client.follow at h
  split_ifs at h
  exact seq_take h

theorem foldlM_stamped (events : List Sent) (c : Client) :
    (stamped c.seq events).foldlM Client.follow c = c.run events := by
  induction events generalizing c with
  | nil => rfl
  | cons e events ih =>
    rw [stamped, List.foldlM_cons, Client.run]
    cases hnext : c.follow (stamp c.seq e.1 e.2) with
    | none => rfl
    | some c' =>
      show (stamped (c.seq + 1) events).foldlM Client.follow c' = c'.run events
      rw [← seq_follow hnext, ih]

/-- A client that waits for an item. -/
def waiting (seq : Nat) (rid : Value) (output : List Value) : Client :=
  ⟨seq, some rid, output, none, none⟩

/-- A client with an item under way. -/
def filling (seq : Nat) (rid : Value) (output : List Value) (a : Assembly) : Client :=
  ⟨seq, some rid, output, some a, none⟩

@[simp] theorem seq_waiting (seq : Nat) (rid : Value) (output : List Value) :
    (waiting seq rid output).seq = seq := rfl

@[simp] theorem seq_filling (seq : Nat) (rid : Value) (output : List Value) (a : Assembly) :
    (filling seq rid output a).seq = seq := rfl

section follow

variable (seq : Nat) (rid : Value) {output : List Value} {a : Assembly} {fields : Fields}

theorem follow_added (shell : Value) :
    (waiting seq rid output).follow (stamp seq "response.output_item.added"
      (.object [("item", shell), ("output_index", number output.length)])) =
    some (filling (seq + 1) rid output ⟨shell, none, [], ""⟩) := by
  simp [Client.follow, waiting, Client.take, Client.added, get_stamp, filling, List.lookup_cons]

/-- The fields say which item the event is about. -/
structure Owned (a : Assembly) (output : List Value) (fields : Fields) : Prop where
  itemId : fields.lookup "item_id" = a.shell.get "id"
  outputIndex : fields.lookup "output_index" = some (number output.length)

theorem owned_ofItem (output : List Value) {itemId : Value}
    (hid : a.shell.get "id" = some itemId)
    (extra : Fields) : Owned a output (ofItem itemId output.length extra) where
  itemId := by simp [ofItem, lookup_btreeInsert_ne, hid]
  outputIndex := by simp [ofItem]

theorem owned_ofPart (output : List Value) {itemId : Value}
    (hid : a.shell.get "id" = some itemId) (j : Nat)
    (extra : Fields) : Owned a output (ofPart itemId output.length j extra) where
  itemId := by simp [ofPart, ofItem, lookup_btreeInsert_ne, hid]
  outputIndex := by simp [ofPart, ofItem, lookup_btreeInsert_ne]

theorem Owned.owns (h : Owned a output fields) (seq : Nat) (kind : String) :
    a.owns output.length (stamp seq kind (.object fields)) = true := by
  simp [Assembly.owns, get_stamp, h.itemId, h.outputIndex]

theorem follow_delta (h : Owned a output fields) {kind delta : String}
    (hkind : kind = "response.output_text.delta" ∨
      kind = "response.function_call_arguments.delta" ∨
      kind = "response.custom_tool_call_input.delta")
    (hdelta : fields.lookup "delta" = some (.string delta)) :
    (filling seq rid output a).follow (stamp seq kind (.object fields)) =
      some (filling (seq + 1) rid output { a with text := a.text ++ delta }) := by
  have howns := h.owns seq kind
  rcases hkind with rfl | rfl | rfl <;>
    simp [Client.follow, filling, Client.take, Client.delta, howns, strAt, get_stamp, hdelta,
      Value.asStr]

theorem follow_summed (h : Owned a output fields) {kind field : String}
    (hkind : (kind, field) = ("response.output_text.done", "text") ∨
      (kind, field) = ("response.function_call_arguments.done", "arguments") ∨
      (kind, field) = ("response.custom_tool_call_input.done", "input"))
    (htext : fields.lookup field = some (.string a.text)) :
    (filling seq rid output a).follow (stamp seq kind (.object fields)) =
      some (filling (seq + 1) rid output a) := by
  have howns := h.owns seq kind
  rcases hkind with hkind | hkind | hkind <;> cases hkind <;>
    simp [Client.follow, filling, Client.take, Client.summed, howns, strAt, get_stamp, htext,
      Value.asStr]

theorem follow_partAdded (h : Owned a output fields) (hnone : a.part = none) {part : Value}
    (hpart : fields.lookup "part" = some part)
    (hindex : fields.lookup "content_index" = some (number a.parts.length)) :
    (filling seq rid output a).follow (stamp seq "response.content_part.added" (.object fields)) =
      some (filling (seq + 1) rid output { a with part := some part, text := "" }) := by
  have howns := h.owns seq "response.content_part.added"
  simp [Client.follow, filling, Client.take, Client.partAdded, howns, get_stamp, hnone, hpart,
    hindex]

theorem follow_partDone (h : Owned a output fields) {part : Value} (hsome : a.part = some part)
    (hpart : fields.lookup "part" = some (part.setKey "text" (.string a.text)))
    (hindex : fields.lookup "content_index" = some (number a.parts.length)) :
    (filling seq rid output a).follow (stamp seq "response.content_part.done" (.object fields)) =
      some (filling (seq + 1) rid output
        ⟨a.shell, none, a.parts ++ [part.setKey "text" (.string a.text)], ""⟩) := by
  have howns := h.owns seq "response.content_part.done"
  simp [Client.follow, filling, Client.take, Client.partDone, howns, get_stamp, hsome, hpart,
    hindex]

/-- An item is taken exactly when it is what was put together. -/
theorem follow_done (hnone : a.part = none) {item : Value}
    (hid : item.get "id" = a.shell.get "id") :
    (filling seq rid output a).follow (stamp seq "response.output_item.done"
        (.object [("item", item), ("output_index", number output.length)])) =
      if a.item.setKey "status" ((item.get "status").getD .null) = item then
        some (waiting (seq + 1) rid (output ++ [item]))
      else none := by
  simp [Client.follow, filling, Client.take, Client.done, get_stamp, List.lookup_cons, hnone, hid,
    waiting]

end follow

-- ---------------------------------------------------------------------------
-- Items
-- ---------------------------------------------------------------------------

def textPart (text : String) : Value :=
  .object [("annotations", .array []), ("text", .string text), ("type", .string "output_text")]

/-- An item is taken exactly when what was put together of it is the item. -/
theorem run_itemEvents {seq seq' : Nat} {rid : Value} {output : List Value} {item id : Value}
    {kind : String} {a : Assembly} (htype : typeOf item = some kind) (hid : item.get "id" = some id)
    (hcontent : (filling (seq + 1) rid output ⟨shellOf kind item, none, [], ""⟩).run
      (contentEvents kind id output.length item) = some (filling seq' rid output a))
    (hnone : a.part = none) (hshell : a.shell.get "id" = some id) :
    (waiting seq rid output).run (itemEvents item output.length) =
      if a.item.setKey "status" ((item.get "status").getD .null) = item then
        some (waiting (seq' + 1) rid (output ++ [item]))
      else none := by
  simp only [itemEvents, htype, hid, Option.getD_some, run_append, Client.run, seq_waiting,
    follow_added, Option.bind_some, hcontent, seq_filling,
    follow_done _ _ hnone (hid.trans hshell.symm), Option.bind_fun_some]

theorem lookup_ofPart {key : String} (hitem : key ≠ "item_id") (houtput : key ≠ "output_index")
    (hcontent : key ≠ "content_index") (itemId : Value) (i j : Nat) (extra : Fields) :
    (ofPart itemId i j extra).lookup key = extra.lookup key := by
  rw [ofPart, ofItem, lookup_btreeInsert_ne hcontent, lookup_btreeInsert_ne houtput,
    lookup_btreeInsert_ne hitem]

theorem lookup_ofItem {key : String} (hitem : key ≠ "item_id") (houtput : key ≠ "output_index")
    (itemId : Value) (i : Nat) (extra : Fields) :
    (ofItem itemId i extra).lookup key = extra.lookup key := by
  rw [ofItem, lookup_btreeInsert_ne houtput, lookup_btreeInsert_ne hitem]

/-- The deltas of a part are its text. -/
theorem run_delta (seq : Nat) (rid : Value) (output : List Value) {a : Assembly} {itemId : Value}
    (hid : a.shell.get "id" = some itemId) (hempty : a.text = "") (j : Nat) (text : String) :
    ∃ seq', (filling seq rid output a).run (if text = "" then [] else
        [("response.output_text.delta", .object (ofPart itemId output.length j
          [("delta", .string text), ("logprobs", .array [])]))]) =
      some (filling seq' rid output { a with text }) := by
  by_cases htext : text = ""
  · refine ⟨seq, ?_⟩
    rw [if_pos htext, htext, ← hempty]
    rfl
  · refine ⟨seq + 1, ?_⟩
    have hdelta := follow_delta seq rid (owned_ofPart output hid j
      [("delta", .string text), ("logprobs", .array [])]) (.inl rfl)
      (lookup_ofPart (by decide) (by decide) (by decide) _ _ _ _)
    rw [if_neg htext]
    simp only [Client.run, seq_filling, hdelta, hempty, String.empty_append, Option.bind_some]

theorem run_partEvents (seq : Nat) (rid : Value) (output : List Value) {shell : Value}
    {itemId : Value} (hid : shell.get "id" = some itemId) (text : String) :
    ∃ seq', (filling seq rid output ⟨shell, none, [], ""⟩).run
        (partEvents itemId output.length (textPart text) 0) =
      some (filling seq' rid output ⟨shell, none, [textPart text], ""⟩) := by
  let opened : Assembly := ⟨shell, some (textPart ""), [], ""⟩
  let filled : Assembly := ⟨shell, some (textPart ""), [], text⟩
  have hadded := follow_partAdded seq rid
    (owned_ofPart (a := ⟨shell, none, [], ""⟩) output hid 0 [("part", textPart "")]) rfl
    (lookup_ofPart (by decide) (by decide) (by decide) _ _ _ _) (lookup_btreeInsert _ _ _)
  obtain ⟨seq', hdelta⟩ := run_delta (seq + 1) rid output (a := opened) hid rfl 0 text
  have hsummed := follow_summed seq' rid
    (owned_ofPart (a := filled) output hid 0
      [("logprobs", .array []), ("text", .string text)]) (.inl rfl)
    (lookup_ofPart (by decide) (by decide) (by decide) _ _ _ _)
  have hdone := follow_partDone (seq' + 1) rid
    (owned_ofPart (a := filled) output hid 0 [("part", textPart text)]) rfl
    (lookup_ofPart (by decide) (by decide) (by decide) _ _ _ _) (lookup_btreeInsert _ _ _)
  have hevents : partEvents itemId output.length (textPart text) 0 =
      [("response.content_part.added",
        .object (ofPart itemId output.length 0 [("part", textPart "")]))] ++
      (if text = "" then [] else
        [("response.output_text.delta", .object (ofPart itemId output.length 0
          [("delta", .string text), ("logprobs", .array [])]))]) ++
      [("response.output_text.done", .object (ofPart itemId output.length 0
          [("logprobs", .array []), ("text", .string text)])),
        ("response.content_part.done",
          .object (ofPart itemId output.length 0 [("part", textPart text)]))] := rfl
  refine ⟨seq' + 2, ?_⟩
  rw [hevents, run_append, run_append]
  simp only [Client.run, seq_filling, hadded, Option.bind_some, opened, filled, hdelta, hsummed,
    hdone]
  rfl

theorem item_messageItem (id text : String) :
    (Assembly.item ⟨shellOf "message" (messageItem id text), none, [textPart text], ""⟩).setKey
      "status" (.string "completed") = messageItem id text := rfl

theorem run_messageItem (seq : Nat) (rid : Value) (output : List Value) (id text : String) :
    ∃ seq', (waiting seq rid output).run (itemEvents (messageItem id text) output.length) =
      some (waiting seq' rid (output ++ [messageItem id text])) := by
  have hid : (shellOf "message" (messageItem id text)).get "id" = some (.string ("msg_" ++ id)) :=
    rfl
  obtain ⟨seq', hparts⟩ := run_partEvents (seq + 1) rid output hid text
  have hcontent : contentEvents "message" (.string ("msg_" ++ id)) output.length
      (messageItem id text) = partEvents (.string ("msg_" ++ id)) output.length (textPart text) 0 :=
    List.append_nil _
  rw [← hcontent] at hparts
  refine ⟨seq' + 1, ?_⟩
  rw [run_itemEvents rfl rfl hparts rfl hid]
  exact if_pos (item_messageItem id text)

-- ---------------------------------------------------------------------------
-- Calls
-- ---------------------------------------------------------------------------

def functionItem (arguments callId id name : Value) : Value :=
  .object
    [("arguments", arguments), ("call_id", callId), ("id", id), ("name", name),
      ("status", .string "completed"), ("type", .string "function_call")]

def customItem (callId id : Value) (input : String) (name : Value) : Value :=
  .object
    [("call_id", callId), ("id", id), ("input", .string input), ("name", name),
      ("status", .string "completed"), ("type", .string "custom_tool_call")]

/-- The delta of a call, and its sum. -/
theorem run_call (seq : Nat) (rid : Value) (output : List Value) {a : Assembly} {itemId : Value}
    (hid : a.shell.get "id" = some itemId) (hempty : a.text = "") (text : String)
    {field deltaKind doneKind : String} (hitem : field ≠ "item_id")
    (houtput : field ≠ "output_index")
    (hdeltaKind : deltaKind = "response.output_text.delta" ∨
      deltaKind = "response.function_call_arguments.delta" ∨
      deltaKind = "response.custom_tool_call_input.delta")
    (hdoneKind : (doneKind, field) = ("response.output_text.done", "text") ∨
      (doneKind, field) = ("response.function_call_arguments.done", "arguments") ∨
      (doneKind, field) = ("response.custom_tool_call_input.done", "input")) :
    (filling seq rid output a).run
        [(deltaKind, .object (ofItem itemId output.length [("delta", .string text)])),
          (doneKind, .object (ofItem itemId output.length [(field, .string text)]))] =
      some (filling (seq + 2) rid output { a with text }) := by
  have hdelta := follow_delta seq rid
    (owned_ofItem output hid [("delta", .string text)]) hdeltaKind
    (lookup_ofItem (by decide) (by decide) _ _ _)
  rw [hempty, String.empty_append] at hdelta
  have hsummed := follow_summed (seq + 1) rid
    (owned_ofItem (a := { a with text }) output hid [(field, .string text)]) hdoneKind
    ((lookup_ofItem hitem houtput _ _ _).trans (by simp))
  simp only [Client.run, seq_filling, hdelta, Option.bind_some, hsummed]

/-- A custom call has its input as a string. -/
theorem run_customItem (seq : Nat) (rid : Value) (output : List Value) (callId id : Value)
    (input : String) (name : Value) :
    ∃ seq', (waiting seq rid output).run
        (itemEvents (customItem callId id input name) output.length) =
      some (waiting seq' rid (output ++ [customItem callId id input name])) := by
  let shell := shellOf "custom_tool_call" (customItem callId id input name)
  have hid : shell.get "id" = some id := rfl
  have hcall := run_call (seq + 1) rid output (a := ⟨shell, none, [], ""⟩) hid rfl input
    (by decide) (by decide) (.inr (.inr rfl)) (.inr (.inr rfl))
  have hitem : (Assembly.item ⟨shell, none, [], input⟩).setKey "status" (.string "completed") =
      customItem callId id input name := rfl
  refine ⟨seq + 4, ?_⟩
  rw [run_itemEvents rfl rfl hcall rfl hid]
  exact if_pos hitem

/-- The arguments that are sent are a string; other arguments are lost. -/
theorem run_functionItem (seq : Nat) (rid : Value) (output : List Value)
    (arguments callId id name : Value) :
    (waiting seq rid output).run
        (itemEvents (functionItem arguments callId id name) output.length) =
      if (arguments.asStr).isSome then
        some (waiting (seq + 4) rid (output ++ [functionItem arguments callId id name]))
      else none := by
  let text := (arguments.asStr).getD ""
  let shell := shellOf "function_call" (functionItem arguments callId id name)
  have hid : shell.get "id" = some id := rfl
  have hcall := run_call (seq + 1) rid output (a := ⟨shell, none, [], ""⟩) hid rfl text
    (by decide) (by decide) (.inr (.inl rfl)) (.inr (.inl rfl))
  have hitem : (Assembly.item ⟨shell, none, [], text⟩).setKey "status" (.string "completed") =
      functionItem (.string text) callId id name := rfl
  rw [run_itemEvents rfl rfl hcall rfl hid]
  refine if_congr (Iff.trans (Eq.congr_left hitem) ?_) rfl rfl
  cases arguments <;> simp [functionItem, text, Value.asStr]

end Firstpass.Responses
