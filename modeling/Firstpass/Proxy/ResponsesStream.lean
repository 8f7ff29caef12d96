import Firstpass.Core.JsonText
import Firstpass.Lib.EventStream
import Firstpass.Proxy.Responses

/-!
# The Responses event stream

A Responses object is sent as a stream of events: each output item is announced
as a shell, filled by deltas and closed. A client follows the events in order,
puts each item together from its shell and its deltas, and refuses an event that
does not fit what it has so far.
-/

namespace Firstpass.Responses

open Json

-- ---------------------------------------------------------------------------
-- What is sent
-- ---------------------------------------------------------------------------

def number (n : Nat) : Value := .number (.posInt n)

/-- The stream so far, and the next sequence number. -/
structure Out where
  text : String
  seq : Nat

def stamp (seq : Nat) (kind : String) (data : Value) : Value :=
  .object (btreeInsert "sequence_number" (number seq)
    (btreeInsert "type" (.string kind) (data.asObject.getD [])))

def pushEvent (out : Out) (kind : String) (data : Value) : Out where
  text := out.text ++ "event: " ++ kind ++ "\ndata: " ++ (stamp out.seq kind data).toText ++ "\n\n"
  seq := out.seq + 1

def inProgressSnapshot (resp : Value) : Value :=
  match resp with
  | .object m =>
    .object <| removeKey "incomplete_details" <| btreeInsert "usage" .null <|
      btreeInsert "output_text" (.string "") <| btreeInsert "output" (.array []) <|
        btreeInsert "status" (.string "in_progress") m
  | _ => resp

/-- The field of an item that its events fill. -/
def filledField : String → Option (String × Value)
  | "message" => some ("content", .array [])
  | "function_call" => some ("arguments", .string "")
  | "custom_tool_call" => some ("input", .string "")
  | _ => none

/-- The item before anything of it is sent. -/
def shellOf (kind : String) (item : Value) : Value :=
  match item with
  | .object m =>
    let m := match filledField kind with
      | some (field, empty) => btreeInsert field empty m
      | none => m
    .object <|
      if (m.lookup "status").isSome then btreeInsert "status" (.string "in_progress") m else m
  | _ => item

/-- An event with the data it is sent with. -/
abbrev Sent := String × Value

def ofItem (itemId : Value) (outputIndex : Nat) (extra : Fields) : Fields :=
  btreeInsert "output_index" (number outputIndex) (btreeInsert "item_id" itemId extra)

def ofPart (itemId : Value) (outputIndex contentIndex : Nat) (extra : Fields) : Fields :=
  btreeInsert "content_index" (number contentIndex) (ofItem itemId outputIndex extra)

/-- An empty part has no delta. -/
def partEvents (itemId : Value) (outputIndex : Nat) (part : Value) (contentIndex : Nat) :
    List Sent :=
  let text := (strAt "text" part).getD ""
  let here := fun extra => Value.object (ofPart itemId outputIndex contentIndex extra)
  [("response.content_part.added", here [("part", part.setKey "text" (.string ""))])] ++
  (if text = "" then [] else
    [("response.output_text.delta",
      here [("delta", .string text), ("logprobs", .array [])])]) ++
  [("response.output_text.done", here [("logprobs", .array []), ("text", .string text)]),
    ("response.content_part.done", here [("part", part)])]

/-- The field of a call, and the names of its events. -/
def callKinds (kind : String) : String × String × String :=
  if kind = "custom_tool_call" then
    ("input", "response.custom_tool_call_input.delta", "response.custom_tool_call_input.done")
  else
    ("arguments", "response.function_call_arguments.delta",
      "response.function_call_arguments.done")

def callEvents (kind : String) (itemId : Value) (outputIndex : Nat) (item : Value) : List Sent :=
  let (field, deltaKind, doneKind) := callKinds kind
  let args := (strAt field item).getD ""
  let here := fun extra => Value.object (ofItem itemId outputIndex extra)
  [(deltaKind, here [("delta", .string args)]), (doneKind, here [(field, .string args)])]

def contentEvents (kind : String) (itemId : Value) (outputIndex : Nat) (item : Value) :
    List Sent :=
  match kind with
  | "message" =>
    (((item.get "content").bind Value.asArray).getD []).zipIdx.flatMap fun (part, contentIndex) =>
      partEvents itemId outputIndex part contentIndex
  | "function_call" | "custom_tool_call" => callEvents kind itemId outputIndex item
  | _ => []

def itemEvents (item : Value) (outputIndex : Nat) : List Sent :=
  let itemId := (item.get "id").getD .null
  let kind := (typeOf item).getD ""
  [("response.output_item.added",
    .object [("item", shellOf kind item), ("output_index", number outputIndex)])] ++
  contentEvents kind itemId outputIndex item ++
  [("response.output_item.done",
    .object [("item", item), ("output_index", number outputIndex)])]

def itemsOf (resp : Value) : List Value := ((resp.get "output").bind Value.asArray).getD []

def terminalKind (resp : Value) : String :=
  if strAt "status" resp = some "incomplete" then "response.incomplete" else "response.completed"

def responseEvents (resp : Value) : List Sent :=
  let opening := Value.object [("response", inProgressSnapshot resp)]
  [("response.created", opening), ("response.in_progress", opening)] ++
  ((itemsOf resp).zipIdx.flatMap fun (item, outputIndex) => itemEvents item outputIndex) ++
  [(terminalKind resp, .object [("response", resp)])]

def sseFromResponse (resp : Value) : String :=
  ((responseEvents resp).foldl (fun out e => pushEvent out e.1 e.2) ⟨"", 0⟩).text

/-- The frame an event is sent in. -/
def frame (e : Value) : EventStream.Frame :=
  ⟨(typeOf e).map String.toList, Json.print e⟩

theorem frame_injective : Function.Injective frame := fun _ _ h =>
  print_injective (congrArg EventStream.Frame.data h)

-- ---------------------------------------------------------------------------
-- A client
-- ---------------------------------------------------------------------------

attribute [local instance] Value.decEq

/-- An item under way: what was announced, the part that is being filled, the
parts that are done, and the deltas since. -/
structure Assembly where
  shell : Value
  part : Option Value
  parts : List Value
  text : String

structure Client where
  seq : Nat
  responseId : Option Value
  output : List Value
  current : Option Assembly
  ended : Option (String × Value)

def Client.start : Client := ⟨0, none, [], none, none⟩

/-- The item as it was put together. -/
def Assembly.item (a : Assembly) : Value :=
  match typeOf a.shell with
  | some "message" => a.shell.setKey "content" (.array a.parts)
  | some "function_call" => a.shell.setKey "arguments" (.string a.text)
  | some "custom_tool_call" => a.shell.setKey "input" (.string a.text)
  | _ => a.shell

/-- The event is about the item under way. -/
def Assembly.owns (a : Assembly) (outputIndex : Nat) (e : Value) : Bool :=
  decide (e.get "item_id" = a.shell.get "id") &&
    decide (e.get "output_index" = some (number outputIndex))

def Client.created (c : Client) (e : Value) : Option Client :=
  match c.responseId, (e.get "response").bind (·.get "id") with
  | none, some id => some { c with responseId := some id }
  | _, _ => none

def Client.inProgress (c : Client) (e : Value) : Option Client :=
  if c.responseId.isSome ∧ (e.get "response").bind (·.get "id") = c.responseId then some c
  else none

def Client.added (c : Client) (e : Value) : Option Client :=
  match c.current, e.get "item" with
  | none, some shell =>
    if c.responseId.isSome ∧ e.get "output_index" = some (number c.output.length) then
      some { c with current := some ⟨shell, none, [], ""⟩ }
    else none
  | _, _ => none

def Client.partAdded (c : Client) (e : Value) : Option Client :=
  match c.current, e.get "part" with
  | some a, some part =>
    if a.owns c.output.length e ∧ a.part = none ∧
        e.get "content_index" = some (number a.parts.length) then
      some { c with current := some { a with part := some part, text := "" } }
    else none
  | _, _ => none

def Client.delta (c : Client) (e : Value) : Option Client :=
  match c.current, strAt "delta" e with
  | some a, some delta =>
    if a.owns c.output.length e then
      some { c with current := some { a with text := a.text ++ delta } }
    else none
  | _, _ => none

/-- The deltas add up to what is given as done. -/
def Client.summed (c : Client) (field : String) (e : Value) : Option Client :=
  match c.current with
  | some a => if a.owns c.output.length e ∧ strAt field e = some a.text then some c else none
  | none => none

def Client.partDone (c : Client) (e : Value) : Option Client :=
  match c.current with
  | some a =>
    match a.part with
    | some part =>
      let filled := part.setKey "text" (.string a.text)
      if a.owns c.output.length e ∧ e.get "part" = some filled ∧
          e.get "content_index" = some (number a.parts.length) then
        some { c with current := some ⟨a.shell, none, a.parts ++ [filled], ""⟩ }
      else none
    | none => none
  | none => none

/-- The item is what was put together, but for its status. -/
def Client.done (c : Client) (e : Value) : Option Client :=
  match c.current, e.get "item" with
  | some a, some item =>
    if e.get "output_index" = some (number c.output.length) ∧ item.get "id" = a.shell.get "id" ∧
        a.part = none ∧ a.item.setKey "status" ((item.get "status").getD .null) = item then
      some { c with output := c.output ++ [item], current := none }
    else none
  | _, _ => none

def Client.terminal (c : Client) (kind : String) (e : Value) : Option Client :=
  match c.current, e.get "response" with
  | none, some resp =>
    if resp.get "id" = c.responseId ∧ resp.get "output" = some (.array c.output) then
      some { c with ended := some (kind, resp) }
    else none
  | _, _ => none

def Client.take (c : Client) (e : Value) : Option Client :=
  match typeOf e with
  | some "response.created" => c.created e
  | some "response.in_progress" => c.inProgress e
  | some "response.output_item.added" => c.added e
  | some "response.content_part.added" => c.partAdded e
  | some "response.output_text.delta" => c.delta e
  | some "response.output_text.done" => c.summed "text" e
  | some "response.content_part.done" => c.partDone e
  | some "response.function_call_arguments.delta" => c.delta e
  | some "response.function_call_arguments.done" => c.summed "arguments" e
  | some "response.custom_tool_call_input.delta" => c.delta e
  | some "response.custom_tool_call_input.done" => c.summed "input" e
  | some "response.output_item.done" => c.done e
  | some "response.completed" => c.terminal "response.completed" e
  | some "response.incomplete" => c.terminal "response.incomplete" e
  | _ => none

/-- No event is missed, and none comes after the last. -/
def Client.follow (c : Client) (e : Value) : Option Client :=
  if c.ended.isSome ∨ e.get "sequence_number" ≠ some (number c.seq) then none
  else Client.take { c with seq := c.seq + 1 } e

end Firstpass.Responses
