import Firstpass.Proxy.Mcp

/-!
# Sessions of the MCP server

`session_framed`: what a session writes is one line for each request it answers, in their order,
and a client reads from the line the value that was written, with the id of its request.
-/

namespace Firstpass.Mcp

open Inbound (trim)
open Json (Value Fields Document FloatText FloatsReadBack btreeCollect maxDepth readText)
open ReceiptExport (lines stripReturn)

-- ---------------------------------------------------------------------------
-- Objects
-- ---------------------------------------------------------------------------

section
variable {float : List Char → Option FloatText} {depth : Nat}

theorem get_json {fields : Fields} (h : (fields.map Prod.fst).Nodup) (key : String) :
    (json fields).get key = fields.lookup key := by
  have hperm := Json.btreeCollect_perm h
  have hcollected : ((btreeCollect fields).map Prod.fst).Nodup :=
    (hperm.map Prod.fst).nodup_iff.mpr h
  refine Option.ext fun v => ?_
  rw [json, Value.get, Json.lookup_eq_some_iff hcollected, Json.lookup_eq_some_iff h, hperm.mem_iff]

theorem document_json {fields : Fields} (h : ∀ f ∈ fields, Document float depth f.2) :
    Document float (depth + 1) (json fields) :=
  .object (Json.btreeCollect_sorted fields) fun f hf => h f (Json.mem_btreeCollect hf)

theorem document_intValue {n : Int} (h : n.natAbs < 2 ^ 63) :
    Document float depth (intValue n) := by
  rw [intValue]
  split
  · have hfits : (-n - 1).toNat < 2 ^ 63 := by omega
    exact ⟨rfl, by cases depth <;> exact hfits⟩
  · have hfits : n.toNat < 2 ^ 64 := by omega
    exact ⟨rfl, by cases depth <;> exact hfits⟩

theorem document_strings (ss : List String) : Document float 1 (.array (ss.map .string)) :=
  .array (List.forall_mem_map.mpr fun s _ => Json.document_string s)

theorem document_property {type : String} {more : Fields}
    (h : ∀ f ∈ more, Document float 1 f.2) : Document float 2 (property type more) :=
  document_json (List.forall_mem_cons.mpr ⟨Json.document_string _, h⟩)

theorem document_toolSchema (name description : String) {properties : Fields}
    (h : ∀ f ∈ properties, Document float 2 f.2) (required : List String) :
    Document float 5 (toolSchema name description properties required) := by
  have hrequired : Document float 1 (.array (required.map .string)) := document_strings required
  have hproperties : Document float 3 (json properties) := document_json h
  refine document_json (List.forall_mem_cons.mpr ⟨Json.document_string _, ?_⟩)
  refine List.forall_mem_cons.mpr ⟨Json.document_string _, ?_⟩
  refine List.forall_mem_singleton.mpr (document_json fun f hf => ?_)
  rcases List.mem_append.mp hf with hf | hf
  · rcases List.mem_cons.mp hf with rfl | hf
    · exact Json.document_string _
    · obtain rfl := List.mem_singleton.mp hf
      exact hproperties
  · split at hf
    · cases hf
    · obtain rfl := List.mem_singleton.mp hf
      exact hrequired.mono (by decide)

theorem document_toolSchemas : Document float 6 toolSchemas := by
  have hverdicts : Document float 1 (.array [.string "pass", .string "fail", .string "abstain"]) :=
    document_strings ["pass", "fail", "abstain"]
  refine .array fun v hv => ?_
  simp only [List.mem_cons, List.not_mem_nil, or_false] at hv
  rcases hv with rfl | rfl | rfl | rfl | rfl | rfl | rfl | rfl | rfl | rfl
  all_goals refine document_toolSchema _ _ ?_ _
  all_goals simp [document_property, hverdicts]

end

-- ---------------------------------------------------------------------------
-- One request
-- ---------------------------------------------------------------------------

def methods : List String := ["initialize", "tools/list", "tools/call", "ping"]

/-- A request, or `none` where there is no reading it. A notification is answered too where it
names a method of the server. -/
def isAnswered : Option Value → Bool
  | none => true
  | some req => rpcMethod req ∈ methods || (req.get "id").isSome

/-- The answer of a request: the id is the request's, and there is either a result or an error. -/
structure Answers (req : Option Value) (resp : Value) : Prop where
  version : resp.get "jsonrpc" = some (.string "2.0")
  id : resp.get "id" = some ((req.map rpcId).getD .null)
  result : (resp.get "result").isSome ↔ ∃ r ∈ req, rpcMethod r ∈ methods
  error : (resp.get "error").isSome ↔ ¬ ∃ r ∈ req, rpcMethod r ∈ methods

theorem answers_ok {req : Value} (h : rpcMethod req ∈ methods) (result : Value) :
    Answers (some req) (ok (rpcId req) result) := by
  constructor <;> simp [ok, get_json, List.lookup_cons, h]

theorem answers_err {req : Option Value} (h : ∀ r ∈ req, rpcMethod r ∉ methods) (code : Int)
    (message : String) : Answers req (err ((req.map rpcId).getD .null) code message) := by
  refine ⟨?_, ?_, ?_, ?_⟩
  · simp [err, get_json]
  · simp [err, get_json, List.lookup_cons]
  · simpa [err, get_json, List.lookup_cons] using h
  · simpa [err, get_json, List.lookup_cons] using h

section
variable {float : List Char → Option FloatText} {depth : Nat}

theorem document_ok {id result : Value} (hid : Document float (depth + 7) id)
    (h : Document float (depth + 7) result) : Document float (depth + 8) (ok id result) :=
  document_json (by simp [hid, h])

theorem document_err {id : Value} (hid : Document float (depth + 7) id) {code : Int}
    (hcode : code.natAbs < 2 ^ 63) (message : String) :
    Document float (depth + 8) (err id code message) := by
  have herror : Document float (depth + 7)
      (json [("code", intValue code), ("message", .string message)]) :=
    document_json (by simp [document_intValue hcode])
  exact document_json (by simp [hid, herror])

theorem document_content (text : String) : Document float (depth + 2) (content text) :=
  .array (by simpa using document_json (by simp))

theorem document_toolResult (answer : Except String String) :
    Document float (depth + 3) (toolResult answer) := by
  cases answer with
  | ok text => exact document_json (by simp [document_content])
  | error msg => exact document_json (by simp [document_content])

end

section
variable {F : Type} [F64 F] (host : Host F) (db : Database F) (tenant now : String)

/-- A method of the server is answered with a result, another one with an error unless it is a
notification, which changes nothing. -/
theorem handleRpc_spec (float : List Char → Option FloatText) (req : Value) :
    (rpcMethod req ∈ methods ∧ ∃ result, Document float 7 result ∧
      (handleRpc host db tenant now req).1 = some (ok (rpcId req) result)) ∨
    (rpcMethod req ∉ methods ∧ (handleRpc host db tenant now req).2 = db ∧
      (handleRpc host db tenant now req).1 =
        if req.get "id" = none then none
        else some (err (rpcId req) (-32601) ("method not found: " ++ rpcMethod req))) := by
  have hcapabilities : Document float 6 (json [("tools", json [])]) :=
    document_json (by simpa using document_json (by simp))
  have hserver : Document float 6
      (json [("name", .string "firstpass"), ("version", .string version)]) :=
    document_json (by simp)
  unfold handleRpc
  split
  · next heq =>
    refine .inl ⟨by simp [heq, methods], _, document_json ?_, rfl⟩
    simp [hcapabilities, hserver]
  · next heq =>
    refine .inl ⟨by simp [heq, methods], _, document_json ?_, rfl⟩
    simp [document_toolSchemas]
  · next heq =>
    have hresult (answer : Except String String) : Document float 3 (toolResult answer) :=
      document_toolResult answer
    exact .inl ⟨by simp [heq, methods], _, (hresult _).mono (by decide), rfl⟩
  · next heq => exact .inl ⟨by simp [heq, methods], _, document_json (by simp), rfl⟩
  · next hinit hlist hcall hping =>
    refine .inr ⟨by simp_all [methods], ?_, ?_⟩
    · split <;> rfl
    · split <;> rfl

/-- What is read from a line, and what is answered to it. -/
theorem serveLine_spec (hfloats : FloatsReadBack host.tx.floatText) (line : String) :
    (isAnswered (readText host.tx.floatText line) = false ∧
      (serveLine host db tenant now line).1 = none) ∨
    (isAnswered (readText host.tx.floatText line) = true ∧
      ∃ resp, (serveLine host db tenant now line).1 = some resp ∧
        Answers (readText host.tx.floatText line) resp ∧
          Document host.tx.floatText maxDepth resp) := by
  unfold serveLine
  cases hread : readText host.tx.floatText line with
  | none =>
    refine .inr ⟨rfl, _, rfl, answers_err (by simp) _ _, ?_⟩
    exact document_err (by simp) (by decide) _
  | some req =>
    have hreq : Document host.tx.floatText maxDepth req := Json.document_of_readText hfloats hread
    have hid : Document host.tx.floatText 126 (rpcId req) := by
      rw [rpcId]
      cases hget : req.get "id" with
      | none => simp
      | some id => exact hreq.get hget
    simp only [isAnswered, Bool.or_eq_false_iff, decide_eq_false_iff_not, Bool.or_eq_true,
      decide_eq_true_eq]
    rcases handleRpc_spec host db tenant now host.tx.floatText req with
      ⟨hmethod, result, hresult, heq⟩ | ⟨hmethod, -, heq⟩
    · exact .inr ⟨.inl hmethod, _, heq, answers_ok hmethod result,
        document_ok hid (hresult.mono (by decide))⟩
    · split at heq
      · next hget => exact .inl ⟨⟨hmethod, by simp [hget]⟩, heq⟩
      · next hget =>
        refine .inr ⟨.inr (Option.isSome_iff_ne_none.mpr hget), _, heq, ?_, ?_⟩
        · exact answers_err (by simpa using hmethod) _ _
        · exact document_err hid (by decide) _

end

-- ---------------------------------------------------------------------------
-- A session
-- ---------------------------------------------------------------------------

/-- A value is one line of a text. -/
theorem lines_toText_append (v : Value) (out : String) :
    lines (v.toText ++ "\n" ++ out) = v.toText :: lines out := by
  have hline : '\n' ∉ Json.print v := by
    intro h
    exact absurd (Json.plain_print v _ h) (by decide)
  have hsplit : (v.toText ++ "\n" ++ out).toList.splitOn '\n' =
      Json.print v :: out.toList.splitOn '\n' := by
    have hlist : (v.toText ++ "\n" ++ out).toList = Json.print v ++ '\n' :: out.toList := by
      simp [Value.toText]
    rw [hlist, List.splitOn_append_cons_self_of_not_mem hline]
  rcases List.eq_nil_or_concat (out.toList.splitOn '\n') with hnil | ⟨init, last, hout⟩
  · exact absurd hnil (List.splitOn_ne_nil _ _)
  · simp only [lines, LineFeed.lines, hsplit, hout, List.concat_eq_append, ← List.cons_append,
      List.dropLast_concat, List.map_cons, ReceiptExport.stripReturn_print, List.getLastD_concat]
    rfl

/-- The requests of the lines that are not blank. -/
def requests (float : List Char → Option FloatText) (input : List String) : List (Option Value) :=
  (input.filter fun line => trim line ≠ "").map (readText float)

section
variable {F : Type} [F64 F] {host : Host F}

theorem serveLines_framed (hfloats : FloatsReadBack host.tx.floatText) (tenant : String)
    (db : Database F) (input : List (String × String)) :
    ∃ replies : List Value,
      lines (serveLines host tenant db input).1 = replies.map Value.toText ∧
      (∀ resp ∈ replies, readText host.tx.floatText resp.toText = some resp) ∧
      List.Forall₂ Answers
        ((requests host.tx.floatText (input.map Prod.snd)).filter isAnswered) replies := by
  induction input generalizing db with
  | nil => exact ⟨[], rfl, by simp, .nil⟩
  | cons entry rest ih =>
    obtain ⟨now, line⟩ := entry
    rw [serveLines]
    split_ifs with hblank
    · obtain ⟨replies, hlines, hback, hanswers⟩ := ih db
      exact ⟨replies, hlines, hback, by simpa [requests, hblank] using hanswers⟩
    · obtain ⟨replies, hlines, hback, hanswers⟩ := ih (serveLine host db tenant now line).2
      have hrequests : requests host.tx.floatText (line :: rest.map Prod.snd) =
          readText host.tx.floatText line :: requests host.tx.floatText (rest.map Prod.snd) := by
        simp [requests, hblank]
      rcases serveLine_spec host db tenant now hfloats line with
        ⟨hsilent, hnone⟩ | ⟨hanswered, resp, hresp, hanswer, hdoc⟩
      · refine ⟨replies, ?_, hback, ?_⟩
        · simpa only [hnone] using hlines
        · rw [List.map_cons, hrequests, List.filter_cons_of_neg (by simp [hsilent])]
          exact hanswers
      · refine ⟨resp :: replies, ?_, ?_, ?_⟩
        · simp only [hresp]
          rw [lines_toText_append, hlines, List.map_cons]
        · exact List.forall_mem_cons.mpr ⟨Json.readText_toText hdoc, hback⟩
        · rw [List.map_cons, hrequests, List.filter_cons_of_pos hanswered]
          exact .cons hanswer hanswers

theorem floatText_readsBack {tx : Texts F} (htx : tx.FloatsReadBack) :
    FloatsReadBack tx.floatText := by
  intro token x h
  obtain ⟨v, hv, hx⟩ := Option.bind_eq_some_iff.mp h
  rw [Texts.floatText, htx v x hx]
  exact hx

/-- However long the input is: what a session writes is a line for each request that it answers, in
the order of the requests, and each line is read as the answer it was written for. -/
theorem session_framed (htx : host.tx.FloatsReadBack) (tenant : String) (db : Database F)
    (clock : Nat → String) (stdin : String) :
    ∃ replies : List Value,
      lines (serveStdio host tenant db clock stdin).1 = replies.map Value.toText ∧
      (∀ resp ∈ replies, readText host.tx.floatText resp.toText = some resp) ∧
      List.Forall₂ Answers
        ((requests host.tx.floatText (lines stdin)).filter isAnswered) replies := by
  have hinput : ((lines stdin).mapIdx fun i line => (clock i, line)).map Prod.snd =
      lines stdin :=
    List.ext_getElem (by simp) (by simp)
  have hframed := serveLines_framed (floatText_readsBack htx) tenant db
    ((lines stdin).mapIdx fun i line => (clock i, line))
  rwa [hinput] at hframed

end

def sampleHost : Host ℚ where
  tx := ReceiptExport.integralTexts
  std := ⟨fun _ => true, id, id, id, fun _ => "0", fun _ _ => "0", fun s => "\"" ++ s ++ "\""⟩
  sha256Hex := id
  decode := fun _ => .error "expected a table"
  serdeError := fun _ => "expected value"
  handshakeStatic := .null

theorem sample_framed :
    let stdin := "\x7b\"id\":1,\"method\":\"ping\"\x7d\n\n\x7b\"method\":\"notify\"\x7d\nnot json"
    ∃ replies : List Value,
      lines (serveStdio sampleHost "acme" ⟨[], []⟩ toString stdin).1 =
        replies.map Value.toText ∧
      (∀ resp ∈ replies, readText sampleHost.tx.floatText resp.toText = some resp) ∧
      List.Forall₂ Answers
        ((requests sampleHost.tx.floatText (lines stdin)).filter isAnswered) replies :=
  session_framed ReceiptExport.integralTexts_floatsReadBack "acme" ⟨[], []⟩ toString _

end Firstpass.Mcp
