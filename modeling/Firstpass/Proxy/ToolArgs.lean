import Firstpass.Core.Verdict
import Firstpass.Proxy.ReplyStops
import Firstpass.Proxy.SchemaCheck

/-!
# The gate on tool arguments

`tool-args-valid` passes a response whose tool calls all name a declared tool and carry arguments
that conform to its schema. The shape of a response is told by its `content`: with an array there
it is an Anthropic message, otherwise a Chat completion, which the reply of a Gemini rung has
been made into.
-/

namespace Firstpass.ToolArgs

open Json (Value FloatText)
open ChatRequest (FromStr emptyObject)
open ReplyRender (GeminiParsed geminiParseResponse geminiRawWithChoices geminiCall partsOf)
open Responses (strAt typeOf)
open SchemaCheck (schemaViolation)

variable {F : Type} [F64 F]

-- ---------------------------------------------------------------------------
-- The gate
-- ---------------------------------------------------------------------------

def requestHasDeclaredTools (req : ModelRequest) : Bool :=
  (req.tools.asArray).any fun tools => !tools.isEmpty

/-- A call without a name has the empty one, and arguments that are not there have no text. -/
def blockArgs (block : Value) : String × String :=
  ((strAt "name" block).getD "", ((block.get "input").map Value.toText).getD "")

def callArgs (call : Value) : String × String :=
  match call.get "function" with
  | some func => ((strAt "name" func).getD "", (strAt "arguments" func).getD "")
  | none => ("", "")

/-- The names of the tool calls, with the text of their arguments. -/
def extractResponseToolCalls (raw : Value) : List (String × String) :=
  match (raw.get "content").bind Value.asArray with
  | some blocks => (blocks.filter fun b => typeOf b = some "tool_use").map blockArgs
  | none =>
    match (raw.pointer ["choices", "0", "message", "tool_calls"]).bind Value.asArray with
    | some calls => calls.map callArgs
    | none => []

/-- The schema of a tool of this name, in the Anthropic form, in the flat form of Responses, or in
the Chat form. -/
def schemaUnder (name : String) (tool : Value) : Option Value :=
  if strAt "name" tool = some name ∧ (tool.get "input_schema").isSome then tool.get "input_schema"
  else if strAt "name" tool = some name ∧ (tool.get "parameters").isSome then
    tool.get "parameters"
  else
    (tool.get "function").bind fun func =>
      if strAt "name" func = some name then func.get "parameters" else none

def isNamed (name : String) (tool : Value) : Bool :=
  strAt "name" tool = some name ∨
    (tool.pointer ["function", "name"]).bind Value.asStr = some name

def toolNameIsKnown (name : String) (tools : Value) : Bool :=
  (tools.asArray).any fun tools => tools.any (isNamed name)

section
variable (float : FloatText → ℚ) (engine : String → Option (String → Bool))
  (debug : String → String) (fromStr : FromStr)

/-- The first tool of the name that has a schema decides. -/
def validateToolArgsAgainstTools (name : String) (args tools : Value) : Option String :=
  (tools.asArray).bind fun tools => (tools.findSome? (schemaUnder name)).bind fun schema =>
    schemaViolation float engine debug args schema "args"

def gateId : String := "tool-args-valid"

def failed (reason : String) : GateResult F :=
  { GateResult.deterministic gateId .fail 0 with reason := some reason }

def checkCalls (tools : Value) : List (String × String) → GateResult F
  | [] => .deterministic gateId .pass 0
  | (name, argsStr) :: calls =>
    if toolNameIsKnown name tools = false then
      failed ("tool call " ++ debug name ++ ": tool not declared in request (hallucinated)")
    else
      match fromStr argsStr with
      | none => failed ("tool call " ++ debug name ++ ": arguments is not valid JSON")
      | some args =>
        match validateToolArgsAgainstTools float engine debug name args tools with
        | some violation => failed ("tool call " ++ debug name ++ ": " ++ violation)
        | none => checkCalls tools calls

/-- `ToolArgsValidGate::evaluate` -/
def toolArgsValid (req : ModelRequest) (resp : ModelResponse) : GateResult F :=
  match extractResponseToolCalls resp.raw with
  | [] => .deterministic gateId .pass 0
  | calls =>
    if requestHasDeclaredTools req = false then
      failed "response contains tool calls but request declared no tools (hallucinated)"
    else checkCalls float engine debug fromStr req.tools calls

end

-- ---------------------------------------------------------------------------
-- Calls and declarations
-- ---------------------------------------------------------------------------

/-- The tool calls of a raw response, by the shape it has: the name, and the arguments if they are
there and JSON. A Gemini call without arguments has none to give. -/
inductive RawCall (fromStr : FromStr) : Value → String → Option Value → Prop
  | anthropic {raw block : Value} {blocks : List Value}
      (hcontent : raw.get "content" = some (.array blocks)) (hblock : block ∈ blocks)
      (htype : typeOf block = some "tool_use") :
      RawCall fromStr raw ((strAt "name" block).getD "") (block.get "input")
  | openai {raw call : Value} {calls : List Value}
      (hcontent : ∀ blocks, raw.get "content" ≠ some (.array blocks))
      (hcalls : raw.pointer ["choices", "0", "message", "tool_calls"] = some (.array calls))
      (hcall : call ∈ calls) :
      RawCall fromStr raw (((call.get "function").bind (strAt "name")).getD "")
        (((call.get "function").bind (strAt "arguments")).bind fromStr)
  | gemini {body part fc : Value} {parts : List Value} {parsed : GeminiParsed}
      {fresh : Nat → String} (hcontent : ∀ blocks, body.get "content" ≠ some (.array blocks))
      (hparts : partsOf body = some parts) (hpart : part ∈ parts)
      (hfc : part.get "functionCall" = some fc)
      (hparsed : geminiParseResponse fresh body = some parsed) :
      RawCall fromStr (geminiRawWithChoices body parsed) ((strAt "name" fc).getD "")
        (some ((fc.get "args").getD emptyObject))

/-- The call names a declared tool, and the arguments conform to the schema of that tool. It has
one if any tool of the name has. -/
def Conforming (float : FloatText → ℚ) (engine : String → Option (String → Bool))
    (debug : String → String) (tools : Value) (name : String) (args : Value) : Prop :=
  ∃ declared tool, tools = .array declared ∧ tool ∈ declared ∧ isNamed name tool = true ∧
    (schemaUnder name tool = none → ∀ other ∈ declared, schemaUnder name other = none) ∧
    ∀ schema, schemaUnder name tool = some schema →
      schemaViolation float engine debug args schema "args" = none

/-- What the provider code keeps of a response body. -/
inductive Received (fromStr : FromStr) : Value → Prop
  | body {text : String} {raw : Value} (h : fromStr text = some raw) : Received fromStr raw
  | gemini {text : String} {json : Value} {fresh : Nat → String} {parsed : GeminiParsed}
      (h : fromStr text = some json) (hparsed : geminiParseResponse fresh json = some parsed) :
      Received fromStr (geminiRawWithChoices json parsed)

-- ---------------------------------------------------------------------------
-- What a pass says
-- ---------------------------------------------------------------------------

variable {float : FloatText → ℚ} {engine : String → Option (String → Bool)}
  {debug : String → String} {fromStr : FromStr} {req : ModelRequest} {resp : ModelResponse}
  {tools args : Value} {name : String}

theorem isNamed_of_schemaUnder {tool schema : Value} (h : schemaUnder name tool = some schema) :
    isNamed name tool = true := by
  unfold schemaUnder at h
  split_ifs at h with hinput hparams
  · simp [isNamed, hinput.1]
  · simp [isNamed, hparams.1]
  · obtain ⟨func, hfunc, hnamed⟩ := Option.bind_eq_some_iff.mp h
    split_ifs at hnamed with hname
    have hpointer : (tool.pointer ["function", "name"]).bind Value.asStr = some name := by
      rw [Json.pointer_cons (by decide), hfunc, Option.bind_some, Json.pointer_key (by decide)]
      exact hname
    simp [isNamed, hpointer]

theorem conforming_of_valid (hknown : toolNameIsKnown name tools = true)
    (hvalid : validateToolArgsAgainstTools float engine debug name args tools = none) :
    Conforming float engine debug tools name args := by
  cases tools with
  | array declared =>
    simp only [validateToolArgsAgainstTools, Value.asArray, Option.bind_some] at hvalid
    cases hfirst : declared.findSome? (schemaUnder name) with
    | none =>
      have hnone := List.findSome?_eq_none_iff.mp hfirst
      obtain ⟨tool, htool, hnamed⟩ := List.any_eq_true.mp hknown
      refine ⟨declared, tool, rfl, htool, hnamed, fun _ => hnone, fun schema hschema => ?_⟩
      rw [hnone tool htool] at hschema
      cases hschema
    | some schema =>
      obtain ⟨tool, htool, hunder⟩ := List.exists_of_findSome?_eq_some hfirst
      refine ⟨declared, tool, rfl, htool, isNamed_of_schemaUnder hunder, ?_, ?_⟩
      · simp [hunder]
      · intro schema' hschema'
        obtain rfl := Option.some.inj (hunder.symm.trans hschema')
        rwa [hfirst] at hvalid
  | _ => cases hknown

/-- The loop passes if and only if every call does. -/
theorem checkCalls_pass {calls : List (String × String)}
    (h : (checkCalls (F := F) float engine debug fromStr tools calls).verdict = .pass) :
    ∀ call ∈ calls, ∃ args, fromStr call.2 = some args ∧
      Conforming float engine debug tools call.1 args := by
  induction calls with
  | nil => simp
  | cons call calls ih =>
    obtain ⟨name, argsStr⟩ := call
    rw [checkCalls] at h
    split_ifs at h with hunknown
    · cases h
    · split at h
      · cases h
      · next args hargs =>
        split at h
        · cases h
        · next hvalid =>
          refine List.forall_mem_cons.mpr ⟨⟨args, hargs, ?_⟩, ih h⟩
          exact conforming_of_valid (Bool.eq_true_of_not_eq_false hunknown) hvalid

theorem toolArgsValid_pass
    (h : (toolArgsValid (F := F) float engine debug fromStr req resp).verdict = .pass) :
    ∀ call ∈ extractResponseToolCalls resp.raw, ∃ args, fromStr call.2 = some args ∧
      Conforming float engine debug req.tools call.1 args := by
  unfold toolArgsValid at h
  split at h
  · next hnone => simp [hnone]
  · split_ifs at h
    · cases h
    · exact checkCalls_pass h

theorem checkCalls_ne_abstain (calls : List (String × String)) :
    (checkCalls (F := F) float engine debug fromStr tools calls).verdict ≠ .abstain := by
  induction calls with
  | nil => rintro ⟨⟩
  | cons call calls ih =>
    rw [checkCalls]
    split_ifs
    · rintro ⟨⟩
    · split
      · rintro ⟨⟩
      · split
        · rintro ⟨⟩
        · exact ih

theorem toolArgsValid_ne_abstain (req : ModelRequest) (resp : ModelResponse) :
    (toolArgsValid (F := F) float engine debug fromStr req resp).verdict ≠ .abstain := by
  unfold toolArgsValid
  split
  · rintro ⟨⟩
  · split_ifs
    · rintro ⟨⟩
    · exact checkCalls_ne_abstain _

-- ---------------------------------------------------------------------------
-- Every call is extracted
-- ---------------------------------------------------------------------------

theorem callArgs_geminiCall (fresh : String) (fc part : Value) :
    callArgs (geminiCall fresh fc part) =
      ((strAt "name" fc).getD "", ((fc.get "args").getD emptyObject).toText) := by
  have hname : (((fc.get "name").getD .null).asStr).getD "" = (strAt "name" fc).getD "" := by
    rw [strAt]
    cases fc.get "name" <;> rfl
  have hbase : ∀ call : Value, call.get "function" = some (.object
      [("arguments", .string ((fc.get "args").getD emptyObject).toText),
        ("name", (fc.get "name").getD .null)]) →
      callArgs call = ((strAt "name" fc).getD "", ((fc.get "args").getD emptyObject).toText) := by
    intro call hcall
    rw [callArgs, hcall, ← hname]
    rfl
  unfold geminiCall
  dsimp only
  split
  · exact hbase _ (by rw [Json.get_setKey_ne (by decide)]; rfl)
  · exact hbase _ rfl

theorem mem_geminiCalls (fresh : Nat → String) {parts : List Value} {part fc : Value}
    (hpart : part ∈ parts) (hfc : part.get "functionCall" = some fc) :
    ∃ i, geminiCall (fresh i) fc part ∈ ReplyRender.geminiCalls fresh 0 parts := by
  have hmem : (fc, part) ∈ parts.filterMap fun p => (p.get "functionCall").map (·, p) :=
    List.mem_filterMap.mpr ⟨part, hpart, by rw [hfc]; rfl⟩
  obtain ⟨i, hi⟩ := List.mem_iff_getElem?.mp hmem
  exact ⟨i, List.mem_map.mpr ⟨((fc, part), i), List.mem_zipIdx_iff_getElem?.mpr hi, rfl⟩⟩

theorem asArray_eq_none {v : Option Value} (h : ∀ elems, v ≠ some (.array elems)) :
    v.bind Value.asArray = none := by
  cases v with
  | none => rfl
  | some v =>
    cases v with
    | array elems => exact absurd rfl (h elems)
    | _ => rfl

/-- The calls of a Chat completion, where there is no array of blocks. -/
theorem extract_openai {raw : Value} {calls : List Value}
    (hcontent : ∀ blocks, raw.get "content" ≠ some (.array blocks))
    (hcalls : raw.pointer ["choices", "0", "message", "tool_calls"] = some (.array calls)) :
    extractResponseToolCalls raw = calls.map callArgs := by
  rw [extractResponseToolCalls, asArray_eq_none hcontent, hcalls]
  rfl

section
variable {parse : List Char → Option FloatText}

open Json (readText FloatsReadBack Document document_of_readText maxDepth)

theorem readText_empty : readText parse "" = none := rfl

/-- The keys other than `choices` are those of the body. -/
theorem get_rawWithChoices {key : String} (hkey : key ≠ "choices") (json : Value)
    (parsed : GeminiParsed) : (geminiRawWithChoices json parsed).get key = json.get key := by
  unfold geminiRawWithChoices
  split
  · rfl
  · exact Json.get_setKey_ne hkey _ _

theorem partsOf_rawWithChoices (json : Value) (parsed : GeminiParsed) :
    partsOf (geminiRawWithChoices json parsed) = partsOf json := by
  simp only [partsOf]
  rw [Json.pointer_cons (by decide), Json.pointer_cons (by decide),
    get_rawWithChoices (by decide)]

/-- Apart from its `choices`, what is kept of a body is a part of what was read. -/
theorem Received.document (hfloat : FloatsReadBack parse) {raw : Value}
    (h : Received (readText parse) raw) : ∃ body : Value, Document parse (126 + 1) body ∧
      (∀ v, raw.get "content" = some v → body.get "content" = some v) ∧
      partsOf raw = partsOf body := by
  cases h with
  | body h => exact ⟨raw, document_of_readText hfloat h, fun _ h => h, rfl⟩
  | gemini h hparsed =>
    refine ⟨_, document_of_readText hfloat h, fun v hv => ?_, partsOf_rawWithChoices _ _⟩
    rwa [get_rawWithChoices (by decide)] at hv

theorem readText_part {v : Value} {depth : Nat} (h : Document parse depth v)
    (hdepth : depth ≤ maxDepth) : readText parse v.toText = some v :=
  Json.readText_toText (h.mono hdepth)

/-- The arguments of a call are read back from their text. -/
theorem readText_input (hfloat : FloatsReadBack parse) {raw block input : Value}
    {blocks : List Value} (hraw : Received (readText parse) raw)
    (hcontent : raw.get "content" = some (.array blocks)) (hblock : block ∈ blocks)
    (hinput : block.get "input" = some input) :
    readText parse input.toText = some input := by
  obtain ⟨body, hbody, hget, -⟩ := hraw.document hfloat
  have harray : Document parse (125 + 1) (.array blocks) := hbody.get (hget _ hcontent)
  have hdoc : Document parse (124 + 1) block := harray.elem hblock
  exact readText_part (hdoc.get hinput) (by decide)

theorem readText_args (hfloat : FloatsReadBack parse) {raw part fc : Value} {parts : List Value}
    (hraw : Received (readText parse) raw) (hparts : partsOf raw = some parts)
    (hpart : part ∈ parts) (hfc : part.get "functionCall" = some fc) :
    readText parse ((fc.get "args").getD emptyObject).toText =
      some ((fc.get "args").getD emptyObject) := by
  obtain ⟨body, hbody, -, hsame⟩ := hraw.document hfloat
  obtain ⟨v, hv, harray⟩ := Option.bind_eq_some_iff.mp (hsame ▸ hparts)
  cases v <;> cases harray
  have hbody : Document parse (123 + ["candidates", "0", "content", "parts"].length) body := hbody
  have hdoc : Document parse (122 + 1) (.array parts) := hbody.pointer hv
  have hdoc : Document parse (121 + 1) part := hdoc.elem hpart
  have hdoc : Document parse (120 + 1) fc := hdoc.get hfc
  have hempty : Document parse (0 + 1) emptyObject := .object .nil (by simp)
  cases hargs : fc.get "args" with
  | none => exact readText_part hempty (by decide)
  | some args => exact readText_part (hdoc.get hargs) (by decide)

/-- Each call of a raw response is among those that the gate checks. -/
theorem extracted_of_rawCall (hfloat : FloatsReadBack parse) {raw : Value} {args : Option Value}
    (hraw : Received (readText parse) raw) (h : RawCall (readText parse) raw name args) :
    ∃ text, (name, text) ∈ extractResponseToolCalls raw ∧ readText parse text = args := by
  cases h with
  | anthropic hcontent hblock htype =>
    rename_i block blocks
    refine ⟨(blockArgs block).2, ?_, ?_⟩
    · rw [extractResponseToolCalls, hcontent]
      exact List.mem_map_of_mem (List.mem_filter.mpr ⟨hblock, by simpa using htype⟩)
    · cases hinput : block.get "input" with
      | none => simp [blockArgs, hinput, readText_empty]
      | some input => simp [blockArgs, hinput, readText_input hfloat hraw hcontent hblock hinput]
  | openai hcontent hcalls hcall =>
    rename_i call calls
    have hmem : callArgs call ∈ extractResponseToolCalls raw := by
      rw [extract_openai hcontent hcalls]
      exact List.mem_map_of_mem hcall
    unfold callArgs at hmem
    cases hfunc : call.get "function" with
    | none =>
      rw [hfunc] at hmem
      exact ⟨"", hmem, readText_empty⟩
    | some func =>
      rw [hfunc] at hmem
      refine ⟨_, hmem, ?_⟩
      cases harguments : strAt "arguments" func with
      | none => simp [harguments, readText_empty]
      | some text => simp [harguments]
  | gemini hcontent hparts hpart hfc hparsed =>
    rename_i body part fc parts parsed fresh
    obtain ⟨parts', hparts', rfl⟩ := ReplyRender.parse_eq_some hparsed
    obtain rfl := Option.some.inj (hparts.symm.trans hparts')
    obtain ⟨i, hmem⟩ := mem_geminiCalls fresh hpart hfc
    have hne : ReplyRender.geminiCalls fresh 0 parts ≠ [] := List.ne_nil_of_mem hmem
    refine ⟨_, ?_, readText_args hfloat hraw ?_ hpart hfc⟩
    · rw [extract_openai ?_ ((ReplyRender.pointer_view hparts hne _).trans rfl)]
      · exact List.mem_map.mpr ⟨_, hmem, callArgs_geminiCall _ _ _⟩
      · intro blocks hblocks
        rw [get_rawWithChoices (by decide)] at hblocks
        exact hcontent blocks hblocks
    · rw [partsOf_rawWithChoices, hparts]

/-- A response that passes has only calls of declared tools, with arguments that conform. The gate
never abstains. -/
theorem tool_args_valid_sound (hfloat : FloatsReadBack parse)
    (hraw : Received (readText parse) resp.raw) :
    ((toolArgsValid (F := F) float engine debug (readText parse) req resp).verdict = .pass →
      ∀ name args, RawCall (readText parse) resp.raw name args →
        ∃ a, args = some a ∧ Conforming float engine debug req.tools name a) ∧
    (toolArgsValid (F := F) float engine debug (readText parse) req resp).verdict ≠ .abstain := by
  refine ⟨fun hpass name args hcall => ?_, toolArgsValid_ne_abstain req resp⟩
  obtain ⟨text, hmem, htext⟩ := extracted_of_rawCall hfloat hraw hcall
  obtain ⟨a, ha, hconforming⟩ := toolArgsValid_pass hpass _ hmem
  exact ⟨a, htext.symm.trans ha, hconforming⟩

end

-- ---------------------------------------------------------------------------
-- Two responses
-- ---------------------------------------------------------------------------

def requestOf (tools : List Value) : ModelRequest where
  model := "openai/gpt"
  system := none
  messages := []
  maxTokens := 16
  tools := .array tools
  raw := .null
  cachePrefix := false

def responseOf (raw : Value) : ModelResponse where
  model := "openai/gpt"
  text := ""
  inTokens := 0
  cacheWriteTokens := 0
  cacheReadTokens := 0
  outTokens := 0
  raw := raw

def searchTool : Value :=
  .object [("input_schema", .object [("required", .array [.string "q"])]),
    ("name", .string "search")]

def searchInput : Value := .object [("q", .string "rust")]

def searchBlock : Value :=
  .object [("input", searchInput), ("name", .string "search"), ("type", .string "tool_use")]

def searchReply : Value := .object [("content", .array [searchBlock])]

def noFloats : List Char → Option FloatText := fun _ => none

theorem received_searchReply : Received (Json.readText noFloats) searchReply := by
  have hreply : Json.Document noFloats Json.maxDepth searchReply :=
    ⟨rfl, by simp [searchReply, searchBlock, searchInput, Json.maxDepth, Json.Readable]⟩
  exact .body (Json.readText_toText hreply)

theorem tool_args_valid_sound_search :
    Conforming (fun _ => 0) (fun _ => none) id (.array [searchTool]) "search" searchInput ∧
      (toolArgsValid (F := ℚ) (fun _ => 0) (fun _ => none) id (Json.readText noFloats)
        (requestOf [searchTool]) (responseOf searchReply)).verdict ≠ .abstain := by
  have hfloat : Json.FloatsReadBack noFloats := by rintro _ _ ⟨⟩
  have hcall : RawCall (Json.readText noFloats) searchReply "search" (some searchInput) :=
    @RawCall.anthropic _ searchReply searchBlock _ rfl List.mem_cons_self rfl
  obtain ⟨hsound, habstain⟩ := @tool_args_valid_sound ℚ _ (fun _ => 0) (fun _ => none) id
    (requestOf [searchTool]) (responseOf searchReply) noFloats hfloat received_searchReply
  obtain ⟨a, ⟨⟩, hconforming⟩ := hsound (by decide +kernel) "search" (some searchInput) hcall
  exact ⟨hconforming, habstain⟩

def rmCall : Value :=
  .object [("function", .object [("arguments", .string "\x7b\x7d"), ("name", .string "rm")])]

/-- A Chat completion with an empty array of blocks beside its choices. -/
def mixedReply : Value :=
  .object [("choices", .array [.object [("message", .object
    [("tool_calls", .array [rmCall])])]]), ("content", .array [])]

/-- With blocks in a response its Chat calls are not looked at: a call passes though no tool is
declared. -/
theorem mixed_shapes_pass :
    (toolArgsValid (F := ℚ) (fun _ => 0) (fun _ => none) id (Json.readText noFloats)
      (requestOf []) (responseOf mixedReply)).verdict = .pass ∧
    mixedReply.pointer ["choices", "0", "message", "tool_calls"] = some (.array [rmCall]) ∧
    (rmCall.get "function").bind (strAt "name") = some "rm" ∧
    toolNameIsKnown "rm" (requestOf []).tools = false :=
  ⟨rfl, rfl, rfl, rfl⟩

end Firstpass.ToolArgs
