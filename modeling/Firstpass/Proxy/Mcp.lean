import Firstpass.Core.JsonDocument
import Firstpass.Proxy.OpeReport
import Firstpass.Proxy.Reports

/-!
# The MCP server

JSON-RPC over lines: an agent of one tenant reads its receipts and reports what became of them. A
session answers one request after the other over a database that the proxy and other sessions
write too.

Left out: a database that cannot be opened or read, and an input that is not UTF-8.
-/

namespace Firstpass.Mcp

open Inbound (trim)
open Json (Value Fields btreeCollect)
open Ope (CandidatePolicy)
open Routing (RoutingMode)
open Store (Row)

variable {F : Type} [F64 F]

/-- What the server is given: how texts are read and numbers written, and what the host says of
its setup. -/
structure Host (F : Type) [F64 F] where
  tx : Texts F
  std : StdLib F
  sha256Hex : String → String
  decode : String → Except String (ConfigFile.Config F)
  /-- What is said of a text that is not a trace. -/
  serdeError : String → String
  handshakeStatic : Value

-- ---------------------------------------------------------------------------
-- The database
-- ---------------------------------------------------------------------------

structure DeferredRow (F : Type) where
  traceId : String
  gateId : String
  verdict : String
  score : Option F
  reportedAt : String
  reporter : String

structure Database (F : Type) where
  rows : List Row
  deferred : List (DeferredRow F)

def verdictOf : String → Option Verdict
  | "pass" => some .pass
  | "fail" => some .fail
  | "abstain" => some .abstain
  | _ => none

/-- A row with a verdict or a time that cannot be read is skipped. -/
def DeferredRow.read (tx : Texts F) (d : DeferredRow F) : Option (DeferredVerdict F) := do
  let verdict ← verdictOf d.verdict
  let reportedAt ← tx.timestamp d.reportedAt
  return ⟨d.gateId, verdict, d.score.bind Score.new, reportedAt, d.reporter⟩

variable (host : Host F)

def readBody (body : String) : Except String (Trace F) :=
  match Trace.fromStr host.tx body with
  | some t => .ok t
  | none => .error ("json error: " ++ host.serdeError body)

namespace Database

def loadAllTraces (db : Database F) : Except String (List (Trace F)) :=
  db.rows.mapM fun r => readBody host r.body

def loadTenantTraces (db : Database F) (tenant : String) : Except String (List (Trace F)) :=
  (db.rows.filter fun r => r.tenant = tenant).mapM fun r => readBody host r.body

def loadDeferred (db : Database F) (traceId : String) : List (DeferredVerdict F) :=
  (db.deferred.filter fun d => d.traceId = traceId).filterMap (DeferredRow.read host.tx)

def row (db : Database F) (tenant traceId : String) : Option Row :=
  db.rows.find? fun r => r.tenant = tenant ∧ r.traceId = traceId

/-- The sealed trace, with its feedback merged in. -/
def loadTraceView (db : Database F) (tenant traceId : String) :
    Except String (Option (Trace F)) :=
  match db.row tenant traceId with
  | none => .ok none
  | some r => (readBody host r.body).map fun t =>
    some { t with deferred := db.loadDeferred host traceId }

def traceExists (db : Database F) (tenant traceId : String) : Bool :=
  (db.row tenant traceId).isSome

def appendDeferred (db : Database F) (traceId : String) (v : DeferredVerdict F) : Database F :=
  { db with deferred := db.deferred ++
      [⟨traceId, v.gateId, v.verdict.asStr, v.score.map Score.value, v.reportedAt, v.reporter⟩] }

end Database

-- ---------------------------------------------------------------------------
-- The tools
-- ---------------------------------------------------------------------------

/-- An object with these entries: `serde_json` keeps them in the order of their keys. -/
def json (fields : Fields) : Value := .object (btreeCollect fields)

def strArg (args : Value) (key : String) : Except String String :=
  match (args.get key).bind Value.asStr with
  | some s => .ok s
  | none => .error ("missing `" ++ key ++ "`")

def storeError (e : String) : String := "store error: " ++ e

def unknownTrace (traceId : String) : String := "unknown trace_id " ++ host.std.debug traceId

def tracesText (traces : List (Trace F)) : String :=
  (Value.array (traces.map Trace.toValue)).toText

def toolListTraces (db : Database F) (tenant : String) (args : Value) : Except String String :=
  let limit := ((args.get "limit").bind Value.asU64).getD 20
  let all := (db.loadTenantTraces host tenant).toOption.getD []
  .ok (tracesText (all.drop (all.length - limit)))

def toolGetSavings (db : Database F) (tenant : String) : Except String String :=
  .ok (Reports.summarizeSavings ((db.loadTenantTraces host tenant).toOption.getD [])).toValue.toText

def toolGetEvals (db : Database F) (tenant : String) : Except String String :=
  .ok (Reports.summarizeEvals ((db.loadTenantTraces host tenant).toOption.getD [])).toValue.toText

/-- The view of the trace that the arguments name. -/
def traceView (db : Database F) (tenant : String) (args : Value) : Except String (Trace F) := do
  let traceId ← strArg args "trace_id"
  match ← (db.loadTraceView host tenant traceId).mapError storeError with
  | some t => .ok t
  | none => .error (unknownTrace host traceId)

def toolExplainRoute (db : Database F) (tenant : String) (args : Value) : Except String String :=
  (traceView host db tenant args).map fun t => (Reports.explainTrace host.std t).toValue.toText

def toolGetTrace (db : Database F) (tenant : String) (args : Value) : Except String String :=
  (traceView host db tenant args).map Trace.toText

def configError : ConfigFile.ParseError → String
  | .toml detail => "config parse error: " ++ detail
  | .badDuration s => "invalid duration " ++ host.std.debug s ++ " (expected e.g. `30m`, `2h`)"
  | .invalidConfig detail => "invalid config: " ++ detail

def toolRehearsePolicy (db : Database F) (tenant : String) (args : Value) :
    Except String String := do
  let toml ← strArg args "policy_toml"
  let policy ← (CandidatePolicy.fromToml host.std host.decode toml).mapError (configError host)
  let traces := (db.loadTenantTraces host tenant).toOption.getD []
  .ok ((Ope.opeFromStore traces (db.loadDeferred host) policy).render host.std)

/-- The chain spans every tenant. -/
def toolVerifyReceipts (db : Database F) : Except String String :=
  .ok (Reports.verifyValue (ReceiptExport.verifyReceipts host.std.debug host.sha256Hex
    ((db.loadAllTraces host).toOption.getD []))).toText

def optionDebug : Option String → String
  | some s => "Some(" ++ host.std.debug s ++ ")"
  | none => "None"

def scoreArg (args : Value) : Except String (Option (Score F)) :=
  match args.get "score" with
  | none => .ok none
  | some .null => .ok none
  | some v =>
    match floatOf host.tx v with
    | none => .error "score must be a number"
    | some s =>
      match Score.new s with
      | some score => .ok (some score)
      | none => .error ("score " ++ host.std.display s ++ " out of range [0,1]")

/-- The feedback that the arguments report on a trace of the tenant. -/
def checkFeedback (db : Database F) (tenant now : String) (args : Value) :
    Except String (String × DeferredVerdict F) := do
  let traceId ← strArg args "trace_id"
  let gateId ← strArg args "gate_id"
  let reporter ← strArg args "reporter"
  let given := (args.get "verdict").bind Value.asStr
  match given.bind verdictOf with
  | none => .error ("invalid verdict " ++ optionDebug host given)
  | some verdict =>
    let score ← scoreArg host args
    if db.traceExists tenant traceId then .ok (traceId, ⟨gateId, verdict, score, now, reporter⟩)
    else .error (unknownTrace host traceId)

def recordedText (traceId : String) : String :=
  (json [("status", .string "recorded"), ("trace_id", .string traceId)]).toText

/-- `now` is what the clock says. -/
def toolSubmitFeedback (db : Database F) (tenant now : String) (args : Value) :
    Except String String × Database F :=
  match checkFeedback host db tenant now args with
  | .error e => (.error e, db)
  | .ok (traceId, v) => (.ok (recordedText traceId), db.appendDeferred traceId v)

def modeName : RoutingMode → String
  | .observe => "observe"
  | .cost => "cost"
  | .balanced => "balanced"
  | .quality => "quality"
  | .latency => "latency"
  | .max => "max"

/-- The description of a mode and its tradeoff. -/
def modeTexts : RoutingMode → String × String
  | .observe =>
    ("shadow mode: forward without gating; verdicts are async learning signals only",
      "zero added latency, zero quality proof; use to observe before enforcing")
  | .cost =>
    ("no speculative prefetch; bandit start on cheapest rung",
      "lowest token spend; can serve lower quality on hard or heavy traffic")
  | .balanced =>
    ("bandit start, configured thresholds and speculation (default — no behavioral change)",
      "today's tuned balance; add a mode only when you need a different point")
  | .quality =>
    ("one extra escalation rung; serial (no speculative waste)",
      "higher quality ceiling at higher cost; still bounded by gate verification")
  | .latency =>
    ("speculation=1: always prefetch one rung ahead to cut p95 latency",
      "pays 1 wasted speculative call when cheap rung passes; speculation_band is overridden")
  | .max =>
    ("start at the top (most expensive) ladder rung; verification as insurance",
      "highest quality, highest cost per call; bandit bypassed; savings minimal")

def intValue (n : Int) : Value :=
  if n < 0 then .number (.negInt (-n - 1).toNat) else natValue n.toNat

def modeValue (m : RoutingMode) : Value :=
  json [("name", .string (modeName m)), ("description", .string (modeTexts m).1),
    ("tradeoff", .string (modeTexts m).2),
    ("overrides", json [("speculation", (m.preset.speculation.map natValue).getD .null),
      ("max_rungs_delta", (m.preset.maxRungsDelta.map intValue).getD .null),
      ("start_at_top", .bool m.preset.startAtTop)])]

def toolListModes : Except String String :=
  .ok (Value.array
    ([.observe, .cost, .balanced, .quality, .latency, .max].map modeValue)).toText

-- ---------------------------------------------------------------------------
-- The protocol
-- ---------------------------------------------------------------------------

def protocolVersion : String := "2024-11-05"

def version : String := "0.10.0"

/-- A property of an argument: its type, and what else is said of it. -/
def property (type : String) (more : Fields) : Value := json (("type", .string type) :: more)

def toolSchema (name description : String) (properties : Fields) (required : List String) : Value :=
  json [("name", .string name), ("description", .string description),
    ("inputSchema", json ([("type", .string "object"), ("properties", json properties)] ++
      if required = [] then [] else [("required", .array (required.map .string))]))]

def toolSchemas : Value := .array
  [toolSchema "list_traces"
      "List the most recent Firstpass audit traces (routing decisions + receipts)."
      [("limit", property "integer"
        [("description", .string "Max traces to return (default 20).")])] [],
    toolSchema "get_trace"
      "Fetch a single audit trace by id, with any deferred verdicts merged in."
      [("trace_id", property "string" [])] ["trace_id"],
    toolSchema "get_savings"
      ("Aggregate spend vs the always-top counterfactual from this deployment's own receipts — " ++
        "measured savings, not a marketing number.") [] [],
    toolSchema "get_evals"
      ("Per-gate verdict rates, escalation count, and serve-by-rung distribution computed from " ++
        "receipts — the live eval suite.") [] [],
    toolSchema "explain_route"
      ("Explain one routing decision from its sealed receipt — served model, per-rung verdicts, " ++
        "escalations, cost vs the always-top baseline, and the savings.")
      [("trace_id", property "string" [])] ["trace_id"],
    toolSchema "rehearse_policy"
      ("Rehearse a candidate routing policy against this deployment's logged traffic BEFORE " ++
        "enforcing it: estimated cost and served-failure with coverage, from a policy TOML " ++
        "(ladder + gates + serve_threshold). Off-policy replay, never a live change.")
      [("policy_toml", property "string"
        [("description",
          .string "A candidate policy in the firstpass.toml route/escalation dialect.")])]
      ["policy_toml"],
    toolSchema "verify_receipts"
      ("Independently re-derive the receipt hash chain from genesis over this deployment's log; " ++
        "reports whether it is intact (tamper-evident self-audit).") [] [],
    toolSchema "submit_feedback"
      ("Attach a downstream outcome (deferred verdict) to a past decision, closing the feedback " ++
        "loop.")
      [("trace_id", property "string" []), ("gate_id", property "string" []),
        ("verdict", property "string"
          [("enum", .array [.string "pass", .string "fail", .string "abstain"])]),
        ("score", property "number" []), ("reporter", property "string" [])]
      ["trace_id", "gate_id", "verdict", "reporter"],
    toolSchema "handshake"
      ("Agent-native setup report: which provider keys are present, the routing config that " ++
        "would run, and the exact environment variables to route traffic through firstpass and " ++
        "to undo it. Reports only — writes nothing. Run the `firstpass handshake` CLI for the " ++
        "keyless end-to-end self-test.") [] [],
    toolSchema "list_modes"
      ("List the supported routing-mode profiles with their knob overrides and honest " ++
        "tradeoffs. Set a mode via the x-firstpass-mode header, per-route routing_mode, or " ++
        "FIRSTPASS_MODE_PROFILE env var.") [] []]

def ok (id result : Value) : Value :=
  json [("jsonrpc", .string "2.0"), ("id", id), ("result", result)]

def err (id : Value) (code : Int) (message : String) : Value :=
  json [("jsonrpc", .string "2.0"), ("id", id),
    ("error", json [("code", intValue code), ("message", .string message)])]

def content (text : String) : Value :=
  .array [json [("type", .string "text"), ("text", .string text)]]

/-- A failure of a tool is a result too. -/
def toolResult : Except String String → Value
  | .ok text => json [("content", content text)]
  | .error msg => json [("content", content msg), ("isError", .bool true)]

def toolName (params : Option Value) : String :=
  ((params.bind fun p => p.get "name").bind Value.asStr).getD ""

def toolArgs (params : Option Value) : Value :=
  (params.bind fun p => p.get "arguments").getD (json [])

/-- What a tool answers, and the database after it. -/
def runTool (db : Database F) (tenant now : String) (args : Value) :
    String → Except String String × Database F
  | "list_traces" => (toolListTraces host db tenant args, db)
  | "get_savings" => (toolGetSavings host db tenant, db)
  | "get_evals" => (toolGetEvals host db tenant, db)
  | "explain_route" => (toolExplainRoute host db tenant args, db)
  | "rehearse_policy" => (toolRehearsePolicy host db tenant args, db)
  | "verify_receipts" => (toolVerifyReceipts host db, db)
  | "get_trace" => (toolGetTrace host db tenant args, db)
  | "submit_feedback" => toolSubmitFeedback host db tenant now args
  | "list_modes" => (toolListModes, db)
  | "handshake" => (.ok host.handshakeStatic.toText, db)
  | other => (.error ("unknown tool: " ++ other), db)

def handleToolCall (db : Database F) (tenant now : String) (id : Value) (params : Option Value) :
    Value × Database F :=
  let answer := runTool host db tenant now (toolArgs params) (toolName params)
  (ok id (toolResult answer.1), answer.2)

def rpcId (req : Value) : Value := (req.get "id").getD .null

def rpcMethod (req : Value) : String := ((req.get "method").bind Value.asStr).getD ""

/-- `none` where a notification is passed over in silence. -/
def handleRpc (db : Database F) (tenant now : String) (req : Value) :
    Option Value × Database F :=
  let id := rpcId req
  match rpcMethod req with
  | "initialize" => (some (ok id (json
      [("protocolVersion", .string protocolVersion), ("capabilities", json [("tools", json [])]),
        ("serverInfo", json [("name", .string "firstpass"), ("version", .string version)])])), db)
  | "tools/list" => (some (ok id (json [("tools", toolSchemas)])), db)
  | "tools/call" =>
    let answer := handleToolCall host db tenant now id (req.get "params")
    (some answer.1, answer.2)
  | "ping" => (some (ok id (json [])), db)
  | other =>
    if req.get "id" = none then (none, db)
    else (some (err id (-32601) ("method not found: " ++ other)), db)

/-- One line of the input. -/
def serveLine (db : Database F) (tenant now line : String) : Option Value × Database F :=
  match Json.readText host.tx.floatText line with
  | some req => handleRpc host db tenant now req
  | none => (some (err .null (-32700) "parse error"), db)

/-- The lines of a session with the times of their answers: what is written, and the database. -/
def serveLines (tenant : String) : Database F → List (String × String) → String × Database F
  | db, [] => ("", db)
  | db, (now, line) :: rest =>
    if trim line = "" then serveLines tenant db rest
    else
      let answer := serveLine host db tenant now line
      let later := serveLines tenant answer.2 rest
      match answer.1 with
      | some resp => (resp.toText ++ "\n" ++ later.1, later.2)
      | none => later

/-- A session, from its first line to the end of the input. `clock` says when each line is
answered. -/
def serveStdio (tenant : String) (db : Database F) (clock : Nat → String) (stdin : String) :
    String × Database F :=
  serveLines host tenant db
    ((ReceiptExport.lines stdin).mapIdx fun i line => (clock i, line))

end Firstpass.Mcp
