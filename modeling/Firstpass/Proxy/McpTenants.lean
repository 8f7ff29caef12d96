import Firstpass.Lib.Noninterference
import Firstpass.Proxy.McpSessions

/-!
# Tenants of the MCP server

Sessions of several tenants answer requests in any order over one database, and receipts are
stored in between. `sessions_apart`: a tenant is told what it would be told alone.
`feedback_shown`: the view of a trace has all the feedback that was accepted for it, in order.
-/

namespace Firstpass.Mcp

open Json (Value Fields)
open Noninterference (Machine)
open Store (Row)

variable {F : Type} [F64 F]

/-- A request that a session of a tenant answers, or a receipt that is stored. -/
inductive Op
  | rpc (tenant now : String) (req : Value)
  | receipt (r : Row)

/-- Whose request or receipt it is. -/
def Op.tenant : Op → String
  | .rpc tenant _ _ => tenant
  | .receipt r => r.tenant

section
variable (host : Host F)

def step (db : Database F) : Op → Database F
  | .rpc tenant now req => (handleRpc host db tenant now req).2
  | .receipt r => { db with rows := db.rows ++ [r] }

def answer (db : Database F) : Op → Option Value
  | .rpc tenant now req => (handleRpc host db tenant now req).1
  | .receipt _ => none

def machine : Machine (Database F) Op String Value := ⟨step host, answer host, Op.tenant⟩

/-- The body of a row is a trace with the id of the row, if it is a trace at all. -/
def Sealed (r : Row) : Prop := ∀ t, Trace.fromStr host.tx r.body = some t → t.traceId = r.traceId

end

/-- A call of the tool that reads the receipts of every tenant. -/
def Verifies (req : Value) : Prop :=
  rpcMethod req = "tools/call" ∧ toolName (req.get "params") = "verify_receipts"

/-- The rows that the store inserts are sealed. -/
theorem sealed_insert {host : Host F} (htx : host.tx.FloatsReadBack) {rows : List Row}
    (hrows : ∀ r ∈ rows, Sealed host r) {t : Trace F} (ht : t.Fits host.tx) (hash : String) :
    ∀ r ∈ Store.insert rows t hash, Sealed host r := by
  intro r hr
  rcases List.mem_append.mp hr with hr | hr
  · exact hrows r hr
  · obtain rfl := List.mem_singleton.mp hr
    intro u hu
    have hread : Trace.fromStr host.tx t.toText = some t := Trace.fromStr_toText htx ht
    obtain rfl := Option.some.inj (hread.symm.trans hu)
    rfl

/-- What a tenant sees of the database. -/
structure Alike (tenant : String) (owner : String → String) (s t : Database F) : Prop where
  rows : s.rows.filter (fun r => r.tenant = tenant) = t.rows.filter fun r => r.tenant = tenant
  deferred : ∀ traceId, owner traceId = tenant →
    s.deferred.filter (fun d => d.traceId = traceId) =
      t.deferred.filter fun d => d.traceId = traceId

/-- Every row is its owner's. -/
def Sound (host : Host F) (owner : String → String) (db : Database F) : Prop :=
  ∀ r ∈ db.rows, owner r.traceId = r.tenant ∧ Sealed host r

-- ---------------------------------------------------------------------------
-- What a tenant reads
-- ---------------------------------------------------------------------------

section
variable {host : Host F} {tenant : String} {owner : String → String} {s t : Database F}

theorem Alike.loadTenantTraces (h : Alike tenant owner s t) :
    s.loadTenantTraces host tenant = t.loadTenantTraces host tenant := by
  rw [Database.loadTenantTraces, h.rows]
  rfl

omit [F64 F] in
theorem Alike.row (h : Alike tenant owner s t) (traceId : String) :
    s.row tenant traceId = t.row tenant traceId := by
  have hfind (db : Database F) : db.row tenant traceId =
      (db.rows.filter fun r => r.tenant = tenant).find? fun r => r.traceId = traceId := by
    simp [Database.row, List.find?_filter]
  rw [hfind, hfind, h.rows]

theorem Alike.loadDeferred (h : Alike tenant owner s t) {traceId : String}
    (hid : owner traceId = tenant) :
    s.loadDeferred host traceId = t.loadDeferred host traceId := by
  rw [Database.loadDeferred, h.deferred traceId hid]
  rfl

theorem Sound.owner_of_row (h : Sound host owner s) {r : Row} {traceId : String}
    (hrow : s.row tenant traceId = some r) : owner traceId = tenant := by
  have hmem := List.mem_of_find?_eq_some hrow
  have hkeys := List.find?_some hrow
  simp only [Bool.decide_and, Bool.and_eq_true, decide_eq_true_eq] at hkeys
  obtain ⟨rfl, rfl⟩ := hkeys
  exact (h r hmem).1

theorem Alike.traceView (h : Alike tenant owner s t) (hs : Sound host owner s) (args : Value) :
    traceView host s tenant args = traceView host t tenant args := by
  have hview (traceId : String) :
      s.loadTraceView host tenant traceId = t.loadTraceView host tenant traceId := by
    rw [Database.loadTraceView, Database.loadTraceView, ← h.row]
    cases hrow : s.row tenant traceId with
    | none => rfl
    | some r => simp only [h.loadDeferred (hs.owner_of_row hrow)]
  unfold Mcp.traceView
  simp only [hview]

omit [F64 F] in
theorem exists_of_mem_mapM {α β ε : Type} {f : α → Except ε β} {xs : List α} {ys : List β}
    (h : xs.mapM f = .ok ys) {y : β} (hy : y ∈ ys) : ∃ x ∈ xs, f x = .ok y := by
  induction xs generalizing ys with
  | nil =>
    obtain rfl : [] = ys := Except.ok.inj h
    cases hy
  | cons x xs ih =>
    rw [List.mapM_cons] at h
    cases hx : f x with
    | error e => rw [hx] at h; cases h
    | ok z =>
      cases hxs : xs.mapM f with
      | error e => rw [hx, hxs] at h; cases h
      | ok zs =>
        rw [hx, hxs] at h
        obtain rfl : z :: zs = ys := Except.ok.inj h
        rcases List.mem_cons.mp hy with rfl | hy
        · exact ⟨x, List.mem_cons_self, hx⟩
        · obtain ⟨w, hw, hfw⟩ := ih hxs hy
          exact ⟨w, List.mem_cons_of_mem x hw, hfw⟩

/-- What is loaded for a tenant is its own. -/
theorem Sound.owner_of_loaded (h : Sound host owner s) {u : Trace F}
    (hu : u ∈ (s.loadTenantTraces host tenant).toOption.getD []) : owner u.traceId = tenant := by
  cases hload : s.loadTenantTraces host tenant with
  | error e => rw [hload] at hu; cases hu
  | ok ts =>
    rw [hload] at hu
    obtain ⟨r, hr, hbody⟩ := exists_of_mem_mapM hload hu
    obtain ⟨hr, htenant⟩ := List.mem_filter.mp hr
    obtain ⟨howner, hsealed⟩ := h r hr
    have hread : Trace.fromStr host.tx r.body = some u := by
      unfold readBody at hbody
      split at hbody
      · next heq => rw [heq, Except.ok.inj hbody]
      · cases hbody
    rw [hsealed u hread, howner]
    exact of_decide_eq_true htenant

/-- The rehearsal reads the feedback of the tenant's own traces alone. -/
theorem Alike.opeFromStore (h : Alike tenant owner s t) (hs : Sound host owner s)
    (policy : Ope.CandidatePolicy F) :
    Ope.opeFromStore ((s.loadTenantTraces host tenant).toOption.getD []) (s.loadDeferred host)
        policy =
      Ope.opeFromStore ((t.loadTenantTraces host tenant).toOption.getD []) (t.loadDeferred host)
        policy := by
  have hpoints : ∀ u ∈ ((s.loadTenantTraces host tenant).toOption.getD []).filter Ope.isIncumbent,
      Ope.evalPoint policy (s.loadDeferred host u.traceId) u =
        Ope.evalPoint policy (t.loadDeferred host u.traceId) u := by
    intro u hu
    rw [h.loadDeferred (hs.owner_of_loaded (List.mem_filter.mp hu).1)]
  rw [← h.loadTenantTraces]
  exact congrArg (Ope.buildReport _) (List.filterMap_congr hpoints)

-- ---------------------------------------------------------------------------
-- What a tenant is told
-- ---------------------------------------------------------------------------

theorem Alike.checkFeedback (h : Alike tenant owner s t) (now : String) (args : Value) :
    checkFeedback host s tenant now args = checkFeedback host t tenant now args := by
  have hexists : s.traceExists tenant = t.traceExists tenant :=
    funext fun traceId => congrArg Option.isSome (h.row traceId)
  rw [Mcp.checkFeedback, hexists]
  rfl

theorem Alike.append (h : Alike tenant owner s t) (traceId : String) (v : DeferredVerdict F) :
    Alike tenant owner (s.appendDeferred traceId v) (t.appendDeferred traceId v) where
  rows := h.rows
  deferred other hother := by
    simp only [Database.appendDeferred, List.filter_append, h.deferred other hother]

/-- A tool answers a tenant by what the tenant sees, and changes that alike. -/
theorem Alike.runTool (h : Alike tenant owner s t) (hs : Sound host owner s) (now : String)
    (args : Value) {name : String} (hname : name ≠ "verify_receipts") :
    (runTool host s tenant now args name).1 = (runTool host t tenant now args name).1 ∧
      Alike tenant owner (runTool host s tenant now args name).2
        (runTool host t tenant now args name).2 := by
  unfold Mcp.runTool
  split
  · exact ⟨by simp only [toolListTraces, h.loadTenantTraces], h⟩
  · exact ⟨by simp only [toolGetSavings, h.loadTenantTraces], h⟩
  · exact ⟨by simp only [toolGetEvals, h.loadTenantTraces], h⟩
  · exact ⟨by simp only [toolExplainRoute, h.traceView hs], h⟩
  · exact ⟨by simp only [toolRehearsePolicy, h.opeFromStore hs], h⟩
  · exact absurd rfl hname
  · exact ⟨by simp only [toolGetTrace, h.traceView hs], h⟩
  · simp only [toolSubmitFeedback, h.checkFeedback]
    split
    · exact ⟨rfl, h⟩
    · exact ⟨rfl, h.append _ _⟩
  · exact ⟨rfl, h⟩
  · exact ⟨rfl, h⟩
  · exact ⟨rfl, h⟩

theorem Alike.handleRpc (h : Alike tenant owner s t) (hs : Sound host owner s) (now : String)
    {req : Value} (hreq : ¬ Verifies req) :
    (handleRpc host s tenant now req).1 = (handleRpc host t tenant now req).1 ∧
      Alike tenant owner (handleRpc host s tenant now req).2
        (handleRpc host t tenant now req).2 := by
  unfold Mcp.handleRpc
  split
  · exact ⟨rfl, h⟩
  · exact ⟨rfl, h⟩
  · next hcall =>
    obtain ⟨htold, halike⟩ := h.runTool hs now (toolArgs (req.get "params"))
      (fun hname => hreq ⟨hcall, hname⟩)
    exact ⟨by simp only [handleToolCall, htold], halike⟩
  · exact ⟨rfl, h⟩
  · split
    · exact ⟨rfl, h⟩
    · exact ⟨rfl, h⟩

end

-- ---------------------------------------------------------------------------
-- What a request changes
-- ---------------------------------------------------------------------------

/-- The feedback that a request hands in and that is accepted, for its trace. -/
def submitted (host : Host F) (db : Database F) (tenant now : String) (req : Value) :
    Option (String × DeferredVerdict F) :=
  if rpcMethod req = "tools/call" ∧ toolName (req.get "params") = "submit_feedback" then
    (checkFeedback host db tenant now (toolArgs (req.get "params"))).toOption
  else none

section
variable {host : Host F} {db : Database F} {tenant now : String} {req : Value}

theorem runTool_snd (args : Value) (name : String) :
    (runTool host db tenant now args name).2 =
      if name = "submit_feedback" then
        (checkFeedback host db tenant now args).toOption.elim db fun p => db.appendDeferred p.1 p.2
      else db := by
  unfold runTool
  split
  case h_8 =>
    rw [if_pos rfl, toolSubmitFeedback]
    cases checkFeedback host db tenant now args with
    | error e => rfl
    | ok p => rfl
  all_goals simp_all

/-- A request adds the feedback that is accepted, and changes nothing else. -/
theorem handleRpc_snd : (handleRpc host db tenant now req).2 =
    (submitted host db tenant now req).elim db fun p => db.appendDeferred p.1 p.2 := by
  unfold handleRpc submitted
  split
  case h_3 =>
    next hcall =>
    simp only [handleToolCall, runTool_snd, hcall, true_and]
    split <;> rfl
  case h_5 => split <;> simp_all
  all_goals simp_all

theorem checkFeedback_ok {args : Value} {traceId : String} {v : DeferredVerdict F}
    (h : checkFeedback host db tenant now args = .ok (traceId, v)) :
    (db.row tenant traceId).isSome ∧ v.reportedAt = now := by
  simp only [checkFeedback, bind, Except.bind] at h
  split at h
  · cases h
  · split at h
    · cases h
    · split at h
      · cases h
      · split at h
        · cases h
        · split at h
          · cases h
          · split at h
            · next hexists =>
              obtain ⟨rfl, rfl⟩ := Prod.mk.inj (Except.ok.inj h)
              exact ⟨hexists, rfl⟩
            · cases h

theorem submitted_some {p : String × DeferredVerdict F}
    (h : submitted host db tenant now req = some p) :
    (db.row tenant p.1).isSome ∧ p.2.reportedAt = now := by
  unfold submitted at h
  split at h
  · cases hcheck : checkFeedback host db tenant now (toolArgs (req.get "params")) with
    | error e =>
      rw [hcheck] at h
      cases h
    | ok q =>
      rw [hcheck] at h
      obtain rfl := Option.some.inj h
      exact checkFeedback_ok hcheck
  · cases h

end

-- ---------------------------------------------------------------------------
-- Tenants apart
-- ---------------------------------------------------------------------------

/-- The tenant does not ask for the receipts of every tenant, and a receipt is its owner's. -/
def Legal (host : Host F) (tenant : String) (owner : String → String) : Op → Prop
  | .rpc asking _ req => asking = tenant → ¬ Verifies req
  | .receipt r => owner r.traceId = r.tenant ∧ Sealed host r

section
variable {host : Host F} {tenant : String} {owner : String → String} {s t : Database F}

theorem Sound.step (h : Sound host owner s) {op : Op} (hop : Legal host tenant owner op) :
    Sound host owner (step host s op) := by
  cases op with
  | rpc asking now req =>
    have hrows : (handleRpc host s asking now req).2.rows = s.rows := by
      rw [handleRpc_snd]
      cases submitted host s asking now req <;> rfl
    exact fun r hr => h r (hrows ▸ hr)
  | receipt r =>
    intro q hq
    rcases List.mem_append.mp hq with hq | hq
    · exact h q hq
    · obtain rfl := List.mem_singleton.mp hq
      exact hop

/-- The feedback of another tenant is for a trace of its own. -/
theorem Alike.step_other (h : Alike tenant owner s t) (hs : Sound host owner s) {op : Op}
    (hother : op.tenant ≠ tenant) : Alike tenant owner (step host s op) t := by
  cases op with
  | rpc asking now req =>
    rw [step, handleRpc_snd]
    cases hsubmitted : submitted host s asking now req with
    | none => exact h
    | some p =>
      obtain ⟨r, hrow⟩ := Option.isSome_iff_exists.mp (submitted_some hsubmitted).1
      refine ⟨h.rows, fun traceId hid => ?_⟩
      have hne : p.1 ≠ traceId := by
        rintro rfl
        exact hother ((hs.owner_of_row hrow).symm.trans hid)
      simp only [Option.elim_some, Database.appendDeferred, List.filter_append, h.deferred _ hid,
        List.filter_singleton, hne, decide_false, cond_false, List.append_nil]
  | receipt r =>
    have hne : r.tenant ≠ tenant := hother
    refine ⟨?_, h.deferred⟩
    simp [step, List.filter_append, h.rows, hne]

theorem Alike.step_own (h : Alike tenant owner s t) (hs : Sound host owner s) {op : Op}
    (hop : Legal host tenant owner op) (hown : op.tenant = tenant) :
    answer host s op = answer host t op ∧
      Alike tenant owner (step host s op) (step host t op) := by
  cases op with
  | rpc asking now req =>
    obtain rfl : asking = tenant := hown
    exact h.handleRpc hs now (hop rfl)
  | receipt r =>
    refine ⟨rfl, ?_, h.deferred⟩
    simp only [step, List.filter_append, h.rows]

theorem apart : (machine host).Apart tenant (Legal host tenant owner) (Sound host owner)
    (Alike tenant owner) where
  sound_step _ _ hs hop := hs.step hop
  answer _ _ _ hs _ h hop hown := (h.step_own hs hop hown).1
  own _ _ _ hs _ h hop hown := (h.step_own hs hop hown).2
  other _ _ _ hs h _ hother := h.step_other hs hother

end

def receipts (ops : List Op) : List Row :=
  ops.filterMap fun
    | .rpc .. => none
    | .receipt r => some r

/-- A database with the rows of one tenant alone. -/
def Database.only (db : Database F) (tenant : String) : Database F :=
  { db with rows := db.rows.filter fun r => r.tenant = tenant }

/-- No two tenants share a trace id. -/
def Distinct (rows : List Row) : Prop :=
  ∀ r ∈ rows, ∀ q ∈ rows, r.traceId = q.traceId → r.tenant = q.tenant

theorem exists_owner {rows : List Row} (h : Distinct rows) :
    ∃ owner : String → String, ∀ r ∈ rows, owner r.traceId = r.tenant := by
  refine ⟨fun traceId => ((rows.find? fun r => r.traceId = traceId).map Row.tenant).getD "",
    fun r hr => ?_⟩
  cases hfind : rows.find? fun q => q.traceId = r.traceId with
  | none => exact absurd (List.find?_eq_none.mp hfind r hr) (by simp)
  | some q =>
    have hid : q.traceId = r.traceId := by simpa using List.find?_some hfind
    simpa [hfind] using h q (List.mem_of_find?_eq_some hfind) r hr hid

/-- Whatever other tenants ask and report, and whatever receipts of theirs are stored in between, a
tenant is told what it would be told if it were alone in the database. -/
theorem sessions_apart (host : Host F) (tenant : String) (db : Database F) (ops : List Op)
    (hids : Distinct (db.rows ++ receipts ops))
    (hsealed : ∀ r ∈ db.rows ++ receipts ops, Sealed host r)
    (hverify : ∀ now req, Op.rpc tenant now req ∈ ops → ¬ Verifies req) :
    (machine host).told tenant db ops =
      (machine host).told tenant (db.only tenant) ((machine host).own tenant ops) := by
  obtain ⟨owner, howner⟩ := exists_owner hids
  have hsound : Sound host owner db := fun r hr =>
    have hmem := List.mem_append_left (receipts ops) hr
    ⟨howner r hmem, hsealed r hmem⟩
  have hlegal : ∀ op ∈ ops, Legal host tenant owner op := by
    intro op hop
    cases op with
    | rpc asking now req =>
      rintro rfl
      exact hverify now req hop
    | receipt r =>
      have hmem : r ∈ receipts ops := List.mem_filterMap.mpr ⟨_, hop, rfl⟩
      exact ⟨howner r (List.mem_append_right _ hmem), hsealed r (List.mem_append_right _ hmem)⟩
  refine (apart.told_own hsound (t := db.only tenant) ?_ ?_ hlegal).1
  · exact fun r hr => hsound r (List.mem_filter.mp hr).1
  · exact ⟨by simp [Database.only], fun _ _ => rfl⟩

/-- A call of a tool. -/
def callTool (name : String) (args : Fields) : Value :=
  .object [("method", .string "tools/call"),
    ("params", .object [("name", .string name), ("arguments", .object args)])]

def sampleReport : Value :=
  callTool "submit_feedback" [("trace_id", .string ReceiptExport.sampleReceipt.traceId),
    ("gate_id", .string "tests"), ("reporter", .string "ci"), ("verdict", .string "fail")]

def sampleDatabase : Database ℚ := ⟨Store.insert [] ReceiptExport.sampleReceipt "ab", []⟩

theorem sampleDatabase_sealed : ∀ r ∈ sampleDatabase.rows, Sealed sampleHost r :=
  sealed_insert ReceiptExport.integralTexts_floatsReadBack (by rintro _ ⟨⟩)
    ReceiptExport.sampleReceipt_fits "ab"

theorem sample_apart :
    let ops : List Op := [.rpc "tenant-a" "t1" sampleReport,
      .rpc "tenant-b" "t2" (callTool "verify_receipts" []),
      .rpc "tenant-b" "t3" (callTool "list_traces" [])]
    (machine sampleHost).told "tenant-a" sampleDatabase ops =
      (machine sampleHost).told "tenant-a" (sampleDatabase.only "tenant-a")
        ((machine sampleHost).own "tenant-a" ops) := by
  refine sessions_apart sampleHost "tenant-a" sampleDatabase _ ?_ sampleDatabase_sealed ?_
  · intro r hr q hq _
    obtain rfl := List.mem_singleton.mp hr
    obtain rfl := List.mem_singleton.mp hq
    rfl
  · intro now req hreq
    have hreport : now = "t1" ∧ req = sampleReport := by simpa using hreq
    obtain ⟨-, rfl⟩ := hreport
    exact fun h => absurd h.2 (by decide +kernel)

-- ---------------------------------------------------------------------------
-- Feedback
-- ---------------------------------------------------------------------------

/-- The feedback on a trace that is accepted in a run. -/
def accepted (host : Host F) (traceId : String) : Database F → List Op → List (DeferredVerdict F)
  | _, [] => []
  | db, op :: ops =>
    (match op with
      | .rpc tenant now req =>
        ((submitted host db tenant now req).filter fun p => p.1 = traceId).toList.map Prod.snd
      | .receipt _ => []) ++ accepted host traceId (step host db op) ops

/-- A call of the tool that shows the trace. -/
def Shows (traceId : String) (req : Value) : Prop :=
  rpcMethod req = "tools/call" ∧ toolName (req.get "params") = "get_trace" ∧
    strArg (toolArgs (req.get "params")) "trace_id" = .ok traceId

@[simp] theorem verdictOf_asStr (v : Verdict) : verdictOf v.asStr = some v := by
  cases v <;> rfl

theorem bind_new_map_value (score : Option (Score F)) :
    (score.map Score.value).bind Score.new = score := by
  cases score with
  | none => rfl
  | some s => simp [Score.new, s.nonneg, s.le_one]

section
variable {host : Host F}

/-- What is accepted is read as it was handed in, if the clock's time is. -/
theorem loadDeferred_append (db : Database F) (traceId traceId' : String) {v : DeferredVerdict F}
    (hclock : host.tx.timestamp v.reportedAt = some v.reportedAt) :
    (db.appendDeferred traceId' v).loadDeferred host traceId =
      db.loadDeferred host traceId ++ if traceId' = traceId then [v] else [] := by
  have hread : DeferredRow.read host.tx
      ⟨traceId', v.gateId, v.verdict.asStr, v.score.map Score.value, v.reportedAt, v.reporter⟩ =
        some v := by
    simp [DeferredRow.read, hclock, bind_new_map_value]
  simp only [Database.loadDeferred, Database.appendDeferred, List.filter_append,
    List.filterMap_append, List.filter_singleton]
  by_cases hid : traceId' = traceId
  · subst hid
    simp [hread]
  · simp [hid]

theorem loadDeferred_step (db : Database F) (traceId : String) {op : Op}
    (hclock : ∀ tenant now req, op = .rpc tenant now req → host.tx.timestamp now = some now) :
    (step host db op).loadDeferred host traceId =
      db.loadDeferred host traceId ++ accepted host traceId db [op] := by
  cases op with
  | receipt r => simp [step, accepted, Database.loadDeferred]
  | rpc tenant now req =>
    rw [step, handleRpc_snd]
    cases hsubmitted : submitted host db tenant now req with
    | none => simp [accepted, hsubmitted]
    | some p =>
      have hnow := (submitted_some hsubmitted).2
      have happend := loadDeferred_append db traceId p.1 (v := p.2)
        (hnow ▸ hclock tenant now req rfl)
      rw [Option.elim_some, happend]
      by_cases hid : p.1 = traceId
      · simp [accepted, hsubmitted, hid, Option.filter]
      · simp [accepted, hsubmitted, hid, Option.filter]

theorem loadDeferred_run (db : Database F) (traceId : String) {ops : List Op}
    (hclock : ∀ tenant now req, .rpc tenant now req ∈ ops → host.tx.timestamp now = some now) :
    ((machine host).run db ops).loadDeferred host traceId =
      db.loadDeferred host traceId ++ accepted host traceId db ops := by
  induction ops generalizing db with
  | nil => simp [Machine.run, accepted]
  | cons op ops ih =>
    have hop : (step host db op).loadDeferred host traceId =
        db.loadDeferred host traceId ++ accepted host traceId db [op] :=
      loadDeferred_step db traceId fun tenant now req heq =>
        hclock tenant now req (heq ▸ List.mem_cons_self)
    have hops := ih (step host db op) fun tenant now req hmem =>
      hclock tenant now req (List.mem_cons_of_mem op hmem)
    calc ((machine host).run (step host db op) ops).loadDeferred host traceId
        = (step host db op).loadDeferred host traceId ++
          accepted host traceId (step host db op) ops := hops
      _ = db.loadDeferred host traceId ++ (accepted host traceId db [op] ++
          accepted host traceId (step host db op) ops) := by rw [hop, List.append_assoc]
      _ = db.loadDeferred host traceId ++ accepted host traceId db (op :: ops) := by
          simp [accepted]

/-- Receipts are added, and none is changed. -/
theorem rows_run (db : Database F) (ops : List Op) :
    ((machine host).run db ops).rows = db.rows ++ receipts ops := by
  induction ops generalizing db with
  | nil => simp [Machine.run, receipts]
  | cons op ops ih =>
    have hops := ih (step host db op)
    cases op with
    | rpc tenant now req =>
      have hrows : (step host db (.rpc tenant now req)).rows = db.rows := by
        rw [step, handleRpc_snd]
        cases submitted host db tenant now req <;> rfl
      rw [hrows] at hops
      exact hops
    | receipt r => exact hops.trans (List.append_assoc db.rows [r] (receipts ops))

/-- Whatever happens after a receipt is stored: the view of it is the sealed trace, with all the
feedback that was accepted for it, in order and as it was handed in. -/
theorem feedback_shown {db : Database F} {tenant traceId : String} {r : Row} {t : Trace F}
    (hrow : db.row tenant traceId = some r) (hbody : Trace.fromStr host.tx r.body = some t)
    {ops : List Op}
    (hclock : ∀ tenant now req, .rpc tenant now req ∈ ops → host.tx.timestamp now = some now)
    {req : Value} (hreq : Shows traceId req) (now : String) :
    let shown := db.loadDeferred host traceId ++ accepted host traceId db ops
    answer host ((machine host).run db ops) (.rpc tenant now req) =
      some (ok (rpcId req) (toolResult (.ok { t with deferred := shown }.toText))) := by
  intro shown
  obtain ⟨hmethod, htool, htrace⟩ := hreq
  have hrow' : ((machine host).run db ops).row tenant traceId = some r := by
    rw [Database.row, rows_run, List.find?_append]
    simp [Database.row] at hrow
    simp [hrow]
  have hload : ((machine host).run db ops).loadTraceView host tenant traceId =
      .ok (some { t with deferred := shown }) := by
    simp only [Database.loadTraceView, hrow', readBody, hbody, loadDeferred_run db traceId hclock]
    rfl
  have hview : traceView host ((machine host).run db ops) tenant (toolArgs (req.get "params")) =
      .ok { t with deferred := shown } := by
    simp only [traceView, htrace, bind, Except.bind, hload, Except.mapError]
  simp only [answer, handleRpc, hmethod, handleToolCall, runTool, htool, toolGetTrace, hview]
  rfl

end

theorem sample_shown :
    let traceId := ReceiptExport.sampleReceipt.traceId
    let ops : List Op := [.rpc "tenant-a" "t1" sampleReport,
      .rpc "tenant-b" "t2" (callTool "list_traces" [])]
    let req := callTool "get_trace" [("trace_id", .string traceId)]
    let shown := sampleDatabase.loadDeferred sampleHost traceId ++
      accepted sampleHost traceId sampleDatabase ops
    answer sampleHost ((machine sampleHost).run sampleDatabase ops) (.rpc "tenant-a" "t3" req) =
      some (ok (rpcId req) (toolResult
        (.ok { ReceiptExport.sampleReceipt with deferred := shown }.toText))) := by
  intro traceId ops req shown
  have hrow : sampleDatabase.row "tenant-a" traceId = sampleDatabase.rows.head? :=
    List.find?_cons_of_pos (by decide +kernel)
  have hread : Trace.fromStr sampleHost.tx ReceiptExport.sampleReceipt.toText =
      some ReceiptExport.sampleReceipt :=
    Trace.fromStr_toText ReceiptExport.integralTexts_floatsReadBack ReceiptExport.sampleReceipt_fits
  have hreq : Shows traceId req := ⟨rfl, rfl, rfl⟩
  exact feedback_shown hrow hread (fun _ _ _ _ => rfl) hreq "t3"

end Firstpass.Mcp
