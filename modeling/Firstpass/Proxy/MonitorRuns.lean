import Firstpass.Proxy.SharedLog

/-!
# A running monitor

What reaches a monitor after its start, each with the tenant, the route and the fingerprint that
it names, and what each does to the entry of one site. Any replica appends to a log.
-/

namespace Firstpass.Monitor

open Select CursorLog ExperimentMonitor

variable {F : Type} [Field F] [LinearOrder F]

-- ---------------------------------------------------------------------------
-- A running monitor
-- ---------------------------------------------------------------------------

/-- What the serving path, the feedback handler and the paired evaluation observe. -/
inductive Input (F : Type)
  | cost (arm : Arm) (usd : F)
  | health (arm : Arm) (errored : Bool) (truncated : Nat)
  | outcome (arm : Arm) (sessionId : String) (verdict : Verdict)
  | pair (xInc xCh challengerCostUsd : F) (traceId : Uuid)

/-- Any replica appends to a log. A sync has read the first `length` entries of its log. -/
inductive Happening (F : Type)
  | observe (input : Input F)
  | append (record : Option (LogRecord F))
  | sync (length : Nat)

structure Stamped (F : Type) where
  tenant : String
  routeIx : Nat
  fingerprint : String
  happening : Happening F

/-- A monitor and the logs, which are kept by tenant, route and fingerprint. -/
structure Running (F : Type) [Field F] [LinearOrder F] where
  monitor : ExperimentMonitor F
  sharedLog : Bool
  logs : String → Nat → String → List (Option (LogRecord F))

def ExperimentMonitor.observe (sessionHash : String → UInt64) (m : ExperimentMonitor F)
    (tenant : String) (routeIx : Nat) (fingerprint : String) : Input F → ExperimentMonitor F
  | .cost arm usd => m.observeCost tenant routeIx fingerprint arm usd
  | .health arm errored truncated =>
    m.observeHealth tenant routeIx fingerprint arm errored truncated
  | .outcome arm sessionId verdict =>
    (m.observeOutcome sessionHash tenant routeIx fingerprint arm sessionId verdict).1
  | .pair xInc xCh challengerCostUsd traceId =>
    (m.applyPairLocally tenant routeIx fingerprint xInc xCh challengerCostUsd traceId).1

/-- `sync_from_backend`, for a log that can be read. What another sync has applied in the
meantime is skipped, so a sync reads on from the cursor. -/
def ExperimentMonitor.syncFromBackend (m : ExperimentMonitor F) (tenant : String) (routeIx : Nat)
    (fingerprint : String) (log : List (Option (LogRecord F))) : ExperimentMonitor F :=
  let m := m.withEntry tenant routeIx id
  let offset := m.syncOffset tenant routeIx
  m.applyBatch tenant routeIx fingerprint offset (log.drop offset)

def Running.log (r : Running F) (s : Stamped F) : List (Option (LogRecord F)) :=
  r.logs s.tenant s.routeIx s.fingerprint

/-- `record_outcome` and `record_pair` append and then sync, or observe where there is no
log to append to. -/
def Running.occur (sessionHash : String → UInt64) (r : Running F) (s : Stamped F) : Running F :=
  match s.happening with
  | .observe input =>
    { r with monitor := r.monitor.observe sessionHash s.tenant s.routeIx s.fingerprint input }
  | .append record =>
    { r with logs := fun tenant routeIx fingerprint =>
        if tenant = s.tenant ∧ routeIx = s.routeIx ∧ fingerprint = s.fingerprint then
          r.log s ++ [record]
        else r.logs tenant routeIx fingerprint }
  | .sync length =>
    if r.sharedLog then
      { r with monitor :=
          r.monitor.syncFromBackend s.tenant s.routeIx s.fingerprint ((r.log s).take length) }
    else r

/-- The start of a process. What the logs hold by then is appended first. -/
def Boot.running (d : Deployment F) (b : Boot F) (sharedLog : Bool) : Running F where
  monitor :=
    buildMonitorWith d.sessionHash d.params b.replicaId b.traces b.deferred b.pairs sharedLog
  sharedLog := sharedLog
  logs := fun _ _ _ => []

def run (d : Deployment F) (b : Boot F) (sharedLog : Bool) (history : List (Stamped F)) :
    Running F :=
  history.foldl (Running.occur d.sessionHash) (b.running d sharedLog)

theorem run_concat (d : Deployment F) (b : Boot F) (sharedLog : Bool)
    (history : List (Stamped F)) (s : Stamped F) :
    run d b sharedLog (history ++ [s]) = (run d b sharedLog history).occur d.sessionHash s := by
  rw [run, List.foldl_append]
  rfl

-- ---------------------------------------------------------------------------
-- What is observed
-- ---------------------------------------------------------------------------

def Entry.observe (sessionHash : String → UInt64) (site : Site F) (e : Entry F) (tenant : String)
    (routeIx : Nat) (fingerprint : String) : Input F → Entry F
  | .cost arm usd =>
    if site.IsAt tenant routeIx then
      if fingerprint = site.fingerprint then e.observeCost arm usd else e.stale
    else e
  | .health arm errored truncated =>
    if site.IsAt tenant routeIx ∧ fingerprint = site.fingerprint then
      e.tallyHealth arm errored truncated
    else e
  | .outcome arm sessionId verdict =>
    match (outcomeOf verdict : Option F) with
    | none => e
    | some outcome =>
      if site.IsAt tenant routeIx ∧ fingerprint = site.fingerprint then
        (e.observeOutcome arm (sessionHash sessionId) outcome).1
      else e
  | .pair xInc xCh challengerCostUsd traceId =>
    if site.IsAt tenant routeIx ∧ fingerprint = site.fingerprint then
      (e.applyPairLocally xInc xCh challengerCostUsd traceId).1
    else e

theorem observe_tracks (sessionHash : String → UInt64) {site : Site F} (tenant : String)
    (routeIx : Nat) (fingerprint : String) (input : Input F) :
    Tracks site (·.observe sessionHash tenant routeIx fingerprint input)
      (·.observe sessionHash site tenant routeIx fingerprint input) := by
  cases input with
  | cost arm usd => exact observeCost_tracks tenant routeIx fingerprint arm usd
  | health arm errored truncated =>
    exact observeHealth_tracks tenant routeIx fingerprint arm errored truncated
  | outcome arm sessionId verdict =>
    exact outcome_tracks sessionHash tenant routeIx fingerprint arm sessionId verdict
  | pair x y usd traceId =>
    exact applyPairLocally_tracks tenant routeIx fingerprint x y usd traceId

-- ---------------------------------------------------------------------------
-- A monitor keeps its configuration
-- ---------------------------------------------------------------------------

/-- What no operation of a monitor changes. -/
def ExperimentMonitor.config (m : ExperimentMonitor F) : List (Nat × Params F) × Uuid :=
  (m.params, m.replicaId)

theorem Site.RunsIn.of_config {site : Site F} {m m' : ExperimentMonitor F}
    (hconfig : m'.config = m.config) (h : site.RunsIn m) : site.RunsIn m' := by
  have hparams : m'.params = m.params := congrArg Prod.fst hconfig
  rwa [Site.RunsIn, hparams]

section config
variable (m : ExperimentMonitor F) (tenant : String) (routeIx : Nat) (fingerprint : String)

@[simp] theorem config_setEntry (e : Entry F) :
    (m.setEntry tenant routeIx e).config = m.config := rfl

@[simp] theorem config_withEntry (f : Entry F → Entry F) :
    (m.withEntry tenant routeIx f).config = m.config := by
  simp only [ExperimentMonitor.withEntry]
  split <;> rfl

@[simp] theorem config_observe (sessionHash : String → UInt64) (input : Input F) :
    (m.observe sessionHash tenant routeIx fingerprint input).config = m.config := by
  cases input with
  | cost arm usd => exact config_withEntry ..
  | health arm errored truncated =>
    simp only [ExperimentMonitor.observe, ExperimentMonitor.observeHealth]
    split <;> simp
  | outcome arm sessionId verdict =>
    simp only [ExperimentMonitor.observe, observeOutcome_eq]
    repeat' split
    all_goals simp
  | pair x y usd traceId =>
    simp only [ExperimentMonitor.observe, applyPairLocally_eq]
    split <;> simp

@[simp] theorem config_applyLogRecord (record : LogRecord F) :
    (m.applyLogRecord tenant routeIx fingerprint record).config = m.config := by
  simp only [ExperimentMonitor.applyLogRecord]
  split <;> simp

@[simp] theorem config_advance (absIx : Nat) :
    (m.advance tenant routeIx absIx).config = m.config := by
  simp only [ExperimentMonitor.advance]
  split <;> simp

@[simp] theorem config_applyBatch (absIx : Nat) (records : List (Option (LogRecord F))) :
    (m.applyBatch tenant routeIx fingerprint absIx records).config = m.config := by
  induction records generalizing m absIx with
  | nil => rfl
  | cons record records ih =>
    rw [ExperimentMonitor.applyBatch.eq_def]
    simp only [ih]
    repeat' split
    all_goals simp

@[simp] theorem config_syncFromBackend (log : List (Option (LogRecord F))) :
    (m.syncFromBackend tenant routeIx fingerprint log).config = m.config := by
  simp [ExperimentMonitor.syncFromBackend]

@[simp] theorem config_replayTrace (t : Receipt F) : (m.replayTrace t).config = m.config := by
  have hhealth : ∀ m : ExperimentMonitor F, ∀ tenant routeIx fp arm errored truncated,
      (m.observeHealth tenant routeIx fp arm errored truncated).config = m.config :=
    fun m tenant routeIx fp arm errored truncated =>
      config_observe m tenant routeIx fp (fun _ => 0) (.health arm errored truncated)
  simp only [ExperimentMonitor.replayTrace, ExperimentMonitor.tallyTrace]
  repeat' split
  all_goals simp [hhealth, ExperimentMonitor.observeCost]

@[simp] theorem config_replayOutcome (sessionHash : String → UInt64) (traces : List (Receipt F))
    (o : Uuid × Verdict) : (m.replayOutcome sessionHash traces o).config = m.config := by
  simp only [ExperimentMonitor.replayOutcome]
  repeat' split
  all_goals first | rfl | exact config_observe m _ _ _ sessionHash (.outcome _ _ _)

@[simp] theorem config_replayPair (row : ExperimentPairRow F) :
    (m.replayPair row).config = m.config := config_withEntry ..

omit m in
theorem config_buildMonitorWith (sessionHash : String → UInt64) (params : List (Nat × Params F))
    (replicaId : Uuid) (traces : List (Receipt F)) (deferred : List (Uuid × Verdict))
    (pairs : List (ExperimentPairRow F)) (sharedLog : Bool) :
    (buildMonitorWith sessionHash params replicaId traces deferred pairs sharedLog).config =
      (params, replicaId) := by
  have hreplayed : ∀ rows : List (ExperimentPairRow F),
      (monitorFromTraces sessionHash params replicaId traces deferred rows).config =
        (params, replicaId) := by
    intro rows
    rw [monitorFromTraces]
    split
    · rfl
    · rw [foldl_frame config fun m row => config_replayPair m row,
        foldl_frame config fun m o => config_replayOutcome m sessionHash traces o,
        foldl_frame config fun m t => config_replayTrace m t]
      rfl
  cases sharedLog with
  | false => exact hreplayed pairs
  | true =>
    rw [buildMonitorWith]
    exact (foldl_frame config (fun m row => config_withEntry m row.tenant row.routeIx id) pairs
      _).trans (hreplayed _)

end config

-- ---------------------------------------------------------------------------
-- A sync
-- ---------------------------------------------------------------------------

/-- An entry reads on from its cursor. -/
def Entry.readOn (replicaId : Uuid) (e : Entry F) (records : List (Option (LogRecord F))) :
    Entry F :=
  records.foldl (fun e record => e.consume replicaId e.remoteLogOffset record) e

theorem entry_advance (d : Deployment F) (r : Replica F) (records : List (Option (LogRecord F))) :
    ((consumer d).advance r records).entry = r.entry.readOn r.replicaId records := by
  induction records generalizing r with
  | nil => rfl
  | cons record records ih => exact ih _

section sync
variable {d : Deployment F} {m : ExperimentMonitor F} (hm : d.site.RunsIn m)
include hm

theorem sync_made : d.site.RunsIn (m.withEntry d.site.tenant d.site.routeIx id) ∧
    (m.withEntry d.site.tenant d.site.routeIx id).at d.site = m.at d.site := by
  obtain ⟨hrun, hat⟩ : d.site.RunsIn (m.withEntry _ _ _) ∧ _ :=
    Tracks.withEntry d.site.tenant d.site.routeIx id m hm
  exact ⟨hrun, hat.trans (ite_self _)⟩

/-- A sync of the experiment's own log. -/
theorem syncFromBackend_at (log : List (Option (LogRecord F))) :
    (m.syncFromBackend d.site.tenant d.site.routeIx d.site.fingerprint log).at d.site =
      (m.at d.site).readOn m.replicaId (log.drop (m.at d.site).remoteLogOffset) := by
  obtain ⟨hrun, hat⟩ := sync_made hm
  have hmade := made_withEntry hm id
  let r : Replica F := ⟨m.replicaId, m.at d.site, []⟩
  have hread := (consumer d).batch_eq_advance (s := r) (n := (m.at d.site).remoteLogOffset) le_rfl
    (log.drop (m.at d.site).remoteLogOffset)
  have hcursor : (consumer d).cursor r - (m.at d.site).remoteLogOffset = 0 := Nat.sub_self _
  rw [hcursor, List.drop_zero] at hread
  rw [ExperimentMonitor.syncFromBackend, syncOffset_at hrun, hat, applyBatch_at hrun hmade _ _ [],
    withEntry_replicaId, hat, hread, entry_advance]

/-- A sync of another log that has nothing past the cursor. -/
theorem syncFromBackend_short (fingerprint : String) {log : List (Option (LogRecord F))}
    (hshort : log.length ≤ (m.at d.site).remoteLogOffset) :
    (m.syncFromBackend d.site.tenant d.site.routeIx fingerprint log).at d.site = m.at d.site := by
  obtain ⟨hrun, hat⟩ := sync_made hm
  rw [ExperimentMonitor.syncFromBackend, syncOffset_at hrun, hat, List.drop_of_length_le hshort]
  exact hat

variable {tenant : String} {routeIx : Nat} (haway : ¬d.site.IsAt tenant routeIx)
include haway

theorem applyBatch_elsewhere (fingerprint : String) (absIx : Nat)
    (records : List (Option (LogRecord F))) :
    (m.applyBatch tenant routeIx fingerprint absIx records).at d.site = m.at d.site := by
  induction records generalizing m absIx with
  | nil => rfl
  | cons record records ih =>
    have hstep : ∀ m : ExperimentMonitor F,
        (m.advance tenant routeIx absIx).at d.site = m.at d.site := by
      intro m
      simp only [ExperimentMonitor.advance]
      split
      · rw [setEntry_at, if_neg haway]
      · rfl
    have hrecord : ∀ record, (m.applyLogRecord tenant routeIx fingerprint record).at d.site =
        m.at d.site := by
      intro record
      simp only [ExperimentMonitor.applyLogRecord]
      split <;> rw [withEntry_at hm, if_neg haway]
    rw [ExperimentMonitor.applyBatch.eq_def]
    split_ifs
    · exact ih hm (absIx + 1)
    · cases record with
      | none =>
        exact (ih (hm.of_config (config_advance ..)) (absIx + 1)).trans (hstep m)
      | some record =>
        have hrun := hm.of_config (config_applyLogRecord m tenant routeIx fingerprint record)
        exact ((ih (hrun.of_config (config_advance ..)) (absIx + 1)).trans (hstep _)).trans
          (hrecord record)

theorem syncFromBackend_elsewhere (fingerprint : String) (log : List (Option (LogRecord F))) :
    (m.syncFromBackend tenant routeIx fingerprint log).at d.site = m.at d.site := by
  have hrun := hm.of_config (config_withEntry m tenant routeIx id)
  rw [ExperimentMonitor.syncFromBackend, applyBatch_elsewhere hrun haway, withEntry_at hm,
    if_neg haway]

end sync

-- ---------------------------------------------------------------------------
-- The status
-- ---------------------------------------------------------------------------

theorem status_fresh (p : Params F) : p.fresh.status = .undecided := by
  have hnew := p.new_ok
  rw [Experiment.new] at hnew
  split_ifs at hnew
  rw [← Except.ok.inj hnew]

theorem status_at (m : ExperimentMonitor F) (site : Site F) :
    m.status site.tenant site.routeIx = (m.at site).experiment.status := by
  rw [ExperimentMonitor.status, ExperimentMonitor.at]
  cases m.entries site.tenant site.routeIx with
  | none => exact (status_fresh site.params).symm
  | some e => rfl

end Firstpass.Monitor
