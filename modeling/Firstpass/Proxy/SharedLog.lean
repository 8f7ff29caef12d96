import Firstpass.Lib.CursorLog
import Firstpass.Proxy.ExperimentEvidence

/-!
# Replicas that share a log

The entries of one experiment in the processes that share its log. A process reads the
log in `sync_from_backend`, tallies what it serves, may fall back to applying a pair or
an outcome on its own, and is rebuilt from its trace store when it starts.
-/

namespace Firstpass.Monitor

open Select CursorLog

variable {F : Type} [Field F] [LinearOrder F]

/-- The configuration that the processes share, and the site of the experiment. -/
structure Deployment (F : Type) [Field F] [LinearOrder F] where
  sessionHash : String → UInt64
  params : List (Nat × Params F)
  site : Site F
  runs : params.lookup site.routeIx = some site.params

/-- One process: its id, its entry, and the positions of the log that it has consumed, kept
for the proofs. -/
structure Replica (F : Type) where
  replicaId : Uuid
  entry : Entry F
  applied : List Nat

/-- What a process tallies on its own: a trace that it serves, and the health of a challenger
that it evaluates. -/
inductive Tally (F : Type)
  | serve (t : Receipt F)
  | health (chError : Bool) (chTruncated : Nat)

/-- What a process does besides reading the log: it tallies, or falls back to applying a
pair or an outcome locally. -/
inductive Local (F : Type)
  | tally (t : Tally F)
  | pair (xInc xCh challengerCostUsd : F) (traceId : Uuid)
  | outcome (arm : Arm) (sessionId : String) (verdict : Verdict)

/-- What a process starts from. -/
structure Boot (F : Type) where
  replicaId : Uuid
  traces : List (Receipt F)
  deferred : List (Uuid × Verdict)
  pairs : List (ExperimentPairRow F)

/-- A malformed entry of the log is skipped. -/
def Entry.applyEntry (replicaId : Uuid) (e : Entry F) : Option (LogRecord F) → Entry F
  | some record => e.applyLogRecord replicaId record
  | none => e

def Entry.consume (replicaId : Uuid) (e : Entry F) (absIx : Nat) (record : Option (LogRecord F)) :
    Entry F :=
  let e := e.applyEntry replicaId record
  { e with remoteLogOffset := max e.remoteLogOffset (absIx + 1) }

def Entry.tally (site : Site F) (e : Entry F) : Tally F → Entry F
  | .serve t => e.serve site t
  | .health chError chTruncated => e.tallyHealth .challenger chError chTruncated

def Entry.applyLocal (d : Deployment F) (e : Entry F) : Local F → Entry F
  | .tally t => e.tally d.site t
  | .pair xInc xCh challengerCostUsd traceId =>
    (e.applyPairLocally xInc xCh challengerCostUsd traceId).1
  | .outcome arm sessionId verdict =>
    match (ExperimentMonitor.outcomeOf verdict : Option F) with
    | none => e
    | some outcome => (e.observeOutcome arm (d.sessionHash sessionId) outcome).1

def bootEntry (d : Deployment F) (b : Boot F) : Entry F :=
  (ExperimentMonitor.buildMonitorWith d.sessionHash d.params b.replicaId b.traces b.deferred b.pairs
    true).at d.site

/-- The rows that a start with a shared log replays. -/
def Boot.offline (b : Boot F) : List (ExperimentPairRow F) := b.pairs.filter (·.inLog = .notInLog)

theorem bootEntry_eq (d : Deployment F) (b : Boot F) :
    bootEntry d b = .replay d.sessionHash d.site b.traces b.deferred b.offline :=
  (ExperimentMonitor.buildMonitorWith_at d.sessionHash d.runs b.replicaId b.traces b.deferred
    b.pairs true).2

-- ---------------------------------------------------------------------------
-- The cursor
-- ---------------------------------------------------------------------------

section offsets

variable (e : Entry F)

omit [Field F] [LinearOrder F] in
@[simp] theorem offset_tallyHealth (arm : Arm) (errored : Bool) (truncated : Nat) :
    (e.tallyHealth arm errored truncated).remoteLogOffset = e.remoteLogOffset :=
  (Blind.tallyHealth arm errored truncated).offset e

@[simp] theorem offset_tallyRemote (r : PairRecord F) :
    (e.tallyRemote r).remoteLogOffset = e.remoteLogOffset := by
  simp only [Entry.tallyRemote, offset_tallyHealth]
  split <;> rfl

@[simp] theorem offset_observeOutcome (arm : Arm) (key : UInt64) (x : F) :
    (e.observeOutcome arm key x).1.remoteLogOffset = e.remoteLogOffset :=
  (Blind.observeOutcome arm key x).offset e

@[simp] theorem offset_applyPairLocally (x y usd : F) (traceId : Uuid) :
    (e.applyPairLocally x y usd traceId).1.remoteLogOffset = e.remoteLogOffset :=
  (Blind.applyPairLocally x y usd traceId).offset e

@[simp] theorem offset_applyLogRecord (replicaId : Uuid) (record : LogRecord F) :
    (e.applyLogRecord replicaId record).remoteLogOffset = e.remoteLogOffset := by
  cases record with
  | outcome arm x key usd => exact (Blind.applyLogOutcome arm x key).offset e
  | pair r =>
    rw [Entry.applyLogRecord, applyLogPair_eq]
    split
    · exact offset_applyPairLocally ..
    · exact (offset_tallyRemote ..).trans (offset_applyPairLocally ..)

@[simp] theorem offset_serve (site : Site F) (t : Receipt F) :
    (e.serve site t).remoteLogOffset = e.remoteLogOffset := by
  obtain ⟨f, g, h, -, heq⟩ := serve_eq site t
  rw [heq]
  rfl

@[simp] theorem offset_tally (site : Site F) (t : Tally F) :
    (e.tally site t).remoteLogOffset = e.remoteLogOffset := by
  cases t with
  | serve t => exact offset_serve e site t
  | health chError chTruncated => exact offset_tallyHealth e .challenger chError chTruncated

@[simp] theorem offset_remember (site : Site F) (t : Receipt F) :
    (e.remember site t).remoteLogOffset = e.remoteLogOffset := by
  simp only [Entry.remember, Entry.rememberCosted]
  repeat' split
  all_goals rfl

@[simp] theorem offset_replayOutcome (sessionHash : String → UInt64) (site : Site F)
    (traces : List (Receipt F)) (o : Uuid × Verdict) :
    (e.replayOutcome sessionHash site traces o).remoteLogOffset = e.remoteLogOffset := by
  simp only [Entry.replayOutcome, Entry.feedback]
  repeat' split
  all_goals first | rfl | simp

@[simp] theorem offset_replayRow (site : Site F) (row : ExperimentPairRow F) :
    (e.replayRow site row).remoteLogOffset = e.remoteLogOffset := by
  simp only [Entry.replayRow]
  split_ifs
  · exact (Blind.replayPair row).offset e
  · rfl
  · rfl

end offsets

theorem offset_bootEntry (d : Deployment F) (b : Boot F) : (bootEntry d b).remoteLogOffset = 0 := by
  rw [bootEntry_eq, Entry.replay,
    foldl_frame Entry.remoteLogOffset fun e row => offset_replayRow e d.site row,
    foldl_frame Entry.remoteLogOffset fun e o =>
      offset_replayOutcome e d.sessionHash d.site b.traces o,
    foldl_frame Entry.remoteLogOffset fun e t => by rw [offset_remember, offset_serve]]
  rfl

theorem offset_applyLocal (d : Deployment F) (e : Entry F) (l : Local F) :
    (e.applyLocal d l).remoteLogOffset = e.remoteLogOffset := by
  cases l with
  | tally t => exact offset_tally e d.site t
  | pair x y usd traceId => exact offset_applyPairLocally e x y usd traceId
  | outcome arm sessionId verdict =>
    simp only [Entry.applyLocal]
    split
    · rfl
    · exact offset_observeOutcome ..

theorem offset_consume (replicaId : Uuid) (e : Entry F) (absIx : Nat)
    (record : Option (LogRecord F)) :
    (e.consume replicaId absIx record).remoteLogOffset = max e.remoteLogOffset (absIx + 1) := by
  cases record with
  | none => rfl
  | some record => simp only [Entry.consume, Entry.applyEntry, offset_applyLogRecord]

/-- A process as a consumer of the log. -/
def consumer (d : Deployment F) :
    Consumer (Replica F) (Option (LogRecord F)) (Local F) (Boot F) where
  cursor r := r.entry.remoteLogOffset
  consume r n record :=
    { r with entry := r.entry.consume r.replicaId n record, applied := r.applied ++ [n] }
  perform l r := { r with entry := r.entry.applyLocal d l }
  boot b := ⟨b.replicaId, bootEntry d b, []⟩
  cursor_consume r record := by
    rw [offset_consume]
    omega
  cursor_perform l r := offset_applyLocal d r.entry l
  cursor_boot b := offset_bootEntry d b

section consumer
variable (d : Deployment F) (r : Replica F)

theorem offset_consumer_consume (record : Option (LogRecord F)) :
    ((consumer d).consume r ((consumer d).cursor r) record).entry.remoteLogOffset =
      r.entry.remoteLogOffset + 1 :=
  (consumer d).cursor_consume r record

theorem offset_consumer_perform (l : Local F) :
    ((consumer d).perform l r).entry.remoteLogOffset = r.entry.remoteLogOffset :=
  (consumer d).cursor_perform l r

theorem offset_consumer_boot (b : Boot F) : ((consumer d).boot b).entry.remoteLogOffset = 0 :=
  (consumer d).cursor_boot b

end consumer

-- ---------------------------------------------------------------------------
-- The loop of `sync_from_backend` is the consumer's
-- ---------------------------------------------------------------------------

section monitor

variable {d : Deployment F} {m : ExperimentMonitor F}

/-- The monitor has the entry of the site: `sync_from_backend` makes it before it reads. -/
def Made (d : Deployment F) (m : ExperimentMonitor F) : Prop :=
  m.entries d.site.tenant d.site.routeIx = some (m.at d.site)

theorem made_setEntry (e : Entry F) : Made d (m.setEntry d.site.tenant d.site.routeIx e) := by
  simp [Made, ExperimentMonitor.setEntry, ExperimentMonitor.at]

theorem made_withEntry (hm : d.site.RunsIn m) (f : Entry F → Entry F) :
    Made d (m.withEntry d.site.tenant d.site.routeIx f) := by
  rw [ExperimentMonitor.withEntry, ExperimentMonitor.entry_eq hm]
  exact made_setEntry _

theorem syncOffset_at (hm : d.site.RunsIn m) :
    m.syncOffset d.site.tenant d.site.routeIx = (m.at d.site).remoteLogOffset := by
  rw [ExperimentMonitor.syncOffset, ExperimentMonitor.entry_eq hm]

theorem applyLogRecord_at (hm : d.site.RunsIn m) (record : LogRecord F) :
    let m' := m.applyLogRecord d.site.tenant d.site.routeIx d.site.fingerprint record
    d.site.RunsIn m' ∧ Made d m' ∧ m'.replicaId = m.replicaId ∧
      m'.at d.site = (m.at d.site).applyLogRecord m.replicaId record := by
  have hcurrent : ¬m.fingerprint d.site.routeIx ≠ some d.site.fingerprint :=
    not_not.mpr (ExperimentMonitor.fingerprint_at hm)
  obtain ⟨hrun, hat⟩ : d.site.RunsIn (m.withEntry _ _ _) ∧ _ :=
    ExperimentMonitor.Tracks.withEntry d.site.tenant d.site.routeIx
      (fun e => e.applyLogRecord m.replicaId record) m hm
  simp only [ExperimentMonitor.applyLogRecord, if_neg hcurrent]
  refine ⟨hrun, made_withEntry hm _, ExperimentMonitor.withEntry_replicaId .., hat.trans ?_⟩
  exact if_pos ⟨rfl, rfl⟩

theorem advance_at (hm : d.site.RunsIn m) (hmade : Made d m) (absIx : Nat) :
    let m' := m.advance d.site.tenant d.site.routeIx absIx
    d.site.RunsIn m' ∧ Made d m' ∧ m'.replicaId = m.replicaId ∧
      m'.at d.site = { m.at d.site with
        remoteLogOffset := max (m.at d.site).remoteLogOffset (absIx + 1) } := by
  simp only [ExperimentMonitor.advance, show m.entries _ _ = _ from hmade]
  refine ⟨hm, made_setEntry _, rfl, ?_⟩
  rw [ExperimentMonitor.setEntry_at, if_pos ⟨rfl, rfl⟩]

theorem applyBatch_at (hm : d.site.RunsIn m) (hmade : Made d m) (absIx : Nat)
    (records : List (Option (LogRecord F))) (applied : List Nat) :
    (m.applyBatch d.site.tenant d.site.routeIx d.site.fingerprint absIx records).at d.site =
      ((consumer d).batch ⟨m.replicaId, m.at d.site, applied⟩ absIx records).entry := by
  induction records generalizing m absIx applied with
  | nil => rfl
  | cons record records ih =>
    have hoffset : m.currentOffset d.site.tenant d.site.routeIx =
        (m.at d.site).remoteLogOffset := by
      rw [ExperimentMonitor.currentOffset, show m.entries _ _ = _ from hmade]
    rw [ExperimentMonitor.applyBatch.eq_def, Consumer.batch]
    simp only [hoffset]
    by_cases hskip : absIx < (m.at d.site).remoteLogOffset
    · simp only [consumer, hskip, if_true]
      exact ih hm hmade (absIx + 1) applied
    · have hskip' : ¬absIx < (consumer d).cursor ⟨m.replicaId, m.at d.site, applied⟩ := hskip
      simp only [hskip, hskip', if_false]
      cases record with
      | none =>
        obtain ⟨hrun, hmade', hid, hat⟩ := advance_at hm hmade absIx
        have htail := ih hrun hmade' (absIx + 1) (applied ++ [absIx])
        rwa [hid, hat] at htail
      | some record =>
        obtain ⟨hrun, hmade', hid, hat⟩ := applyLogRecord_at hm record
        obtain ⟨hrun', hmade'', hid', hat'⟩ := advance_at hrun hmade' absIx
        have htail := ih hrun' hmade'' (absIx + 1) (applied ++ [absIx])
        rwa [hid', hid, hat', hat] at htail

end monitor

-- ---------------------------------------------------------------------------
-- Without fallbacks, an entry is the fold of a prefix of the log
-- ---------------------------------------------------------------------------

variable {ι : Type} [DecidableEq ι]

abbrev LogAction (ι F : Type) := Action ι (Option (LogRecord F)) (Local F) (Boot F)

def start (d : Deployment F) (boot : ι → Boot F) (log : List (Option (LogRecord F))) :
    System ι (Replica F) (Option (LogRecord F)) where
  log := log
  process i := ⟨(consumer d).boot (boot i), []⟩

omit [DecidableEq ι] in
theorem start_ok (d : Deployment F) (boot : ι → Boot F) (log : List (Option (LogRecord F)))
    (i : ι) : (consumer d).Ok (start d boot log).log ((start d boot log).process i) :=
  ⟨(offset_bootEntry d (boot i)).trans_le (Nat.zero_le _), nofun, nofun⟩

/-- Syncs, appends and tallies. -/
def NoFallback : LogAction ι F → Prop
  | .act _ (.tally _) => True
  | .act _ _ => False
  | .restart _ _ => False
  | _ => True

def tallyOf (i : ι) : LogAction ι F → Option (Tally F)
  | .act j (.tally t) => if j = i then some t else none
  | _ => none

def talliesBy (i : ι) (actions : List (LogAction ι F)) : List (Tally F) :=
  actions.filterMap (tallyOf i)

theorem tally_eq (site : Site F) (t : Tally F) :
    ∃ f g h, Tallying f h ∧ ∀ e : Entry F, e.tally site t = e.update f g h := by
  cases t with
  | serve t => exact serve_eq site t
  | health chError chTruncated =>
    refine ⟨id, id, fun x => if chError = false ∧ chTruncated = 0 then x
      else x.add .challenger chError chTruncated, ⟨fun _ _ _ => rfl, fun _ _ _ => rfl,
        fun _ _ _ => rfl, fun x arm errored truncated => ?_⟩, fun e => ?_⟩
    · split
      · rfl
      · exact Health.add_comm ..
    · simp only [Entry.tally, Entry.tallyHealth, Entry.update]
      split <;> rfl

theorem consume_tally (site : Site F) (tallies : List (Tally F)) (e : Entry F) (replicaId : Uuid)
    (n : Nat) (record : Option (LogRecord F)) :
    (tallies.foldl (Entry.tally site) e).consume replicaId n record =
      tallies.foldl (Entry.tally site) (e.consume replicaId n record) := by
  refine (List.foldl_hom (Entry.consume replicaId · n record) fun e t => ?_).symm
  obtain ⟨f, g, h, htally, heq⟩ := tally_eq site t
  rw [heq, heq]
  cases record with
  | none => rfl
  | some record =>
    simp only [Entry.consume, Entry.applyEntry, applyLogRecord_update htally]
    rfl

def Entry.withOffset (e : Entry F) (n : Nat) : Entry F := { e with remoteLogOffset := n }

theorem tallyRemote_withOffset (e : Entry F) (n : Nat) (r : PairRecord F) :
    (e.withOffset n).tallyRemote r = (e.tallyRemote r).withOffset n := by
  have hcosted : r.incumbentTraceId ∈ (e.withOffset n).locallyCosted ↔
      r.incumbentTraceId ∈ e.locallyCosted := Iff.rfl
  simp only [Entry.tallyRemote, Entry.tallyHealth, hcosted]
  split_ifs <;> rfl

omit [Field F] [LinearOrder F] in
theorem Blind.withOffset {f : Entry F → Entry F} (hf : Blind f) (e : Entry F) (n : Nat) :
    f (e.withOffset n) = (f e).withOffset n := by
  refine (hf e e.ignoredStale e.locallyCosted n).trans ?_
  rw [← hf.stale e, ← hf.locallyCosted e]
  rfl

/-- Applying a record does not read the cursor. -/
theorem applyLogRecord_withOffset (e : Entry F) (n : Nat) (replicaId : Uuid)
    (record : LogRecord F) : (e.withOffset n).applyLogRecord replicaId record =
      (e.applyLogRecord replicaId record).withOffset n := by
  cases record with
  | outcome arm x key usd => exact (Blind.applyLogOutcome arm x key).withOffset e n
  | pair r =>
    have hseen : (e.withOffset n).alreadyApplied r.traceId ↔ e.alreadyApplied r.traceId := Iff.rfl
    have happlied : ((e.withOffset n).applyPairLocally ..).1 = Entry.withOffset _ n :=
      (Blind.applyPairLocally r.xInc r.xCh r.challengerCostUsd r.traceId).withOffset e n
    simp only [Entry.applyLogRecord, applyLogPair_eq, happlied, hseen]
    split
    · rfl
    · exact tallyRemote_withOffset ..

/-- The entry that has read `records`, with its cursor. -/
def readEntry (d : Deployment F) (b : Boot F) (records : List (Option (LogRecord F))) : Entry F :=
  (records.foldl (Entry.applyEntry b.replicaId) (bootEntry d b)).withOffset records.length

theorem readEntry_concat (d : Deployment F) (b : Boot F) (records : List (Option (LogRecord F)))
    (record : Option (LogRecord F)) : readEntry d b (records ++ [record]) =
      (readEntry d b records).consume b.replicaId records.length record := by
  have hmax : max records.length (records.length + 1) = records.length + 1 :=
    max_eq_right (Nat.le_succ _)
  simp only [readEntry, List.foldl_append, List.foldl_cons, List.foldl_nil, List.length_append,
    List.length_singleton, Entry.consume]
  cases record with
  | none =>
    simp only [Entry.applyEntry, Entry.withOffset, hmax]
  | some record =>
    simp only [Entry.applyEntry, applyLogRecord_withOffset]
    simp only [Entry.withOffset, hmax]

/-- What every move without a fallback preserves: the process has consumed the positions below
its cursor, once each and in order, and nothing else but its tallies. -/
structure Reads (d : Deployment F) (b : Boot F) (tallies : List (Tally F))
    (log : List (Option (LogRecord F))) (r : Replica F) : Prop where
  replicaId : r.replicaId = b.replicaId
  applied : r.applied = List.range r.entry.remoteLogOffset
  entry : r.entry = tallies.foldl (Entry.tally d.site)
    (readEntry d b (log.take r.entry.remoteLogOffset))

theorem Reads.mono {d : Deployment F} {b : Boot F} {tallies : List (Tally F)}
    {log log' : List (Option (LogRecord F))} {r : Replica F} (h : Reads d b tallies log r)
    (hlog : log <+: log') (hle : r.entry.remoteLogOffset ≤ log.length) :
    Reads d b tallies log' r := by
  obtain ⟨more, rfl⟩ := hlog
  exact ⟨h.replicaId, h.applied, by rw [List.take_append_of_le_length hle]; exact h.entry⟩

theorem Reads.consume {d : Deployment F} {b : Boot F} {tallies : List (Tally F)}
    {log : List (Option (LogRecord F))} {r : Replica F} {record : Option (LogRecord F)}
    (hget : log[(consumer d).cursor r]? = some record) (h : Reads d b tallies log r) :
    Reads d b tallies log ((consumer d).consume r ((consumer d).cursor r) record) := by
  have hget' : log[r.entry.remoteLogOffset]? = some record := hget
  have hlen : (log.take r.entry.remoteLogOffset).length = r.entry.remoteLogOffset :=
    List.length_take_of_le (List.getElem?_eq_some_iff.mp hget).1.le
  have htake : log.take (r.entry.remoteLogOffset + 1) =
      log.take r.entry.remoteLogOffset ++ [record] := by
    rw [List.take_add_one, hget']
    rfl
  refine ⟨h.replicaId, ?_, ?_⟩
  · rw [offset_consumer_consume, List.range_succ, ← h.applied]
    rfl
  · rw [offset_consumer_consume, htake, readEntry_concat, hlen, ← consume_tally, ← h.entry,
      ← h.replicaId]
    rfl

theorem Reads.tally {d : Deployment F} {b : Boot F} {tallies : List (Tally F)}
    {log : List (Option (LogRecord F))} {r : Replica F} (h : Reads d b tallies log r)
    (t : Tally F) : Reads d b (tallies ++ [t]) log ((consumer d).perform (.tally t) r) := by
  refine ⟨h.replicaId, ?_, ?_⟩
  · rw [offset_consumer_perform]
    exact h.applied
  · rw [offset_consumer_perform, List.foldl_append, ← h.entry]
    rfl

theorem run_reads (d : Deployment F) (boot : ι → Boot F) (log : List (Option (LogRecord F)))
    {actions : List (LogAction ι F)} (hactions : ∀ a ∈ actions, NoFallback a) (i : ι) :
    Reads d (boot i) (talliesBy i actions) ((consumer d).run (start d boot log) actions).log
      (((consumer d).run (start d boot log) actions).process i).state := by
  induction actions using List.reverseRecOn with
  | nil =>
    have hzero : (bootEntry d (boot i)).remoteLogOffset = 0 := offset_bootEntry d (boot i)
    refine ⟨rfl, ?_, ?_⟩
    · exact (congrArg List.range hzero).symm
    · change bootEntry d (boot i) = readEntry d (boot i) (log.take (bootEntry d (boot i)).remoteLogOffset)
      rw [hzero, List.take_zero]
      simp only [readEntry, List.foldl_nil, List.length_nil, Entry.withOffset, ← hzero]
  | append_singleton actions a ih =>
    have hbefore := ih fun a ha => hactions a (List.mem_append_left _ ha)
    have hok := (consumer d).run_ok (start_ok d boot log) actions i
    have hnow := hactions a (List.mem_append_right _ (List.mem_singleton_self a))
    have htallies : talliesBy i (actions ++ [a]) = talliesBy i actions ++ talliesBy i [a] :=
      List.filterMap_append
    have hgrown := hbefore.mono ((consumer d).step_log _ a) hok.cursor_le
    have hlog := (consumer d).step_log ((consumer d).run (start d boot log) actions) a
    rw [(consumer d).run_concat, htallies]
    rcases (consumer d).step_moved hok a with ⟨howner, hsame⟩ | ⟨howner, hmoved⟩
    · have hnone : talliesBy i [a] = [] := by
        cases a with
        | act j l =>
          have hj : j ≠ i := fun h => howner (congrArg some h)
          cases l <;> simp [talliesBy, tallyOf, hj]
        | _ => rfl
      rw [hsame, hnone, List.append_nil]
      exact hgrown
    · generalize (((consumer d).step ((consumer d).run (start d boot log) actions) a).process
        i).state = r at hmoved ⊢
      cases hmoved with
      | same hidle _ =>
        have hnone : talliesBy i [a] = [] := by
          cases a with
          | act j l => exact absurd rfl (hidle j l)
          | _ => rfl
        rw [hnone, List.append_nil]
        exact hgrown
      | read has =>
        rw [show talliesBy i [_] = [] from rfl, List.append_nil]
        exact (consumer d).advance_inductive (fun r record hget => Reads.consume hget)
          (has.trans (hlog.drop _)) hgrown
      | act =>
        cases howner
        rename_i l
        cases l with
        | tally t =>
          have hone : talliesBy i [(.act i (.tally t) : LogAction ι F)] = [t] := by
            simp [talliesBy, tallyOf]
          rw [hone]
          exact hgrown.tally t
        | pair x y usd traceId => exact hnow.elim
        | outcome arm sessionId verdict => exact hnow.elim
      | restart => exact hnow.elim

-- ---------------------------------------------------------------------------
-- Agreement
-- ---------------------------------------------------------------------------

def Evidence.acceptEntry (v : Evidence F) : Option (LogRecord F) → Evidence F
  | some record => v.accept record.item
  | none => v

theorem evidence_applyEntry (e : Entry F) (replicaId : Uuid) (record : Option (LogRecord F)) :
    (e.applyEntry replicaId record).evidence = e.evidence.acceptEntry record := by
  cases record with
  | none => rfl
  | some record => exact evidence_applyLogRecord e replicaId record

theorem evidence_tally (site : Site F) (e : Entry F) (t : Tally F) :
    (e.tally site t).evidence = e.evidence := by
  cases t with
  | serve t => exact evidence_serve site e t
  | health chError chTruncated => exact evidence_tallyHealth e .challenger chError chTruncated

theorem evidence_foldl_tally (site : Site F) (tallies : List (Tally F)) (e : Entry F) :
    (tallies.foldl (Entry.tally site) e).evidence = e.evidence :=
  foldl_frame Entry.evidence (evidence_tally site) tallies e

theorem evidence_readEntry (d : Deployment F) (b : Boot F)
    (records : List (Option (LogRecord F))) :
    (readEntry d b records).evidence =
      records.foldl Evidence.acceptEntry (bootEntry d b).evidence := by
  exact (List.foldl_hom Entry.evidence fun e record =>
    (evidence_applyEntry e b.replicaId record).symm).symm

/-- A start that replays no outcome and no row has no evidence. -/
theorem evidence_bootEntry (d : Deployment F) {b : Boot F} (hdeferred : b.deferred = [])
    (hoffline : b.offline = []) : (bootEntry d b).evidence = (Entry.new d.site.params).evidence := by
  rw [bootEntry_eq, Entry.replay, hdeferred, hoffline, List.foldl_nil, List.foldl_nil]
  exact evidence_foldl_remember d.site b.traces _

/-- Without fallbacks, after any interleaving of appends and of syncs that read from stale
snapshots, the entry of a process is the fold of the log below its cursor, which it has
consumed once and in order, and its tallies. Cursors never go back, and processes that
started with the same evidence agree at one cursor. -/
theorem replicas_fold_log (d : Deployment F) (boot : ι → Boot F)
    (log : List (Option (LogRecord F))) {actions : List (LogAction ι F)}
    (hactions : ∀ a ∈ actions, NoFallback a) :
    let sys := (consumer d).run (start d boot log) actions
    let entry := fun i => (sys.process i).state.entry
    (∀ i, (entry i).remoteLogOffset ≤ sys.log.length ∧
      (sys.process i).state.applied = List.range (entry i).remoteLogOffset ∧
      entry i = (talliesBy i actions).foldl (Entry.tally d.site)
        (((sys.log.take (entry i).remoteLogOffset).foldl (Entry.applyEntry (boot i).replicaId)
          (bootEntry d (boot i))).withOffset (entry i).remoteLogOffset)) ∧
    (∀ i (first rest : List (LogAction ι F)), actions = first ++ rest →
      (((consumer d).run (start d boot log) first).process i).state.entry.remoteLogOffset ≤
        (entry i).remoteLogOffset) ∧
    ∀ i j, (bootEntry d (boot i)).evidence = (bootEntry d (boot j)).evidence →
      (entry i).remoteLogOffset = (entry j).remoteLogOffset →
      (entry i).experiment.status = (entry j).experiment.status ∧
      (entry i).experiment.certify.eValue = (entry j).experiment.certify.eValue ∧
      (entry i).experiment.halt.eValue = (entry j).experiment.halt.eValue ∧
      (entry i).evidence = (entry j).evidence := by
  intro sys entry
  have hok := (consumer d).run_ok (start_ok d boot log) actions
  have hreads := run_reads d boot log hactions
  have hevidence : ∀ i, (entry i).evidence =
      (sys.log.take (entry i).remoteLogOffset).foldl Evidence.acceptEntry
        (bootEntry d (boot i)).evidence := by
    intro i
    rw [← evidence_readEntry, show entry i = _ from (hreads i).entry, evidence_foldl_tally,
      ← (hreads i).entry]
  refine ⟨fun i => ⟨(hok i).cursor_le, (hreads i).applied, ?_⟩, ?_, ?_⟩
  · have hentry := (hreads i).entry
    have hlen := List.length_take_of_le (hok i).cursor_le
    exact hentry.trans (congrArg (fun n => (talliesBy i actions).foldl (Entry.tally d.site)
      (Entry.withOffset _ n)) hlen)
  · rintro i first rest rfl
    have hno : ∀ b, .restart i b ∉ rest := fun b hb =>
      hactions _ (List.mem_append_right _ hb)
    have hmono := (consumer d).cursor_run_le ((consumer d).run_ok (start_ok d boot log) first) hno
    rwa [← (consumer d).run_append] at hmono
  · intro i j hboot hij
    have heq : (entry i).evidence = (entry j).evidence := by
      rw [hevidence, hevidence, hboot, hij]
    have htest : (entry i).experiment.test = (entry j).experiment.test := by
      rw [← test_evidence, ← test_evidence, heq]
    obtain ⟨hstatus, -, hcertify, hhalt⟩ := by simpa only [Experiment.test, Prod.mk.injEq] using htest
    exact ⟨hstatus, congrArg Mixture.eValue hcertify, congrArg Mixture.eValue hhalt, heq⟩

def samplePair (replicaId traceId incumbentTraceId : Uuid) (xInc xCh : ℚ) : PairRecord ℚ where
  xInc := xInc
  xCh := xCh
  incumbentCostUsd := 0.1
  challengerCostUsd := 0.02
  chError := false
  chTruncated := 0
  replicaId := replicaId
  traceId := traceId
  incumbentTraceId := incumbentTraceId

def sampleParams : Params ℚ := .ofRange 0.01 0.49 "fp" (by norm_num)

def sampleDeployment : Deployment ℚ := ⟨(·.hash), [(0, sampleParams)], ⟨"t", 0, sampleParams⟩, rfl⟩

theorem replicas_fold_log_stale :
    let boot : Bool → Boot ℚ := fun i => ⟨if i then 8 else 7, [], [], []⟩
    let actions : List (LogAction Bool ℚ) := [.append (some (.pair (samplePair 7 1 2 1 0))),
      .begin true, .begin true, .load true 0, .append (some (.pair (samplePair 8 3 4 0 1))),
      .load true 1, .apply true 1, .apply true 0, .begin false, .load false 0, .apply false 0]
    let sys := (consumer sampleDeployment).run (start sampleDeployment boot []) actions
    (sys.process true).state.entry.remoteLogOffset = 2 ∧
      (sys.process false).state.entry.remoteLogOffset = 2 ∧
      (sys.process true).state.entry.experiment.status =
        (sys.process false).state.entry.experiment.status := by
  intro boot actions sys
  obtain ⟨htrue, hfalse⟩ : (sys.process true).state.entry.remoteLogOffset = 2 ∧
      (sys.process false).state.entry.remoteLogOffset = 2 := by decide +kernel
  refine ⟨htrue, hfalse, ?_⟩
  have hactions : ∀ a ∈ actions, NoFallback a := by simp [actions, NoFallback]
  have hfresh : ∀ i, (bootEntry sampleDeployment (boot i)).evidence =
      (Entry.new sampleParams).evidence := fun i => evidence_bootEntry sampleDeployment rfl rfl
  obtain ⟨-, -, hagree⟩ := replicas_fold_log sampleDeployment boot [] hactions
  have hsame := hagree true false ((hfresh true).trans (hfresh false).symm)
    (htrue.trans hfalse.symm)
  exact hsame.1

end Firstpass.Monitor
