import Firstpass.Proxy.ClusterSync
import Firstpass.Proxy.EvidencePool

/-!
# Stale replicas do not serve the challenger

What `ensure_synced` answers rests on a sync that has completed, and what the replica may have
missed is what its log got after that sync had read it.
-/

namespace Firstpass.ClusterSync

open Select Monitor ExperimentMonitor

variable {F : Type} [Field F] [LinearOrder F]

-- ---------------------------------------------------------------------------
-- An entry stays
-- ---------------------------------------------------------------------------

/-- No entry is lost. -/
def Grows (m m' : ExperimentMonitor F) : Prop :=
  ∀ tenant routeIx, (m.entries tenant routeIx).isSome → (m'.entries tenant routeIx).isSome

section grows
variable (m : ExperimentMonitor F) (tenant : String) (routeIx : Nat)

theorem Grows.refl : Grows m m := fun _ _ h => h

variable {m} in
theorem Grows.trans {m' m'' : ExperimentMonitor F} (h : Grows m m') (h' : Grows m' m'') :
    Grows m m'' := fun tenant routeIx hsome => h' tenant routeIx (h tenant routeIx hsome)

theorem setEntry_grows (e : Entry F) : Grows m (m.setEntry tenant routeIx e) := by
  intro t r h
  simp only [setEntry]
  split
  · rfl
  · exact h

theorem withEntry_grows (f : Entry F → Entry F) : Grows m (m.withEntry tenant routeIx f) := by
  simp only [withEntry]
  split
  · exact setEntry_grows m tenant routeIx _
  · exact .refl m

theorem observe_grows (sessionHash : String → UInt64) (fingerprint : String) (input : Input F) :
    Grows m (m.observe sessionHash tenant routeIx fingerprint input) := by
  cases input with
  | cost arm usd => exact withEntry_grows m tenant routeIx _
  | health arm errored truncated =>
    simp only [ExperimentMonitor.observe, observeHealth]
    split
    · exact .refl m
    · exact withEntry_grows m tenant routeIx _
  | outcome arm sessionId verdict =>
    simp only [ExperimentMonitor.observe, observeOutcome_eq]
    repeat' split
    all_goals first | exact .refl m | exact withEntry_grows m tenant routeIx _
  | pair x y usd traceId =>
    simp only [ExperimentMonitor.observe, applyPairLocally_eq]
    split
    · exact .refl m
    · exact withEntry_grows m tenant routeIx _

theorem advance_grows (absIx : Nat) : Grows m (m.advance tenant routeIx absIx) := by
  simp only [advance]
  split
  · exact setEntry_grows m tenant routeIx _
  · exact .refl m

theorem applyLogRecord_grows (fingerprint : String) (record : LogRecord F) :
    Grows m (m.applyLogRecord tenant routeIx fingerprint record) := by
  simp only [applyLogRecord]
  split <;> exact withEntry_grows m tenant routeIx _

theorem applyBatch_grows (fingerprint : String) (absIx : Nat)
    (records : List (Option (LogRecord F))) :
    Grows m (m.applyBatch tenant routeIx fingerprint absIx records) := by
  induction records generalizing m absIx with
  | nil => exact .refl m
  | cons record records ih =>
    rw [applyBatch.eq_def]
    refine Grows.trans ?_ (ih _ (absIx + 1))
    split
    · exact .refl m
    · cases record with
      | none => exact advance_grows m tenant routeIx absIx
      | some record =>
        exact (applyLogRecord_grows m tenant routeIx fingerprint record).trans
          (advance_grows _ tenant routeIx absIx)

theorem withEntry_makes {site : Site F} (hm : site.RunsIn m) (f : Entry F → Entry F) :
    ((m.withEntry site.tenant site.routeIx f).entries site.tenant site.routeIx).isSome := by
  rw [withEntry, entry_eq hm]
  simp [setEntry]

end grows

-- ---------------------------------------------------------------------------
-- A stamp rests on a sync
-- ---------------------------------------------------------------------------

section stamps
variable {d : Deployment F} {b : Boot F} {unavailable : Bool} {history : List (Event F)}
  {s s' : Live F} {e : Event F}

/-- By `c` a sync has completed that had read the first `read` entries of its log. -/
def Completed (d : Deployment F) (b : Boot F) (unavailable : Bool) (history : List (Event F))
    (log : String × Nat × String) (read c : Nat) : Prop :=
  ∃ before call caller offset records, before ++ [⟨c, .finish call⟩] <+: history ∧
    (run d b unavailable before).calls call =
      some ⟨caller, log.1, log.2.1, log.2.2, .loaded offset records⟩ ∧
    read = offset + records.length

theorem Completed.mono {log : String × Nat × String} {read c : Nat} {more : List (Event F)}
    (h : Completed d b unavailable history log read c) :
    Completed d b unavailable (history ++ more) log read c := by
  obtain ⟨before, call, caller, offset, records, hbefore, hrest⟩ := h
  exact ⟨before, call, caller, offset, records, hbefore.trans (List.prefix_append history more),
    hrest⟩

/-- What every step keeps. -/
structure Stands (d : Deployment F) (b : Boot F) (unavailable : Bool) (history : List (Event F))
    (s : Live F) : Prop where
  runs : d.site.RunsIn s.running.monitor
  shared : s.running.sharedLog = true
  made : ∀ call c, s.calls call = some c → c.Syncing → d.site.IsAt c.tenant c.routeIx →
    s.hasEntry d.site.tenant d.site.routeIx
  stamps : ∀ t, s.lastSyncedAt d.site.tenant d.site.routeIx = some t →
    ∃ fingerprint read,
      Completed d b unavailable history (d.site.tenant, d.site.routeIx, fingerprint) read t

theorem stands_start : Stands d b unavailable [] (start d b unavailable) where
  runs := (buildMonitorWith_at d.sessionHash d.runs b.replicaId b.traces b.deferred b.pairs true).1
  shared := rfl
  made := nofun
  stamps := nofun

theorem completed_finish {call : Nat} {caller : Caller} {tenant fingerprint : String}
    {routeIx offset : Nat} {records : List (Option (LogRecord F))} (hstep : e.step = .finish call)
    (hcall : (run d b unavailable history).calls call =
      some ⟨caller, tenant, routeIx, fingerprint, .loaded offset records⟩) :
    Completed d b unavailable (history ++ [e]) (tenant, routeIx, fingerprint)
      (offset + records.length) e.now := by
  refine ⟨history, call, caller, offset, records, ?_, hcall, rfl⟩
  rw [← hstep]

/-- The configuration stays, and so do the entries. -/
theorem Moves.keeps {sessionHash : String → UInt64} (hmoves : Moves sessionHash s e s') :
    s'.running.monitor.config = s.running.monitor.config ∧
      s'.running.sharedLog = s.running.sharedLog ∧ Grows s.running.monitor s'.running.monitor := by
  cases hmoves with
  | observe tenant routeIx fingerprint input hstep hs' =>
    subst hs'
    exact ⟨config_observe .., rfl, observe_grows _ tenant routeIx sessionHash fingerprint input⟩
  | append tenant routeIx fingerprint record hs' =>
    subst hs'
    exact ⟨rfl, rfl, .refl _⟩
  | idle hrunning =>
    rcases hrunning with hrunning | ⟨tenant, routeIx, hrunning⟩
    · rw [hrunning]
      exact ⟨rfl, rfl, .refl _⟩
    · rw [hrunning]
      exact ⟨config_withEntry .., rfl, withEntry_grows _ tenant routeIx id⟩
  | begin call caller tenant routeIx fingerprint hcall hs' =>
    subst hs'
    exact ⟨config_withEntry .., rfl, withEntry_grows _ tenant routeIx id⟩
  | load call caller tenant routeIx fingerprint offset hcall hs' =>
    subst hs'
    exact ⟨rfl, rfl, .refl _⟩
  | finish call caller tenant routeIx fingerprint offset records hstep hcall hrunning =>
    rw [hrunning]
    exact ⟨config_applyBatch .., rfl, applyBatch_grows _ tenant routeIx fingerprint offset records⟩

theorem Stands.step (h : Stands d b unavailable history s) (hs : s = run d b unavailable history)
    (hmoves : Moves d.sessionHash s e s') : Stands d b unavailable (history ++ [e]) s' := by
  obtain ⟨hconfig, hshared, hgrows⟩ := hmoves.keeps
  refine ⟨h.runs.of_config hconfig, hshared.trans h.shared, ?_, ?_⟩
  · rintro call c hc hsyncing ⟨htenant, hroute⟩
    rcases hmoves.call hc with hc | ⟨hidle, -⟩ | ⟨_, _, _, _, -, hrunning, rfl⟩ |
      ⟨_, _, _, _, _, hbegun, -, rfl⟩
    · exact hgrows _ _ (h.made call c hc hsyncing ⟨htenant, hroute⟩)
    · exact absurd hsyncing hidle
    · obtain rfl := htenant
      obtain rfl := hroute
      rw [Live.hasEntry, hrunning]
      exact withEntry_makes _ h.runs id
    · exact hgrows _ _ (h.made call _ hbegun trivial ⟨htenant, hroute⟩)
  · intro t ht
    rcases hmoves.stamp ht with ht | ⟨rfl, call, caller, fingerprint, offset, records, hstep,
      hcall, -⟩
    · obtain ⟨fingerprint, read, hcompleted⟩ := h.stamps t ht
      exact ⟨fingerprint, read, hcompleted.mono⟩
    · exact ⟨fingerprint, _, completed_finish hstep (hs ▸ hcall)⟩

theorem stands_run : Stands d b unavailable history (run d b unavailable history) := by
  induction history using List.reverseRecOn with
  | nil => exact stands_start
  | append_singleton history e ih =>
    rw [run_concat]
    exact ih.step rfl (moves d.sessionHash _ e)

/-- The entry was synced no longer ago than the bound. -/
def Live.Fresh (s : Live F) (tenant : String) (routeIx now : Nat) : Prop :=
  ∃ t, s.lastSyncedAt tenant routeIx = some t ∧ now ≤ t + syncStalenessBound

theorem look_eq_true {tenant : String} {routeIx now : Nat}
    (h : s.look tenant routeIx now = some true) : s.Fresh tenant routeIx now := by
  simp only [Live.look] at h
  split at h
  · next hfresh =>
    obtain ⟨t, ht, hle⟩ := (Option.any_eq_true _ _).mp hfresh
    exact ⟨t, ht, Nat.sub_le_iff_le_add'.mp (of_decide_eq_true hle)⟩
  · split at h <;> cases h

theorem ensure_fresh {now call : Nat} {tenant fingerprint : String} {routeIx : Nat}
    (h : Stands d b unavailable history s) (hanswer : s.ensure now call tenant routeIx fingerprint =
      (s', some ⟨d.site.tenant, d.site.routeIx, true⟩)) :
    s'.Fresh d.site.tenant d.site.routeIx now := by
  rw [Live.ensure, h.shared] at hanswer
  split at hanswer
  · cases hanswer
  · split at hanswer
    · next hshared => cases hshared
    · split at hanswer
      · next hnone =>
        cases hanswer
        rw [entry_eq h.runs] at hnone
        cases hnone
      · dsimp only at hanswer
        split at hanswer
        · next hlook =>
          cases hanswer
          exact look_eq_true hlook
        · cases hanswer

theorem enter_fresh {now call : Nat}
    (hanswer : s.enter now call = (s', some ⟨d.site.tenant, d.site.routeIx, true⟩)) :
    s'.Fresh d.site.tenant d.site.routeIx now := by
  rw [Live.enter] at hanswer
  split at hanswer
  · split at hanswer
    · cases hanswer
    · split at hanswer
      · next hlook =>
        cases hanswer
        exact look_eq_true hlook
      · cases hanswer
  · cases hanswer

/-- A sync stamps its entry with the time of its end. -/
theorem finish_fresh {now call : Nat} (h : Stands d b unavailable history s)
    (hanswer : s.finish now call = (s', some ⟨d.site.tenant, d.site.routeIx, true⟩)) :
    s'.Fresh d.site.tenant d.site.routeIx now := by
  rw [Live.finish] at hanswer
  split at hanswer
  · next caller tenant routeIx fingerprint offset records hcall =>
    cases caller with
    | request gate =>
      cases hanswer
      have hentry : s.hasEntry d.site.tenant d.site.routeIx :=
        h.made call _ hcall trivial ⟨rfl, rfl⟩
      have hgrows := applyBatch_grows s.running.monitor d.site.tenant d.site.routeIx fingerprint
        offset records
      have hstays : (s.setMonitor (s.running.monitor.applyBatch d.site.tenant d.site.routeIx
          fingerprint offset records)).hasEntry d.site.tenant d.site.routeIx := hgrows _ _ hentry
      refine ⟨now, ?_, Nat.le_add_right ..⟩
      dsimp only
      rw [lastSyncedAt_release, lastSyncedAt_stampSynced, if_pos hstays, setAt, if_pos ⟨rfl, rfl⟩]
    | background => cases hanswer
    | record => cases hanswer
  · cases hanswer

/-- A positive answer leaves an entry that is fresh. -/
theorem answer_fresh (h : Stands d b unavailable history s)
    (hanswer : (s.step d.sessionHash e).2 = some ⟨d.site.tenant, d.site.routeIx, true⟩) :
    (s.step d.sessionHash e).1.Fresh d.site.tenant d.site.routeIx e.now := by
  cases hs' : s.step d.sessionHash e with | mk s' answer
  rw [hs'] at hanswer
  obtain rfl : answer = _ := hanswer
  rw [Live.step] at hs'
  cases hstep : e.step with
  | ensure call tenant routeIx fingerprint => exact ensure_fresh h (by rwa [hstep] at hs')
  | enter call => exact enter_fresh (by rwa [hstep] at hs')
  | finish call => exact finish_fresh h (by rwa [hstep] at hs')
  | fail call =>
    rw [hstep] at hs'
    simp only [Live.fail] at hs'
    split at hs' <;> cases hs'
  | _ => simp [hstep] at hs'

end stamps

-- ---------------------------------------------------------------------------
-- What an entry has yet to read
-- ---------------------------------------------------------------------------

theorem offset_readOn (replicaId : Uuid) (records : List (Option (LogRecord F))) (e : Entry F) :
    (e.readOn replicaId records).remoteLogOffset = e.remoteLogOffset + records.length := by
  induction records generalizing e with
  | nil => rfl
  | cons record records ih =>
    have hconsume := offset_consume replicaId e e.remoteLogOffset record
    have htail := ih (e.consume replicaId e.remoteLogOffset record)
    rw [List.length_cons, Entry.readOn, List.foldl_cons]
    rw [Entry.readOn] at htail
    omega

theorem evidence_readOn (replicaId : Uuid) (records : List (Option (LogRecord F))) (e : Entry F) :
    (e.readOn replicaId records).evidence = records.foldl Evidence.acceptEntry e.evidence := by
  rw [Entry.readOn]
  refine (List.foldl_hom Entry.evidence fun e record => ?_).symm
  exact (evidence_applyEntry ..).symm

theorem status_readOn (replicaId : Uuid) (records : List (Option (LogRecord F))) (e : Entry F) :
    (e.readOn replicaId records).experiment.status =
      (records.foldl Evidence.acceptEntry e.evidence).experiment.status :=
  congrArg (·.experiment.status) (evidence_readOn replicaId records e)

/-- A halt is final. -/
theorem halted_acceptEntry {v : Evidence F} (h : v.experiment.status = .halted)
    (record : Option (LogRecord F)) : (v.acceptEntry record).experiment.status = .halted := by
  have hdecided : v.experiment.status ≠ .undecided := by simp [h]
  cases record with
  | none => exact h
  | some record =>
    rcases ConfigHistory.accept_experiment v record.item with hsame | hfed
    · exact (congrArg Experiment.status hsame).trans h
    · refine (congrArg Experiment.status hfed).trans (Eq.trans ?_ h)
      cases record with
      | outcome arm x key usd =>
        exact congrArg Prod.fst (run_decided hdecided [.outcome arm (some x)])
      | pair r => exact congrArg Prod.fst (run_decided hdecided [.pair (some r.xInc) (some r.xCh)])

theorem halted_foldl {v : Evidence F} {records more : List (Option (LogRecord F))}
    (h : (records.foldl Evidence.acceptEntry v).experiment.status = .halted)
    (hmore : records <+: more) :
    (more.foldl Evidence.acceptEntry v).experiment.status = .halted := by
  obtain ⟨rest, rfl⟩ := hmore
  rw [List.foldl_append]
  induction rest using List.reverseRecOn with
  | nil => exact h
  | append_singleton rest record ih =>
    rw [List.foldl_append]
    exact halted_acceptEntry ih record

/-- What is left of the first `n` entries is read before or after the next `k`. -/
theorem drop_take_within {α : Type} (log : List α) (n c k : Nat) :
    (log.take n).drop c <+: (log.drop c).take k ++ (log.take n).drop (c + k) := by
  rw [← List.drop_drop, List.drop_take]
  rcases le_total (n - c) k with hread | hleft
  · exact (List.take_prefix_take_left hread).trans (List.prefix_append _ _)
  · have hhead : (log.drop c).take k = ((log.drop c).take (n - c)).take k := by
      rw [List.take_take, min_eq_left hleft]
    rw [hhead, List.take_append_drop]

-- ---------------------------------------------------------------------------
-- The own log
-- ---------------------------------------------------------------------------

/-- Calls that sync the experiment's tenant and route read the experiment's own log. -/
def Step.OwnSync (d : Deployment F) (step : Step F) : Prop :=
  ∀ log ∈ step.opens, d.site.IsAt log.1 log.2.1 → log.2.2 = d.site.fingerprint

/-- Nothing is counted that has not come from the log. -/
def Step.NoEvidence (d : Deployment F) : Step F → Prop
  | .observe tenant routeIx fingerprint (.outcome ..) =>
    ¬(d.site.IsAt tenant routeIx ∧ fingerprint = d.site.fingerprint)
  | .observe tenant routeIx fingerprint (.pair ..) =>
    ¬(d.site.IsAt tenant routeIx ∧ fingerprint = d.site.fingerprint)
  | _ => True

section own
variable {d : Deployment F}

theorem offset_observe (sessionHash : String → UInt64) (site : Site F) (e : Entry F)
    (tenant : String) (routeIx : Nat) (fingerprint : String) (input : Input F) :
    (e.observe sessionHash site tenant routeIx fingerprint input).remoteLogOffset =
      e.remoteLogOffset := by
  cases input with
  | cost arm usd =>
    simp only [Entry.observe]
    split_ifs <;> rfl
  | health arm errored truncated =>
    simp only [Entry.observe]
    split
    · exact offset_tallyHealth ..
    · rfl
  | outcome arm sessionId verdict =>
    simp only [Entry.observe]
    split
    · rfl
    · split
      · exact offset_observeOutcome ..
      · rfl
  | pair x y usd traceId =>
    simp only [Entry.observe]
    split
    · exact offset_applyPairLocally ..
    · rfl

theorem evidence_observe (sessionHash : String → UInt64) (e : Entry F) {tenant : String}
    {routeIx : Nat} {fingerprint : String} {input : Input F}
    (h : (Step.observe tenant routeIx fingerprint input).NoEvidence d) :
    (e.observe sessionHash d.site tenant routeIx fingerprint input).evidence = e.evidence := by
  cases input with
  | cost arm usd =>
    simp only [Entry.observe]
    split_ifs
    · simp only [Entry.observeCost, Entry.evidence, observeCost_uncosted]
    · rfl
    · rfl
  | health arm errored truncated =>
    simp only [Entry.observe]
    split
    · exact evidence_tallyHealth ..
    · rfl
  | outcome arm sessionId verdict =>
    simp only [Entry.observe, if_neg h]
    split <;> rfl
  | pair x y usd traceId => simp only [Entry.observe, if_neg h]

/-- A batch that begins no later than the cursor is read on from there. -/
theorem applyBatch_reads {m : ExperimentMonitor F} (hm : d.site.RunsIn m) (hmade : Made d m)
    {offset : Nat} (hle : offset ≤ (m.at d.site).remoteLogOffset)
    (records : List (Option (LogRecord F))) :
    (m.applyBatch d.site.tenant d.site.routeIx d.site.fingerprint offset records).at d.site =
      (m.at d.site).readOn m.replicaId
        (records.drop ((m.at d.site).remoteLogOffset - offset)) := by
  let r : Replica F := ⟨m.replicaId, m.at d.site, []⟩
  rw [applyBatch_at hm hmade offset records []]
  have hbatch := (consumer d).batch_eq_advance (s := r) hle records
  rw [hbatch, entry_advance]
  rfl

theorem made_of_hasEntry {s : Live F} (h : s.hasEntry d.site.tenant d.site.routeIx) :
    Made d s.running.monitor := by
  obtain ⟨e, he⟩ := Option.isSome_iff_exists.mp h
  rw [Made, ExperimentMonitor.at, he]
  rfl

end own

def Live.entry (s : Live F) (d : Deployment F) : Entry F := s.running.monitor.at d.site

def Live.log (s : Live F) (d : Deployment F) : List (Option (LogRecord F)) :=
  s.running.logs d.site.tenant d.site.routeIx d.site.fingerprint

section follows
variable {d : Deployment F} {b : Boot F} {unavailable : Bool} {history : List (Event F)}
  {s s' : Live F} {e : Event F}

/-- What every step keeps where only the own log is read. -/
structure Follows (d : Deployment F) (b : Boot F) (unavailable : Bool) (history : List (Event F))
    (s : Live F) : Prop extends Stands d b unavailable history s where
  own : ∀ call c, s.calls call = some c → d.site.IsAt c.tenant c.routeIx →
    c.fingerprint = d.site.fingerprint
  begun : ∀ call caller offset, s.calls call = some
      ⟨caller, d.site.tenant, d.site.routeIx, d.site.fingerprint, .begun offset⟩ →
    offset ≤ (s.entry d).remoteLogOffset
  loaded : ∀ call caller offset records, s.calls call = some
      ⟨caller, d.site.tenant, d.site.routeIx, d.site.fingerprint, .loaded offset records⟩ →
    offset ≤ (s.entry d).remoteLogOffset ∧ records <+: (s.log d).drop offset
  read : ∀ t, s.lastSyncedAt d.site.tenant d.site.routeIx = some t →
    ∃ read ≤ (s.entry d).remoteLogOffset, Completed d b unavailable history
      (d.site.tenant, d.site.routeIx, d.site.fingerprint) read t

/-- What a step does to the experiment: it observes something, or reads on in the log. -/
inductive Reads (d : Deployment F) (s : Live F) (e : Event F) (s' : Live F) : Prop
  | same (hentry : s'.entry d = s.entry d)
  | observe (tenant : String) (routeIx : Nat) (fingerprint : String) (input : Input F)
    (hstep : e.step = .observe tenant routeIx fingerprint input)
    (hentry : s'.entry d =
      (s.entry d).observe d.sessionHash d.site tenant routeIx fingerprint input)
  | log (records : List (Option (LogRecord F)))
    (hrecords : records <+: (s.log d).drop (s.entry d).remoteLogOffset)
    (hentry : s'.entry d = (s.entry d).readOn s.running.monitor.replicaId records)

theorem Reads.advances (h : Reads d s e s') :
    (s.entry d).remoteLogOffset ≤ (s'.entry d).remoteLogOffset := by
  cases h with
  | same hentry => rw [hentry]
  | observe tenant routeIx fingerprint input hstep hentry => rw [hentry, offset_observe]
  | log records hrecords hentry =>
    rw [hentry, offset_readOn]
    exact Nat.le_add_right ..

/-- A log is only appended to. -/
theorem log_extends (hmoves : Moves d.sessionHash s e s') : s.log d <+: s'.log d := by
  cases hmoves with
  | observe tenant routeIx fingerprint input hstep hs' => exact hs' ▸ List.prefix_refl _
  | append tenant routeIx fingerprint record hs' =>
    subst hs'
    simp only [Live.log, Live.occur, Running.occur]
    split
    · next hhere =>
      obtain ⟨rfl, rfl, rfl⟩ := hhere
      exact List.prefix_append _ _
    · exact List.prefix_refl _
  | idle hrunning =>
    rcases hrunning with hrunning | ⟨tenant, routeIx, hrunning⟩
    · rw [Live.log, Live.log, hrunning]
    · rw [Live.log, Live.log, hrunning]
      exact List.prefix_refl _
  | begin call caller tenant routeIx fingerprint hcall hs' => exact hs' ▸ List.prefix_refl _
  | load call caller tenant routeIx fingerprint offset hcall hs' => exact hs' ▸ List.prefix_refl _
  | finish call caller tenant routeIx fingerprint offset records hstep hcall hrunning =>
    rw [Live.log, Live.log, hrunning]
    exact List.prefix_refl _

theorem Follows.finished (h : Follows d b unavailable history s) {call : Nat} {caller : Caller}
    {offset : Nat} {records : List (Option (LogRecord F))}
    (hcall : s.calls call = some
      ⟨caller, d.site.tenant, d.site.routeIx, d.site.fingerprint, .loaded offset records⟩) :
    (s.running.monitor.applyBatch d.site.tenant d.site.routeIx d.site.fingerprint offset
        records).at d.site =
      (s.entry d).readOn s.running.monitor.replicaId
        (records.drop ((s.entry d).remoteLogOffset - offset)) := by
  have hmade := made_of_hasEntry (h.made call _ hcall trivial ⟨rfl, rfl⟩)
  exact applyBatch_reads h.runs hmade (h.loaded call caller offset records hcall).1 records

theorem Follows.reads (h : Follows d b unavailable history s)
    (hmoves : Moves d.sessionHash s e s') : Reads d s e s' := by
  have hwith : ∀ tenant routeIx, (s.running.monitor.withEntry tenant routeIx id).at d.site =
      s.entry d := by
    intro tenant routeIx
    rw [withEntry_at h.runs]
    exact ite_self _
  cases hmoves with
  | observe tenant routeIx fingerprint input hstep hs' =>
    refine .observe tenant routeIx fingerprint input hstep ?_
    subst hs'
    exact (observe_tracks d.sessionHash tenant routeIx fingerprint input _ h.runs).2
  | append tenant routeIx fingerprint record hs' => exact .same (by rw [hs']; rfl)
  | idle hrunning =>
    rcases hrunning with hrunning | ⟨tenant, routeIx, hrunning⟩
    · exact .same (by rw [Live.entry, hrunning]; rfl)
    · exact .same (by rw [Live.entry, hrunning]; exact hwith tenant routeIx)
  | begin call caller tenant routeIx fingerprint hcall hs' =>
    exact .same (by rw [hs']; exact hwith tenant routeIx)
  | load call caller tenant routeIx fingerprint offset hcall hs' => exact .same (by rw [hs']; rfl)
  | finish call caller tenant routeIx fingerprint offset records hstep hcall hrunning =>
    have hentry : s'.entry d = (s.running.monitor.applyBatch tenant routeIx fingerprint offset
        records).at d.site := by
      rw [Live.entry, hrunning]
      rfl
    by_cases hat : d.site.IsAt tenant routeIx
    · obtain rfl := h.own call _ hcall hat
      obtain ⟨rfl, rfl⟩ := hat
      obtain ⟨hle, hstart⟩ := h.loaded call caller offset records hcall
      have hunread := hstart.drop ((s.entry d).remoteLogOffset - offset)
      rw [List.drop_drop, Nat.add_sub_cancel' hle] at hunread
      exact .log _ hunread (hentry.trans (h.finished hcall))
    · exact .same (hentry.trans (applyBatch_elsewhere h.runs hat fingerprint offset records))

theorem follows_start : Follows d b unavailable [] (start d b unavailable) where
  toStands := stands_start
  own := nofun
  begun := nofun
  loaded := nofun
  read := nofun

theorem Follows.step (h : Follows d b unavailable history s) (hs : s = run d b unavailable history)
    (hown : e.step.OwnSync d) (hmoves : Moves d.sessionHash s e s') :
    Follows d b unavailable (history ++ [e]) s' := by
  have hcursor := (h.reads hmoves).advances
  have hlog := log_extends hmoves
  refine ⟨h.toStands.step hs hmoves, ?_, ?_, ?_, ?_⟩
  · rintro call c hc hat
    rcases hmoves.call hc with hc | ⟨-, hopens | ⟨c', hc', hlog⟩⟩ |
      ⟨_, _, _, _, hadmitted, -, rfl⟩ | ⟨_, _, _, _, _, hbegun, -, rfl⟩
    · exact h.own call c hc hat
    · exact hown c.log hopens hat
    · obtain ⟨htenant, hroute, hfingerprint⟩ : _ ∧ _ ∧ _ := by simpa [SyncCall.log] using hlog
      have hat' : d.site.IsAt c'.tenant c'.routeIx := ⟨htenant.trans hat.1, hroute.trans hat.2⟩
      exact hfingerprint ▸ h.own call c' hc' hat'
    · have hown' := h.own call _ hadmitted
      exact hown' hat
    · have hown' := h.own call _ hbegun
      exact hown' hat
  · rintro call caller offset hc
    rcases hmoves.call hc with hold | ⟨hidle, -⟩ | ⟨_, _, _, _, -, -, heq⟩ |
      ⟨_, _, _, _, _, -, -, heq⟩
    · exact (h.begun call caller offset hold).trans hcursor
    · exact absurd trivial hidle
    · cases heq
      have hruns := h.runs.of_config hmoves.keeps.1
      exact (syncOffset_at hruns).le
    · cases heq
  · rintro call caller offset records hc
    rcases hmoves.call hc with hold | ⟨hidle, -⟩ | ⟨_, _, _, _, -, -, heq⟩ |
      ⟨_, _, _, _, _, hbegun, -, heq⟩
    · obtain ⟨hle, hstart⟩ := h.loaded call caller offset records hold
      exact ⟨hle.trans hcursor, hstart.trans (hlog.drop offset)⟩
    · exact absurd trivial hidle
    · cases heq
    · cases heq
      exact ⟨(h.begun call caller offset hbegun).trans hcursor, List.prefix_refl _⟩
  · rintro t ht
    rcases hmoves.stamp ht with hold | ⟨rfl, call, caller, fingerprint, offset, records, hstep,
      hcall, hrunning⟩
    · obtain ⟨read, hle, hcompleted⟩ := h.read t hold
      exact ⟨read, hle.trans hcursor, hcompleted.mono⟩
    · obtain rfl := h.own call _ hcall ⟨rfl, rfl⟩
      refine ⟨offset + records.length, ?_, completed_finish hstep (hs ▸ hcall)⟩
      have hentry : s'.entry d = (s.entry d).readOn s.running.monitor.replicaId
          (records.drop ((s.entry d).remoteLogOffset - offset)) := by
        rw [Live.entry, hrunning]
        exact h.finished hcall
      have hle := (h.loaded call caller offset records hcall).1
      rw [hentry, offset_readOn, List.length_drop]
      omega

theorem follows_run (hown : ∀ e ∈ history, e.step.OwnSync d) :
    Follows d b unavailable history (run d b unavailable history) := by
  induction history using List.reverseRecOn with
  | nil => exact follows_start
  | append_singleton history e ih =>
    rw [run_concat]
    exact (ih fun e' he' => hown e' (List.mem_append_left [e] he')).step rfl
      (hown e List.mem_concat_self) (moves d.sessionHash _ e)

-- ---------------------------------------------------------------------------
-- A log that contains a halt
-- ---------------------------------------------------------------------------

/-- The first `n` entries of the log halt the experiment, once they are read. -/
def Live.HaltedBy (s : Live F) (d : Deployment F) (n : Nat) : Prop :=
  ((s.entry d).readOn s.running.monitor.replicaId
    (((s.log d).take n).drop (s.entry d).remoteLogOffset)).experiment.status = .halted

/-- Reading on, and appending, take no halt out of a log. -/
theorem Follows.haltedBy (h : Follows d b unavailable history s)
    (hmoves : Moves d.sessionHash s e s') (hquiet : e.step.NoEvidence d) {n : Nat}
    (hn : n ≤ (s.log d).length) (hhalted : s.HaltedBy d n) : s'.HaltedBy d n := by
  have htake : (s'.log d).take n = (s.log d).take n := by
    obtain ⟨more, hmore⟩ := log_extends hmoves
    rw [← hmore, List.take_append_of_le_length hn]
  rw [Live.HaltedBy, status_readOn] at hhalted ⊢
  rw [htake]
  cases h.reads hmoves with
  | same hentry =>
    rw [hentry]
    exact hhalted
  | observe tenant routeIx fingerprint input hstep hentry =>
    rw [hstep] at hquiet
    rw [hentry, offset_observe, evidence_observe d.sessionHash _ hquiet]
    exact hhalted
  | log records hrecords hentry =>
    have hsplit := drop_take_within (s.log d) n (s.entry d).remoteLogOffset records.length
    rw [← List.prefix_iff_eq_take.mp hrecords] at hsplit
    rw [hentry, offset_readOn, evidence_readOn, ← List.foldl_append]
    exact halted_foldl hhalted hsplit

theorem haltedBy_run {early : List (Event F)} (later : List (Event F))
    (hown : ∀ e ∈ early ++ later, e.step.OwnSync d) (hquiet : ∀ e ∈ later, e.step.NoEvidence d)
    {n : Nat} (hn : n ≤ ((run d b unavailable early).log d).length)
    (hhalted : (run d b unavailable early).HaltedBy d n) :
    n ≤ ((run d b unavailable (early ++ later)).log d).length ∧
      (run d b unavailable (early ++ later)).HaltedBy d n := by
  induction later using List.reverseRecOn with
  | nil =>
    rw [List.append_nil]
    exact ⟨hn, hhalted⟩
  | append_singleton later e ih =>
    rw [← List.append_assoc] at hown
    obtain ⟨hlength, hstill⟩ := ih (fun e' he' => hown e' (List.mem_append_left [e] he'))
      fun e' he' => hquiet e' (List.mem_append_left [e] he')
    have hfollows : Follows d b unavailable (early ++ later) _ :=
      follows_run fun e' he' => hown e' (List.mem_append_left [e] he')
    have hmoves := moves d.sessionHash (run d b unavailable (early ++ later)) e
    rw [← List.append_assoc, run_concat]
    exact ⟨hlength.trans (log_extends hmoves).length_le,
      hfollows.haltedBy hmoves (hquiet e List.mem_concat_self) hlength hstill⟩

theorem Live.HaltedBy.of_read {n : Nat} (h : s.HaltedBy d n)
    (hread : n ≤ (s.entry d).remoteLogOffset) : (s.entry d).experiment.status = .halted := by
  have hnone : ((s.log d).take n).drop (s.entry d).remoteLogOffset = [] :=
    List.drop_of_length_le ((List.length_take_le n _).trans hread)
  rw [Live.HaltedBy, hnone] at h
  exact h

theorem challengerBlocked_of_halted (h : (s.entry d).experiment.status = .halted) :
    s.challengerBlocked d.site.tenant d.site.routeIx = true := by
  rw [Live.challengerBlocked, status_at]
  simp [show (s.running.monitor.at d.site).experiment.status = .halted from h]

end follows

-- ---------------------------------------------------------------------------
-- The challenger arm
-- ---------------------------------------------------------------------------

theorem servedArm_eq_challenger {paired synced blocked : Bool} {assigned : Arm} :
    servedArm paired assigned synced blocked = .challenger ↔
      paired = false ∧ assigned = .challenger ∧ synced = true ∧ blocked = false := by
  cases paired <;> cases assigned <;> cases synced <;> cases blocked <;> decide

/-- The step answers a request of the experiment, and a session of it gets the challenger arm. -/
def Serves (d : Deployment F) (s : Live F) (e : Event F) : Prop :=
  ∃ paired assigned, ∃ answer ∈ (s.step d.sessionHash e).2,
    d.site.IsAt answer.tenant answer.routeIx ∧
    servedArm paired assigned answer.synced
      ((s.step d.sessionHash e).1.challengerBlocked d.site.tenant d.site.routeIx) = .challenger

/-- A positive answer rests on a sync that has completed within the bound. The challenger arm
serves no longer than the bound after the end of a sync that had read the log before it contained
a halt, unless another log is read or evidence is counted that has not come from the log. -/
theorem challenger_fails_closed (d : Deployment F) (b : Boot F) (unavailable : Bool)
    (history : List (Event F)) (e : Event F) :
    let s := run d b unavailable history
    ((s.step d.sessionHash e).2 = some ⟨d.site.tenant, d.site.routeIx, true⟩ →
      ∃ fingerprint read c, Completed d b unavailable (history ++ [e])
        (d.site.tenant, d.site.routeIx, fingerprint) read c ∧ e.now ≤ c + syncStalenessBound) ∧
    ∀ early later, history = early ++ later →
      (∀ e' ∈ history ++ [e], e'.step.OwnSync d) → (∀ e' ∈ later ++ [e], e'.step.NoEvidence d) →
      let n := ((run d b unavailable early).log d).length
      (run d b unavailable early).HaltedBy d n → Serves d s e →
        ∃ read < n, ∃ c, Completed d b unavailable (history ++ [e])
          (d.site.tenant, d.site.routeIx, d.site.fingerprint) read c ∧
          e.now ≤ c + syncStalenessBound := by
  intro s
  have hrun : run d b unavailable (history ++ [e]) = (s.step d.sessionHash e).1 := run_concat ..
  constructor
  · intro hanswer
    obtain ⟨t, ht, hle⟩ := answer_fresh stands_run hanswer
    rw [← hrun] at ht
    obtain ⟨fingerprint, read, hcompleted⟩ := stands_run.stamps t ht
    exact ⟨fingerprint, read, t, hcompleted, hle⟩
  · rintro early later rfl hown hquiet n hhalted ⟨paired, assigned, answer, hanswer, hat, harm⟩
    obtain ⟨-, -, hsynced, hblocked⟩ := servedArm_eq_challenger.mp harm
    have htrue : answer = ⟨d.site.tenant, d.site.routeIx, true⟩ := by
      obtain ⟨tenant, routeIx, synced⟩ := answer
      obtain ⟨rfl, rfl⟩ := hat
      obtain rfl : synced = true := hsynced
      rfl
    obtain ⟨t, ht, hle⟩ := answer_fresh stands_run (htrue ▸ hanswer)
    rw [← hrun] at ht hblocked
    have hfollows : Follows d b unavailable (early ++ later ++ [e]) _ := follows_run hown
    obtain ⟨read, hread, hcompleted⟩ := hfollows.read t ht
    refine ⟨read, ?_, t, hcompleted, hle⟩
    -- A sync that has read the whole log by then leaves a halted experiment.
    by_contra hn
    rw [List.append_assoc] at hown hread hblocked
    obtain ⟨-, hstill⟩ := haltedBy_run (later ++ [e]) hown hquiet le_rfl hhalted
    have hbehind := challengerBlocked_of_halted
      (hstill.of_read ((not_lt.mp hn).trans hread))
    exact Bool.false_ne_true (hblocked.symm.trans hbehind)

def haltingPairs : List (Event ℚ) :=
  [⟨1, .append "t" 0 "fp" (some (.pair (samplePair 8 5 6 1 0)))⟩,
    ⟨2, .append "t" 0 "fp" (some (.pair (samplePair 8 7 8 1 0)))⟩]

/-- A sync that reads an empty log and is on its way while two pairs halt the experiment. -/
def slowSync : List (Event ℚ) :=
  [⟨0, .ensure 0 "t" 0 "fp"⟩, ⟨0, .enter 0⟩, ⟨0, .begin 0⟩, ⟨0, .load 0⟩] ++ haltingPairs ++
    [⟨400000000, .finish 0⟩]

def lateRequest : Event ℚ := ⟨30400000000, .ensure 1 "t" 0 "fp"⟩

def sampleBoot : Boot ℚ := ⟨7, [], [], []⟩

def sampleRun (history : List (Event ℚ)) : Live ℚ :=
  run sampleDeployment sampleBoot false history

theorem slowSync_own : ∀ e ∈ slowSync ++ [lateRequest], e.step.OwnSync sampleDeployment := by
  simp [slowSync, haltingPairs, lateRequest, Step.OwnSync, Step.opens, Site.fingerprint,
    sampleDeployment, sampleParams, Params.ofRange]

theorem slowSync_noEvidence :
    ∀ e ∈ slowSync.drop 6 ++ [lateRequest], e.step.NoEvidence sampleDeployment := by
  simp [slowSync, haltingPairs, lateRequest, Step.NoEvidence]

theorem slowSync_serves : Serves sampleDeployment (sampleRun slowSync) lateRequest :=
  ⟨false, .challenger, ⟨"t", 0, true⟩, by decide +kernel, ⟨rfl, rfl⟩, by decide +kernel⟩

theorem slowSync_halted : (sampleRun (slowSync.take 6)).HaltedBy sampleDeployment 2 := by
  rw [Live.HaltedBy]
  decide +kernel

theorem challenger_fails_closed_slow :
    (∃ fingerprint read c, Completed sampleDeployment sampleBoot false (slowSync ++ [lateRequest])
      ("t", 0, fingerprint) read c ∧ lateRequest.now ≤ c + syncStalenessBound) ∧
    ∃ read < 2, ∃ c, Completed sampleDeployment sampleBoot false (slowSync ++ [lateRequest])
      ("t", 0, "fp") read c ∧ lateRequest.now ≤ c + syncStalenessBound := by
  obtain ⟨hsynced, hserves⟩ :=
    challenger_fails_closed sampleDeployment sampleBoot false slowSync lateRequest
  have hlength : ((run sampleDeployment sampleBoot false (slowSync.take 6)).log
      sampleDeployment).length = 2 := by decide +kernel
  have hread := hserves (slowSync.take 6) (slowSync.drop 6) rfl slowSync_own slowSync_noEvidence
  rw [hlength] at hread
  exact ⟨hsynced (by decide +kernel), hread slowSync_halted slowSync_serves⟩

/-- Two pairs of its own certify the experiment before the replica reads the halt. -/
def ownPairs : List (Event ℚ) :=
  haltingPairs ++ [⟨3, .observe "t" 0 "fp" (.pair 0 1 0.02 11)⟩,
    ⟨4, .observe "t" 0 "fp" (.pair 0 1 0.02 12)⟩, ⟨30000000000, .ensure 0 "t" 0 "fp"⟩,
    ⟨30000000000, .enter 0⟩, ⟨30000000000, .begin 0⟩, ⟨30000000000, .load 0⟩,
    ⟨30000000000, .finish 0⟩]

/-- An outcome of an earlier configuration syncs that configuration's log. -/
def staleSync : List (Event ℚ) :=
  haltingPairs ++ [⟨30000000000, .spawn 0 false "t" 0 "old"⟩, ⟨30000000000, .begin 0⟩,
    ⟨30000000000, .load 0⟩, ⟨30000000000, .finish 0⟩]

/-- By `halt` the log contains a halt, and the challenger arm serves more than the bound later. -/
def PastBound (history : List (Event ℚ)) (k halt : Nat) (e : Event ℚ) : Prop :=
  let halted := sampleRun (history.take k)
  ((halted.log sampleDeployment).foldl Evidence.acceptEntry
      (Entry.new sampleDeployment.site.params).evidence).experiment.status = .halted ∧
    halted.HaltedBy sampleDeployment 2 ∧ Serves sampleDeployment (sampleRun history) e ∧
    halt + syncStalenessBound < e.now

theorem served_past_bound : PastBound slowSync 6 2 lateRequest ∧ PastBound ownPairs 2 2 lateRequest ∧
    PastBound staleSync 2 2 lateRequest := by
  have hpairs : (sampleRun haltingPairs).HaltedBy sampleDeployment 2 := by
    rw [Live.HaltedBy]
    decide +kernel
  refine ⟨⟨by decide +kernel, slowSync_halted, slowSync_serves, by decide +kernel⟩,
    ⟨by decide +kernel, hpairs, ?_, by decide +kernel⟩,
    ⟨by decide +kernel, hpairs, ?_, by decide +kernel⟩⟩
  · exact ⟨false, .challenger, ⟨"t", 0, true⟩, by decide +kernel, ⟨rfl, rfl⟩, by decide +kernel⟩
  · exact ⟨false, .challenger, ⟨"t", 0, true⟩, by decide +kernel, ⟨rfl, rfl⟩, by decide +kernel⟩

end Firstpass.ClusterSync
