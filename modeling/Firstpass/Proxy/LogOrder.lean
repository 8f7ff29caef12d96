import Firstpass.Proxy.ExperimentReplay
import Firstpass.Proxy.SharedLog

/-!
# Evidence ahead of the log

An entry may count evidence before the log brings it: a pair whose read-back failed, an
outcome whose append failed, and the outcomes and rows that startup replays. Its record
is later skipped, so the entry agrees with the log only if the evidence came in the
order of the log. Nothing in the monitor sees to that.
-/

namespace Firstpass.Monitor

open Select CursorLog

variable {F : Type} [Field F] [LinearOrder F]

-- ---------------------------------------------------------------------------
-- What evidence holds of the log
-- ---------------------------------------------------------------------------

/-- Admitting the item again changes nothing, now or later. -/
def Evidence.Settled (v : Evidence F) : Item F → Prop
  | .outcome _ outcome key =>
    key ∈ v.sessions ∨ maxTrackedSessions ≤ v.sessions.card ∨ ¬inUnit outcome
  | .pair xInc xCh traceId =>
    (traceId ≠ Uuid.nil ∧ traceId ∈ v.appliedPairIds) ∨
      maxTrackedSessions ≤ v.appliedPairIds.card ∨
      (traceId = Uuid.nil ∧ ¬(inUnit xInc ∧ inUnit xCh))

theorem sessions_accept (v : Evidence F) (item : Item F) : v.sessions ⊆ (v.accept item).sessions := by
  cases item with
  | outcome arm x key =>
    simp only [Evidence.accept]
    split_ifs
    · exact Finset.Subset.refl _
    · exact Finset.subset_insert key v.sessions
    · exact Finset.Subset.refl _
  | pair x y traceId =>
    simp only [Evidence.accept]
    split_ifs <;> exact Finset.Subset.refl _

theorem appliedPairIds_accept (v : Evidence F) (item : Item F) :
    v.appliedPairIds ⊆ (v.accept item).appliedPairIds := by
  cases item with
  | outcome arm x key =>
    simp only [Evidence.accept]
    split_ifs <;> exact Finset.Subset.refl _
  | pair x y traceId =>
    simp only [Evidence.accept]
    split_ifs
    · exact Finset.Subset.refl _
    · exact subset_remember v.appliedPairIds traceId

theorem accept_settled {v : Evidence F} {item : Item F} (h : v.Settled item) : v.accept item = v := by
  cases item with
  | outcome arm x key =>
    simp only [Evidence.accept]
    rcases h with h | h | h
    · rw [if_pos (.inl h)]
    · rw [if_pos (.inr h)]
    · simp only [h, if_false, ite_self]
  | pair x y traceId =>
    simp only [Evidence.accept]
    rcases h with h | h | ⟨hnil, h⟩
    · rw [if_pos (.inl h)]
    · rw [if_pos (.inr h)]
    · simp only [Experiment.observePair, h, if_false, remember, hnil, if_true, ite_self]

theorem settled_accept {v : Evidence F} {item : Item F} (h : v.Settled item) (item' : Item F) :
    (v.accept item').Settled item := by
  have hsessions := sessions_accept v item'
  have hids := appliedPairIds_accept v item'
  cases item with
  | outcome arm x key =>
    rcases h with h | h | h
    · exact .inl (hsessions h)
    · exact .inr (.inl (h.trans (Finset.card_le_card hsessions)))
    · exact .inr (.inr h)
  | pair x y traceId =>
    rcases h with ⟨hid, h⟩ | h | h
    · exact .inl ⟨hid, hids h⟩
    · exact .inr (.inl (h.trans (Finset.card_le_card hids)))
    · exact .inr (.inr h)

/-- A pair is remembered by its trace, unless the trace has no id. -/
theorem accept_pair_settled {traceId : Uuid} (hid : traceId ≠ Uuid.nil) (v : Evidence F) (x y : F) :
    (v.accept (.pair x y traceId)).Settled (.pair x y traceId) := by
  simp only [Evidence.accept]
  split_ifs with hold
  · rcases hold with hold | hold
    · exact .inl hold
    · exact .inr (.inl hold)
  · exact .inl ⟨hid, mem_remember hid⟩

/-- The evidence of an entry, as a view of the log. -/
def evidenceView : View (Option (LogRecord F)) (Evidence F) (Item F) where
  item record := record.map LogRecord.item
  accept := Evidence.accept
  settled := Evidence.Settled
  accept_settled _ _ := accept_settled
  settled_accept _ _ item' h := settled_accept h item'

theorem evidenceView_acceptEntry :
    (evidenceView : View _ (Evidence F) _).acceptEntry = Evidence.acceptEntry := by
  funext v record
  cases record <;> rfl

-- ---------------------------------------------------------------------------
-- What startup replays
-- ---------------------------------------------------------------------------

def ExperimentPairRow.item (row : ExperimentPairRow F) : Item F :=
  .pair row.xInc row.xCh row.traceId

/-- The replayed rows of the experiment. -/
def Boot.rows (d : Deployment F) (b : Boot F) : List (ExperimentPairRow F) :=
  b.offline.filter fun row =>
    d.site.IsAt row.tenant row.routeIx ∧ row.fingerprint = d.site.fingerprint

/-- The evidence that a start replays, in its order. -/
def Boot.items (d : Deployment F) (b : Boot F) : List (Item F) :=
  (votes d.sessionHash d.site b.traces b.deferred).map (fun v => .outcome v.2.1 v.2.2 v.1) ++
    (b.rows d).map ExperimentPairRow.item

theorem evidence_foldl_countVote (vs : List (Vote F)) (e : Entry F) :
    (vs.foldl Entry.countVote e).evidence =
      (vs.map fun v => Item.outcome v.2.1 v.2.2 v.1).foldl Evidence.accept e.evidence := by
  rw [List.foldl_map]
  exact (List.foldl_hom Entry.evidence fun e v =>
    (evidence_observeOutcome e v.2.1 v.1 v.2.2).symm).symm

theorem evidence_replayPair {e : Entry F} (hroom : e.appliedPairIds.card < maxTrackedSessions)
    (row : ExperimentPairRow F) : (e.replayPair row).evidence = e.evidence.accept row.item := by
  rw [ExperimentPairRow.item, ← evidence_applyPairLocally e row.xInc row.xCh row.challengerCostUsd]
  simp only [Entry.replayPair, Entry.applyPairLocally, hroom.not_ge, if_false]
  split
  · rfl
  · exact evidence_tallyHealth ..

theorem card_accept_le (v : Evidence F) (item : Item F) :
    (v.accept item).appliedPairIds.card ≤ v.appliedPairIds.card + 1 := by
  cases item with
  | outcome arm x key =>
    simp only [Evidence.accept]
    split_ifs <;> exact Nat.le_succ _
  | pair x y traceId =>
    simp only [Evidence.accept, remember]
    split_ifs
    · exact Nat.le_succ _
    · exact Nat.le_succ _
    · exact Finset.card_insert_le traceId v.appliedPairIds

/-- Startup does not ask whether the set of ids is full, so the rows must fit into it. -/
theorem evidence_foldl_replayRow (d : Deployment F) (rows : List (ExperimentPairRow F))
    {e : Entry F}
    (hroom : e.appliedPairIds.card + (rows.filter fun row =>
      d.site.IsAt row.tenant row.routeIx ∧ row.fingerprint = d.site.fingerprint).length ≤
        maxTrackedSessions) :
    (rows.foldl (Entry.replayRow d.site) e).evidence =
      ((rows.filter fun row => d.site.IsAt row.tenant row.routeIx ∧
        row.fingerprint = d.site.fingerprint).map ExperimentPairRow.item).foldl
          Evidence.accept e.evidence := by
  induction rows generalizing e with
  | nil => rfl
  | cons row rows ih =>
    rw [List.foldl_cons, Entry.replayRow]
    by_cases hat : d.site.IsAt row.tenant row.routeIx
    · by_cases hfp : row.fingerprint = d.site.fingerprint
      · simp only [hat, hfp, and_self, decide_true, List.filter_cons_of_pos,
          List.length_cons] at hroom ⊢
        have hcount := evidence_replayPair (e := e) (by omega) row
        have hids : (e.replayPair row).appliedPairIds = _ := congrArg Evidence.appliedPairIds hcount
        have hcard : (e.replayPair row).appliedPairIds.card ≤ e.appliedPairIds.card + 1 := by
          rw [hids]
          exact card_accept_le e.evidence row.item
        rw [if_true, if_true, ih (by omega), hcount]
        rfl
      · simp only [hat, hfp, and_false, decide_false, Bool.false_eq_true, not_false_eq_true,
          List.filter_cons_of_neg, if_true, if_false] at hroom ⊢
        exact ih hroom
    · simp only [hat, false_and, decide_false, Bool.false_eq_true, not_false_eq_true,
        List.filter_cons_of_neg, if_false] at hroom ⊢
      exact ih hroom

theorem appliedPairIds_foldl_outcomes (vs : List (Vote F)) (v : Evidence F) :
    ((vs.map fun u => Item.outcome u.2.1 u.2.2 u.1).foldl Evidence.accept v).appliedPairIds =
      v.appliedPairIds := by
  rw [List.foldl_map]
  refine foldl_frame Evidence.appliedPairIds (fun v u => ?_) vs v
  rw [Evidence.accept]
  split_ifs <;> rfl

theorem evidence_bootEntry_items (d : Deployment F) {b : Boot F}
    (hroom : (b.rows d).length ≤ maxTrackedSessions) :
    (bootEntry d b).evidence = (b.items d).foldl Evidence.accept (Entry.new d.site.params).evidence := by
  have hvotes : (b.deferred.foldl (Entry.replayOutcome d.sessionHash d.site b.traces)
      (b.traces.foldl (fun e t => (e.serve d.site t).remember d.site t)
        (.new d.site.params))).evidence =
      ((votes d.sessionHash d.site b.traces b.deferred).map fun v =>
        Item.outcome v.2.1 v.2.2 v.1).foldl Evidence.accept (Entry.new d.site.params).evidence := by
    rw [foldl_feedback, evidence_foldl_countVote, evidence_foldl_remember]
  have hnone : (b.deferred.foldl (Entry.replayOutcome d.sessionHash d.site b.traces)
      (b.traces.foldl (fun e t => (e.serve d.site t).remember d.site t)
        (.new d.site.params))).appliedPairIds = ∅ :=
    (congrArg Evidence.appliedPairIds hvotes).trans (appliedPairIds_foldl_outcomes _ _)
  rw [bootEntry_eq, Entry.replay, evidence_foldl_replayRow, hvotes, Boot.items, List.foldl_append]
  · rfl
  · rw [hnone, Finset.card_empty, Nat.zero_add]
    exact hroom

-- ---------------------------------------------------------------------------
-- Runs whose evidence keeps to the order of the log
-- ---------------------------------------------------------------------------

variable {ι : Type} [DecidableEq ι]

def Local.item (d : Deployment F) : Local F → Option (Item F)
  | .tally _ => none
  | .pair xInc xCh _ traceId => some (.pair xInc xCh traceId)
  | .outcome arm sessionId verdict =>
    (ExperimentMonitor.outcomeOf verdict).map (.outcome arm · (d.sessionHash sessionId))

theorem evidence_applyLocal (d : Deployment F) (e : Entry F) (l : Local F) :
    (e.applyLocal d l).evidence = match l.item d with
      | none => e.evidence
      | some item => e.evidence.accept item := by
  cases l with
  | tally t => exact evidence_tally d.site e t
  | pair x y usd traceId => exact evidence_applyPairLocally e x y usd traceId
  | outcome arm sessionId verdict =>
    simp only [Entry.applyLocal, Local.item]
    cases (ExperimentMonitor.outcomeOf verdict : Option F) with
    | none => rfl
    | some outcome => exact evidence_observeOutcome e arm (d.sessionHash sessionId) outcome

/-- A start replays what the log will bring, in its order. -/
def Boot.Meets (d : Deployment F) (log : List (Option (LogRecord F))) (b : Boot F) : Prop :=
  (b.rows d).length ≤ maxTrackedSessions ∧
    evidenceView.InOrderAll log 0 (Entry.new d.site.params).evidence (b.items d)

/-- A fallback counts what the log will bring, once all that the log brings before is counted. -/
def Meets (d : Deployment F) (log : List (Option (LogRecord F)))
    (sys : System ι (Replica F) (Option (LogRecord F))) : LogAction ι F → Prop
  | .act i l => ∀ item ∈ l.item d,
      evidenceView.InOrder log (sys.process i).state.entry.remoteLogOffset
        (sys.process i).state.entry.evidence item
  | .restart _ b => b.Meets d log
  | _ => True

/-- The entry holds a prefix of the log, and what it has yet to read of that is settled. -/
def Replica.Holds (d : Deployment F) (log : List (Option (LogRecord F))) (r : Replica F) : Prop :=
  evidenceView.Covers log (Entry.new d.site.params).evidence r.entry.remoteLogOffset r.entry.evidence

section
variable {d : Deployment F} {log : List (Option (LogRecord F))} {r : Replica F}

theorem Replica.Holds.consume (h : r.Holds d log) {record : Option (LogRecord F)}
    (hget : log[(consumer d).cursor r]? = some record) :
    ((consumer d).consume r ((consumer d).cursor r) record).Holds d log := by
  have hevidence : (r.entry.applyEntry r.replicaId record).evidence =
      evidenceView.acceptEntry r.entry.evidence record := by
    rw [evidence_applyEntry, evidenceView_acceptEntry]
  have hcovers := View.Covers.consume evidenceView h hget
  rw [← hevidence] at hcovers
  rw [Replica.Holds, offset_consumer_consume]
  exact hcovers

theorem Replica.Holds.perform (h : r.Holds d log) {l : Local F}
    (horder : ∀ item ∈ l.item d,
      evidenceView.InOrder log r.entry.remoteLogOffset r.entry.evidence item) :
    ((consumer d).perform l r).Holds d log := by
  have hevidence : ((consumer d).perform l r).entry.evidence = _ :=
    evidence_applyLocal d r.entry l
  rw [Replica.Holds, offset_consumer_perform, hevidence]
  cases hitem : l.item d with
  | none => exact h
  | some item => exact View.Covers.early evidenceView h (horder item hitem)

omit r in
theorem Boot.Meets.holds {b : Boot F} (h : b.Meets d log) : ((consumer d).boot b).Holds d log := by
  have hevidence : ((consumer d).boot b).entry.evidence = _ := evidence_bootEntry_items d h.1
  rw [Replica.Holds, offset_consumer_boot, hevidence]
  exact View.Covers.earlyAll evidenceView (.boot evidenceView) h.2

end

/-- Replicas that have read the whole log agree in every run in which what is counted outside
the log is counted in the order of the log: they hold the fold of the log, and nothing else. -/
theorem replicas_agree (d : Deployment F) {boot : ι → Boot F}
    (log : List (Option (LogRecord F))) {actions : List (LogAction ι F)}
    (hboot : ∀ i, (boot i).Meets d ((consumer d).run (start d boot log) actions).log)
    (hmeets : (consumer d).Along (Meets d ((consumer d).run (start d boot log) actions).log)
      (start d boot log) actions) :
    let sys := (consumer d).run (start d boot log) actions
    let entry := fun i => (sys.process i).state.entry
    (∀ i, (entry i).remoteLogOffset = sys.log.length → (entry i).evidence =
      sys.log.foldl Evidence.acceptEntry (Entry.new d.site.params).evidence) ∧
    ∀ i j, (entry i).remoteLogOffset = sys.log.length →
      (entry j).remoteLogOffset = sys.log.length →
      (entry i).experiment.status = (entry j).experiment.status := by
  intro sys entry
  have hholds : ∀ i, (sys.process i).state.Holds d sys.log :=
    (consumer d).run_along (fun r record hget h => h.consume hget)
      (fun sys' i l hok h => h.perform hok) (fun sys' i b hok => Boot.Meets.holds hok)
      (start_ok d boot log) (List.prefix_refl _) hmeets fun i => (hboot i).holds
  have hheld : ∀ i, (entry i).remoteLogOffset = sys.log.length → (entry i).evidence =
      sys.log.foldl Evidence.acceptEntry (Entry.new d.site.params).evidence := by
    intro i hwhole
    have hcovers := hholds i
    have hcursor : (sys.process i).state.entry.remoteLogOffset = sys.log.length := hwhole
    rw [Replica.Holds, hcursor] at hcovers
    rw [← evidenceView_acceptEntry]
    exact View.Covers.done evidenceView hcovers
  refine ⟨hheld, fun i j hi hj => ?_⟩
  have htest : (entry i).experiment.test = (entry j).experiment.test := by
    rw [← test_evidence, ← test_evidence, hheld i hi, hheld j hj]
  exact (Prod.mk.inj htest).1

theorem replicas_agree_fallback :
    let boot : Bool → Boot ℚ := fun i => ⟨if i then 8 else 7, [], [], []⟩
    let actions : List (LogAction Bool ℚ) := [.append (some (.pair (samplePair 8 5 6 1 0))),
      .begin true, .abort true 0, .act true (.pair 1 0 0.02 5),
      .append (some (.pair (samplePair 7 1 2 0 1))), .begin true, .load true 0, .apply true 0,
      .begin false, .load false 0, .apply false 0]
    let sys := (consumer sampleDeployment).run (start sampleDeployment boot []) actions
    (sys.process true).state.entry.remoteLogOffset = 2 ∧
      (sys.process false).state.entry.remoteLogOffset = 2 ∧
      (sys.process true).state.entry.experiment.status =
        (sys.process false).state.entry.experiment.status := by
  intro boot actions sys
  have htrue : (sys.process true).state.entry.remoteLogOffset = 2 := by decide +kernel
  have hfalse : (sys.process false).state.entry.remoteLogOffset = 2 := by decide +kernel
  have hboot : ∀ i, (boot i).Meets sampleDeployment sys.log := fun i => ⟨Nat.zero_le _, trivial⟩
  have hfallback : ∀ item ∈ Local.item sampleDeployment (.pair 1 0 0.02 5),
      evidenceView.InOrder sys.log 0 (Entry.new sampleParams).evidence item := by
    rintro item ⟨⟩
    exact .inr ⟨fun v => accept_pair_settled (by decide) v 1 0, 0, rfl,
      fun k e hk hkm => absurd hkm (Nat.not_lt_zero k)⟩
  have hmeets : (consumer sampleDeployment).Along (Meets sampleDeployment sys.log)
      (start sampleDeployment boot []) actions :=
    ⟨trivial, trivial, trivial, hfallback, trivial, trivial, trivial, trivial, trivial, trivial,
      trivial, trivial⟩
  exact ⟨htrue, hfalse, (replicas_agree sampleDeployment [] hboot hmeets).2 true false htrue hfalse⟩

/-- Two pairs of the replica 8 go ahead of two pairs of the replica 7 that stand before
them in the log. Both replicas read all of it; 7 has certified the challenger and 8 has
halted it. -/
theorem replicas_disagree :
    let boot : Bool → Boot ℚ := fun i => ⟨if i then 8 else 7, [], [], []⟩
    let actions : List (LogAction Bool ℚ) := [.append (some (.pair (samplePair 7 1 2 0 1))),
      .append (some (.pair (samplePair 7 3 4 0 1))),
      .append (some (.pair (samplePair 8 5 6 1 0))), .begin true, .abort true 0,
      .act true (.pair 1 0 0.02 5),
      .append (some (.pair (samplePair 8 7 8 1 0))), .begin true, .abort true 0,
      .act true (.pair 1 0 0.02 7),
      .begin false, .load false 0, .apply false 0, .begin true, .load true 0, .apply true 0]
    let sys := (consumer sampleDeployment).run (start sampleDeployment boot []) actions
    (∀ i, (sys.process i).state.entry.remoteLogOffset = sys.log.length) ∧
      (sys.process false).state.entry.experiment.status = .certified ∧
      (sys.process true).state.entry.experiment.status = .halted := by
  decide +kernel

end Firstpass.Monitor
