import Firstpass.Proxy.ExperimentLaws

/-!
# The evidence of an entry

What the test of an entry depends on, and the tallies that it does not depend on.
Whatever way a pair or an outcome reaches an entry, its evidence is accepted alike.
-/

namespace Firstpass.Monitor

open Select

variable {F : Type} [Field F] [LinearOrder F]

/-- What no step changes, a sequence of steps does not change. -/
theorem foldl_frame {σ α β : Type} (view : σ → β) {f : σ → α → σ}
    (hf : ∀ s a, view (f s a) = view s) (as : List α) (s : σ) :
    view (as.foldl f s) = view s := by
  have hfold : as.foldl (fun v _ => v) (view s) = view (as.foldl f s) :=
    List.foldl_hom view fun s a => (hf s a).symm
  rw [← hfold, List.foldl_fixed]

-- ---------------------------------------------------------------------------
-- An outcome counts once for its session
-- ---------------------------------------------------------------------------

theorem observeOutcome_snd (e : Experiment F) (arm : Arm) (x : F) :
    (e.observeOutcome arm x).2 = decide (inUnit x) := by
  by_cases hx : inUnit x
  · cases arm <;> simp [Experiment.observeOutcome, hx]
  · simp [Experiment.observeOutcome, hx]

theorem applyLogOutcome_eq (e : Entry F) (arm : Arm) (x : F) (key : UInt64) :
    e.applyLogOutcome arm x key =
      if key ∈ e.sessions ∨ maxTrackedSessions ≤ e.sessions.card ∨ ¬inUnit x then e
      else { e with
        experiment := (e.experiment.observeOutcome arm x).1
        sessions := insert key e.sessions } := by
  have hsnd := observeOutcome_snd e.experiment arm x
  by_cases hseen : key ∈ e.sessions
  · rw [Entry.applyLogOutcome, if_pos hseen, if_pos (.inl hseen)]
  · by_cases hfull : maxTrackedSessions ≤ e.sessions.card
    · rw [Entry.applyLogOutcome, if_neg hseen, if_pos hfull, if_pos (.inr (.inl hfull))]
    · simp only [Entry.applyLogOutcome, hseen, hfull, false_or, if_false]
      generalize e.experiment.observeOutcome arm x = counted at hsnd ⊢
      obtain ⟨next, ok⟩ := counted
      cases ok with
      | true => rw [if_neg (not_not.mpr (of_decide_eq_true hsnd.symm))]
      | false => rw [if_pos (of_decide_eq_false hsnd.symm)]

/-- A live outcome does what its record does, but for the flag of a full set. -/
theorem observeOutcome_fst (e : Entry F) (arm : Arm) (key : UInt64) (x : F) :
    (e.observeOutcome arm key x).1 =
      { e.applyLogOutcome arm x key with
        saturatedLogged := e.saturatedLogged ||
          decide (key ∉ e.sessions ∧ maxTrackedSessions ≤ e.sessions.card) } := by
  by_cases hseen : key ∈ e.sessions
  · simp [Entry.observeOutcome, Entry.applyLogOutcome, hseen]
  · by_cases hfull : maxTrackedSessions ≤ e.sessions.card
    · simp [Entry.observeOutcome, Entry.applyLogOutcome, hseen, hfull]
    · simp only [Entry.observeOutcome, Entry.applyLogOutcome, hseen, hfull, if_false, and_false,
        decide_false, Bool.or_false]
      generalize e.experiment.observeOutcome arm x = counted
      obtain ⟨next, ok⟩ := counted
      cases ok <;> rfl

-- ---------------------------------------------------------------------------
-- A pair counts once for its trace
-- ---------------------------------------------------------------------------

/-- A pair from the log does what the fallback does. One of another replica is tallied as well,
whether or not there was room for it. -/
theorem applyLogPair_eq (e : Entry F) (replicaId : Uuid) (r : PairRecord F) :
    e.applyLogPair replicaId r =
      let applied := (e.applyPairLocally r.xInc r.xCh r.challengerCostUsd r.traceId).1
      if e.alreadyApplied r.traceId ∨ r.replicaId = replicaId then applied
      else applied.tallyRemote r := by
  by_cases hseen : e.alreadyApplied r.traceId
  · simp only [Entry.applyLogPair, Entry.applyPairLocally, hseen, true_or, if_true]
  · by_cases hfull : maxTrackedSessions ≤ e.appliedPairIds.card
    · simp only [Entry.applyLogPair, Entry.applyPairLocally, hseen, hfull, false_or, if_true,
        if_false]
    · simp only [Entry.applyLogPair, Entry.applyPairLocally, hseen, hfull, false_or, if_false]

-- ---------------------------------------------------------------------------
-- Bookkeeping
-- ---------------------------------------------------------------------------

/-- An entry with other books: the stale receipts, the traces it remembers, and the cursor. -/
def Entry.rebook (e : Entry F) (n : Nat) (ids : Finset Uuid) (offset : Nat) : Entry F :=
  { e with ignoredStale := n, locallyCosted := ids, remoteLogOffset := offset }

/-- An operation that neither reads nor changes the books. -/
def Blind (f : Entry F → Entry F) : Prop :=
  ∀ e n ids offset, f (e.rebook n ids offset) = (f e).rebook n ids offset

namespace Blind

section books
omit [Field F] [LinearOrder F]
variable {f : Entry F → Entry F} (hf : Blind f) (e : Entry F)
include hf

theorem keeps : f e = (f e).rebook e.ignoredStale e.locallyCosted e.remoteLogOffset :=
  hf e e.ignoredStale e.locallyCosted e.remoteLogOffset

theorem stale : (f e).ignoredStale = e.ignoredStale := by
  rw [hf.keeps e]
  rfl

theorem locallyCosted : (f e).locallyCosted = e.locallyCosted := by
  rw [hf.keeps e]
  rfl

theorem offset : (f e).remoteLogOffset = e.remoteLogOffset := by
  rw [hf.keeps e]
  rfl

end books

theorem observeCost (arm : Arm) (usd : F) : Blind (·.observeCost arm usd) := fun _ _ _ _ => rfl

omit [Field F] [LinearOrder F] in
theorem tallyHealth (arm : Arm) (errored : Bool) (truncated : Nat) :
    Blind fun e : Entry F => e.tallyHealth arm errored truncated := by
  intro e n ids offset
  simp only [Entry.tallyHealth]
  split <;> rfl

theorem applyLogOutcome (arm : Arm) (x : F) (key : UInt64) :
    Blind (·.applyLogOutcome arm x key) := by
  intro e n ids offset
  simp only [applyLogOutcome_eq, Entry.rebook]
  split <;> rfl

theorem observeOutcome (arm : Arm) (key : UInt64) (x : F) :
    Blind fun e => (e.observeOutcome arm key x).1 := by
  intro e n ids offset
  simp only [observeOutcome_fst, Blind.applyLogOutcome arm x key e n ids offset]
  rfl

theorem applyPairLocally (x y usd : F) (traceId : Uuid) :
    Blind fun e => (e.applyPairLocally x y usd traceId).1 := by
  intro e n ids offset
  have hseen : (e.rebook n ids offset).alreadyApplied traceId ↔ e.alreadyApplied traceId := Iff.rfl
  have hcard : (e.rebook n ids offset).appliedPairIds.card = e.appliedPairIds.card := rfl
  simp only [Entry.applyPairLocally, hseen, hcard]
  split_ifs <;> rfl

theorem replayPair (row : ExperimentPairRow F) : Blind (·.replayPair row) := by
  intro e n ids offset
  have hseen : (e.rebook n ids offset).alreadyApplied row.traceId ↔ e.alreadyApplied row.traceId :=
    Iff.rfl
  simp only [Entry.replayPair, hseen]
  split
  · rfl
  · exact Blind.tallyHealth .challenger row.chError row.chTruncated
      (e.countPair row.xInc row.xCh row.challengerCostUsd row.traceId).1 n ids offset

end Blind

-- ---------------------------------------------------------------------------
-- Tallies commute with evidence
-- ---------------------------------------------------------------------------

/-- Changes of the costs and of the health that commute with all that reads the log or
counts an outcome. -/
structure Tallying (f : Experiment F → Experiment F) (h : Health → Health) : Prop where
  outcome : ∀ e arm x, (f e).observeOutcome arm x =
    (f (e.observeOutcome arm x).1, (e.observeOutcome arm x).2)
  pair : ∀ e x y, (f e).observePair x y = (f (e.observePair x y).1, (e.observePair x y).2)
  cost : ∀ e arm usd, (f e).observeCost arm usd = f (e.observeCost arm usd)
  health : ∀ x arm errored truncated,
    (h x).add arm errored truncated = h (x.add arm errored truncated)

theorem Health.add_comm (x : Health) (arm arm' : Arm) (errored errored' : Bool)
    (truncated truncated' : Nat) :
    (x.add arm errored truncated).add arm' errored' truncated' =
      (x.add arm' errored' truncated').add arm errored truncated := by
  cases arm <;> cases arm' <;>
    simp only [Health.add, ArmHealth.add, Nat.add_right_comm]

theorem Tallying.refl : Tallying (id : Experiment F → Experiment F) id :=
  ⟨fun _ _ _ => rfl, fun _ _ _ => rfl, fun _ _ _ => rfl, fun _ _ _ _ => rfl⟩

theorem Tallying.serve (arm : Arm) (usd : F) (errored : Bool) (truncated : Nat) :
    Tallying (fun e : Experiment F => e.observeCost arm usd)
      fun x => if errored = false ∧ truncated = 0 then x else x.add arm errored truncated where
  outcome e arm' x := observeOutcome_cost e arm arm' usd x
  pair e x y := observePair_cost e arm usd x y
  cost e arm' usd' := observeCost_comm e arm arm' usd usd'
  health x arm' errored' truncated' := by
    split
    · rfl
    · exact Health.add_comm ..

def Entry.update (f : Experiment F → Experiment F) (g : Nat → Nat) (h : Health → Health)
    (e : Entry F) : Entry F :=
  { e with
    experiment := f e.experiment
    ignoredStale := g e.ignoredStale
    health := h e.health }

theorem serve_eq (site : Site F) (t : Receipt F) :
    ∃ f g h, Tallying f h ∧ ∀ e : Entry F, e.serve site t = e.update f g h := by
  cases ht : t.experiment with
  | none =>
    refine ⟨_, id, _, .refl, fun e => ?_⟩
    simp only [Entry.serve, ht]
    rfl
  | some rec =>
    by_cases h : site.IsAt t.tenantId t.route
    · by_cases hfp : rec.fingerprint = site.fingerprint
      · refine ⟨_, id, _, .serve rec.arm t.final.totalCostUsd (t.final.servedFrom = .error)
          (truncatedAttempts t), fun e => ?_⟩
        simp only [Entry.serve, ht, h, hfp, if_true, Entry.tallyHealth, Entry.update]
        split_ifs <;> rfl
      · refine ⟨_, (· + 1), _, .refl, fun e => ?_⟩
        simp only [Entry.serve, ht, h, hfp, if_true, if_false]
        rfl
    · refine ⟨_, id, _, .refl, fun e => ?_⟩
      simp only [Entry.serve, ht, h, if_false]
      rfl

section
variable {f : Experiment F → Experiment F} {h : Health → Health} (hf : Tallying f h) (g : Nat → Nat)
include hf

theorem applyLogOutcome_update (e : Entry F) (arm : Arm) (x : F) (key : UInt64) :
    (e.update f g h).applyLogOutcome arm x key = (e.applyLogOutcome arm x key).update f g h := by
  rw [applyLogOutcome_eq, applyLogOutcome_eq]
  simp only [Entry.update, hf.outcome]
  split <;> rfl

theorem observeOutcome_update (e : Entry F) (arm : Arm) (key : UInt64) (x : F) :
    ((e.update f g h).observeOutcome arm key x).1 = (e.observeOutcome arm key x).1.update f g h := by
  rw [observeOutcome_fst, applyLogOutcome_update hf, observeOutcome_fst]
  rfl

theorem countPair_update (e : Entry F) (x y usd : F) (traceId : Uuid) :
    ((e.update f g h).countPair x y usd traceId).1 =
      (e.countPair x y usd traceId).1.update f g h := by
  simp only [Entry.countPair, Entry.update, hf.pair, hf.cost]
  generalize e.experiment.observePair x y = counted
  obtain ⟨next, ok⟩ := counted
  cases ok <;> rfl

theorem tallyHealth_update (e : Entry F) (arm : Arm) (errored : Bool) (truncated : Nat) :
    (e.update f g h).tallyHealth arm errored truncated =
      (e.tallyHealth arm errored truncated).update f g h := by
  simp only [Entry.tallyHealth, Entry.update, hf.health]
  split_ifs <;> rfl

theorem tallyRemote_update (e : Entry F) (r : PairRecord F) :
    (e.update f g h).tallyRemote r = (e.tallyRemote r).update f g h := by
  simp only [Entry.tallyRemote]
  rw [← tallyHealth_update hf]
  congr 1
  by_cases hcosted : r.incumbentTraceId ≠ Uuid.nil ∧ r.incumbentTraceId ∈ e.locallyCosted
  · simp only [Entry.update, hcosted, and_self, if_true, ne_eq, not_false_eq_true]
  · simp only [Entry.update, Entry.observeCost, hcosted, if_false, hf.cost]

theorem applyPairLocally_update (e : Entry F) (x y usd : F) (traceId : Uuid) :
    ((e.update f g h).applyPairLocally x y usd traceId).1 =
      (e.applyPairLocally x y usd traceId).1.update f g h := by
  have hseen : (e.update f g h).alreadyApplied traceId ↔ e.alreadyApplied traceId := Iff.rfl
  have hcard : (e.update f g h).appliedPairIds.card = e.appliedPairIds.card := rfl
  simp only [Entry.applyPairLocally, hseen, hcard]
  split_ifs
  · rfl
  · rfl
  · exact countPair_update hf g e x y usd traceId

theorem applyLogPair_update (e : Entry F) (replicaId : Uuid) (r : PairRecord F) :
    (e.update f g h).applyLogPair replicaId r = (e.applyLogPair replicaId r).update f g h := by
  have hseen : (e.update f g h).alreadyApplied r.traceId ↔ e.alreadyApplied r.traceId := Iff.rfl
  simp only [applyLogPair_eq, applyPairLocally_update hf, hseen]
  split
  · rfl
  · exact tallyRemote_update hf g _ r

theorem applyLogRecord_update (e : Entry F) (replicaId : Uuid) (record : LogRecord F) :
    (e.update f g h).applyLogRecord replicaId record =
      (e.applyLogRecord replicaId record).update f g h := by
  cases record with
  | outcome arm x key usd => exact applyLogOutcome_update hf g e arm x key
  | pair r => exact applyLogPair_update hf g e replicaId r

end

-- ---------------------------------------------------------------------------
-- Evidence
-- ---------------------------------------------------------------------------

/-- What of a record, of a stored row or of an outcome is evidence. -/
inductive Item (F : Type)
  | outcome (arm : Arm) (outcome : F) (key : UInt64)
  | pair (xInc xCh : F) (traceId : Uuid)

def LogRecord.item : LogRecord F → Item F
  | .outcome arm x key _ => .outcome arm x key
  | .pair r => .pair r.xInc r.xCh r.traceId

/-- What of an entry the test depends on. -/
structure Evidence (F : Type) where
  experiment : Experiment F
  sessions : Finset UInt64
  appliedPairIds : Finset Uuid

def Entry.evidence (e : Entry F) : Evidence F :=
  ⟨e.experiment.uncosted, e.sessions, e.appliedPairIds⟩

def Evidence.test (v : Evidence F) : Status × Option Nat × Mixture F × Mixture F := v.experiment.test

omit [LinearOrder F] in
theorem test_evidence (e : Entry F) : e.evidence.test = e.experiment.test := rfl

def remember (ids : Finset Uuid) (traceId : Uuid) : Finset Uuid :=
  if traceId = Uuid.nil then ids else insert traceId ids

theorem mem_remember {ids : Finset Uuid} {traceId : Uuid} (hid : traceId ≠ Uuid.nil) :
    traceId ∈ remember ids traceId := by
  rw [remember, if_neg hid]
  exact Finset.mem_insert_self traceId ids

theorem subset_remember (ids : Finset Uuid) (traceId : Uuid) : ids ⊆ remember ids traceId := by
  rw [remember]
  split
  · exact Finset.Subset.refl ids
  · exact Finset.subset_insert traceId ids

def Evidence.accept (v : Evidence F) : Item F → Evidence F
  | .outcome arm outcome key =>
    if key ∈ v.sessions ∨ maxTrackedSessions ≤ v.sessions.card then v
    else if inUnit outcome then
      { v with
        experiment := (v.experiment.observeOutcome arm outcome).1
        sessions := insert key v.sessions }
    else v
  | .pair xInc xCh traceId =>
    if (traceId ≠ Uuid.nil ∧ traceId ∈ v.appliedPairIds) ∨
        maxTrackedSessions ≤ v.appliedPairIds.card then v
    else
      { v with
        experiment := (v.experiment.observePair xInc xCh).1
        appliedPairIds := remember v.appliedPairIds traceId }

theorem evidence_applyLogOutcome (e : Entry F) (arm : Arm) (x : F) (key : UInt64) :
    (e.applyLogOutcome arm x key).evidence = e.evidence.accept (.outcome arm x key) := by
  rw [applyLogOutcome_eq]
  by_cases hold : key ∈ e.sessions ∨ maxTrackedSessions ≤ e.sessions.card
  · rw [if_pos (or_assoc.mp (.inl hold))]
    exact (if_pos hold).symm
  · simp only [← or_assoc, hold, false_or, Evidence.accept, Entry.evidence,
      observeOutcome_uncosted, if_false, ite_not]
    split <;> rfl

theorem evidence_observeOutcome (e : Entry F) (arm : Arm) (key : UInt64) (x : F) :
    (e.observeOutcome arm key x).1.evidence = e.evidence.accept (.outcome arm x key) := by
  rw [observeOutcome_fst, ← evidence_applyLogOutcome]
  rfl

theorem evidence_countPair (e : Entry F) (x y usd : F) (traceId : Uuid) :
    (e.countPair x y usd traceId).1.evidence =
      ⟨(e.experiment.uncosted.observePair x y).1, e.sessions,
        remember e.appliedPairIds traceId⟩ := by
  simp only [Entry.countPair, Entry.evidence, observePair_uncosted, remember]
  generalize e.experiment.observePair x y = counted
  obtain ⟨next, ok⟩ := counted
  cases ok <;> simp

omit [LinearOrder F] in
@[simp] theorem evidence_tallyHealth (e : Entry F) (arm : Arm) (errored : Bool) (truncated : Nat) :
    (e.tallyHealth arm errored truncated).evidence = e.evidence := by
  simp only [Entry.tallyHealth]
  split <;> rfl

@[simp] theorem evidence_tallyRemote (e : Entry F) (r : PairRecord F) :
    (e.tallyRemote r).evidence = e.evidence := by
  simp only [Entry.tallyRemote, evidence_tallyHealth]
  split
  · rfl
  · simp only [Entry.observeCost, Entry.evidence, observeCost_uncosted]

theorem evidence_applyPairLocally (e : Entry F) (x y usd : F) (traceId : Uuid) :
    (e.applyPairLocally x y usd traceId).1.evidence = e.evidence.accept (.pair x y traceId) := by
  have hseen : e.alreadyApplied traceId ↔
      traceId ≠ Uuid.nil ∧ traceId ∈ e.evidence.appliedPairIds := Iff.rfl
  simp only [Entry.applyPairLocally, Evidence.accept, hseen]
  by_cases hseen : traceId ≠ Uuid.nil ∧ traceId ∈ e.evidence.appliedPairIds
  · rw [if_pos hseen, if_pos (.inl hseen)]
  · by_cases hfull : maxTrackedSessions ≤ e.appliedPairIds.card
    · rw [if_neg hseen, if_pos hfull, if_pos (.inr hfull)]
      rfl
    · have hnew : ¬((traceId ≠ Uuid.nil ∧ traceId ∈ e.evidence.appliedPairIds) ∨
          maxTrackedSessions ≤ e.evidence.appliedPairIds.card) := not_or.mpr ⟨hseen, hfull⟩
      rw [if_neg hseen, if_neg hfull, if_neg hnew, evidence_countPair]
      rfl

theorem evidence_applyLogPair (e : Entry F) (replicaId : Uuid) (r : PairRecord F) :
    (e.applyLogPair replicaId r).evidence = e.evidence.accept (.pair r.xInc r.xCh r.traceId) := by
  rw [← evidence_applyPairLocally e r.xInc r.xCh r.challengerCostUsd, applyLogPair_eq]
  split
  · rfl
  · exact evidence_tallyRemote ..

/-- Which replica reads a record makes no difference to its evidence. -/
theorem evidence_applyLogRecord (e : Entry F) (replicaId : Uuid) (record : LogRecord F) :
    (e.applyLogRecord replicaId record).evidence = e.evidence.accept record.item := by
  cases record with
  | outcome arm x key usd => exact evidence_applyLogOutcome e arm x key
  | pair r => exact evidence_applyLogPair e replicaId r

@[simp] theorem evidence_serve (site : Site F) (e : Entry F) (t : Receipt F) :
    (e.serve site t).evidence = e.evidence := by
  cases ht : t.experiment with
  | none => simp only [Entry.serve, ht]
  | some rec =>
    simp only [Entry.serve, ht]
    split_ifs
    · rw [evidence_tallyHealth, Entry.observeCost]
      simp only [Entry.evidence, observeCost_uncosted]
    · rfl
    · rfl

@[simp] theorem evidence_remember (site : Site F) (e : Entry F) (t : Receipt F) :
    (e.remember site t).evidence = e.evidence := by
  cases ht : t.experiment with
  | none => simp only [Entry.remember, ht]
  | some rec =>
    simp only [Entry.remember, Entry.rememberCosted, ht]
    split_ifs <;> rfl

theorem evidence_foldl_remember (site : Site F) (traces : List (Receipt F)) (e : Entry F) :
    (traces.foldl (fun e t => (e.serve site t).remember site t) e).evidence = e.evidence :=
  foldl_frame Entry.evidence (fun e t => by rw [evidence_remember, evidence_serve]) traces e

end Firstpass.Monitor
