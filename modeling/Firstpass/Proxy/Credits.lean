import Firstpass.Proxy.ExperimentReplay
import Firstpass.Proxy.SharedLog

/-!
# What an entry is credited with

Every call that changes the experiment of an entry, with the trace that it is for. Pairs
reach an entry from the log, from a fallback and from a stored row; whichever way, a
trace that has an id is credited with one pair and one challenger's cost at most.
-/

namespace Firstpass.Monitor

open Select

variable {F : Type}

inductive Credit (F : Type)
  | outcome (arm : Arm) (outcome : F)
  | pair (traceId : Uuid) (xInc xCh : F)
  | cost (arm : Arm) (traceId : Uuid) (costUsd : F)

def Credit.call : Credit F → Call F
  | .outcome arm x => .outcome arm (some x)
  | .pair _ xInc xCh => .pair (some xInc) (some xCh)
  | .cost arm _ costUsd => .cost arm (some costUsd)

def Credit.isPairOf (traceId : Uuid) : Credit F → Bool
  | .pair id _ _ => decide (id = traceId)
  | _ => false

def Credit.isCostOf (arm : Arm) (traceId : Uuid) : Credit F → Bool
  | .cost arm' id _ => decide (arm' = arm ∧ id = traceId)
  | _ => false

def pairsOf (traceId : Uuid) (ledger : List (Credit F)) : Nat :=
  ledger.countP (Credit.isPairOf traceId)

def costsOf (arm : Arm) (traceId : Uuid) (ledger : List (Credit F)) : Nat :=
  ledger.countP (Credit.isCostOf arm traceId)

@[simp] theorem pairsOf_append (traceId : Uuid) (first second : List (Credit F)) :
    pairsOf traceId (first ++ second) = pairsOf traceId first + pairsOf traceId second :=
  List.countP_append

@[simp] theorem costsOf_append (arm : Arm) (traceId : Uuid) (first second : List (Credit F)) :
    costsOf arm traceId (first ++ second) = costsOf arm traceId first + costsOf arm traceId second :=
  List.countP_append

variable [Field F] [LinearOrder F]

-- ---------------------------------------------------------------------------
-- The credits of each operation
-- ---------------------------------------------------------------------------

/-- A pair that `observe_pair` refuses has no credits. -/
def pairCredits (xInc xCh challengerCostUsd : F) (traceId : Uuid) : List (Credit F) :=
  if inUnit xInc ∧ inUnit xCh then
    [.pair traceId xInc xCh, .cost .challenger traceId challengerCostUsd]
  else []

def Entry.outcomeCredits (e : Entry F) (arm : Arm) (key : UInt64) (outcome : F) :
    List (Credit F) :=
  if key ∈ e.sessions ∨ maxTrackedSessions ≤ e.sessions.card ∨ ¬inUnit outcome then []
  else [.outcome arm outcome]

def Entry.localPairCredits (e : Entry F) (xInc xCh challengerCostUsd : F) (traceId : Uuid) :
    List (Credit F) :=
  if e.alreadyApplied traceId ∨ maxTrackedSessions ≤ e.appliedPairIds.card then []
  else pairCredits xInc xCh challengerCostUsd traceId

def Entry.remoteCredits (e : Entry F) (r : PairRecord F) : List (Credit F) :=
  if r.incumbentTraceId ≠ Uuid.nil ∧ r.incumbentTraceId ∈ e.locallyCosted then []
  else [.cost .incumbent r.incumbentTraceId r.incumbentCostUsd]

def Entry.logCredits (replicaId : Uuid) (e : Entry F) : Option (LogRecord F) → List (Credit F)
  | none => []
  | some (.outcome arm outcome key _) => e.outcomeCredits arm key outcome
  | some (.pair r) =>
    e.localPairCredits r.xInc r.xCh r.challengerCostUsd r.traceId ++
      if e.alreadyApplied r.traceId ∨ r.replicaId = replicaId then [] else e.remoteCredits r

def Receipt.credits (site : Site F) (t : Receipt F) : List (Credit F) :=
  match t.experiment with
  | none => []
  | some rec =>
    if site.IsAt t.tenantId t.route ∧ rec.fingerprint = site.fingerprint then
      [.cost rec.arm t.traceId t.final.totalCostUsd]
    else []

def Entry.localCredits (d : Deployment F) (e : Entry F) : Local F → List (Credit F)
  | .tally (.serve t) => t.credits d.site
  | .tally (.health _ _) => []
  | .pair xInc xCh challengerCostUsd traceId =>
    e.localPairCredits xInc xCh challengerCostUsd traceId
  | .outcome arm sessionId verdict =>
    match (ExperimentMonitor.outcomeOf verdict : Option F) with
    | none => []
    | some outcome => e.outcomeCredits arm (d.sessionHash sessionId) outcome

def Entry.voteCredits (sessionHash : String → UInt64) (site : Site F) (traces : List (Receipt F))
    (e : Entry F) (o : Uuid × Verdict) : List (Credit F) :=
  match (ExperimentMonitor.byId traces o.1).bind fun t => t.vote sessionHash site o.2 with
  | none => []
  | some v => e.outcomeCredits v.2.1 v.1 v.2.2

def Entry.rowCredits (site : Site F) (e : Entry F) (row : ExperimentPairRow F) :
    List (Credit F) :=
  if site.IsAt row.tenant row.routeIx ∧ row.fingerprint = site.fingerprint ∧
      ¬e.alreadyApplied row.traceId then
    pairCredits row.xInc row.xCh row.challengerCostUsd row.traceId
  else []

/-- An entry, and what it was credited with since it was new. -/
structure Account (F : Type) where
  entry : Entry F
  ledger : List (Credit F)

def Account.credit (a : Account F) (credits : List (Credit F)) (e : Entry F) : Account F :=
  ⟨e, a.ledger ++ credits⟩

def Account.feed {α : Type} (credits : Entry F → α → List (Credit F)) (f : Entry F → α → Entry F)
    (a : Account F) (xs : List α) : Account F :=
  xs.foldl (fun a x => a.credit (credits a.entry x) (f a.entry x)) a

def bootAccount (d : Deployment F) (b : Boot F) : Account F :=
  let a := Account.mk (.new d.site.params) []
  let a := a.feed (fun _ t => t.credits d.site)
    (fun e t => (e.serve d.site t).remember d.site t) b.traces
  let a := a.feed (Entry.voteCredits d.sessionHash d.site b.traces)
    (Entry.replayOutcome d.sessionHash d.site b.traces) b.deferred
  a.feed (Entry.rowCredits d.site) (Entry.replayRow d.site) b.offline

omit [Field F] [LinearOrder F] in
theorem entry_feed {α : Type} (credits : Entry F → α → List (Credit F))
    (f : Entry F → α → Entry F) (a : Account F) (xs : List α) :
    (a.feed credits f xs).entry = xs.foldl f a.entry :=
  (List.foldl_hom Account.entry fun _ _ => rfl).symm

theorem entry_bootAccount (d : Deployment F) (b : Boot F) :
    (bootAccount d b).entry = bootEntry d b := by
  rw [bootEntry_eq, bootAccount, entry_feed, entry_feed, entry_feed, Entry.replay]

-- ---------------------------------------------------------------------------
-- The credits tell how the experiment changes
-- ---------------------------------------------------------------------------

omit [Field F] [LinearOrder F] in
theorem experiment_tallyHealth (e : Entry F) (arm : Arm) (errored : Bool) (truncated : Nat) :
    (e.tallyHealth arm errored truncated).experiment = e.experiment := by
  simp only [Entry.tallyHealth]
  split <;> rfl

theorem experiment_applyLogOutcome (e : Entry F) (arm : Arm) (x : F) (key : UInt64) :
    (e.applyLogOutcome arm x key).experiment =
      e.experiment.run ((e.outcomeCredits arm key x).map Credit.call) := by
  rw [applyLogOutcome_eq, Entry.outcomeCredits]
  split <;> rfl

theorem experiment_observeOutcome (e : Entry F) (arm : Arm) (key : UInt64) (x : F) :
    (e.observeOutcome arm key x).1.experiment =
      e.experiment.run ((e.outcomeCredits arm key x).map Credit.call) := by
  rw [observeOutcome_fst]
  exact experiment_applyLogOutcome e arm x key

theorem experiment_countPair (e : Entry F) (x y usd : F) (traceId : Uuid) :
    (e.countPair x y usd traceId).1.experiment =
      e.experiment.run ((pairCredits x y usd traceId).map Credit.call) := by
  by_cases hxy : inUnit x ∧ inUnit y
  · simp only [Entry.countPair, pairCredits, Experiment.observePair, hxy, and_self, if_true,
      List.map_cons, List.map_nil, Credit.call, run_cons, Experiment.call]
    rfl
  · simp only [Entry.countPair, pairCredits, Experiment.observePair, hxy, if_false]
    rfl

theorem experiment_applyPairLocally (e : Entry F) (x y usd : F) (traceId : Uuid) :
    (e.applyPairLocally x y usd traceId).1.experiment =
      e.experiment.run ((e.localPairCredits x y usd traceId).map Credit.call) := by
  simp only [Entry.applyPairLocally, Entry.localPairCredits]
  by_cases hseen : e.alreadyApplied traceId
  · simp only [hseen, true_or, if_true]
    rfl
  · by_cases hfull : maxTrackedSessions ≤ e.appliedPairIds.card
    · simp only [hseen, hfull, or_true, if_true, if_false]
      rfl
    · simp only [hseen, hfull, or_self, if_false]
      exact experiment_countPair e x y usd traceId

theorem experiment_tallyRemote (e : Entry F) (r : PairRecord F) :
    (e.tallyRemote r).experiment = e.experiment.run ((e.remoteCredits r).map Credit.call) := by
  simp only [Entry.tallyRemote, Entry.remoteCredits, experiment_tallyHealth]
  split <;> rfl

theorem locallyCosted_applyPairLocally (e : Entry F) (x y usd : F) (traceId : Uuid) :
    (e.applyPairLocally x y usd traceId).1.locallyCosted = e.locallyCosted :=
  (Blind.applyPairLocally x y usd traceId).locallyCosted e

theorem experiment_applyLogPair (e : Entry F) (replicaId : Uuid) (r : PairRecord F) :
    (e.applyLogPair replicaId r).experiment =
      e.experiment.run ((e.logCredits replicaId (some (.pair r))).map Credit.call) := by
  rw [applyLogPair_eq, Entry.logCredits, List.map_append, run_append,
    ← experiment_applyPairLocally]
  split
  · rfl
  · rw [experiment_tallyRemote, Entry.remoteCredits, locallyCosted_applyPairLocally,
      ← Entry.remoteCredits]

-- ---------------------------------------------------------------------------
-- One pair for each trace
-- ---------------------------------------------------------------------------

/-- The credits tell how the experiment changes; a pair among them is of a trace that is not
in the set of ids and is put into it, and has its challenger's cost beside it. -/
structure Honest (e : Entry F) (credits : List (Credit F)) (e' : Entry F) : Prop where
  experiment : e'.experiment = e.experiment.run (credits.map Credit.call)
  keeps : e.appliedPairIds ⊆ e'.appliedPairIds
  pairs : ∀ traceId, traceId ≠ Uuid.nil → pairsOf traceId credits ≤ 1 ∧
    (0 < pairsOf traceId credits → traceId ∉ e.appliedPairIds ∧ traceId ∈ e'.appliedPairIds)
  challenger : ∀ traceId, costsOf .challenger traceId credits = pairsOf traceId credits

/-- What the ledger of an account says of its entry. -/
structure Account.Sound (site : Site F) (a : Account F) : Prop where
  experiment : a.entry.experiment = site.params.fresh.run (a.ledger.map Credit.call)
  pairs : ∀ traceId, traceId ≠ Uuid.nil → pairsOf traceId a.ledger ≤ 1 ∧
    (0 < pairsOf traceId a.ledger → traceId ∈ a.entry.appliedPairIds)
  challenger : ∀ traceId, costsOf .challenger traceId a.ledger = pairsOf traceId a.ledger

theorem Account.Sound.credit {site : Site F} {a : Account F} (h : a.Sound site)
    {credits : List (Credit F)} {e : Entry F} (honest : Honest a.entry credits e) :
    (a.credit credits e).Sound site where
  experiment := by
    rw [Account.credit, List.map_append, run_append, ← h.experiment]
    exact honest.experiment
  pairs traceId hid := by
    obtain ⟨hle, hmem⟩ := h.pairs traceId hid
    obtain ⟨hle', hnew⟩ := honest.pairs traceId hid
    rw [Account.credit, pairsOf_append]
    refine ⟨?_, fun hpos => ?_⟩
    · by_cases hzero : pairsOf traceId a.ledger = 0
      · omega
      · have hnone : ¬0 < pairsOf traceId credits := fun hpos =>
          (hnew hpos).1 (hmem (Nat.pos_of_ne_zero hzero))
        omega
    · by_cases hzero : pairsOf traceId a.ledger = 0
      · exact (hnew (by omega)).2
      · exact honest.keeps (hmem (Nat.pos_of_ne_zero hzero))
  challenger traceId := by
    rw [Account.credit, costsOf_append, pairsOf_append, h.challenger, honest.challenger]

theorem Account.Sound.feed {α : Type} {site : Site F} {credits : Entry F → α → List (Credit F)}
    {f : Entry F → α → Entry F} {xs : List α}
    (honest : ∀ x ∈ xs, ∀ e, Honest e (credits e x) (f e x)) {a : Account F} (h : a.Sound site) :
    (a.feed credits f xs).Sound site := by
  induction xs generalizing a with
  | nil => exact h
  | cons x xs ih =>
    exact ih (fun x' hx' => honest x' (List.mem_cons_of_mem x hx'))
      (h.credit (honest x List.mem_cons_self a.entry))

/-- Credits without a pair. -/
theorem Honest.quiet {e e' : Entry F} {credits : List (Credit F)}
    (hexperiment : e'.experiment = e.experiment.run (credits.map Credit.call))
    (hids : e'.appliedPairIds = e.appliedPairIds)
    (hpairs : ∀ traceId, pairsOf traceId credits = 0)
    (hcosts : ∀ traceId, costsOf .challenger traceId credits = 0) : Honest e credits e' where
  experiment := hexperiment
  keeps := hids.ge
  pairs traceId _ := by
    rw [hpairs]
    exact ⟨Nat.zero_le 1, fun h => absurd h (Nat.lt_irrefl 0)⟩
  challenger traceId := by rw [hpairs, hcosts]

section pairCredits
variable (x y usd : F) (id traceId : Uuid)

theorem pairsOf_pairCredits :
    pairsOf traceId (pairCredits x y usd id) =
      if (inUnit x ∧ inUnit y) ∧ id = traceId then 1 else 0 := by
  by_cases hxy : inUnit x ∧ inUnit y <;> by_cases hid : id = traceId <;>
    simp [pairsOf, pairCredits, hxy, hid, Credit.isPairOf]

theorem costsOf_pairCredits :
    costsOf .challenger traceId (pairCredits x y usd id) =
      if (inUnit x ∧ inUnit y) ∧ id = traceId then 1 else 0 := by
  by_cases hxy : inUnit x ∧ inUnit y <;> by_cases hid : id = traceId <;>
    simp [costsOf, pairCredits, hxy, hid, Credit.isCostOf]

theorem incumbent_pairCredits : costsOf .incumbent traceId (pairCredits x y usd id) = 0 := by
  by_cases hxy : inUnit x ∧ inUnit y <;> simp [costsOf, pairCredits, hxy, Credit.isCostOf]

end pairCredits

/-- A pair of a trace that is not in the set of ids, and is put into it. -/
theorem Honest.pair {e e' : Entry F} {x y usd : F} {id : Uuid}
    (hexperiment : e'.experiment = e.experiment.run ((pairCredits x y usd id).map Credit.call))
    (hseen : ¬e.alreadyApplied id) (hids : e'.appliedPairIds = remember e.appliedPairIds id) :
    Honest e (pairCredits x y usd id) e' where
  experiment := hexperiment
  keeps := by
    rw [hids]
    exact subset_remember e.appliedPairIds id
  pairs traceId hid := by
    rw [pairsOf_pairCredits]
    split
    · next h =>
      obtain ⟨-, rfl⟩ := h
      exact ⟨le_rfl, fun _ => ⟨fun hmem => hseen ⟨hid, hmem⟩, hids ▸ mem_remember hid⟩⟩
    · exact ⟨Nat.zero_le 1, fun h => absurd h (Nat.lt_irrefl 0)⟩
  challenger traceId := by rw [costsOf_pairCredits, pairsOf_pairCredits]

theorem Honest.none {e e' : Entry F} (hexperiment : e'.experiment = e.experiment)
    (hids : e'.appliedPairIds = e.appliedPairIds) : Honest e [] e' :=
  .quiet hexperiment hids (fun _ => rfl) fun _ => rfl

section outcomeCredits
variable (e : Entry F) (arm : Arm) (key : UInt64) (x : F) (traceId : Uuid)

theorem pairsOf_outcomeCredits : pairsOf traceId (e.outcomeCredits arm key x) = 0 := by
  rw [Entry.outcomeCredits]
  split <;> rfl

theorem costsOf_outcomeCredits (arm' : Arm) :
    costsOf arm' traceId (e.outcomeCredits arm key x) = 0 := by
  rw [Entry.outcomeCredits]
  split <;> rfl

theorem appliedPairIds_applyLogOutcome :
    (e.applyLogOutcome arm x key).appliedPairIds = e.appliedPairIds := by
  rw [applyLogOutcome_eq]
  split <;> rfl

theorem appliedPairIds_observeOutcome :
    (e.observeOutcome arm key x).1.appliedPairIds = e.appliedPairIds := by
  rw [observeOutcome_fst]
  exact appliedPairIds_applyLogOutcome e arm key x

theorem honest_observeOutcome :
    Honest e (e.outcomeCredits arm key x) (e.observeOutcome arm key x).1 :=
  .quiet (experiment_observeOutcome e arm key x) (appliedPairIds_observeOutcome e arm key x)
    (pairsOf_outcomeCredits e arm key x) (costsOf_outcomeCredits e arm key x · .challenger)

theorem honest_applyLogOutcome :
    Honest e (e.outcomeCredits arm key x) (e.applyLogOutcome arm x key) :=
  .quiet (experiment_applyLogOutcome e arm x key) (appliedPairIds_applyLogOutcome e arm key x)
    (pairsOf_outcomeCredits e arm key x) (costsOf_outcomeCredits e arm key x · .challenger)

end outcomeCredits

theorem honest_applyPairLocally (e : Entry F) (x y usd : F) (id : Uuid) :
    Honest e (e.localPairCredits x y usd id) (e.applyPairLocally x y usd id).1 := by
  simp only [Entry.localPairCredits, Entry.applyPairLocally]
  by_cases hseen : e.alreadyApplied id
  · simp only [hseen, true_or, if_true]
    exact .none rfl rfl
  · by_cases hfull : maxTrackedSessions ≤ e.appliedPairIds.card
    · simp only [hseen, hfull, or_true, if_true, if_false]
      exact .none rfl rfl
    · simp only [hseen, hfull, or_self, if_false]
      exact .pair (experiment_countPair e x y usd id) hseen rfl

theorem honest_replayPair (e : Entry F) (row : ExperimentPairRow F) :
    Honest e (if e.alreadyApplied row.traceId then [] else
      pairCredits row.xInc row.xCh row.challengerCostUsd row.traceId) (e.replayPair row) := by
  rw [Entry.replayPair]
  by_cases hseen : e.alreadyApplied row.traceId
  · rw [if_pos hseen, if_pos hseen]
    exact .none rfl rfl
  · rw [if_neg hseen, if_neg hseen]
    refine .pair ?_ hseen ?_
    · rw [experiment_tallyHealth, experiment_countPair]
    · exact congrArg Evidence.appliedPairIds (evidence_tallyHealth ..)

omit [Field F] [LinearOrder F] in
theorem pairsOf_remoteCredits (e : Entry F) (r : PairRecord F) (traceId : Uuid) :
    pairsOf traceId (e.remoteCredits r) = 0 := by
  rw [Entry.remoteCredits]
  split <;> rfl

omit [Field F] [LinearOrder F] in
theorem challenger_remoteCredits (e : Entry F) (r : PairRecord F) (traceId : Uuid) :
    costsOf .challenger traceId (e.remoteCredits r) = 0 := by
  rw [Entry.remoteCredits]
  split <;> simp [costsOf, Credit.isCostOf]

theorem honest_applyLogPair (e : Entry F) (replicaId : Uuid) (r : PairRecord F) :
    Honest e (e.logCredits replicaId (some (.pair r))) (e.applyLogPair replicaId r) := by
  have hlocal := honest_applyPairLocally e r.xInc r.xCh r.challengerCostUsd r.traceId
  have hids : (e.applyLogPair replicaId r).appliedPairIds =
      (e.applyPairLocally r.xInc r.xCh r.challengerCostUsd r.traceId).1.appliedPairIds :=
    congrArg Evidence.appliedPairIds
      ((evidence_applyLogPair e replicaId r).trans (evidence_applyPairLocally ..).symm)
  have hquiet : ∀ traceId, pairsOf traceId (e.logCredits replicaId (some (.pair r))) =
      pairsOf traceId (e.localPairCredits r.xInc r.xCh r.challengerCostUsd r.traceId) := by
    intro traceId
    rw [Entry.logCredits, pairsOf_append]
    split
    · rfl
    · rw [pairsOf_remoteCredits]
      rfl
  refine ⟨experiment_applyLogPair e replicaId r, ?_, fun traceId hid => ?_, fun traceId => ?_⟩
  · rw [hids]
    exact hlocal.keeps
  · rw [hquiet, hids]
    exact hlocal.pairs traceId hid
  · rw [hquiet, ← hlocal.challenger, Entry.logCredits, costsOf_append]
    split
    · rfl
    · rw [challenger_remoteCredits]
      rfl

theorem honest_consume (e : Entry F) (replicaId : Uuid) (n : Nat) (record : Option (LogRecord F)) :
    Honest e (e.logCredits replicaId record) (e.consume replicaId n record) := by
  have hentry : Honest e (e.logCredits replicaId record) (e.applyEntry replicaId record) := by
    cases record with
    | none => exact .none rfl rfl
    | some record =>
      cases record with
      | outcome arm x key usd => exact honest_applyLogOutcome e arm key x
      | pair r => exact honest_applyLogPair e replicaId r
  exact ⟨hentry.experiment, hentry.keeps, hentry.pairs, hentry.challenger⟩

/-- In paired mode every request of the site is served by the incumbent. -/
def Receipt.paired (site : Site F) (t : Receipt F) : Bool :=
  match t.experiment with
  | none => true
  | some rec => decide (site.IsAt t.tenantId t.route → rec.arm = .incumbent)

theorem pairsOf_credits (site : Site F) (t : Receipt F) (traceId : Uuid) :
    pairsOf traceId (t.credits site) = 0 := by
  rw [Receipt.credits]
  repeat' split
  all_goals rfl

theorem challenger_credits {site : Site F} {t : Receipt F} (ht : t.paired site = true)
    (traceId : Uuid) : costsOf .challenger traceId (t.credits site) = 0 := by
  rw [Receipt.credits]
  rw [Receipt.paired] at ht
  cases hexp : t.experiment with
  | none => rfl
  | some rec =>
    rw [hexp] at ht
    by_cases h : site.IsAt t.tenantId t.route ∧ rec.fingerprint = site.fingerprint
    · simp [h, of_decide_eq_true ht h.1, costsOf, Credit.isCostOf]
    · simp only [h, if_false]
      rfl

theorem honest_serve {site : Site F} {t : Receipt F} (ht : t.paired site = true) (e : Entry F) :
    Honest e (t.credits site) (e.serve site t) := by
  have hids : (e.serve site t).appliedPairIds = e.appliedPairIds :=
    congrArg Evidence.appliedPairIds (evidence_serve site e t)
  refine .quiet ?_ hids (pairsOf_credits site t) (challenger_credits ht)
  rw [serve_experiment]
  congr 1
  simp only [Receipt.costCall, Receipt.credits]
  cases t.experiment with
  | none => rfl
  | some rec =>
    by_cases h : site.IsAt t.tenantId t.route ∧ rec.fingerprint = site.fingerprint
    · simp only [Option.bind_some, h, and_self, if_true]
      rfl
    · simp only [Option.bind_some, h, if_false]
      rfl

theorem honest_serve_remember {site : Site F} {t : Receipt F} (ht : t.paired site = true)
    (e : Entry F) : Honest e (t.credits site) ((e.serve site t).remember site t) := by
  obtain ⟨ids, hids⟩ := remember_eq site (e.serve site t) t
  rw [hids]
  have hserve := honest_serve ht e
  exact ⟨hserve.experiment, hserve.keeps, hserve.pairs, hserve.challenger⟩

theorem honest_replayOutcome (sessionHash : String → UInt64) (site : Site F)
    (traces : List (Receipt F)) (e : Entry F) (o : Uuid × Verdict) :
    Honest e (e.voteCredits sessionHash site traces o)
      (e.replayOutcome sessionHash site traces o) := by
  simp only [Entry.voteCredits, Entry.replayOutcome]
  cases ExperimentMonitor.byId traces o.1 with
  | none => exact .none rfl rfl
  | some t =>
    simp only [Option.bind_some, feedback_eq]
    cases t.vote sessionHash site o.2 with
    | none => exact .none rfl rfl
    | some v => exact honest_observeOutcome e v.2.1 v.1 v.2.2

theorem honest_replayRow (site : Site F) (e : Entry F) (row : ExperimentPairRow F) :
    Honest e (e.rowCredits site row) (e.replayRow site row) := by
  simp only [Entry.rowCredits, Entry.replayRow]
  by_cases hat : site.IsAt row.tenant row.routeIx
  · by_cases hfp : row.fingerprint = site.fingerprint
    · simp only [hat, hfp, true_and, if_true, ite_not]
      exact honest_replayPair e row
    · simp only [hat, hfp, false_and, and_false, if_true, if_false]
      exact .none rfl rfl
  · simp only [hat, false_and, if_false]
    exact .none rfl rfl

theorem honest_applyLocal (d : Deployment F) (e : Entry F) {l : Local F}
    (hl : ∀ t, l = .tally (.serve t) → t.paired d.site = true) :
    Honest e (e.localCredits d l) (e.applyLocal d l) := by
  cases l with
  | tally t =>
    cases t with
    | serve t => exact honest_serve (hl t rfl) e
    | health chError chTruncated =>
      exact .none (experiment_tallyHealth ..)
        (congrArg Evidence.appliedPairIds (evidence_tallyHealth ..))
  | pair x y usd id => exact honest_applyPairLocally e x y usd id
  | outcome arm sessionId verdict =>
    simp only [Entry.localCredits, Entry.applyLocal]
    cases (ExperimentMonitor.outcomeOf verdict : Option F) with
    | none => exact .none rfl rfl
    | some outcome => exact honest_observeOutcome e arm (d.sessionHash sessionId) outcome

theorem sound_bootAccount (d : Deployment F) {b : Boot F}
    (hpaired : ∀ t ∈ b.traces, t.paired d.site = true) : (bootAccount d b).Sound d.site := by
  have hnew : (Account.mk (.new d.site.params) []).Sound d.site :=
    ⟨rfl, fun _ _ => ⟨Nat.zero_le 1, fun h => absurd h (Nat.lt_irrefl 0)⟩, fun _ => rfl⟩
  rw [bootAccount]
  refine .feed (fun row _ e => honest_replayRow d.site e row) ?_
  refine .feed (fun o _ e => honest_replayOutcome d.sessionHash d.site b.traces e o) ?_
  exact hnew.feed fun t ht e => honest_serve_remember (hpaired t ht) e

end Firstpass.Monitor
