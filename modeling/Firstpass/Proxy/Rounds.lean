import Firstpass.Proxy.GuardEvidence

/-!
# The rounds of the online controllers

The e-process and the adaptive threshold take one round from each call of feedback, the
offline replay one from each stored trace. Both are compared with one clear outcome for
each decision of the configured ladder.
-/

namespace Firstpass.Feedback

open Firstpass.Conformal Dispatch Guard RiskControl

-- ---------------------------------------------------------------------------
-- The offline replay
-- ---------------------------------------------------------------------------

def isIncumbentTrace (trace : Trace ℚ) : Bool := trace.experiment.all fun e => e.arm ≠ .challenger

/-- The pair of a row, where the replay of a tenant reads one. -/
def Store.pairOf (store : Store) (tenant : String) (r : Receipt) : Option (ℚ × Bool) :=
  if r.trace.tenantId = tenant ∧ isIncumbentTrace r.trace then
    tracePair r.trace (store.loadDeferred r.trace.traceId)
  else none

/-- What `calibrate_from_store_eprocess` replays. -/
def Store.pairs (store : Store) (tenant : String) : List (ℚ × Bool) :=
  store.traces.filterMap (store.pairOf tenant)

/-- `f64::round`, half away from zero. -/
def roundAway (x : ℚ) : ℤ := if 0 ≤ x then ⌊x + 1 / 2⌋ else -⌊-x + 1 / 2⌋

def offlineGrid (pairs : List (ℚ × Bool)) : List ℚ :=
  candidates (pairs.map fun p => some (roundAway (p.1 * 100) / 100))

def feed (c : EProcessRiskControl ℚ) (rounds : List (ℚ × Bool)) : EProcessRiskControl ℚ :=
  rounds.foldl (fun c p => c.observeServed p.1 p.2) c

def offlineStart (pairs : List (ℚ × Bool)) (alpha delta : ℚ) : EProcessRiskControl ℚ :=
  .new alpha delta (some defaultBet) ((offlineGrid pairs).map some)

/-- The controller that `calibrate_pairs_eprocess` reports on. -/
def offlineController (pairs : List (ℚ × Bool)) (alpha delta : ℚ) : EProcessRiskControl ℚ :=
  feed (offlineStart pairs alpha delta) pairs

-- ---------------------------------------------------------------------------
-- One clear outcome for each decision
-- ---------------------------------------------------------------------------

/-- An enforce decision of the configured ladder. -/
def Receipt.isDecision (r : Receipt) : Bool := r.ladderRoute.isSome && isIncumbentTrace r.trace

/-- The outcome a verdict adds: the first clear one on a decision, with its score. -/
def roundOf (traces : List Receipt) (earlier : List (String × DeferredVerdict ℚ))
    (d : String × DeferredVerdict ℚ) : Option (ℚ × Bool) :=
  if earlier.any fun e => e.1 = d.1 ∧ (signal e.2.verdict).isSome then none
  else
    (signal d.2.verdict).bind fun correct =>
      ((traces.find? fun r => r.trace.traceId = d.1).filter Receipt.isDecision).bind fun r =>
        (servedScore r.trace).map fun score => (score, correct)

def roundsFrom (traces : List Receipt) (earlier : List (String × DeferredVerdict ℚ)) :
    List (String × DeferredVerdict ℚ) → List (ℚ × Bool)
  | [] => []
  | d :: rest => (roundOf traces earlier d).toList ++ roundsFrom traces (earlier ++ [d]) rest

/-- The outcomes of the decisions, in the order they arrived. -/
def Store.rounds (store : Store) : List (ℚ × Bool) := roundsFrom store.traces [] store.deferred

def nudge (c : AdaptiveConformal ℚ) (rounds : List (ℚ × Bool)) : AdaptiveConformal ℚ :=
  rounds.foldl (fun c p => c.observeServed p.2) c

variable {G : Type}

/-- The controllers have taken one outcome from each decision, and so does the replay. -/
structure Agreed (s₀ : State G) (tenant : String) (s : State G) : Prop where
  eprocess : s.eprocess = s₀.eprocess.map fun c => feed c s.store.rounds
  adaptive : s.adaptive = s₀.adaptive.map fun c => nudge c s.store.rounds
  pairs : s.store.pairs tenant = s.store.rounds
  offline : ∀ alpha delta,
    s₀.eprocess = some (offlineStart (s.store.pairs tenant) alpha delta) →
      s.eprocess = some (offlineController (s.store.pairs tenant) alpha delta)

-- ---------------------------------------------------------------------------
-- The calls that count once
-- ---------------------------------------------------------------------------

/-- The first verdict on a served decision of the tenant, after the decisions with earlier
ones. -/
structure FirstOutcome (s : State G) (tenant : String) (rep : Report) (receipt : Receipt) :
    Prop where
  own : rep.tenant = tenant
  read : s.eprocess = none ∨ rep.viewRead
  decision : receipt.isDecision
  served : (servedScore receipt.trace).isSome
  first : s.store.loadDeferred receipt.trace.traceId = []
  inOrder : ∃ before after, s.store.traces = before ++ receipt :: after ∧
    ∀ r ∈ after, s.store.pairOf tenant r = none

/-- An outcome that no controller can take and no replay reads. -/
def Unserved (s : State G) (receipt : Receipt) : Prop :=
  servedScore receipt.trace = none ∧ s.adaptive = none

/-- An abstain that changes no pair. -/
def Idle (s : State G) (tenant : String) (receipt : Receipt) : Prop :=
  receipt.trace.tenantId ≠ tenant ∨ isIncumbentTrace receipt.trace = false ∨
    servedScore receipt.trace = none ∨
    ((s.store.loadDeferred receipt.trace.traceId).getLast?.map DeferredVerdict.verdict =
      some .fail)

/-- What a call must meet to count once. -/
def CountsOnce (s : State G) (tenant : String) : Event → Prop
  | .feedback rep => ∀ receipt dv, rep.check s.store = .ok (receipt, dv) →
    if dv.verdict = .abstain then Idle s tenant receipt
    else FirstOutcome s tenant rep receipt ∨ Unserved s receipt
  | _ => True

-- ---------------------------------------------------------------------------
-- Verdicts on one row
-- ---------------------------------------------------------------------------

section
variable {store : Store} {tenant : String}

theorem tracePair_served (trace : Trace ℚ) (deferred : List (DeferredVerdict ℚ)) :
    tracePair trace deferred = deferred.getLast?.bind fun last =>
      (servedScore trace).map fun score => (score, decide (last.verdict = .pass)) := by
  unfold tracePair servedScore
  cases deferred.getLast? with
  | none => rfl
  | some last =>
    cases trace.final.servedRung with
    | none => rfl
    | some rung => cases h : trace.attempts.find? fun a => a.rung = rung <;> simp [h]

theorem tracePair_unserved {trace : Trace ℚ} (h : servedScore trace = none)
    (deferred : List (DeferredVerdict ℚ)) : tracePair trace deferred = none := by
  rw [tracePair_served, h]
  cases deferred.getLast? <;> rfl

theorem loadDeferred_append (store : Store) (traceId : String) (v : DeferredVerdict ℚ)
    (other : String) :
    (store.appendDeferred traceId v).loadDeferred other =
      store.loadDeferred other ++ if traceId = other then [v] else [] := by
  by_cases h : traceId = other <;>
    simp [Store.loadDeferred, Store.appendDeferred, List.filter_append, h]

theorem pairOf_append_ne {r : Receipt} (h : r.trace.traceId ≠ traceId) (v : DeferredVerdict ℚ) :
    (store.appendDeferred traceId v).pairOf tenant r = store.pairOf tenant r := by
  simp [Store.pairOf, loadDeferred_append, Ne.symm h]

/-- A verdict changes the pairs at its own row alone. -/
theorem pairs_append_split {before after : List Receipt} {r : Receipt} {v : DeferredVerdict ℚ}
    (hsplit : store.traces = before ++ r :: after)
    (hnodup : (store.traces.map fun r => r.trace.traceId).Nodup) :
    (store.appendDeferred r.trace.traceId v).pairs tenant =
      before.filterMap (store.pairOf tenant) ++
        ((store.appendDeferred r.trace.traceId v).pairOf tenant r).toList ++
          after.filterMap (store.pairOf tenant) := by
  rw [hsplit, List.map_append, List.map_cons] at hnodup
  have hdisjoint := List.nodup_append.mp hnodup
  have hbefore : ∀ r' ∈ before, (store.appendDeferred r.trace.traceId v).pairOf tenant r' =
      store.pairOf tenant r' := fun r' hr' =>
    pairOf_append_ne (hdisjoint.2.2 _ (List.mem_map_of_mem hr') _ List.mem_cons_self) v
  have hafter : ∀ r' ∈ after, (store.appendDeferred r.trace.traceId v).pairOf tenant r' =
      store.pairOf tenant r' := fun r' hr' =>
    pairOf_append_ne (fun heq : r'.trace.traceId = r.trace.traceId =>
      (List.nodup_cons.mp hdisjoint.2.1).1 (heq ▸ List.mem_map_of_mem hr')) v
  have htraces : (store.appendDeferred r.trace.traceId v).traces = before ++ r :: after := hsplit
  rw [Store.pairs, htraces, List.filterMap_append, List.filterMap_congr hbefore,
    List.filterMap_cons, List.filterMap_congr hafter]
  cases (store.appendDeferred r.trace.traceId v).pairOf tenant r <;> simp

theorem pairs_split {before after : List Receipt} {r : Receipt}
    (hsplit : store.traces = before ++ r :: after) :
    store.pairs tenant = before.filterMap (store.pairOf tenant) ++
      (store.pairOf tenant r).toList ++ after.filterMap (store.pairOf tenant) := by
  rw [Store.pairs, hsplit, List.filterMap_append, List.filterMap_cons]
  cases store.pairOf tenant r <;> simp

theorem pairs_append_same {r : Receipt} {v : DeferredVerdict ℚ} (hr : r ∈ store.traces)
    (hnodup : (store.traces.map fun r => r.trace.traceId).Nodup)
    (hsame : (store.appendDeferred r.trace.traceId v).pairOf tenant r = store.pairOf tenant r) :
    (store.appendDeferred r.trace.traceId v).pairs tenant = store.pairs tenant := by
  obtain ⟨before, after, hsplit⟩ := List.append_of_mem hr
  rw [pairs_append_split hsplit hnodup, hsame, pairs_split hsplit]

theorem pairOf_append_unserved {r : Receipt} (h : servedScore r.trace = none)
    (v : DeferredVerdict ℚ) :
    (store.appendDeferred r.trace.traceId v).pairOf tenant r = store.pairOf tenant r := by
  simp [Store.pairOf, tracePair_unserved h]

theorem pairOf_append_idle {s : State G} {r : Receipt} {v : DeferredVerdict ℚ}
    (h : Idle s tenant r) (hv : v.verdict = .abstain) :
    (s.store.appendDeferred r.trace.traceId v).pairOf tenant r = s.store.pairOf tenant r := by
  rcases h with hother | harm | hunserved | hfail
  · simp [Store.pairOf, hother]
  · simp [Store.pairOf, harm]
  · exact pairOf_append_unserved hunserved v
  · obtain ⟨last, hlast, hverdict⟩ := Option.map_eq_some_iff.mp hfail
    simp [Store.pairOf, loadDeferred_append, tracePair_served, hlast, hverdict, hv]

-- ---------------------------------------------------------------------------
-- Rounds
-- ---------------------------------------------------------------------------

theorem roundsFrom_append (traces : List Receipt)
    (earlier first second : List (String × DeferredVerdict ℚ)) :
    roundsFrom traces earlier (first ++ second) =
      roundsFrom traces earlier first ++ roundsFrom traces (earlier ++ first) second := by
  induction first generalizing earlier with
  | nil => simp [roundsFrom]
  | cons d first ih => simp [roundsFrom, ih]

theorem rounds_append (store : Store) (traceId : String) (v : DeferredVerdict ℚ) :
    (store.appendDeferred traceId v).rounds =
      store.rounds ++ (roundOf store.traces store.deferred (traceId, v)).toList := by
  simp [Store.rounds, Store.appendDeferred, roundsFrom_append, roundsFrom]

/-- A row that comes later changes no round of verdicts on earlier rows. -/
theorem roundsFrom_later {traces : List Receipt} (later : List Receipt)
    (earlier ds : List (String × DeferredVerdict ℚ))
    (hknown : ∀ d ∈ ds, ∃ r ∈ traces, r.trace.traceId = d.1) :
    roundsFrom (traces ++ later) earlier ds = roundsFrom traces earlier ds := by
  induction ds generalizing earlier with
  | nil => rfl
  | cons d ds ih =>
    have hfind : (traces ++ later).find? (fun r => r.trace.traceId = d.1) =
        traces.find? fun r => r.trace.traceId = d.1 := by
      obtain ⟨r, hr, hid⟩ := hknown d List.mem_cons_self
      have hsome : (traces.find? fun r => r.trace.traceId = d.1).isSome := by
        rw [List.find?_isSome]
        exact ⟨r, hr, decide_eq_true hid⟩
      rw [List.find?_append, Option.or_of_isSome hsome]
    rw [roundsFrom, roundsFrom, ih _ fun d hd => hknown d (List.mem_cons_of_mem _ hd), roundOf,
      roundOf, hfind]

theorem roundOf_abstain (traces : List Receipt) (earlier : List (String × DeferredVerdict ℚ))
    (traceId : String) {v : DeferredVerdict ℚ} (h : v.verdict = .abstain) :
    roundOf traces earlier (traceId, v) = none := by
  unfold roundOf
  split_ifs
  · rfl
  · simp [h, signal]

theorem roundOf_unserved {r : Receipt} (hr : r ∈ store.traces)
    (hnodup : (store.traces.map fun r => r.trace.traceId).Nodup)
    (h : servedScore r.trace = none) (v : DeferredVerdict ℚ) :
    roundOf store.traces store.deferred (r.trace.traceId, v) = none := by
  unfold roundOf
  rw [find_key hnodup hr]
  cases hd : r.isDecision <;> simp [hd, h]

theorem roundOf_first {r : Receipt} {v : DeferredVerdict ℚ} (hr : r ∈ store.traces)
    (hnodup : (store.traces.map fun r => r.trace.traceId).Nodup) (hdecision : r.isDecision)
    (hserved : servedScore r.trace = some score)
    (hfirst : store.loadDeferred r.trace.traceId = []) (hsignal : signal v.verdict = some correct) :
    roundOf store.traces store.deferred (r.trace.traceId, v) = some (score, correct) := by
  have hnone : (store.deferred.any fun e =>
      e.1 = r.trace.traceId ∧ (signal e.2.verdict).isSome) = false := by
    rw [List.any_eq_false]
    intro e he hclear
    have hid := (of_decide_eq_true hclear).1
    have hmem : e.2 ∈ store.loadDeferred r.trace.traceId :=
      List.mem_map_of_mem (List.mem_filter.mpr ⟨he, decide_eq_true hid⟩)
    rw [hfirst] at hmem
    cases hmem
  unfold roundOf
  rw [hnone, find_key hnodup hr]
  simp [Option.filter_some, hsignal, hdecision, hserved]

end

-- ---------------------------------------------------------------------------
-- One step
-- ---------------------------------------------------------------------------

def Event.arrivalId : Event → Option String
  | .request a _ => some a.seed.traceId
  | _ => none

/-- The ids of the traces that a run mints. -/
def arrivalIds (events : List Event) : List String := events.filterMap Event.arrivalId

def State.ids (s : State G) : List String :=
  (s.store.traces ++ s.channel).map fun r => r.trace.traceId

/-- What a run keeps while each call counts once. -/
structure Kept (s₀ : State G) (tenant : String) (s : State G) (events : List Event) : Prop where
  agreed : Agreed s₀ tenant s
  known : ∀ d ∈ s.store.deferred, ∃ r ∈ s.store.traces, r.trace.traceId = d.1
  fresh : (s.ids ++ arrivalIds events).Nodup

theorem Agreed.of_rounds {s₀ s : State G} {tenant : String}
    (heprocess : s.eprocess = s₀.eprocess.map fun c => feed c s.store.rounds)
    (hadaptive : s.adaptive = s₀.adaptive.map fun c => nudge c s.store.rounds)
    (hpairs : s.store.pairs tenant = s.store.rounds) : Agreed s₀ tenant s where
  eprocess := heprocess
  adaptive := hadaptive
  pairs := hpairs
  offline alpha delta hstart := by
    rw [heprocess, hstart, Option.map_some, offlineController, hpairs]

theorem Arrival.receipt_id {a : Arrival} {served : Served ℚ} (h : a.receipt served = some r) :
    r.trace.traceId = a.seed.traceId := by
  cases served with
  | relayed => cases h
  | passthrough session shadowed => cases h; rfl
  | enforced m =>
    simp only [Arrival.receipt] at h
    cases hpath : a.path with
    | refused => rw [hpath] at h; cases h
    | cacheHit => rw [hpath] at h; cases h; rfl
    | ladder => rw [hpath] at h; cases h; rfl

theorem Kept.traces_nodup {s₀ s : State G} (h : Kept s₀ tenant s events) :
    (s.store.traces.map fun r => r.trace.traceId).Nodup := by
  have hids := (List.nodup_append.mp h.fresh).1
  rw [State.ids, List.map_append] at hids
  exact (List.nodup_append.mp hids).1

theorem Kept.request {s₀ s : State G} (h : Kept s₀ tenant s (.request a kept :: events)) :
    Kept s₀ tenant (s.request a kept) events := by
  have hfresh : (s.ids ++ a.seed.traceId :: arrivalIds events).Nodup := h.fresh
  cases kept with
  | false =>
    refine ⟨h.agreed, h.known, hfresh.sublist ?_⟩
    exact List.Sublist.append_left (List.sublist_cons_self _ _) _
  | true =>
    refine ⟨⟨h.agreed.eprocess, h.agreed.adaptive, h.agreed.pairs, h.agreed.offline⟩, h.known, ?_⟩
    have hids : (s.request a true).ids = s.ids ++
        ((a.receipt (s.app.handle a.endpoint a.req a.now)).map fun r => r.trace.traceId).toList := by
      unfold State.ids State.request
      cases a.receipt (s.app.handle a.endpoint a.req a.now) <;> simp
    rw [hids]
    cases hreceipt : a.receipt (s.app.handle a.endpoint a.req a.now) with
    | none =>
      refine hfresh.sublist ?_
      simp
    | some r =>
      simpa [Arrival.receipt_id hreceipt] using hfresh

/-- No verdict names a row that is not stored yet. -/
theorem Kept.unseen {s₀ s : State G} (h : Kept s₀ tenant s events) (hr : r ∈ s.channel) :
    s.store.loadDeferred r.trace.traceId = [] := by
  rw [Store.loadDeferred, List.map_eq_nil_iff, List.filter_eq_nil_iff]
  intro d hd hid
  obtain ⟨r', hr', hid'⟩ := h.known d hd
  have hnodup := (List.nodup_append.mp h.fresh).1
  rw [State.ids, List.map_append] at hnodup
  refine (List.nodup_append.mp hnodup).2.2 _ (List.mem_map_of_mem hr') _
    (List.mem_map_of_mem hr) ?_
  rw [hid', of_decide_eq_true hid]

theorem Kept.stored {s₀ s : State G} (h : Kept s₀ tenant s events) (hr : r ∈ s.channel) :
    (⟨s.store.traces ++ [r], s.store.deferred⟩ : Store).rounds = s.store.rounds ∧
      (⟨s.store.traces ++ [r], s.store.deferred⟩ : Store).pairs tenant = s.store.pairs tenant := by
  refine ⟨roundsFrom_later [r] [] _ h.known, ?_⟩
  have hpair : s.store.pairOf tenant r = none := by
    simp [Store.pairOf, h.unseen hr, tracePair]
  have hpairs : (⟨s.store.traces ++ [r], s.store.deferred⟩ : Store).pairs tenant =
      (s.store.traces ++ [r]).filterMap (s.store.pairOf tenant) := rfl
  rw [hpairs, List.filterMap_append, Store.pairs]
  simp [hpair]

theorem Kept.write {s₀ s : State G} (h : Kept s₀ tenant s (.write landed :: events)) :
    Kept s₀ tenant (s.write landed) events := by
  have hfresh : (s.ids ++ arrivalIds events).Nodup := h.fresh
  cases landed with
  | false =>
    refine ⟨⟨h.agreed.eprocess, h.agreed.adaptive, h.agreed.pairs, h.agreed.offline⟩, h.known, ?_⟩
    refine hfresh.sublist (List.Sublist.append_right (List.Sublist.map _ ?_) _)
    exact List.Sublist.append_left (List.tail_sublist _) _
  | true =>
    cases hchannel : s.channel with
    | nil =>
      have hsame : s.write true = s := by
        cases s
        simp_all [State.write]
      rw [hsame]
      exact ⟨h.agreed, h.known, hfresh⟩
    | cons r rest =>
      obtain ⟨hrounds, hpairs⟩ := h.stored (r := r) (hchannel ▸ List.mem_cons_self)
      have hstore : (s.write true).store = ⟨s.store.traces ++ [r], s.store.deferred⟩ := by
        simp [State.write, hchannel]
      have hids : (s.write true).ids = s.ids := by
        simp [State.ids, State.write, hchannel]
      refine ⟨.of_rounds ?_ ?_ ?_, ?_, hids ▸ hfresh⟩
      · rw [hstore, hrounds]
        exact h.agreed.eprocess
      · rw [hstore, hrounds]
        exact h.agreed.adaptive
      · rw [hstore, hpairs, hrounds]
        exact h.agreed.pairs
      · intro d hd
        rw [hstore] at hd ⊢
        obtain ⟨r', hr', hid⟩ := h.known d hd
        exact ⟨r', List.mem_append_left _ hr', hid⟩

/-- A verdict on a row keeps what does not depend on the controllers. -/
theorem Kept.appendDeferred {s₀ s s' : State G} (h : Kept s₀ tenant s (.feedback rep :: events))
    (hr : r ∈ s.store.traces) (hstore : s'.store = s.store.appendDeferred r.trace.traceId v)
    (hchannel : s'.channel = s.channel) (hagreed : Agreed s₀ tenant s') :
    Kept s₀ tenant s' events := by
  refine ⟨hagreed, ?_, ?_⟩
  · intro d hd
    rw [hstore] at hd ⊢
    rcases List.mem_append.mp hd with hold | hnew
    · exact h.known d hold
    · rw [List.mem_singleton.mp hnew]
      exact ⟨r, hr, rfl⟩
  · have hids : s'.ids = s.ids := by
      rw [State.ids, State.ids, hstore, hchannel]
      rfl
    rw [hids]
    exact h.fresh

/-- A verdict that adds no round and changes no pair. -/
theorem Agreed.unchanged {s₀ s s' : State G} {r : Receipt} {v : DeferredVerdict ℚ} (h : Agreed s₀ tenant s)
    (hstore : s'.store = s.store.appendDeferred r.trace.traceId v)
    (hround : roundOf s.store.traces s.store.deferred (r.trace.traceId, v) = none)
    (hpairs : s'.store.pairs tenant = s.store.pairs tenant) (heprocess : s'.eprocess = s.eprocess)
    (hadaptive : s'.adaptive = s.adaptive) : Agreed s₀ tenant s' := by
  have hrounds : s'.store.rounds = s.store.rounds := by
    rw [hstore, rounds_append, hround]
    simp
  refine .of_rounds ?_ ?_ ?_
  · rw [heprocess, hrounds, h.eprocess]
  · rw [hadaptive, hrounds, h.adaptive]
  · rw [hpairs, hrounds, h.pairs]

variable [Field G] [LinearOrder G] [Analytic G]

/-- The outcome of a decision is one more round, for the controllers and for the replay. -/
theorem FirstOutcome.agreed {s₀ s : State G} (hfirst : FirstOutcome s tenant rep r)
    (h : Agreed s₀ tenant s) (hnodup : (s.store.traces.map fun r => r.trace.traceId).Nodup)
    (hrow : s.store.row rep.tenant r.trace.traceId = some r)
    (hsignal : signal v.verdict = some correct) :
    Agreed s₀ tenant ({ s with store := s.store.appendDeferred r.trace.traceId v }.outcome rep
      r.trace.traceId correct) := by
  obtain ⟨score, hserved⟩ := Option.isSome_iff_exists.mp hfirst.served
  have hr := List.mem_of_find?_eq_some hrow
  have htenant : r.trace.tenantId = tenant := by
    have hfound := List.find?_some hrow
    rw [decide_eq_true_eq] at hfound
    rw [hfound.2, hfirst.own]
  have hrounds : (s.store.appendDeferred r.trace.traceId v).rounds =
      s.store.rounds ++ [(score, correct)] := by
    rw [rounds_append,
      roundOf_first hr hnodup hfirst.decision hserved hfirst.first hsignal]
    rfl
  have hpass : decide (v.verdict = .pass) = correct := by
    cases hverdict : v.verdict <;> simp_all [signal]
  refine .of_rounds ?_ ?_ ?_
  · simp only [store_outcome, hrounds]
    rcases hfirst.read with hnone | hread
    · have hnone₀ := hnone
      rw [h.eprocess, Option.map_eq_none_iff] at hnone₀
      simp [State.outcome, hnone, hnone₀]
    · have hscore := score_row hrow v
      rw [hread, if_pos rfl, hserved] at hscore
      rw [eprocess_outcome hscore, h.eprocess, Option.map_map]
      refine congrArg (fun f => s₀.eprocess.map f) (funext fun c => ?_)
      simp [feed]
  · simp only [store_outcome, adaptive_outcome, hrounds, h.adaptive, Option.map_map]
    refine congrArg (fun f => s₀.adaptive.map f) (funext fun c => ?_)
    simp [nudge]
  · simp only [store_outcome]
    have hincumbent : isIncumbentTrace r.trace = true := by
      have hdecision := hfirst.decision
      rw [Receipt.isDecision, Bool.and_eq_true] at hdecision
      exact hdecision.2
    have hpair : (s.store.appendDeferred r.trace.traceId v).pairOf tenant r =
        some (score, correct) := by
      simp [Store.pairOf, htenant, hincumbent, loadDeferred_append, hfirst.first, tracePair_served,
        hserved, hpass]
    have hunpaired : s.store.pairOf tenant r = none := by
      simp [Store.pairOf, hfirst.first, tracePair]
    obtain ⟨before, after, hsplit, hafter⟩ := hfirst.inOrder
    have hlater : after.filterMap (s.store.pairOf tenant) = [] :=
      List.filterMap_eq_nil_iff.mpr hafter
    rw [hrounds, ← h.pairs, pairs_append_split hsplit hnodup, pairs_split hsplit, hpair, hunpaired,
      hlater]
    simp

theorem Kept.feedback {s₀ s : State G} (h : Kept s₀ tenant s (.feedback rep :: events))
    (hcounts : CountsOnce s tenant (.feedback rep)) :
    Kept s₀ tenant (s.feedback rep).1 events := by
  have hnodup := h.traces_nodup
  have hfed := feedback_fed s rep
  generalize (s.feedback rep).1 = s' at hfed
  cases hfed with
  | refused _ => exact ⟨h.agreed, h.known, h.fresh⟩
  | unclear r dv hcheck hsignal =>
    have hr := List.mem_of_find?_eq_some (check_row hcheck)
    have habstain : dv.verdict = .abstain := by
      cases hverdict : dv.verdict <;> simp_all [signal]
    have hidle := hcounts r dv hcheck
    rw [if_pos habstain] at hidle
    exact h.appendDeferred hr rfl rfl (h.agreed.unchanged rfl (roundOf_abstain _ _ _ habstain)
      (pairs_append_same hr hnodup (pairOf_append_idle hidle habstain)) rfl rfl)
  | clear r dv correct hcheck hsignal =>
    have hrow := check_row hcheck
    have hr := List.mem_of_find?_eq_some hrow
    have hclear : dv.verdict ≠ .abstain := by
      intro habstain
      simp [habstain, signal] at hsignal
    have honce := hcounts r dv hcheck
    rw [if_neg hclear] at honce
    refine h.appendDeferred hr rfl rfl ?_
    rcases honce with hfirst | ⟨hunserved, hadaptive⟩
    · exact hfirst.agreed h.agreed hnodup hrow hsignal
    · refine h.agreed.unchanged rfl (roundOf_unserved hr hnodup hunserved dv)
        (pairs_append_same hr hnodup (pairOf_append_unserved hunserved dv)) ?_ ?_
      · refine eprocess_outcome_none ((score_row hrow dv).trans ?_) correct
        split_ifs
        · exact hunserved
        · rfl
      · simp [hadaptive]

theorem Kept.step {s₀ s : State G} (h : Kept s₀ tenant s (e :: events))
    (hcounts : CountsOnce s tenant e) : Kept s₀ tenant (s.step e) events := by
  cases e with
  | request a kept => exact h.request
  | write landed => exact h.write
  | feedback rep => exact h.feedback hcounts

-- ---------------------------------------------------------------------------
-- Whole runs
-- ---------------------------------------------------------------------------

/-- Every call of a run counts once. -/
def EachCountsOnce (s : State G) (tenant : String) : List Event → Prop
  | [] => True
  | e :: events => CountsOnce s tenant e ∧ EachCountsOnce (s.step e) tenant events

theorem Kept.run {s₀ s : State G} {reached rest : List Event}
    (h : Kept s₀ tenant s (reached ++ rest)) (hcounts : EachCountsOnce s tenant (reached ++ rest)) :
    Kept s₀ tenant (s.run reached) rest := by
  induction reached generalizing s with
  | nil => exact h
  | cons e reached ih => exact ih (h.step hcounts.1) hcounts.2

/-- In every state that a run from a fresh store reaches while each call counts once, the
controllers and the replay have taken one clear outcome from each decision. -/
theorem rounds_agree (s₀ : State G) (tenant : String) (events : List Event) (hfresh : s₀.Fresh)
    (hids : (arrivalIds events).Nodup) (hcounts : EachCountsOnce s₀ tenant events) :
    ∀ reached, reached <+: events → Agreed s₀ tenant (s₀.run reached) := by
  rintro reached ⟨rest, rfl⟩
  have hstart : Kept s₀ tenant s₀ (reached ++ rest) := by
    obtain ⟨hchannel, hstore⟩ := hfresh
    refine ⟨.of_rounds ?_ ?_ ?_, by simp [hstore], by simpa [State.ids, hstore, hchannel] using hids⟩
    · rw [hstore]
      exact Option.map_id'.symm
    · rw [hstore]
      exact Option.map_id'.symm
    · rw [hstore]
      rfl
  exact (hstart.run hcounts).agreed

/-- A request that a ladder serves, stored. -/
def sampleServed : List Event :=
  [.request ⟨.chatCompletions, Dispatch.sampleRequest, 50, .ladder, sampleSeed "trace-1"⟩ true,
    .write true]

noncomputable def sampleControlled : State ℝ :=
  { sampleDeployment with eprocess := some (.new 0.2 0.05 none [some 0.5]) }

theorem rounds_agree_sample :
    Agreed sampleControlled "t" (sampleControlled.run
      (sampleServed ++ [.feedback (sampleReport "trace-1" "pass")])) := by
  have hcounts : EachCountsOnce sampleControlled "t"
      (sampleServed ++ [.feedback (sampleReport "trace-1" "pass")]) := by
    refine ⟨trivial, trivial, ?_, trivial⟩
    rintro receipt dv hcheck
    cases hcheck
    exact .inl ⟨rfl, .inr rfl, rfl, rfl, rfl, [], [], rfl, fun r hr => (List.not_mem_nil hr).elim⟩
  exact rounds_agree sampleControlled "t" _ ⟨rfl, rfl⟩ (by decide) hcounts _ (List.prefix_refl _)

/-- A verdict that is reported twice is two rounds. -/
theorem rounds_repeated :
    ¬ ∀ events, (arrivalIds events).Nodup →
        Agreed sampleControlled "t" (sampleControlled.run events) := by
  intro h
  have hagreed := (h (sampleServed ++ [.feedback (sampleReport "trace-1" "pass"),
    .feedback (sampleReport "trace-1" "pass")]) (by decide)).eprocess
  have hrounds := congrArg (Option.map EProcessRiskControl.rounds) hagreed
  change some 2 = some 1 at hrounds
  cases hrounds

end Firstpass.Feedback
