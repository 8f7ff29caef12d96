import Firstpass.Proxy.SteadyGates
import Firstpass.Proxy.SteeredLadder

/-!
# One gate that is tracked

A ladder whose rungs all answer, with one gate that never passes. It reports given outcomes,
for the size of the prompt, on the rungs there is one for; the other gates pass. Each rung
serves once the gate is disabled.
-/

namespace Firstpass.Lockstep

open GateBudget

variable {F : Type} [F64 F]

def trackedReport (outcomes : List Bool) (idx : Nat) (id : String) : GateResult F :=
  { report id (if outcomes.getD idx false then .abstain else .fail) none with
    reason := if idx < outcomes.length then some Reason.contextOverflow else none }

theorem verdict_trackedReport (outcomes : List Bool) (idx : Nat) (id : String) :
    (trackedReport (F := F) outcomes idx id).verdict =
      if outcomes.getD idx false then .abstain else .fail := rfl

/-- The gate `id` reports the outcomes, any other gate passes. -/
def tracked (id : String) (outcomes : List Bool) (other : String) : Gate F where
  id := other
  evaluate idx _ _ :=
    if other = id then trackedReport outcomes idx other else report other .pass none
  abstainFailsClosed := true
  evaluate_gateId idx _ _ := by
    split_ifs <;> rfl

section pass

variable {ctx : EnforceCtx F} {asks : ModelRequest} {resp : ModelResponse}
  {id : String} {outcomes : List Bool} {ids : List String} {health : GateHealthRegistry F}

theorem map_id_tracked : (ids.map (tracked (F := F) id outcomes)).map Gate.id = ids := by
  rw [List.map_map]
  exact List.map_id ids

/-- A pass that skips the gate. -/
theorem tracked_skipped (idx : Nat)
    (h : id ∉ ids ∨ runs (account health ctx.tenantId id) = false) :
    let out := gateSpeculative ctx idx asks resp (ids.map (tracked id outcomes)) health
    (∀ r ∈ out.1, ∃ other, r = report other .pass none) ∧
      account out.2 ctx.tenantId id = account health ctx.tenantId id := by
  induction ids generalizing health with
  | nil => exact ⟨fun r hr => (by cases hr), rfl⟩
  | cons other ids ih =>
    rw [List.map_cons, gateSpeculative, enabled_fst]
    have hrest : id ∉ ids ∨ runs (account health ctx.tenantId id) = false := by
      rcases h with hmem | hoff
      · exact .inl fun hid => hmem (List.mem_cons_of_mem _ hid)
      · exact .inr hoff
    split_ifs with hrun
    · have hne : other ≠ id := by
        rintro rfl
        rcases h with hmem | hoff
        · exact hmem List.mem_cons_self
        · rw [show (tracked (F := F) other outcomes other).id = other from rfl, hoff] at hrun
          cases hrun
      dsimp only
      generalize decide (((tracked (F := F) id outcomes other).evaluate idx asks
        resp).verdict = .abstain) = errored
      have hkeeps : account ((health.enabled ctx.tenantId other).2.record ctx.tenantId other
          errored) ctx.tenantId id = account health ctx.tenantId id := by
        rw [account_record_ne _ _ _ (Ne.symm hne), account_enabled]
      have hnext : id ∉ ids ∨ runs (account ((health.enabled ctx.tenantId other).2.record
          ctx.tenantId other errored) ctx.tenantId id) = false := by
        rwa [hkeeps]
      obtain ⟨hresults, haccount⟩ := ih hnext
      refine ⟨fun r hr => ?_, haccount.trans hkeeps⟩
      rcases List.mem_cons.mp hr with rfl | hr
      · exact ⟨other, if_neg hne⟩
      · exact hresults r hr
    · have hnext : id ∉ ids ∨ runs (account (health.enabled ctx.tenantId other).2 ctx.tenantId
          id) = false := by
        rwa [account_enabled]
      obtain ⟨hresults, haccount⟩ := ih hnext
      exact ⟨hresults, haccount.trans (account_enabled _ _ _ _)⟩

/-- A pass that looks the gate up. -/
theorem tracked_runs (idx : Nat) (hid : id ∈ ids) (hnodup : ids.Nodup)
    (hrun : runs (account health ctx.tenantId id) = true) :
    let out := gateSpeculative ctx idx asks resp (ids.map (tracked id outcomes)) health
    trackedReport outcomes idx id ∈ out.1 ∧
      account out.2 ctx.tenantId id =
        (account health ctx.tenantId id).map (·.record (outcomes.getD idx false)) := by
  induction ids generalizing health with
  | nil => cases hid
  | cons other ids ih =>
    obtain ⟨hnotin, hnodup⟩ := List.nodup_cons.mp hnodup
    rw [List.map_cons, gateSpeculative, enabled_fst]
    by_cases hother : other = id
    · subst hother
      dsimp only
      rw [if_pos (show runs (account health ctx.tenantId
        (tracked (F := F) other outcomes other).id) = true from hrun)]
      have hreport : (tracked (F := F) other outcomes other).evaluate idx asks resp =
          trackedReport outcomes idx other := if_pos rfl
      have herrored : decide ((trackedReport (F := F) outcomes idx other).verdict = .abstain) =
          outcomes.getD idx false := by
        rw [verdict_trackedReport]
        cases outcomes.getD idx false <;> rfl
      dsimp only
      rw [hreport, herrored]
      refine ⟨List.mem_cons_self, (tracked_skipped idx (.inl hnotin)).2.trans ?_⟩
      rw [show (tracked (F := F) other outcomes other).id = other from rfl, account_record_self,
        account_enabled]
    · have hmem : id ∈ ids := (List.mem_cons.mp hid).resolve_left (Ne.symm hother)
      split_ifs
      · dsimp only
        generalize decide (((tracked (F := F) id outcomes other).evaluate idx asks
          resp).verdict = .abstain) = errored
        have hkeeps : account ((health.enabled ctx.tenantId other).2.record ctx.tenantId other
            errored) ctx.tenantId id = account health ctx.tenantId id := by
          rw [account_record_ne _ _ _ (Ne.symm hother), account_enabled]
        have hnext : runs (account ((health.enabled ctx.tenantId other).2.record ctx.tenantId
            other errored) ctx.tenantId id) = true := by
          rwa [hkeeps]
        obtain ⟨hresults, haccount⟩ := ih hmem hnodup hnext
        exact ⟨List.mem_cons_of_mem _ hresults, haccount.trans (congrArg _ hkeeps)⟩
      · have hnext : runs (account (health.enabled ctx.tenantId other).2 ctx.tenantId id) =
            true := by
          rwa [account_enabled]
        obtain ⟨hresults, haccount⟩ := ih hmem hnodup hnext
        exact ⟨hresults, haccount.trans (congrArg _ (account_enabled _ _ _ _))⟩

end pass

-- ---------------------------------------------------------------------------
-- One rung
-- ---------------------------------------------------------------------------

/-- A context whose gates pass, but for the one that is tracked; they decide alone. -/
structure Tracking (ctx : EnforceCtx F) (id : String) (outcomes : List Bool)
    (ids : List String) : Prop where
  gates : ctx.gates = ids.map (tracked id outcomes)
  elastic : ctx.elastic = none
  threshold : ctx.serveThreshold = none
  mem : id ∈ ids
  nodup : ids.Nodup

section rung

variable {ctx : EnforceCtx F} {asks : ModelRequest} {resp : ModelResponse}
  {id : String} {outcomes : List Bool} {ids : List String} {health : GateHealthRegistry F}

theorem Tracking.gateSerial (h : Tracking ctx id outcomes ids) (idx : Nat) :
    gateSerial ctx idx asks resp health =
      ((gateSpeculative ctx idx asks resp (ids.map (tracked id outcomes)) health).1, none,
        (gateSpeculative ctx idx asks resp (ids.map (tracked id outcomes)) health).2) := by
  rw [gateSerial_of_elastic_none h.elastic, h.gates]

theorem Tracking.served (h : Tracking ctx id outcomes ids) (idx : Nat) :
    Judgment.served ctx (Firstpass.gateSerial ctx idx asks resp health) =
      decide (aggregateWithPolicy (gateSpeculative ctx idx asks resp
        (ids.map (tracked id outcomes)) health).1
        (failClosedIds (ids.map (tracked (F := F) id outcomes))) = .pass) := by
  rw [h.gateSerial, Judgment.served, serves]
  simp [shouldServe, h.threshold, h.gates]

/-- A disabled gate lets a rung serve. -/
theorem Tracking.skipped (h : Tracking ctx id outcomes ids) (idx : Nat)
    (hoff : runs (account health ctx.tenantId id) = false) :
    Judgment.served ctx (Firstpass.gateSerial ctx idx asks resp health) = true ∧
      Judgment.overflow (Firstpass.gateSerial ctx idx asks resp health) = false := by
  obtain ⟨hresults, -⟩ := tracked_skipped idx (.inr hoff)
  constructor
  · rw [h.served, decide_eq_true_eq]
    refine pass_of_passes fun r hr => ?_
    obtain ⟨other, rfl⟩ := hresults r hr
    rfl
  · rw [h.gateSerial, Judgment.overflow, List.any_eq_false]
    rintro r hr
    obtain ⟨other, rfl⟩ := hresults r hr
    exact Bool.false_ne_true

/-- The gate that runs lets no rung serve. -/
theorem Tracking.escalated (h : Tracking ctx id outcomes ids) (idx : Nat)
    (hrun : runs (account health ctx.tenantId id) = true) :
    Judgment.served ctx (Firstpass.gateSerial ctx idx asks resp health) = false ∧
      account (Firstpass.gateSerial ctx idx asks resp health).2.2 ctx.tenantId id =
        (account health ctx.tenantId id).map (·.record (outcomes.getD idx false)) := by
  obtain ⟨hresult, haccount⟩ := tracked_runs idx h.mem h.nodup hrun
  constructor
  · rw [h.served, decide_eq_false_iff_not]
    rintro hpass
    obtain ⟨hfail, habstain⟩ := aggregateWithPolicy_eq_pass.mp hpass _ hresult
    cases herrored : outcomes.getD idx false with
    | false =>
      rw [verdict_trackedReport, herrored] at hfail
      exact hfail rfl
    | true =>
      rw [verdict_trackedReport, herrored] at habstain
      cases habstain rfl (tracked id outcomes id) (List.mem_map_of_mem h.mem) rfl
  · rw [h.gateSerial]
    exact haccount

theorem Tracking.overflow (h : Tracking ctx id outcomes ids) (idx : Nat)
    (hrun : runs (account health ctx.tenantId id) = true) :
    Judgment.overflow (Firstpass.gateSerial ctx idx asks resp health) =
      decide (idx < outcomes.length) := by
  obtain ⟨hresult, -⟩ := tracked_runs idx h.mem h.nodup hrun
  rw [h.gateSerial, Judgment.overflow]
  by_cases hidx : idx < outcomes.length
  · rw [decide_eq_true hidx, List.any_eq_true]
    exact ⟨_, hresult, by simp [trackedReport, hidx]⟩
  · rw [decide_eq_false hidx, List.any_eq_false]
    rintro r hr
    obtain ⟨g, hg, rfl⟩ := mem_gateSpeculative hr
    obtain ⟨other, -, rfl⟩ := List.mem_map.mp hg
    by_cases hother : other = id
    · simp [tracked, trackedReport, hother, hidx]
    · simp [tracked, report, hother]

end rung

-- ---------------------------------------------------------------------------
-- A run
-- ---------------------------------------------------------------------------

/-- The state before rung `idx`: the gate was looked up on each rung so far. -/
structure Climbed (tenant id : String) (health : GateHealthRegistry F) (outcomes : List Bool)
    (idx : Nat) (s : LoopState F) : Prop where
  servedRung : s.servedRung = none
  best : 0 < idx → s.best.isSome = true
  account : account s.health tenant id = after (account health tenant id) (outcomes.take idx)
  attempts : s.attempts.map overflowed = List.replicate idx true

section run

variable {ctx : EnforceCtx F} {n : Nat} {model : String} {answer : Answers} {id : String}
  {outcomes : List Bool} {ids : List String} {health : GateHealthRegistry F}
  {resp : ModelResponse}

theorem climbed_init (tenant : String) :
    Climbed tenant id health outcomes 0 (.init health) where
  servedRung := rfl
  best h := absurd h (Nat.lt_irrefl 0)
  account := by
    rw [List.take_zero, after_nil]
    rfl
  attempts := rfl

theorem Climbed.rung {idx : Nat} {s : LoopState F}
    (hclimbed : Climbed ctx.tenantId id health outcomes idx s)
    (h : Tracking ctx id outcomes ids) (hsteered : Steered ctx n model answer)
    (hidx : idx < outcomes.length)
    (hrun : runs (after (GateBudget.account health ctx.tenantId id) (outcomes.take idx)) = true)
    (hok : answer idx (asked ctx.baseRequest) = .ok resp) (elapsed : Nat → Nat) :
    (serialRung ctx elapsed idx model s).2 = .next ∧
      Climbed ctx.tenantId id health outcomes (idx + 1) (serialRung ctx elapsed idx model s).1 := by
  have hgated := hsteered.rung_ok hok elapsed s
  rw [← hclimbed.account] at hrun
  obtain ⟨hserved, haccount⟩ := h.escalated idx hrun
  have hflow := hsteered.flow hgated hserved
  obtain ⟨hrung, -⟩ := hgated.escalated hserved
  refine ⟨hflow, hrung.trans hclimbed.servedRung, fun _ => hgated.best, ?_, ?_⟩
  · have htake : outcomes.take (idx + 1) = outcomes.take idx ++ [outcomes.getD idx false] := by
      rw [List.take_add_one, List.getElem?_eq_getElem hidx, List.getD_eq_getElem?_getD,
        List.getElem?_eq_getElem hidx]
      rfl
    rw [htake, after_concat, ← hclimbed.account, hgated.health]
    exact haccount
  · rw [hgated.attempts, hclimbed.attempts, List.replicate_succ']
    refine congrArg (fun b => List.replicate idx true ++ [b]) ?_
    exact (h.overflow idx hrun).trans (decide_eq_true hidx)

/-- The rungs before `k` escalate. -/
theorem Climbed.loop {k l : Nat} (h : Tracking ctx id outcomes ids)
    (hsteered : Steered ctx n model answer) (hk : k ≤ outcomes.length)
    (hruns : ∀ i < k,
      runs (after (GateBudget.account health ctx.tenantId id) (outcomes.take i)) = true)
    (hok : ∀ i < k, answer i (asked ctx.baseRequest) = .ok resp) (elapsed : Nat → Nat) {j idx : Nat}
    (hj : idx + j = k) {s : LoopState F}
    (hclimbed : Climbed ctx.tenantId id health outcomes idx s) :
    ∃ t, Climbed ctx.tenantId id health outcomes k t ∧
      serialLoop ctx elapsed (List.replicate (j + l) model) idx s =
        serialLoop ctx elapsed (List.replicate l model) k t := by
  induction j generalizing idx s with
  | zero =>
    obtain rfl : idx = k := hj
    exact ⟨s, hclimbed, by rw [Nat.zero_add]⟩
  | succ j ih =>
    have hidx : idx < k := by omega
    obtain ⟨hflow, hnext⟩ := hclimbed.rung h hsteered (by omega) (hruns idx hidx) (hok idx hidx)
      elapsed
    obtain ⟨t, ht, hloop⟩ := ih (by omega) hnext
    refine ⟨t, ht, ?_⟩
    rw [Nat.succ_add, List.replicate_succ, serialLoop]
    generalize serialRung ctx elapsed idx model s = x at *
    obtain ⟨u, flow⟩ := x
    obtain rfl : flow = .next := hflow
    exact hloop

/-- The rung after the outcomes serves where the gate is disabled by them. -/
theorem Tracking.servedFrom_next (h : Tracking ctx id outcomes ids)
    (hsteered : Steered ctx n model answer) (hstart : startOf ctx = 0)
    (hlength : outcomes.length < rungEnd ctx)
    (hruns : ∀ i < outcomes.length,
      runs (after (GateBudget.account health ctx.tenantId id) (outcomes.take i)) = true)
    (hok : ∀ i ≤ outcomes.length, answer i (asked ctx.baseRequest) = .ok resp)
    (hdown : ∀ i, outcomes.length < i → Down ctx answer i) (first second : Nat → Nat) :
    servedFrom (serialLadder ctx first second health).toLadderRun =
      if runs (after (GateBudget.account health ctx.tenantId id) outcomes) then .bestAttempt
      else .attempt := by
  obtain ⟨t, ht, hloop⟩ := Climbed.loop (l := rungEnd ctx - outcomes.length) h hsteered
    (Nat.le_refl _) hruns (fun i hi => hok i (Nat.le_of_lt hi)) first (Nat.zero_add _)
    (climbed_init ctx.tenantId)
  have hrun : runSerial ctx first health =
      serialLoop ctx first (List.replicate (rungEnd ctx - outcomes.length) model)
        outcomes.length t := by
    rw [hsteered.runSerial, hstart, ← hloop]
    congr 2
    omega
  have haccount := ht.account
  rw [List.take_length] at haccount
  have hjudged : ∀ served, (judged ctx model outcomes.length resp t.health).served ctx = served →
      (judged ctx model outcomes.length resp t.health).overflow = false →
      servedFrom (serialLadder ctx first second health).toLadderRun =
        if served then .attempt else .bestAttempt := by
    rintro served hserved hquiet
    have hconcluded := hsteered.loop_judged first (rungEnd ctx - outcomes.length)
      (show outcomes.length ≤ outcomes.length ∧ _ by omega) (fun i hi hlt => by omega)
      (hok _ (Nat.le_refl _)) t ht.servedRung hquiet fun _ => hdown
    rw [← hrun, hserved] at hconcluded
    rw [serialLadder_quiet (overflowedEverywhere_quiet hconcluded.quiet),
      servedFrom_answered hconcluded.best, hconcluded.servedRung]
  rw [← haccount]
  cases hgate : runs (GateBudget.account t.health ctx.tenantId id) with
  | true =>
    exact hjudged false (h.escalated outcomes.length hgate).1
      ((h.overflow outcomes.length hgate).trans (decide_eq_false (Nat.lt_irrefl _)))
  | false =>
    obtain ⟨hserved, hquiet⟩ := h.skipped outcomes.length hgate
    exact hjudged true hserved hquiet

theorem Steered.retry (hsteered : Steered ctx n model answer) (r : ModelRequest) :
    Steered (retryCtx ctx r) n model answer := ⟨hsteered.ladder, hsteered.call, hsteered.budget⟩

theorem Tracking.retry (h : Tracking ctx id outcomes ids) (r : ModelRequest) :
    Tracking (retryCtx ctx r) id outcomes ids := ⟨h.gates, h.elastic, h.threshold, h.mem, h.nodup⟩

theorem serialLoop_singleton (elapsed : Nat → Nat) (idx : Nat) (s : LoopState F) :
    serialLoop ctx elapsed [model] idx s = (serialRung ctx elapsed idx model s).1 := by
  rw [serialLoop]
  obtain ⟨t, flow⟩ := serialRung ctx elapsed idx model s
  cases flow <;> rfl

/-- The one rung of the second pass. -/
theorem Steered.runSerial_retry (hsteered : Steered ctx n model answer) (hn : 0 < n)
    (hmax : 0 < ctx.maxRungs) {r : ModelRequest} (hok : answer (n - 1) (asked r) = .ok resp)
    (elapsed : Nat → Nat) (health : GateHealthRegistry F) :
    (Firstpass.runSerial (retryCtx ctx r) elapsed health).best.isSome = true ∧
      (Firstpass.runSerial (retryCtx ctx r) elapsed health).servedRung.isSome =
        (judged (retryCtx ctx r) model (n - 1) resp health).served (retryCtx ctx r) := by
  have hlength : ctx.ladder.length = n := by
    rw [hsteered.ladder, List.length_replicate]
  have hstart : startOf (retryCtx ctx r) = n - 1 := by
    simp only [startOf, retryCtx, hlength, Nat.min_self]
  have hone : rungEnd (retryCtx ctx r) - (n - 1) = 1 := by
    rw [rungEnd, hstart]
    simp only [retryCtx, hlength]
    omega
  have hretry := hsteered.retry r
  have hgated := hretry.rung_ok (k := n - 1) hok elapsed (.init health)
  rw [hretry.runSerial, hstart, hone, List.replicate_one, serialLoop_singleton]
  refine ⟨hgated.best, ?_⟩
  cases hserved : (judged (retryCtx ctx r) model (n - 1) resp health).served (retryCtx ctx r) with
  | true => exact (hgated.served hserved).1
  | false =>
    rw [(hgated.escalated hserved).1]
    rfl

/-- Where every rung rejects the size of the prompt, the condensed request is served if the
gate is disabled by the outcomes. -/
theorem Tracking.servedFrom_condensed (h : Tracking ctx id outcomes ids)
    (hsteered : Steered ctx n model answer) (hn : 0 < n) (hmax : 0 < ctx.maxRungs)
    (hstart : startOf ctx = 0) (hlength : outcomes.length = rungEnd ctx) {cfg : CondenseConfig}
    (hcfg : ctx.condense = some cfg) {c : Condensed}
    (hc : condense ctx.baseRequest cfg.keepHead cfg.keepTail = some c)
    (hruns : ∀ i < outcomes.length,
      runs (after (GateBudget.account health ctx.tenantId id) (outcomes.take i)) = true)
    (hok : ∀ i r, answer i r = .ok resp) (first second : Nat → Nat) :
    servedFrom (serialLadder ctx first second health).toLadderRun =
      if runs (after (GateBudget.account health ctx.tenantId id) outcomes) then .bestAttempt
      else .attempt := by
  obtain ⟨t, ht, hloop⟩ := Climbed.loop (l := 0) h hsteered (Nat.le_refl _) hruns
    (fun i _ => hok i _) first (Nat.zero_add _) (climbed_init ctx.tenantId)
  have hrun : runSerial ctx first health = t := by
    rw [hsteered.runSerial, hstart, ← hlength]
    exact hloop
  have hpositive : 0 < outcomes.length := by
    have hladder : ctx.ladder.length = n := by
      rw [hsteered.ladder, List.length_replicate]
    rw [hlength, rungEnd, hstart, hladder]
    omega
  have hover : overflowedEverywhere t.toLadderRun = true := by
    have hattempts := ht.attempts
    have hne : t.attempts ≠ [] := by
      rintro hnil
      rw [hnil] at hattempts
      have hzero := congrArg List.length hattempts
      rw [List.length_replicate] at hzero
      exact absurd hzero (Nat.ne_of_lt hpositive)
    have hall : t.attempts.all overflowed = true := by
      rw [List.all_eq_true]
      rintro a ha
      exact List.eq_of_mem_replicate (hattempts ▸ List.mem_map_of_mem ha)
    rw [overflowedEverywhere, ht.servedRung, decide_eq_true hne]
    exact hall
  have haccount := ht.account
  rw [List.take_length] at haccount
  have hretry := h.retry c.request
  obtain ⟨hbest, hserved⟩ := hsteered.runSerial_retry hn hmax (hok (n - 1) (asked c.request))
    second t.health
  have hladder : serialLadder ctx first second health =
      t.append (runSerial (retryCtx ctx c.request) second t.health) := by
    rw [serialLadder, hrun, hcfg]
    dsimp only
    rw [if_pos hover, hc]
  have hanswered : (t.append (runSerial (retryCtx ctx c.request) second t.health)).best.isSome =
      true := hbest
  rw [hladder, servedFrom_answered hanswered, ← haccount]
  cases hgate : runs (GateBudget.account t.health ctx.tenantId id) with
  | true =>
    rw [judged, (hretry.escalated (n - 1) hgate).1] at hserved
    exact if_neg (Bool.eq_false_iff.mp hserved)
  | false =>
    rw [judged, (hretry.skipped (n - 1) hgate).1] at hserved
    exact if_pos hserved

end run

end Firstpass.Lockstep
