import Firstpass.Proxy.GateBudget
import Firstpass.Proxy.LadderTurn
import Mathlib.Data.List.DropRight

/-!
# What the error budgets are told

A gate is accounted for by what it reports on the gated attempts, along one pass over the
gates, a run of the ladder and any history of runs.
-/

namespace Firstpass.GateBudget

variable {F : Type} [F64 F] {ctx : EnforceCtx F} {idx : Nat} {req : ModelRequest}
  {resp : ModelResponse} {tenant : String}

-- ---------------------------------------------------------------------------
-- Outcomes
-- ---------------------------------------------------------------------------

/-- The outcomes of a gate among the results, `true` for an abstain. -/
def outcomesOf (id : String) (results : List (GateResult F)) : List Bool :=
  (results.filter (·.gateId = id)).map fun r => decide (r.verdict = .abstain)

/-- The outcomes of a gate on the attempts that were gated. Where the provider abstained
there is a result of the provider instead. -/
def reports (id : String) (attempts : List (Attempt F)) : List Bool :=
  (attempts.filter (·.verdict ≠ .abstain)).flatMap fun a => outcomesOf id a.gates

@[simp] theorem outcomesOf_nil (id : String) : outcomesOf (F := F) id [] = [] := rfl

theorem outcomesOf_append (id : String) (xs ys : List (GateResult F)) :
    outcomesOf id (xs ++ ys) = outcomesOf id xs ++ outcomesOf id ys := by
  simp [outcomesOf]

@[simp] theorem reports_nil (id : String) : reports (F := F) id [] = [] := rfl

theorem reports_append (id : String) (xs ys : List (Attempt F)) :
    reports id (xs ++ ys) = reports id xs ++ reports id ys := by
  simp [reports]

theorem reports_abstained {a : Attempt F} (h : a.verdict = .abstain) (id : String) :
    reports id [a] = [] := by
  simp [reports, h]

theorem reports_gated {a : Attempt F} (h : a.verdict ≠ .abstain) (id : String) :
    reports id [a] = outcomesOf id a.gates := by
  simp [reports, h]

-- ---------------------------------------------------------------------------
-- From one registry to a later one
-- ---------------------------------------------------------------------------

/-- From `reg` to `later`, the gates of a tenant have reported `heard`. -/
def Heard (tenant : String) (heard : String → List Bool) (reg later : GateHealthRegistry F) :
    Prop :=
  ∀ t id, account later t id =
    if t = tenant then after (account reg t id) (heard id) else account reg t id

variable {reg later last : GateHealthRegistry F}

theorem Heard.refl (reg : GateHealthRegistry F) : Heard tenant (fun _ => []) reg reg := by
  intro t id
  simp

theorem Heard.trans {xs ys : String → List Bool} (h : Heard tenant xs reg later)
    (h' : Heard tenant ys later last) : Heard tenant (fun id => xs id ++ ys id) reg last := by
  intro t id
  rw [h' t id, h t id]
  split_ifs
  · rw [after_append]
  · rfl

theorem Heard.own {heard : String → List Bool} (h : Heard tenant heard reg later) (id : String) :
    account later tenant id = after (account reg tenant id) (heard id) := by
  rw [h tenant id, if_pos rfl]

/-- A lookup tells a registry nothing. -/
theorem heard_enabled (reg : GateHealthRegistry F) (tenant gateId : String) :
    Heard tenant (fun _ => []) reg (reg.enabled tenant gateId).2 := by
  intro t id
  rw [GateHealthRegistry.enabled]
  cases hbudget : reg.budgets gateId with
  | none => simp
  | some budget =>
    by_cases h : t = tenant ∧ id = gateId
    · obtain ⟨rfl, rfl⟩ := h
      simp [account, GateHealthRegistry.setState, GateHealthRegistry.entry, hbudget]
    · simp [account, GateHealthRegistry.setState, GateHealthRegistry.entry, h]

theorem heard_record (reg : GateHealthRegistry F) (tenant gateId : String) (errored : Bool) :
    Heard tenant (fun id => if id = gateId then [errored] else []) reg
      (reg.record tenant gateId errored) := by
  intro t id
  by_cases hid : id = gateId
  · subst hid
    by_cases ht : t = tenant
    · subst ht
      rw [account_record_self]
      simp [after]
    · rw [if_neg ht, GateHealthRegistry.record]
      cases hbudget : reg.budgets id with
      | none => rfl
      | some budget => simp [account, GateHealthRegistry.setState, GateHealthRegistry.entry, ht]
  · rw [GateHealthRegistry.record]
    cases hbudget : reg.budgets gateId with
    | none => simp [hid]
    | some budget => simp [account, GateHealthRegistry.setState, GateHealthRegistry.entry, hid]

-- ---------------------------------------------------------------------------
-- One pass over the gates
-- ---------------------------------------------------------------------------

theorem evalGates_heard (included : String → Bool) (gates : List (Gate F))
    (health : GateHealthRegistry F) :
    Heard ctx.tenantId (fun id =>
        outcomesOf id (evalGates ctx idx req resp included gates health).1)
      health (evalGates ctx idx req resp included gates health).2 := by
  induction gates generalizing health with
  | nil => exact .refl health
  | cons g gates ih =>
    rw [evalGates]
    dsimp only
    split_ifs
    · -- the gate runs: its own outcome comes before those of the rest
      have hlook := heard_enabled health ctx.tenantId g.id
      have hrecord := heard_record (health.enabled ctx.tenantId g.id).2 ctx.tenantId g.id
        (decide ((g.evaluate idx req resp).verdict = .abstain))
      have hall := (hlook.trans hrecord).trans (ih _)
      intro t id
      rw [hall t id]
      have hid := g.evaluate_gateId idx req resp
      by_cases h : g.id = id
      · simp [outcomesOf, hid, h]
      · simp [outcomesOf, hid, h, Ne.symm h]
    · exact (heard_enabled health ctx.tenantId g.id).trans (ih _)
    · exact ih health

/-- The results of a rung and the registry they leave, in either engine. -/
inductive Gating (ctx : EnforceCtx F) (idx : Nat) (req : ModelRequest) (resp : ModelResponse)
    (health : GateHealthRegistry F) : List (GateResult F) → GateHealthRegistry F → Prop
  | serial : Gating ctx idx req resp health (gateSerial ctx idx req resp health).1
      (gateSerial ctx idx req resp health).2.2
  | speculative : Gating ctx idx req resp health
      (gateSpeculative ctx idx req resp ctx.gates health).1
      (gateSpeculative ctx idx req resp ctx.gates health).2

theorem gateSpeculative_heard (gates : List (Gate F)) (health : GateHealthRegistry F) :
    Heard ctx.tenantId (fun id => outcomesOf id (gateSpeculative ctx idx req resp gates health).1)
      health (gateSpeculative ctx idx req resp gates health).2 := by
  have hall : evalGates ctx idx req resp (fun _ => true) gates health =
      gateSpeculative ctx idx req resp gates health := evalGates_all (fun _ => rfl) _ _
  rw [← hall]
  exact evalGates_heard _ gates health

theorem gateSerial_heard (health : GateHealthRegistry F) :
    Heard ctx.tenantId (fun id => outcomesOf id (gateSerial ctx idx req resp health).1)
      health (gateSerial ctx idx req resp health).2.2 := by
  cases hel : ctx.elastic with
  | none =>
    rw [gateSerial_of_elastic_none hel]
    exact gateSpeculative_heard ctx.gates health
  | some el =>
    simp only [gateSerial, hel]
    split_ifs
    · exact evalGates_heard _ ctx.gates health
    · exact evalGates_heard _ ctx.gates health
    · simp only [outcomesOf_append]
      exact (evalGates_heard _ ctx.gates health).trans (evalGates_heard _ ctx.gates _)

theorem Gating.heard {results : List (GateResult F)}
    (h : Gating ctx idx req resp reg results later) :
    Heard ctx.tenantId (fun id => outcomesOf id results) reg later := by
  cases h with
  | serial => exact gateSerial_heard reg
  | speculative => exact gateSpeculative_heard ctx.gates reg

theorem Gating.of_elastic_none {results : List (GateResult F)} (he : ctx.elastic = none)
    (h : Gating ctx idx req resp reg results later) :
    results = (gateSpeculative ctx idx req resp ctx.gates reg).1 := by
  cases h with
  | serial => rw [gateSerial_of_elastic_none he]
  | speculative => rfl

-- ---------------------------------------------------------------------------
-- One rung
-- ---------------------------------------------------------------------------

/-- What a rung of either engine adds to the attempts, and tells the budgets. -/
inductive Rung (ctx : EnforceCtx F) (idx : Nat) (s t : LoopState F) (flow : Flow) : Prop
  | passedOver (a : Attempt F) (attempts : t.attempts = s.attempts ++ [a])
    (verdict : a.verdict = .abstain) (health : t.health = s.health)
    (servedRung : t.servedRung = s.servedRung)
  | gated (a : Attempt F) (resp : ModelResponse) (attempts : t.attempts = s.attempts ++ [a])
    (verdict : a.verdict ≠ .abstain) (rung : a.rung = idx) (best : t.best = some (idx, resp))
    (gating : Gating ctx idx (requestFor ctx a.model) resp s.health a.gates t.health)
    (served : t.servedRung = some idx ∧ flow = .stop ∨ t.servedRung = s.servedRung)

theorem aggregate_ne_abstain (results : List (GateResult F)) (failClosed : List String) :
    aggregateWithPolicy results failClosed ≠ .abstain := by
  unfold aggregateWithPolicy
  split <;> simp

variable {s t : LoopState F} {flow : Flow}

theorem rung_abstain (model provider reason : String) (ms : Nat)
    (hat : t.attempts = s.attempts) (hhealth : t.health = s.health)
    (hsr : t.servedRung = s.servedRung) :
    Rung ctx idx s (t.abstain idx model provider reason ms) flow :=
  .passedOver _ (congrArg (· ++ _) hat) rfl hhealth hsr

theorem rung_conclude {a : Attempt F} (serve : Bool) (hat : t.attempts = s.attempts ++ [a])
    (hverdict : a.verdict ≠ .abstain) (hrung : a.rung = idx) (hbest : t.best = some (idx, resp))
    (hgating : Gating ctx idx (requestFor ctx a.model) resp s.health a.gates t.health)
    (hsr : t.servedRung = s.servedRung) :
    Rung ctx idx s (t.conclude ctx idx serve).1 (t.conclude ctx idx serve).2 := by
  unfold LoopState.conclude
  split_ifs
  · exact .gated a resp hat hverdict hrung hbest hgating (.inl ⟨rfl, rfl⟩)
  · exact .gated a resp hat hverdict hrung hbest hgating (.inr hsr)
  · exact .gated a resp hat hverdict hrung hbest hgating (.inr hsr)

theorem rung_error (err : ProviderError) (model provider : String) (ms : Nat)
    (hat : t.attempts = s.attempts) (hhealth : t.health = s.health)
    (hsr : t.servedRung = s.servedRung) :
    Rung ctx idx s (settle ctx idx model provider (.error err) ms t).1
      (settle ctx idx model provider (.error err) ms t).2 := by
  unfold settle
  simp only
  split_ifs
  · exact rung_abstain model provider _ ms hat hhealth hsr
  · exact rung_abstain model provider _ ms hat hhealth hsr
  · exact .passedOver _ (congrArg (· ++ _) hat) rfl hhealth hsr

theorem rung_settle (result : Except ProviderError ModelResponse) (model provider : String)
    (ms : Nat) (hat : t.attempts = s.attempts) (hhealth : t.health = s.health)
    (hsr : t.servedRung = s.servedRung) :
    Rung ctx idx s (settle ctx idx model provider result ms t).1
      (settle ctx idx model provider result ms t).2 := by
  cases result with
  | error err => exact rung_error err model provider ms hat hhealth hsr
  | ok resp =>
    refine rung_conclude _ (congrArg (· ++ _) hat) (aggregate_ne_abstain _ _) rfl rfl ?_ hsr
    rw [← hhealth]
    exact .speculative

theorem serialRung_rung (elapsed : Nat → Nat) (model : String) (s : LoopState F) :
    Rung ctx idx s (serialRung ctx elapsed idx model s).1
      (serialRung ctx elapsed idx model s).2 := by
  cases hp : resolveProvider ctx model with
  | none =>
    rw [serialRung_unknown hp]
    exact rung_abstain model "unknown" _ _ rfl rfl rfl
  | some provider =>
    cases hans : answerOf ctx idx model provider with
    | error err =>
      rw [serialRung_failed hp hans]
      exact rung_error err model provider.id (elapsed idx) rfl rfl rfl
    | ok resp =>
      rw [serialRung_answered hp hans]
      exact rung_conclude _ rfl (aggregate_ne_abstain _ _) rfl rfl .serial rfl

theorem specRung_rung (sched : Schedule) (elapsed : Nat → Nat) {s : SpecState F}
    (hin : Inflight ctx idx s) (hidx : idx < rungEnd ctx) (hm : ctx.ladder[idx]? = some model) :
    Rung ctx idx s.toLoopState (specRung ctx sched elapsed idx model s).1.toLoopState
      (specRung ctx sched elapsed idx model s).2 := by
  obtain ⟨js, hfire⟩ := fireWindow_eq ctx idx s
  have hat : (fireWindow ctx idx s).attempts = s.attempts := congrArg (·.attempts) hfire
  have hhealth : (fireWindow ctx idx s).health = s.health := congrArg (·.health) hfire
  have hsr : (fireWindow ctx idx s).servedRung = s.servedRung := congrArg (·.servedRung) hfire
  cases hp : resolveProvider ctx model with
  | none =>
    rw [specRung_unknown hp]
    exact rung_abstain model "unknown" _ _ hat hhealth hsr
  | some provider =>
    cases hpanic : sched.panicked idx with
    | true =>
      rw [specRung_panicked hin hidx hm hp hpanic]
      exact rung_abstain model provider.id _ _ hat hhealth hsr
    | false =>
      rw [specRung_eq hin hidx hm hp hpanic]
      exact rung_settle _ model provider.id _ hat hhealth hsr

-- ---------------------------------------------------------------------------
-- A run of the ladder
-- ---------------------------------------------------------------------------

/-- The last attempt gated the best answer, and the budgets had heard the others by then. -/
def GatedLast (ctx : EnforceCtx F) (health : GateHealthRegistry F) (s : LoopState F)
    (rung : Nat) : Prop :=
  ∃ earlier a resp h later, s.attempts = earlier ++ [a] ∧ a.rung = rung ∧
    s.best = some (rung, resp) ∧
    Heard ctx.tenantId (fun id => reports id earlier) health h ∧
    Gating ctx rung (requestFor ctx a.model) resp h a.gates later

/-- What the budgets have been told in a run that began with `health`. -/
structure Told (ctx : EnforceCtx F) (health : GateHealthRegistry F) (s : LoopState F) : Prop where
  heard : Heard ctx.tenantId (fun id => reports id s.attempts) health s.health
  served : ∀ rung, s.servedRung = some rung → GatedLast ctx health s rung

variable {health : GateHealthRegistry F}

theorem Told.init : Told ctx health (.init health) where
  heard := .refl health
  served := by simp [LoopState.init]

theorem Told.rung (h : Told ctx health s) (hs : s.servedRung = none)
    (hr : Rung ctx idx s t flow) :
    Told ctx health t ∧ (flow = .next → t.servedRung = none) := by
  cases hr with
  | passedOver a attempts verdict hhealth hsr =>
    refine ⟨⟨?_, fun rung hserved => ?_⟩, fun _ => hsr.trans hs⟩
    · have hheard := h.heard
      simpa only [hhealth, attempts, reports_append, reports_abstained verdict, List.append_nil]
        using hheard
    · rw [hsr, hs] at hserved
      cases hserved
  | gated a resp attempts verdict hrung best gating served =>
    refine ⟨⟨?_, fun rung hserved => ?_⟩, fun hflow => ?_⟩
    · have hheard := h.heard.trans gating.heard
      simpa only [attempts, reports_append, reports_gated verdict] using hheard
    · rcases served with ⟨hsr, -⟩ | hsr
      · rw [hsr] at hserved
        cases hserved
        exact ⟨s.attempts, a, resp, s.health, t.health, attempts, hrung, best, h.heard, gating⟩
      · rw [hsr, hs] at hserved
        cases hserved
    · rcases served with ⟨-, hstop⟩ | hsr
      · rw [hflow] at hstop
        cases hstop
      · exact hsr.trans hs

theorem serialLoop_told (elapsed : Nat → Nat) (h : Told ctx health s) (hs : s.servedRung = none)
    (rest : List String) (idx : Nat) : Told ctx health (serialLoop ctx elapsed rest idx s) := by
  induction rest generalizing idx s with
  | nil => exact h
  | cons model rest ih =>
    obtain ⟨htold, hnext⟩ := h.rung hs (serialRung_rung elapsed model s)
    simp only [serialLoop]
    split
    · rename_i u heq
      rw [heq] at htold hnext
      exact ih htold (hnext rfl) (idx + 1)
    · rename_i u heq
      rw [heq] at htold
      exact htold

theorem specLoop_told (sched : Schedule) (elapsed : Nat → Nat) {s : SpecState F}
    (h : Told ctx health s.toLoopState) (hs : s.servedRung = none) (hin : Inflight ctx idx s)
    (hrest : rest = rungsFrom ctx idx) :
    Told ctx health (specLoop ctx sched elapsed rest idx s).toLoopState := by
  induction rest generalizing idx s with
  | nil => exact h
  | cons model rest ih =>
    obtain ⟨hm, hlt, hnext⟩ := rungsFrom_cons hrest.symm
    obtain ⟨htold, hgoes⟩ := h.rung hs (specRung_rung sched elapsed hin hlt hm)
    have hin' := specRung_inflight sched elapsed hin hlt hm
    simp only [specLoop]
    split
    · rename_i u heq
      rw [heq] at htold hgoes hin'
      exact ih htold (hgoes rfl) hin' hnext
    · rename_i u heq
      rw [heq] at htold
      exact htold

theorem runEngine_told (ctx : EnforceCtx F) (env : Surroundings) (health : GateHealthRegistry F) :
    Told ctx health (runEngine ctx env health) := by
  unfold runEngine
  split
  · exact serialLoop_told env.elapsed .init rfl _ _
  · have hinit : Inflight ctx (startOf ctx) ⟨.init health, []⟩ := .init health _
    obtain ⟨heard, served⟩ := specLoop_told env.sched env.elapsed .init rfl hinit rfl
    exact ⟨heard, served⟩

/-- A served rung is gated by the settings of the last pass, once the budgets have heard all
attempts before it. -/
theorem runLadder_told (ctx : EnforceCtx F) (first second : Surroundings)
    (health : GateHealthRegistry F) :
    Heard ctx.tenantId (fun id => reports id (runLadder ctx first second health).attempts) health
        (runLadder ctx first second health).health ∧
      ∀ rung, (runLadder ctx first second health).servedRung = some rung →
        ∃ run, LastPass ctx run ∧
          GatedLast run health (runLadder ctx first second health) rung := by
  have hfirst := runEngine_told ctx first health
  cases hretry : retried ctx (runEngine ctx first health).toLadderRun with
  | none =>
    rw [runLadder_once hretry]
    exact ⟨hfirst.heard, fun rung hrung => ⟨ctx, .only, hfirst.served rung hrung⟩⟩
  | some c =>
    rw [(runLadder_twice second hretry).2]
    obtain ⟨heard, served⟩ := runEngine_told (retryCtx ctx c.request) second
      (runEngine ctx first health).health
    refine ⟨?_, fun rung hrung => ?_⟩
    · have hheard := hfirst.heard.trans heard
      simpa only [LoopState.append, reports_append] using hheard
    · obtain ⟨earlier, a, resp, h, later, hat, hrung', hbest, hheard, hgating⟩ :=
        served rung hrung
      refine ⟨_, .retry c.request, (runEngine ctx first health).attempts ++ earlier, a, resp, h,
        later, ?_, hrung', hbest, ?_, hgating⟩
      · rw [List.append_assoc, ← hat]
        rfl
      · have hbefore := hfirst.heard.trans hheard
        simp only [reports_append]
        exact hbefore

-- ---------------------------------------------------------------------------
-- A history of runs
-- ---------------------------------------------------------------------------

/-- One call of `route_enforce`. -/
structure Call (F : Type) [F64 F] where
  ctx : EnforceCtx F
  first : Surroundings
  second : Surroundings
  traceId : String
  ts : String

def Call.routed (c : Call F) (health : GateHealthRegistry F) : Routed F :=
  routeEnforce c.ctx c.first c.second health c.traceId c.ts

/-- The receipts of the calls in order, and the registry they leave. -/
def routeAll : List (Call F) → GateHealthRegistry F → List (Trace F) × GateHealthRegistry F
  | [], health => ([], health)
  | c :: calls, health =>
    let out := c.routed health
    let rest := routeAll calls out.health
    (out.trace :: rest.1, rest.2)

/-- What a gate has reported to a tenant, by the receipts. -/
def reported (tenant id : String) (traces : List (Trace F)) : List Bool :=
  (traces.filter (·.tenantId = tenant)).flatMap fun t => reports id t.attempts

theorem routed_heard (c : Call F) (health : GateHealthRegistry F) :
    Heard c.ctx.tenantId (fun id => reports id (c.routed health).trace.attempts) health
      (c.routed health).health :=
  (runLadder_told c.ctx c.first c.second health).1

theorem account_routeAll (calls : List (Call F)) (health : GateHealthRegistry F)
    (tenant id : String) :
    account (routeAll calls health).2 tenant id =
      after (account health tenant id) (reported tenant id (routeAll calls health).1) := by
  induction calls generalizing health with
  | nil => simp [routeAll, reported]
  | cons c calls ih =>
    have hheard := routed_heard c health tenant id
    have htenant : (c.routed health).trace.tenantId = c.ctx.tenantId := rfl
    simp only [routeAll]
    rw [ih, hheard]
    split_ifs with h
    · rw [← after_append]
      simp [reported, htenant, h]
    · simp [reported, htenant, Ne.symm h]

end Firstpass.GateBudget
