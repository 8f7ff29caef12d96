import Firstpass.Proxy.GateHistory
import Firstpass.Proxy.ResolveGates
import Firstpass.Proxy.SteadyGates

/-!
# Gates that fail closed

An abstain of such a gate keeps an attempt from being served. A served attempt has its pass,
then, unless the gate was not there to be run: it could not be resolved, or its error budget
had disabled it.
-/

namespace Firstpass

variable {F : Type} [F64 F]

-- ---------------------------------------------------------------------------
-- The budgets a proxy starts with
-- ---------------------------------------------------------------------------

def GateHealthRegistry.new : GateHealthRegistry F := ⟨fun _ => none, fun _ _ => none⟩

def GateHealthRegistry.withBudget (reg : GateHealthRegistry F) (gateId : String) (window : Nat)
    (maxErrorRate : F) : GateHealthRegistry F :=
  { reg with
    budgets := fun g => if g = gateId then some (window, maxErrorRate) else reg.budgets g }

namespace ConfigFile

/-- A gate that was not seen before gets the default budget. -/
def budgetOnce (acc : List String × GateHealthRegistry F) (gate : String) :
    List String × GateHealthRegistry F :=
  if gate ∈ acc.1 then acc else (gate :: acc.1, acc.2.withBudget gate 50 0.25)

def buildGateHealth (config : Config F) : GateHealthRegistry F :=
  ((config.routes.flatMap fun r => r.gates ++ r.deferredGates).foldl budgetOnce ([], .new)).2

/-- The gates seen are those with a budget, and nothing is held on any. -/
structure Budgeted (acc : List String × GateHealthRegistry F) : Prop where
  budget : ∀ g ∈ acc.1, acc.2.budgets g = some (50, 0.25)
  unused : ∀ t g, acc.2.state t g = none

variable {acc : List String × GateHealthRegistry F}

theorem Budgeted.once (h : Budgeted acc) (gate : String) :
    Budgeted (budgetOnce acc gate) ∧ gate ∈ (budgetOnce acc gate).1 ∧
      ∀ g ∈ acc.1, g ∈ (budgetOnce acc gate).1 := by
  unfold budgetOnce
  split_ifs with hseen
  · exact ⟨h, hseen, fun g hg => hg⟩
  · refine ⟨⟨fun g hg => ?_, h.unused⟩, List.mem_cons_self, fun g hg => List.mem_cons_of_mem _ hg⟩
    simp only [GateHealthRegistry.withBudget]
    split_ifs with heq
    · rfl
    · exact h.budget g ((List.mem_cons.mp hg).resolve_left heq)

theorem Budgeted.all (h : Budgeted acc) (gates : List String) :
    Budgeted (gates.foldl budgetOnce acc) ∧
      ∀ g, g ∈ gates ∨ g ∈ acc.1 → g ∈ (gates.foldl budgetOnce acc).1 := by
  induction gates generalizing acc with
  | nil => exact ⟨h, fun g hg => hg.resolve_left List.not_mem_nil⟩
  | cons gate gates ih =>
    obtain ⟨hone, hnew, hold⟩ := h.once gate
    obtain ⟨hall, hmem⟩ := ih hone
    refine ⟨hall, ?_⟩
    rintro g (hg | hg)
    · rcases List.mem_cons.mp hg with rfl | hg
      · exact hmem g (.inr hnew)
      · exact hmem g (.inl hg)
    · exact hmem g (.inr (hold g hg))

end ConfigFile

-- ---------------------------------------------------------------------------
-- When a budget is spent
-- ---------------------------------------------------------------------------

namespace GateBudget

/-- Of some `window` outcomes in a row, errors made up more than `maxErrorRate`. -/
def Tripped (window : Nat) (maxErrorRate : F) (outcomes : List Bool) : Prop :=
  ∃ n, window ≤ n ∧ n ≤ outcomes.length ∧
    maxErrorRate < (((outcomes.take n).rtake window).count true : F) / (window : F)

variable {window : Nat} {maxErrorRate : F} {outcomes : List Bool}

theorem tripped_nil (hw : 0 < window) : ¬Tripped window maxErrorRate [] := by
  rintro ⟨n, hle, hn, -⟩
  rw [List.length_nil] at hn
  omega

theorem tripped_concat (errored : Bool) : Tripped window maxErrorRate (outcomes ++ [errored]) ↔
    Tripped window maxErrorRate outcomes ∨ window ≤ outcomes.length + 1 ∧
      maxErrorRate < (((outcomes ++ [errored]).rtake window).count true : F) / (window : F) := by
  have hlength : (outcomes ++ [errored]).length = outcomes.length + 1 := List.length_append
  constructor
  · rintro ⟨n, hle, hn, hrate⟩
    rw [hlength] at hn
    rcases Nat.lt_or_eq_of_le hn with hlt | rfl
    · have hn' : n ≤ outcomes.length := Nat.le_of_lt_succ hlt
      rw [List.take_append_of_le_length hn'] at hrate
      exact .inl ⟨n, hle, hn', hrate⟩
    · rw [← hlength, List.take_length] at hrate
      exact .inr ⟨hle, hrate⟩
  · rintro (⟨n, hle, hn, hrate⟩ | ⟨hle, hrate⟩)
    · refine ⟨n, hle, by omega, ?_⟩
      rwa [List.take_append_of_le_length hn]
    · refine ⟨outcomes.length + 1, hle, hlength.ge, ?_⟩
      rwa [← hlength, List.take_length]

/-- The health is what the outcomes have made of it. -/
structure HealthOf (window : Nat) (maxErrorRate : F) (outcomes : List Bool) (h : GateHealth F) :
    Prop where
  size : h.window = window
  rate : h.maxErrorRate = maxErrorRate
  recent : h.outcomes = outcomes.rtake window
  disabled : h.disabled = true ↔ Tripped window maxErrorRate outcomes

theorem healthOf_new (hw : 0 < window) (maxErrorRate : F) :
    HealthOf window maxErrorRate [] (.new window maxErrorRate) where
  size := Nat.max_eq_left hw
  rate := rfl
  recent := by simp [GateHealth.new]
  disabled := by simp [GateHealth.new, tripped_nil hw]

theorem rtake_concat (hw : 0 < window) (outcomes : List Bool) (errored : Bool) :
    let q := outcomes.rtake window ++ [errored]
    q.drop (q.length - window) = (outcomes ++ [errored]).rtake window := by
  obtain ⟨n, rfl⟩ := Nat.exists_eq_add_of_lt hw
  simp only [List.rtake, List.length_append, List.length_drop, List.length_singleton,
    List.drop_append]
  congr 1
  · rw [List.drop_drop]
    congr 1
    omega
  · congr 1
    omega

theorem length_rtake (outcomes : List Bool) (n : Nat) :
    (outcomes.rtake n).length = min n outcomes.length := by
  simp only [List.rtake, List.length_drop]
  omega

theorem HealthOf.record {h : GateHealth F} (hw : 0 < window)
    (hh : HealthOf window maxErrorRate outcomes h) (errored : Bool) :
    HealthOf window maxErrorRate (outcomes ++ [errored]) (h.record errored) := by
  have hrecent := rtake_concat hw outcomes errored
  have hlength := length_rtake (outcomes ++ [errored]) window
  rw [List.length_append, List.length_singleton] at hlength
  unfold GateHealth.record
  simp only [hh.recent, hh.size, hh.rate, hrecent, hlength]
  split_ifs with hfull
  · have hle : window ≤ outcomes.length + 1 := min_eq_left_iff.mp hfull
    refine ⟨rfl, rfl, rfl, ?_⟩
    rw [tripped_concat, Bool.or_eq_true, hh.disabled, decide_eq_true_eq]
    exact or_congr_right (and_iff_right hle).symm
  · have hnle : ¬window ≤ outcomes.length + 1 := fun hle => hfull (Nat.min_eq_left hle)
    refine ⟨rfl, rfl, rfl, ?_⟩
    rw [tripped_concat, hh.disabled]
    exact (or_iff_left fun h => hnle h.1).symm

theorem healthOf (hw : 0 < window) (maxErrorRate : F) (outcomes : List Bool) :
    HealthOf window maxErrorRate outcomes
      (outcomes.foldl GateHealth.record (.new window maxErrorRate)) := by
  induction outcomes using List.reverseRecOn with
  | nil => exact healthOf_new hw maxErrorRate
  | append_singleton outcomes errored ih =>
    rw [List.foldl_concat]
    exact ih.record hw errored

/-- A gate with a budget runs until the budget is spent. -/
theorem runs_budget (hw : 0 < window) (maxErrorRate : F) (outcomes : List Bool) :
    runs (after (some (GateHealth.new window maxErrorRate)) outcomes) = true ↔
      ¬Tripped window maxErrorRate outcomes := by
  rw [← (healthOf hw maxErrorRate outcomes).disabled]
  simp [runs, after, GateHealth.isEnabled]

-- ---------------------------------------------------------------------------
-- Which gates report
-- ---------------------------------------------------------------------------

variable {ctx : EnforceCtx F} {idx : Nat} {req : ModelRequest} {resp : ModelResponse}
  {health : GateHealthRegistry F} {gates : List (Gate F)} {id : String}

theorem silent_of_disabled (h : runs (account health ctx.tenantId id) = false) :
    ∀ r ∈ (gateSpeculative ctx idx req resp gates health).1, r.gateId ≠ id := by
  induction gates generalizing health with
  | nil => simp [gateSpeculative]
  | cons g gates ih =>
    rw [gateSpeculative, enabled_fst]
    have hlook := account_enabled health ctx.tenantId g.id id
    split_ifs with hruns
    · have hne : g.id ≠ id := by
        rintro rfl
        rw [h] at hruns
        cases hruns
      rintro r hr
      rcases List.mem_cons.mp hr with rfl | hr
      · rwa [g.evaluate_gateId]
      · refine ih ?_ r hr
        rwa [account_record_ne _ _ _ hne.symm, hlook]
    · exact ih (by rwa [hlook])

/-- Of the gates of one name the first decides: it reports where its budget lets it run. -/
theorem reports_iff (hg : ∃ g ∈ gates, g.id = id) :
    (∃ r ∈ (gateSpeculative ctx idx req resp gates health).1, r.gateId = id) ↔
      runs (account health ctx.tenantId id) = true := by
  induction gates generalizing health with
  | nil =>
    obtain ⟨g, hg, -⟩ := hg
    cases hg
  | cons g gates ih =>
    have hlook := account_enabled health ctx.tenantId g.id id
    by_cases hid : g.id = id
    · cases hruns : runs (account health ctx.tenantId id) with
      | false =>
        have hsilent : ∀ r ∈ (gateSpeculative ctx idx req resp (g :: gates) health).1,
            r.gateId ≠ id := silent_of_disabled hruns
        simpa using hsilent
      | true =>
        subst hid
        rw [gateSpeculative, enabled_fst, if_pos hruns]
        exact iff_of_true ⟨_, List.mem_cons_self, g.evaluate_gateId idx req resp⟩ rfl
    · have hrest : ∃ g' ∈ gates, g'.id = id := by
        obtain ⟨g', hg', hid'⟩ := hg
        rcases List.mem_cons.mp hg' with rfl | hg'
        · exact absurd hid' hid
        · exact ⟨g', hg', hid'⟩
      rw [gateSpeculative, enabled_fst]
      split_ifs with hruns
      · have hhead : (g.evaluate idx req resp).gateId ≠ id := by rwa [g.evaluate_gateId]
        dsimp only
        rw [List.exists_mem_cons_iff, or_iff_right hhead, ih hrest,
          account_record_ne _ _ _ (Ne.symm hid), hlook]
      · rw [ih hrest, hlook]

end GateBudget

-- ---------------------------------------------------------------------------
-- What a served attempt rests on
-- ---------------------------------------------------------------------------

theorem Judged.decision_none {ctx : EnforceCtx F} {results : List (GateResult F)}
    {decision : Option (ElasticDecision F)} (he : ctx.elastic = none)
    (h : Judged ctx idx results decision) : decision = none := by
  cases h with
  | serial => rw [gateSerial_of_elastic_none he]
  | speculative => rfl

namespace ConfigFile

open GateBudget

variable {config : Config F} {env : GateEnv F} {run : GateRunner F} {d : GateDef F}
  {route : Route F} {name : String} {ctx : EnforceCtx F}

/-- A gate that a route names has the default budget. -/
theorem account_buildGateHealth (hroute : route ∈ config.routes) (hname : name ∈ route.gates)
    (tenant : String) :
    account (buildGateHealth config) tenant name = some (.new 50 0.25) := by
  have hinit : Budgeted (F := F) ([], .new) := ⟨by simp, fun _ _ => rfl⟩
  obtain ⟨hall, hmem⟩ := hinit.all (config.routes.flatMap fun r => r.gates ++ r.deferredGates)
  have hnamed : name ∈ config.routes.flatMap fun r => r.gates ++ r.deferredGates :=
    List.mem_flatMap.mpr ⟨route, hroute, List.mem_append_left _ hname⟩
  have hseen := hmem name (.inl hnamed)
  unfold buildGateHealth
  rw [account, hall.budget name hseen]
  simp [GateHealthRegistry.entry, hall.unused]

omit [F64 F] in
theorem resolveGate_some (hbuiltin : name ∉ builtinGates)
    (hdef : (env.defs.find? fun d => d.id = name) = some d) (hbuild : env.build d = some spec) :
    env.resolveGate name = some (push spec (some d)) := by
  rw [GateEnv.resolveGate_def hbuiltin, hdef, Option.bind_some, hbuild]
  rfl

/-- The gates of one name are one gate. -/
theorem mem_gates {names : List String} {g : Gate F} (hg : g ∈ env.gates run names) :
    ∃ r, env.resolveGate g.id = some r ∧ g = r.toGate run := by
  obtain ⟨r, hr, rfl⟩ := List.mem_map.mp hg
  obtain ⟨name, -, hresolve⟩ := List.mem_filterMap.mp hr
  have hid : (r.toGate run).id = name := GateEnv.resolveGate_id hresolve
  exact ⟨r, hid ▸ hresolve, rfl⟩

/-- The gate of the definition was evaluated on the candidate of the attempt, and passed it. -/
def EvaluatedPass (env : GateEnv F) (run : GateRunner F) (d : GateDef F) (ctx : EnforceCtx F)
    (a : Attempt F) (resp : ModelResponse) : Prop :=
  ∃ spec, env.build d = some spec ∧
    run.evaluate spec a.rung (requestFor ctx a.model) resp ∈ a.gates ∧
    (run.evaluate spec a.rung (requestFor ctx a.model) resp).verdict = .pass

/-- The gates that clear an attempt pass it where they fail closed. -/
theorem pass_of_clears {gates : List (Gate F)} {g : Gate F} (hg : g ∈ gates)
    (hclosed : g.abstainFailsClosed = true) {r : GateResult F} (hid : r.gateId = g.id)
    (hclears : Clears gates r) : r.verdict = .pass := by
  obtain ⟨hfail, habstain⟩ := hclears
  cases hverdict : r.verdict with
  | pass => rfl
  | fail => exact absurd hverdict hfail
  | abstain =>
    have hopen := habstain hverdict g hg hid.symm
    rw [hclosed] at hopen
    cases hopen

/-- With plain serving, the results of the last attempt of a served run clear the gates, and are
those of a pass that began with the budgets as they are after all other attempts. -/
theorem served_pass {ctx : EnforceCtx F} (he : ctx.elastic = none) (ht : ctx.serveThreshold = none)
    {first second : Surroundings} {health : GateHealthRegistry F} {rung : Nat}
    (h : (runLadder ctx first second health).servedRung = some rung) :
    ∃ last earlier a resp reg, LastPass ctx last ∧
      (runLadder ctx first second health).attempts = earlier ++ [a] ∧
      (runLadder ctx first second health).best = some (rung, resp) ∧ a.rung = rung ∧
      a.gates = (gateSpeculative last rung (requestFor last a.model) resp ctx.gates reg).1 ∧
      last.tenantId = ctx.tenantId ∧
      Heard ctx.tenantId (fun id => reports id earlier) health reg ∧
      ∀ r ∈ a.gates, Clears ctx.gates r := by
  obtain ⟨last, hlast, earlier, a, resp, reg, later, hat, hrung, hbest, hheard, hgating⟩ :=
    (runLadder_told ctx first second health).2 rung h
  obtain ⟨last', hlast', earlier', a', resp', hat', -, -, hjudged, hserves⟩ := runLadder_served h
  obtain ⟨-, hsame⟩ := List.append_inj' (hat.symm.trans hat') rfl
  obtain rfl : a = a' := List.head_eq_of_cons_eq hsame
  have htenant : last.tenantId = ctx.tenantId := by cases hlast <;> rfl
  have hel : last.elastic = none := by cases hlast <;> exact he
  have hel' : last'.elastic = none := by cases hlast' <;> exact he
  have ht' : last'.serveThreshold = none := by cases hlast' <;> exact ht
  have hresults := hgating.of_elastic_none hel
  rw [hlast.gates] at hresults
  rw [htenant] at hheard
  refine ⟨last, earlier, a, resp, reg, hlast, hat, hbest, hrung, hresults, htenant, hheard, ?_⟩
  rw [hjudged.judged.decision_none hel'] at hserves
  have hpass := (shouldServe_none ht').mp hserves
  rw [hlast'.gates] at hpass
  exact aggregateWithPolicy_eq_pass.mp hpass

/-- Fail-closed means closed for the gates that are there: a served attempt has the pass of
such a gate exactly if the gate could be built for the request and its budget was not spent. -/
theorem fail_closed_serves_on_pass (hroute : route ∈ config.routes) (hname : name ∈ route.gates)
    (hbuiltin : name ∉ builtinGates)
    (hdef : (config.gateDefs.find? fun d => d.id = name) = some d)
    (hclosed : d.onAbstain = .failClosed) (calls : List (Call F))
    (henv : env.defs = config.gateDefs) (call : Call F)
    (hgates : call.ctx.gates = env.gates run route.gates)
    (he : call.ctx.elastic = none) (ht : call.ctx.serveThreshold = none)
    (hserved : (call.routed (routeAll calls (buildGateHealth config)).2).trace.final.servedFrom =
      .attempt) :
    ∃ last earlier a resp, LastPass call.ctx last ∧
      (call.routed (routeAll calls (buildGateHealth config)).2).trace.attempts = earlier ++ [a] ∧
      (call.routed (routeAll calls (buildGateHealth config)).2).outcome = .served resp ∧
      (EvaluatedPass env run d last a resp ↔ (env.build d).isSome = true ∧
        ¬Tripped 50 (0.25 : F)
          (reported call.ctx.tenantId name (routeAll calls (buildGateHealth config)).1 ++
            reports name earlier)) := by
  obtain ⟨rung, resp, hsr, hbest, hout, -⟩ := serveDecision_attempt hserved
  obtain ⟨last, earlier, a, resp', reg, hlast, hat, hbest', hrung, hresults, htenant, hheard,
    hclears⟩ := served_pass he ht hsr
  obtain rfl : resp' = resp := by simpa [hbest'] using hbest
  refine ⟨last, earlier, a, resp', hlast, hat, hout, ?_⟩
  rw [← henv] at hdef
  cases hbuild : env.build d with
  | none =>
    refine iff_of_false ?_ (by simp)
    rintro ⟨spec, hspec, -⟩
    rw [hbuild] at hspec
    cases hspec
  | some spec =>
    have hresolve := resolveGate_some hbuiltin hdef hbuild
    have hmem : (push spec (some d)).toGate run ∈ call.ctx.gates := by
      rw [hgates]
      exact List.mem_map_of_mem (List.mem_filterMap.mpr ⟨name, hname, hresolve⟩)
    have hid : ((push spec (some d)).toGate run).id = name := GateEnv.resolveGate_id hresolve
    have hfails : ((push spec (some d)).toGate run).abstainFailsClosed = true := by
      simp [ResolvedGate.toGate, push, hclosed]
    have haccount : account reg last.tenantId name =
        after (some (.new 50 0.25))
          (reported call.ctx.tenantId name (routeAll calls (buildGateHealth config)).1 ++
            reports name earlier) := by
      rw [htenant, hheard.own, account_routeAll, account_buildGateHealth hroute hname, after_append]
    have hreports : (∃ r ∈ a.gates, r.gateId = name) ↔
        runs (account reg last.tenantId name) = true := by
      rw [hresults]
      exact reports_iff ⟨_, hmem, hid⟩
    rw [haccount, runs_budget (by omega)] at hreports
    rw [← hreports]
    simp only [Option.isSome_some, true_and]
    constructor
    · rintro ⟨spec', hspec', hevaluated, -⟩
      refine ⟨_, hevaluated, ?_⟩
      rw [run.evaluate_gateId, GateEnv.build_id hspec']
      simpa using List.find?_some hdef
    · rintro ⟨r, hr, hrname⟩
      have hpass := pass_of_clears hmem hfails (hrname.trans hid.symm) (hclears r hr)
      have hresult := hr
      rw [hresults] at hresult
      obtain ⟨g, hg, rfl⟩ := Lockstep.mem_gateSpeculative hresult
      rw [g.evaluate_gateId] at hrname
      rw [hgates] at hg
      obtain ⟨resolved, hsame, rfl⟩ := mem_gates hg
      rw [hrname, hresolve] at hsame
      cases hsame
      refine ⟨spec, hbuild, ?_, ?_⟩
      · rw [hrung]
        exact hr
      · rw [hrung]
        exact hpass

-- ---------------------------------------------------------------------------
-- A judge that fails closed
-- ---------------------------------------------------------------------------

def guardDef : GateDef ℚ where
  id := "judge"
  cmd := []
  timeoutMs := 30000
  judge := some ⟨"jury/model", 0.5, none⟩
  consistency := none
  schema := none
  decision := none
  onAbstain := .failClosed

def guardRoute : Route ℚ where
  match_ := Routing.Match.any
  mode := .enforce
  ladder := sampleCtx.ladder
  gates := ["judge"]
  deferredGates := []
  routingMode := none
  rollout := none
  shadow := none
  challenger := none

def guardConfig : Config ℚ where
  routes := [guardRoute]
  budget := ⟨none, none, none, .serveBestAttempt⟩
  escalation := .default
  guardrail := none
  gateDefs := [guardDef]
  priceDefs := []
  providers := ["acme", "jury"]

/-- The provider of the judge may be missing. -/
def guardEnv (registered : Bool) : GateEnv ℚ where
  defs := guardConfig.gateDefs
  registry := ⟨fun id => if registered then some { sampleProvider with id } else none⟩
  auth := sampleCtx.auth
  prices := sampleCtx.prices
  var _ := none

def guardRunner (verdict : Verdict) : GateRunner ℚ where
  evaluate spec _ _ _ := { GateResult.abstain spec.id "" 0 with verdict, reason := none }
  evaluate_gateId _ _ _ _ := rfl

/-- A request whose judge, if there is one, reports `verdict`. -/
def guardCall (registered : Bool) (verdict : Verdict) : Call ℚ where
  ctx := { sampleCtx with gates := (guardEnv registered).gates (guardRunner verdict) ["judge"] }
  first := ⟨fun _ => 7, sampleSchedule⟩
  second := ⟨fun _ => 7, sampleSchedule⟩
  traceId := "t"
  ts := "now"

/-- An answer that is served from an attempt has the pass of the gate. -/
def ServedOnPass (name : String) (out : Routed ℚ) : Prop :=
  out.trace.final.servedFrom = .attempt →
    ∃ a ∈ out.trace.attempts, ∃ r ∈ a.gates, r.gateId = name ∧ r.verdict = .pass

instance (name : String) (out : Routed ℚ) : Decidable (ServedOnPass name out) := by
  unfold ServedOnPass
  exact inferInstance

/-- The judge has passed the attempt that is served. -/
theorem fail_closed_serves_on_pass_sample :
    ∃ last earlier a resp, LastPass (guardCall true .pass).ctx last ∧
      ((guardCall true .pass).routed (routeAll [] (buildGateHealth guardConfig)).2).trace.attempts =
        earlier ++ [a] ∧
      ((guardCall true .pass).routed (routeAll [] (buildGateHealth guardConfig)).2).outcome =
        .served resp ∧
      (EvaluatedPass (guardEnv true) (guardRunner .pass) guardDef last a resp ↔
        ((guardEnv true).build guardDef).isSome = true ∧
          ¬Tripped 50 (0.25 : ℚ)
            (reported (guardCall true .pass).ctx.tenantId "judge"
              (routeAll [] (buildGateHealth guardConfig)).1 ++ reports "judge" earlier)) := by
  have hroute : guardRoute ∈ guardConfig.routes := List.mem_cons_self
  exact fail_closed_serves_on_pass hroute List.mem_cons_self (by decide) rfl rfl [] rfl
    (guardCall true .pass) rfl rfl rfl (by decide +kernel)

/-- A judge without its provider is left out of the request, and one that has abstained for
25 requests is disabled. -/
theorem fail_closed_serves_unjudged :
    ¬ServedOnPass "judge" ((guardCall false .abstain).routed (buildGateHealth guardConfig)) ∧
      ¬ServedOnPass "judge" ((guardCall true .abstain).routed
        (routeAll (List.replicate 25 (guardCall true .abstain))
          (buildGateHealth guardConfig)).2) := by
  constructor
  · decide +kernel
  · decide +kernel

end ConfigFile

end Firstpass
