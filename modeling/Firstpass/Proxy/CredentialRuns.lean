import Firstpass.Proxy.Credentials
import Firstpass.Proxy.ResolveGates
import Firstpass.Proxy.Router

/-!
# What a run of a ladder gets to see

A run of the ladder asks the providers of its rungs, and its gates ask those of their models.
What the run comes to depends on the credentials of the request only through what is sent to
these: two requests that are the same for each of them are served the same.
-/

namespace Firstpass.Credentials

open ConfigFile (GateDef GateEnv GateRunner GateSpec ResolvedGate push)
open Inbound (Dialect providerId)

variable {F : Type} [F64 F]

-- ---------------------------------------------------------------------------
-- A ladder under seal
-- ---------------------------------------------------------------------------

def noAuth : Auth := ⟨none, none, none, none, none, none⟩

/-- A provider that has been given the credentials. -/
def sealProvider (auth : Auth) (p : Provider) : Provider where
  id := p.id
  complete rung req _ := p.complete rung req auth

/-- The providers that the rungs of a ladder name. -/
def rungProviders (ladder : List String) : List String :=
  ladder.filterMap fun model => (ModelRef.parse model).toOption.map ModelRef.provider

/-- The same run, of providers that have been given the credentials; those that no rung names are
not there. -/
def sealCtx (ctx : EnforceCtx F) : EnforceCtx F :=
  { ctx with
    providers := ⟨fun id =>
      if id ∈ rungProviders ctx.ladder then (ctx.providers.get id).map (sealProvider ctx.auth)
      else none⟩
    auth := noAuth }

section
variable (ctx : EnforceCtx F)

theorem resolveProvider_seal {model : String} (hmodel : model ∈ ctx.ladder) :
    resolveProvider (sealCtx ctx) model =
      (resolveProvider ctx model).map (sealProvider ctx.auth) := by
  rw [resolveProvider, resolveProvider]
  cases hparse : ModelRef.parse model with
  | error e => rfl
  | ok m =>
    have hmem : m.provider ∈ rungProviders ctx.ladder :=
      List.mem_filterMap.mpr ⟨model, hmodel, by rw [hparse]; rfl⟩
    exact if_pos hmem

theorem evalGates_seal (rung : Nat) (req : ModelRequest) (resp : ModelResponse)
    (included : String → Bool) (gates : List (Gate F)) (health : GateHealthRegistry F) :
    evalGates (sealCtx ctx) rung req resp included gates health =
      evalGates ctx rung req resp included gates health := by
  induction gates generalizing health with
  | nil => rfl
  | cons g gates ih =>
    rw [evalGates, evalGates]
    simp only [ih]
    rfl

theorem gateSpeculative_seal (rung : Nat) (req : ModelRequest) (resp : ModelResponse)
    (gates : List (Gate F)) (health : GateHealthRegistry F) :
    gateSpeculative (sealCtx ctx) rung req resp gates health =
      gateSpeculative ctx rung req resp gates health := by
  induction gates generalizing health with
  | nil => rfl
  | cons g gates ih =>
    rw [gateSpeculative, gateSpeculative]
    simp only [ih]
    rfl

theorem gateSerial_seal (rung : Nat) (req : ModelRequest) (resp : ModelResponse)
    (health : GateHealthRegistry F) :
    gateSerial (sealCtx ctx) rung req resp health = gateSerial ctx rung req resp health := by
  unfold gateSerial
  simp only [evalGates_seal]
  rfl

theorem serialRung_seal (elapsed : Nat → Nat) (idx : Nat) {model : String}
    (hmodel : model ∈ ctx.ladder) (s : LoopState F) :
    serialRung (sealCtx ctx) elapsed idx model s = serialRung ctx elapsed idx model s := by
  unfold serialRung
  simp only [resolveProvider_seal ctx hmodel, gateSerial_seal]
  cases resolveProvider ctx model with
  | none => rfl
  | some p => rfl

theorem serialLoop_seal (elapsed : Nat → Nat) {models : List String}
    (hmodels : ∀ model ∈ models, model ∈ ctx.ladder) (idx : Nat) (s : LoopState F) :
    serialLoop (sealCtx ctx) elapsed models idx s = serialLoop ctx elapsed models idx s := by
  induction models generalizing idx s with
  | nil => rfl
  | cons model rest ih =>
    obtain ⟨hmodel, hrest⟩ := List.forall_mem_cons.mp hmodels
    rw [serialLoop, serialLoop, serialRung_seal ctx elapsed idx hmodel]
    cases serialRung ctx elapsed idx model s with
    | mk s' flow =>
      cases flow with
      | next => exact ih hrest (idx + 1) s'
      | stop => rfl

theorem mem_rungsFrom {idx : Nat} : ∀ model ∈ rungsFrom ctx idx, model ∈ ctx.ladder :=
  fun _ h => List.mem_of_mem_drop (List.mem_of_mem_take h)

theorem runSerial_seal (elapsed : Nat → Nat) (health : GateHealthRegistry F) :
    runSerial (sealCtx ctx) elapsed health = runSerial ctx elapsed health :=
  serialLoop_seal ctx elapsed (mem_rungsFrom ctx) (startOf ctx) (.init health)

theorem spawnRung_seal (j : Nat) : spawnRung (sealCtx ctx) j = spawnRung ctx j := by
  have hladder : (sealCtx ctx).ladder = ctx.ladder := rfl
  unfold spawnRung
  rw [hladder]
  cases hmodel : ctx.ladder[j]? with
  | none => rfl
  | some model =>
    simp only [resolveProvider_seal ctx (List.mem_of_getElem? hmodel)]
    cases resolveProvider ctx model <;> rfl

theorem fireWindow_seal (idx : Nat) (s : SpecState F) :
    fireWindow (sealCtx ctx) idx s = fireWindow ctx idx s := by
  have hfire : fireRung (sealCtx ctx) idx = fireRung ctx idx := by
    funext s j
    unfold fireRung
    rw [spawnRung_seal]
    rfl
  unfold fireWindow
  rw [hfire]
  rfl

theorem specRung_seal (sched : Schedule) (elapsed : Nat → Nat) (idx : Nat) {model : String}
    (hmodel : model ∈ ctx.ladder) (s : SpecState F) :
    specRung (sealCtx ctx) sched elapsed idx model s = specRung ctx sched elapsed idx model s := by
  unfold specRung
  simp only [fireWindow_seal, resolveProvider_seal ctx hmodel, gateSpeculative_seal]
  cases resolveProvider ctx model with
  | none => rfl
  | some p => rfl

theorem specLoop_seal (sched : Schedule) (elapsed : Nat → Nat) {models : List String}
    (hmodels : ∀ model ∈ models, model ∈ ctx.ladder) (idx : Nat) (s : SpecState F) :
    specLoop (sealCtx ctx) sched elapsed models idx s =
      specLoop ctx sched elapsed models idx s := by
  induction models generalizing idx s with
  | nil => rfl
  | cons model rest ih =>
    obtain ⟨hmodel, hrest⟩ := List.forall_mem_cons.mp hmodels
    rw [specLoop, specLoop, specRung_seal ctx sched elapsed idx hmodel]
    cases specRung ctx sched elapsed idx model s with
    | mk s' flow =>
      cases flow with
      | next => exact ih hrest (idx + 1) s'
      | stop => rfl

theorem runSpeculative_seal (sched : Schedule) (elapsed : Nat → Nat)
    (health : GateHealthRegistry F) :
    runSpeculative (sealCtx ctx) sched elapsed health =
      runSpeculative ctx sched elapsed health := by
  have hloop : specLoop (sealCtx ctx) sched elapsed (rungsFrom ctx (startOf ctx)) (startOf ctx)
      ⟨.init health, []⟩ =
        specLoop ctx sched elapsed (rungsFrom ctx (startOf ctx)) (startOf ctx)
          ⟨.init health, []⟩ :=
    specLoop_seal ctx sched elapsed (mem_rungsFrom ctx) (startOf ctx) _
  exact congrArg (fun s : SpecState F => { s.toLoopState with spent := harvest ctx sched s }) hloop

theorem runEngine_seal (env : Surroundings) (health : GateHealthRegistry F) :
    runEngine (sealCtx ctx) env health = runEngine ctx env health := by
  unfold runEngine
  rw [runSerial_seal, runSpeculative_seal]
  rfl

theorem runLadder_seal (first second : Surroundings) (health : GateHealthRegistry F) :
    runLadder (sealCtx ctx) first second health = runLadder ctx first second health := by
  have hretry (request : ModelRequest) :
      retryCtx (sealCtx ctx) request = sealCtx (retryCtx ctx request) := rfl
  unfold runLadder
  simp only [runEngine_seal, hretry]
  rfl

/-- The run under seal is the run. -/
theorem routeEnforce_seal (first second : Surroundings) (health : GateHealthRegistry F)
    (traceId ts : String) :
    routeEnforce (sealCtx ctx) first second health traceId ts =
      routeEnforce ctx first second health traceId ts := by
  unfold routeEnforce
  rw [runLadder_seal]
  rfl

end

-- ---------------------------------------------------------------------------
-- Gates that ask a model
-- ---------------------------------------------------------------------------

def noProvider : Provider := ⟨"", fun _ _ _ => .error (.transport "")⟩

/-- A gate without its provider and the credentials. -/
def detached : GateSpec F → GateSpec F
  | .judge id _ model _ threshold rubric prices =>
    .judge id noProvider model noAuth threshold rubric prices
  | .consistency id _ model _ k threshold prices =>
    .consistency id noProvider model noAuth k threshold prices
  | spec => spec

/-- The calls of a gate to its provider. -/
def asks : GateSpec F → Nat → ModelRequest → Except ProviderError ModelResponse
  | .judge _ provider _ auth _ _ _ => fun call req => provider.complete call req auth
  | .consistency _ provider _ auth _ _ _ => fun call req => provider.complete call req auth
  | _ => fun _ _ => .error (.transport "")

/-- What gates make of the answers to their calls, arbitrary but for the id. -/
structure Judgement (F : Type) [F64 F] where
  evaluate : GateSpec F → (Nat → ModelRequest → Except ProviderError ModelResponse) → Nat →
    ModelRequest → ModelResponse → GateResult F
  evaluate_gateId : ∀ spec ask rung req resp,
    (evaluate spec ask rung req resp).gateId = spec.id

omit [F64 F] in
theorem detached_id (spec : GateSpec F) : (detached spec).id = spec.id := by
  cases spec <;> rfl

def Judgement.runner (j : Judgement F) : GateRunner F where
  evaluate spec := j.evaluate (detached spec) (asks spec)
  evaluate_gateId spec rung req resp := (j.evaluate_gateId _ _ rung req resp).trans
    (detached_id spec)

theorem toGate_congr (j : Judgement F) {spec spec' : GateSpec F}
    (hspec : detached spec = detached spec') (hasks : asks spec = asks spec')
    (gd : Option (GateDef F)) : (push spec gd).toGate j.runner = (push spec' gd).toGate j.runner := by
  have hid : spec.id = spec'.id := by rw [← detached_id spec, hspec, detached_id]
  have hevaluate : j.runner.evaluate spec = j.runner.evaluate spec' := by
    simp only [Judgement.runner, hspec, hasks]
  simp only [ResolvedGate.toGate, push, hid, hevaluate]

-- ---------------------------------------------------------------------------
-- A request on its ladder
-- ---------------------------------------------------------------------------

/-- What comes back of a request that is sent: of the calls of one run, each may be answered
differently. -/
abbrev World := Nat → Sent → Except ProviderError ModelResponse

def registry (d : Deployment) (env : Env) (world : World) : ProviderRegistry where
  get id := (d.provider id).map fun b =>
    { id
      complete := fun call req auth =>
        (b.complete d.cloud d.fromStr env req auth).bind (world call) }

/-- What a run is about besides who is asked with which credentials. -/
structure Job (F : Type) [F64 F] where
  ctx : EnforceCtx F
  gateDefs : List (GateDef F)
  gateNames : List String
  judgement : Judgement F
  rungWorld : World
  gateWorld : World

/-- The providers that a gate asks. -/
def gateProviders (gd : GateDef F) : List String :=
  ((gd.judge.map (·.model)).toList ++ (gd.consistency.map (·.model)).toList).map providerId

variable (d : Deployment) (job : Job F) (dialect : Dialect)

def gateEnv (env : Env) (h : Incoming) : GateEnv F where
  defs := job.gateDefs
  registry := registry d env job.gateWorld
  auth := fromHeaders env h dialect
  prices := job.ctx.prices
  var := env

def jobCtx (env : Env) (h : Incoming) : EnforceCtx F :=
  { job.ctx with
    gates := (gateEnv d job dialect env h).gates job.judgement.runner job.gateNames
    providers := registry d env job.rungWorld
    auth := fromHeaders env h dialect }

/-- Two requests, each in an environment, are the same for every provider that the run may ask,
and for its decision models. -/
structure JobAgrees (env env' : Env) (h h' : Incoming) : Prop where
  rungs : ∀ id ∈ rungProviders job.ctx.ladder, ∀ b ∈ d.provider id,
    Agree (b.rights dialect) env env' h h'
  gates : ∀ gd ∈ job.gateDefs, ∀ id ∈ gateProviders gd, ∀ b ∈ d.provider id,
    Agree (b.rights dialect) env env' h h'
  keys : ∀ gd ∈ job.gateDefs, ∀ decision ∈ gd.decision,
    env decision.apiKeyEnv = env' decision.apiKeyEnv

section
variable {d : Deployment} {job : Job F} {dialect : Dialect} {env env' : Env} {h h' : Incoming}

/-- A provider answers both requests the same. -/
theorem registry_agree {world : World} {id : String}
    (hagree : ∀ b ∈ d.provider id, Agree (b.rights dialect) env env' h h') :
    ((registry d env world).get id).map (sealProvider (fromHeaders env h dialect)) =
      ((registry d env' world).get id).map (sealProvider (fromHeaders env' h' dialect)) := by
  simp only [registry, Option.map_map]
  cases hb : d.provider id with
  | none => rfl
  | some b =>
    have hcomplete (req : ModelRequest) :=
      complete_confined d.cloud d.fromStr req (hagree b hb)
    simp only [Option.map_some, Function.comp_apply, sealProvider, hcomplete]

/-- A gate that asks a provider judges both requests the same. -/
theorem asking_agree (j : Judgement F) {world : World} {id : String}
    (hagree : ∀ b ∈ d.provider id, Agree (b.rights dialect) env env' h h')
    (make : Provider → Auth → GateSpec F)
    (hdetached : ∀ p p' auth auth', detached (make p auth) = detached (make p' auth'))
    (hasks : ∀ p auth, asks (make p auth) = fun call req => p.complete call req auth)
    (also : Option (GateDef F)) :
    (((registry d env world).get id).map fun p => make p (fromHeaders env h dialect)).map
        (fun spec => (push spec also).toGate j.runner) =
      (((registry d env' world).get id).map fun p => make p (fromHeaders env' h' dialect)).map
        (fun spec => (push spec also).toGate j.runner) := by
  simp only [registry, Option.map_map]
  cases hb : d.provider id with
  | none => rfl
  | some b =>
    have hcomplete (req : ModelRequest) :=
      complete_confined d.cloud d.fromStr req (hagree b hb)
    refine congrArg some (toGate_congr j (hdetached _ _ _ _) ?_ also)
    rw [hasks, hasks]
    simp only [hcomplete]

theorem build_agree (hagree : JobAgrees d job dialect env env' h h') {gd : GateDef F}
    (hgd : gd ∈ job.gateDefs) (also : Option (GateDef F)) :
    ((gateEnv d job dialect env h).build gd).map
        (fun spec => (push spec also).toGate job.judgement.runner) =
      ((gateEnv d job dialect env' h').build gd).map
        (fun spec => (push spec also).toGate job.judgement.runner) := by
  have hask := hagree.gates gd hgd
  have hkey := hagree.keys gd hgd
  unfold GateEnv.build
  cases hjudge : gd.judge with
  | some judge =>
    exact asking_agree job.judgement (hask _ (by simp [gateProviders, hjudge]))
      (fun p auth => .judge gd.id p judge.model auth judge.threshold (judge.rubric.getD "")
        job.ctx.prices) (fun _ _ _ _ => rfl) (fun _ _ => rfl) also
  | none =>
    cases hcons : gd.consistency with
    | some cons =>
      exact asking_agree job.judgement (hask _ (by simp [gateProviders, hcons]))
        (fun p auth => .consistency gd.id p cons.model auth cons.k cons.threshold job.ctx.prices)
        (fun _ _ _ _ => rfl) (fun _ _ => rfl) also
    | none =>
      cases gd.schema with
      | some schema => rfl
      | none =>
        cases hdecision : gd.decision with
        | some decision =>
          show ((env decision.apiKeyEnv).map _).map _ = ((env' decision.apiKeyEnv).map _).map _
          rw [hkey decision hdecision]
        | none => cases gd.cmd <;> rfl

theorem gates_agree (hagree : JobAgrees d job dialect env env' h h') :
    (gateEnv d job dialect env h).gates job.judgement.runner job.gateNames =
      (gateEnv d job dialect env' h').gates job.judgement.runner job.gateNames := by
  rw [GateEnv.gates, GateEnv.gates, GateEnv.resolveGates, GateEnv.resolveGates,
    List.map_filterMap, List.map_filterMap]
  refine List.filterMap_congr fun name _ => ?_
  unfold GateEnv.resolveGate
  split_ifs
  · rfl
  · rfl
  · rfl
  · show ((job.gateDefs.find? fun gd => gd.id = name).bind _).map _ =
      ((job.gateDefs.find? fun gd => gd.id = name).bind _).map _
    cases hfind : job.gateDefs.find? fun gd => gd.id = name with
    | none => rfl
    | some gd =>
      have hbuild := build_agree hagree (List.mem_of_find?_eq_some hfind) (some gd)
      simpa only [Option.bind_some, Option.map_map, Function.comp_def] using hbuild

theorem sealCtx_agree (hagree : JobAgrees d job dialect env env' h h') :
    sealCtx (jobCtx d job dialect env h) = sealCtx (jobCtx d job dialect env' h') := by
  have hproviders (id : String) :
      (if id ∈ rungProviders job.ctx.ladder then
        ((registry d env job.rungWorld).get id).map (sealProvider (fromHeaders env h dialect))
      else none) =
      if id ∈ rungProviders job.ctx.ladder then
        ((registry d env' job.rungWorld).get id).map (sealProvider (fromHeaders env' h' dialect))
      else none := by
    by_cases hid : id ∈ rungProviders job.ctx.ladder
    · rw [if_pos hid, if_pos hid, registry_agree (hagree.rungs id hid)]
    · rw [if_neg hid, if_neg hid]
  simp only [sealCtx, jobCtx, hproviders, gates_agree hagree]
  rfl

end

-- ---------------------------------------------------------------------------
-- Two clients of one route
-- ---------------------------------------------------------------------------

def sampleJob : Job ℚ where
  ctx :=
    { condense := none
      ladder := ["groq/small", "groq/large"]
      gates := []
      baseRequest :=
        { model := "", system := none, messages := [], maxTokens := 64, tools := .null,
          raw := .null, cachePrefix := false }
      providers := ⟨fun _ => none⟩
      auth := noAuth
      prices := ⟨fun _ => some ⟨3, 15⟩⟩
      budgetPerRequestUsd := none
      maxRungs := 5
      speculation := 1
      serveThreshold := none
      elastic := none
      features :=
        { version := 3, taskKind := .chat, language := none, agent := none, subagent := none,
          promptTokenBucket := 4, toolCount := 0, hasImages := false, repoFingerprint := none,
          sessionFailureCount := 0, difficultyHint := 0, hourBucket := 12 }
      startRung := 0
      tenantId := "default"
      sessionId := "s"
      promptHash := "p"
      api := "openai.chat"
      policyId := "static-ladder@v0" }
  gateDefs := []
  gateNames := ["non-empty"]
  judgement :=
    { evaluate := fun spec _ _ _ _ => GateResult.abstain spec.id "" 0
      evaluate_gateId := fun _ _ _ _ _ => rfl }
  rungWorld _ _ := .error (.transport "unreachable")
  gateWorld _ _ := .error (.transport "unreachable")

def sampleClient (token : String) : Incoming where
  headers name := if name = "authorization" then some ("Bearer " ++ token) else none
  betas := []
  first := rfl

def sampleSurroundings : Surroundings where
  elapsed _ := 7
  sched :=
    { panicked := fun _ => false
      isFinished := fun _ => true
      drainOrder := fun keys => keys
      drainOrder_perm := fun _ => .refl _ }

end Firstpass.Credentials
