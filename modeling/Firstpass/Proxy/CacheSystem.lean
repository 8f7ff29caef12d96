import Firstpass.Proxy.CacheStore
import Firstpass.Proxy.ResolveGates

/-!
# Requests, replays and feedback

A request on the ladder path looks its answer up. One that misses runs the ladder, puts what
passed and then offers its receipt; one that hits offers a receipt of its own. The writer
stores receipts off the path, and a failure reported on a stored one retracts the answer it
was served. The steps of all of them interleave.

The threads that fail or are dropped on the way are the ones that take no further step.
-/

namespace Firstpass.ResponseCache

open ConfigFile
open Inbound (promptHash)
open Routing (Bytes)

variable {F : Type} [F64 F]

structure Env (F : Type) [F64 F] where
  config : Config F
  cache : VerifiedCache
  salt : String
  sha256 : Bytes → Bytes
  providers : ProviderRegistry
  prices : PriceTable F
  run : GateRunner F
  var : String → Option String
  parseUuid : String → Option String

/-- A request, with the arm its session is on and the settings of its run that neither the
route nor the caller decides. -/
structure Request (F : Type) [F64 F] where
  tenant : String
  body : Bytes
  features : Features
  auth : Auth
  onChallenger : Bool
  settings : EnforceCtx F

/-- The ladder that runs. A paired challenger serves no session. -/
def armLadder (route : Route F) (onChallenger : Bool) : List String :=
  match route.challenger with
  | some ch => if onChallenger && !ch.isPaired then ch.ladder else route.ladder
  | none => route.ladder

namespace Env

variable (env : Env F)

/-- The enforce route that claims a request. -/
def route (req : Request F) : Option (Route F) :=
  (env.config.routeFor req.features).filter fun r => r.mode = .enforce ∧ r.ladder ≠ []

def hash (req : Request F) : String := promptHash env.sha256 env.salt req.body

def gates (req : Request F) (route : Route F) : List (Gate F) :=
  GateEnv.gates ⟨env.config.gateDefs, env.providers, req.auth, env.prices, env.var⟩ env.run
    route.gates

def ctx (req : Request F) (route : Route F) : EnforceCtx F :=
  { req.settings with
    ladder := armLadder route req.onChallenger
    gates := env.gates req route
    providers := env.providers
    auth := req.auth
    prices := env.prices
    features := req.features
    tenantId := req.tenant
    promptHash := env.hash req }

def key (req : Request F) (route : Route F) : String :=
  composeKey req.tenant (env.hash req) (armLadder route req.onChallenger)

end Env

-- ---------------------------------------------------------------------------
-- Receipts
-- ---------------------------------------------------------------------------

/-- What is written on a receipt after the ladder has run. -/
structure Stamps (F : Type) where
  routeIx : Option Nat
  explore : Bool
  propensity : Option F
  modeProfile : Option String
  decisionPrior : Option (List F)
  risk : Option (RiskCertificate F)
  experiment : Option (ExperimentRecord F)
  predictedPass : Option F
  probe : Option (ProbeSignal F)

def Stamps.apply (st : Stamps F) (t : Trace F) : Trace F :=
  { t with
    policy := { t.policy with
      explore := st.explore
      propensity := st.propensity
      modeProfile := st.modeProfile }
    routeIx := st.routeIx
    decisionPrior := st.decisionPrior
    risk := st.risk
    experiment := st.experiment
    predictedPass := st.predictedPass
    probe := st.probe }

/-- The receipt of a replay names the decision that proved it, and has no attempts. -/
def cacheHitTrace (ctx : EnforceCtx F) (entry : Entry F) (traceId ts : String) : Trace F where
  traceId := traceId
  prevHash := HashChain.genesisHash
  tenantId := ctx.tenantId
  sessionId := ctx.sessionId
  ts := ts
  mode := .enforce
  policy := ⟨ctx.policyId ++ "+cache", false, none, none⟩
  request := ⟨ctx.api, ctx.promptHash, ctx.features⟩
  attempts := []
  deferred := []
  final := {
    servedRung := none
    servedFrom := .cache
    totalCostUsd := 0
    gateCostUsd := 0
    totalLatencyMs := 0
    escalations := 0
    counterfactualBaselineUsd := entry.originalCostUsd
    cacheSource := some entry.source
    savingsUsd := entry.originalCostUsd }
  probe := none
  rollout := none
  shadow := none
  routeIx := none
  predictedPass := none
  decisionPrior := none
  elastic := none
  risk := none
  experiment := none
  upstreamProvider := ""

/-- The route and the arm of a replay, on a route with an experiment. -/
def stampReplay (experiment : Option (Nat × ExperimentRecord F)) (t : Trace F) : Trace F :=
  match experiment with
  | some (routeIx, rec) => { t with routeIx := some routeIx, experiment := some rec }
  | none => t

/-- A finished run of the ladder. -/
structure Decision (F : Type) [F64 F] where
  req : Request F
  route : Route F
  trace : Trace F
  outcome : EngineOutcome

/-- The run has some outcome at the providers and the gates, for some state of the budgets. -/
def Env.Decides (env : Env F) (d : Decision F) : Prop :=
  ∃ first second health traceId ts, ∃ stamps : Stamps F,
    d.trace = stamps.apply
      (routeEnforce (env.ctx d.req d.route) first second health traceId ts).trace ∧
    d.outcome = (routeEnforce (env.ctx d.req d.route) first second health traceId ts).outcome

def Decision.ladder (d : Decision F) : List String := armLadder d.route d.req.onChallenger

/-- The answer a decision puts, where it is cacheable. -/
def Decision.answer (d : Decision F) : Option ModelResponse :=
  match d.outcome with
  | .served resp => if isCacheable d.trace then some resp else none
  | .failed _ => none

-- ---------------------------------------------------------------------------
-- The system
-- ---------------------------------------------------------------------------

/-- Where a request is. -/
inductive Thread (F : Type) [F64 F]
  | routing (req : Request F) (route : Route F)
  | putting (d : Decision F)
  | offering (t : Trace F)

structure Report where
  tenant : String
  traceId : String
  verdict : Verdict

/-- Where a report is, from the check that its trace exists. -/
inductive Review
  | checked (rep : Report)
  | retracting (rep : Report) (todo : List String)
  | appending (rep : Report)

structure State (F : Type) [F64 F] where
  cache : Entries F
  threads : List (Thread F)
  reviews : List Review
  /-- The receipts in the channel or the spill file. -/
  offered : List (Trace F)
  rows : List (Trace F)
  /-- The trace ids that are taken. -/
  used : List String
  /-- Every receipt there is, for the proofs. -/
  receipts : List (Trace F)

def traceRow (rows : List (Trace F)) (tenant traceId : String) : Option (Trace F) :=
  rows.find? fun t => t.tenantId = tenant ∧ t.traceId = traceId

def traceExists (rows : List (Trace F)) (tenant traceId : String) : Bool :=
  (traceRow rows tenant traceId).isSome

/-- The decision that the answer of a trace was proven by, where it is a replay. -/
def traceCacheSource (rows : List (Trace F)) (tenant traceId : String) : Option String :=
  (traceRow rows tenant traceId).bind fun t => t.final.cacheSource

/-- The reported trace, and the decision behind it. -/
def Env.toRetract (env : Env F) (rows : List (Trace F)) (rep : Report) : List String :=
  (env.parseUuid rep.traceId).toList ++ (traceCacheSource rows rep.tenant rep.traceId).toList

/-- A new trace id, which reads back as itself. -/
def State.Mints (s : State F) (env : Env F) (traceId : String) : Prop :=
  traceId ∉ s.used ∧ env.parseUuid traceId = some traceId

inductive Event (F : Type) [F64 F]
  | miss (req : Request F)
  | hit (req : Request F) (route : Route F) (entry : Entry F)
  | decide (d : Decision F)
  | put
  | skip
  | offer
  | write
  | check
  | review
  | retract
  | accept (rep : Report)

inductive Step (env : Env F) : State F → Event F → State F → Prop
  | miss (now : Instant) : env.route req = some route →
      env.cache.getByKey s.cache (env.key req route) now = none →
      Step env s (.miss req) { s with threads := s.threads ++ [.routing req route] }
  | hit (now : Instant) (ts : String) (experiment : Option (Nat × ExperimentRecord F)) :
      env.route req = some route →
      env.cache.getByKey s.cache (env.key req route) now = some entry → s.Mints env traceId →
      t = stampReplay experiment (cacheHitTrace (env.ctx req route) entry traceId ts) →
      Step env s (.hit req route entry) { s with
        threads := s.threads ++ [.offering t]
        used := traceId :: s.used
        receipts := s.receipts ++ [t] }
  | decide (d : Decision F) : s.threads = front ++ .routing d.req d.route :: back →
      env.Decides d → s.Mints env d.trace.traceId →
      Step env s (.decide d) { s with
        threads := front ++ .putting d :: back
        used := d.trace.traceId :: s.used
        receipts := s.receipts ++ [d.trace] }
  | put (d : Decision F) (resp : ModelResponse) (now : Instant) (o : Iteration F) :
      s.threads = front ++ .putting d :: back → d.answer = some resp →
      Step env s .put { s with
        threads := front ++ .offering d.trace :: back
        cache := env.cache.putByKey o s.cache
          (composeKey d.trace.tenantId d.trace.request.promptHash d.ladder)
          (.new resp d.trace now) }
  | skip (d : Decision F) : s.threads = front ++ .putting d :: back → d.answer = none →
      Step env s .skip { s with threads := front ++ .offering d.trace :: back }
  | offer (t : Trace F) : s.threads = front ++ .offering t :: back →
      Step env s .offer { s with threads := front ++ back, offered := s.offered ++ [t] }
  | write : t ∈ s.offered → Step env s .write { s with rows := s.rows ++ [t] }
  | check : traceExists s.rows rep.tenant rep.traceId →
      Step env s .check { s with reviews := s.reviews ++ [.checked rep] }
  -- Only a failure retracts.
  | reviewFail : s.reviews = front ++ .checked rep :: back → rep.verdict = .fail →
      Step env s .review { s with
        reviews := front ++ .retracting rep (env.toRetract s.rows rep) :: back }
  | review : s.reviews = front ++ .checked rep :: back → rep.verdict ≠ .fail →
      Step env s .review { s with reviews := front ++ .appending rep :: back }
  | retract : s.reviews = front ++ .retracting rep (source :: todo) :: back →
      Step env s .retract { s with
        reviews := front ++ .retracting rep todo :: back
        cache := retract s.cache source }
  | retracted : s.reviews = front ++ .retracting rep [] :: back →
      Step env s .review { s with reviews := front ++ .appending rep :: back }
  | accept : s.reviews = front ++ .appending rep :: back →
      Step env s (.accept rep) { s with reviews := front ++ back }

/-- Nothing has happened but what an earlier process has stored. -/
structure State.Fresh (env : Env F) (s : State F) : Prop where
  cache : s.cache = ∅
  threads : s.threads = []
  reviews : s.reviews = []
  offered : s.offered = []
  receipts : s.receipts = s.rows
  nodup : (s.rows.map Trace.traceId).Nodup
  ids : ∀ t ∈ s.rows, t.traceId ∈ s.used
  sources : ∀ t ∈ s.rows, ∀ source ∈ t.final.cacheSource, source ∈ s.used
  canonical : ∀ t ∈ s.rows, env.parseUuid t.traceId = some t.traceId

inductive Run (env : Env F) : List (Event F) → State F → Prop
  | start : s.Fresh env → Run env [] s
  | step : Run env events s → Step env s e s' → Run env (events ++ [e]) s'

end Firstpass.ResponseCache
