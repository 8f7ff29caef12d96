import Firstpass.Core.Cost
import Firstpass.Core.Guardrail
import Firstpass.Core.Routing

/-!
# The configuration

The routing configuration as it is decoded from its file, with its defaults filled in.
`Routing.Config` is the part of it that the choice of a route reads.
-/

namespace Firstpass.ConfigFile

open Json (Value)
open Routing (Match Rollout RoutingMode)

variable {F : Type}

-- ---------------------------------------------------------------------------
-- Gates
-- ---------------------------------------------------------------------------

/-- What an abstain of a gate means for serving. -/
inductive AbstainPolicy
  | failOpen
  | failClosed
  deriving DecidableEq

structure JudgeDef (F : Type) where
  model : String
  threshold : F
  rubric : Option String

structure ConsistencyDef (F : Type) where
  model : String
  k : Nat
  threshold : F

structure DecisionDef (F : Type) where
  provider : String
  model : String
  apiKeyEnv : String
  baseUrl : String
  timeoutMs : Nat
  threshold : F
  instructions : Option String

structure GateDef (F : Type) where
  id : String
  cmd : List String
  timeoutMs : Nat
  judge : Option (JudgeDef F)
  consistency : Option (ConsistencyDef F)
  schema : Option Value
  decision : Option (DecisionDef F)
  onAbstain : AbstainPolicy

/-- A definition with a command and the defaults elsewhere. -/
def GateDef.subprocess (id : String) (cmd : List String) : GateDef F where
  id := id
  cmd := cmd
  timeoutMs := 30000
  judge := none
  consistency := none
  schema := none
  decision := none
  onAbstain := .failOpen

/-- `BUILTIN_GATES` -/
def builtinGates : List String := ["non-empty", "json-valid", "tool-args-valid"]

-- ---------------------------------------------------------------------------
-- Routes
-- ---------------------------------------------------------------------------

inductive ChallengerMode
  | live
  | paired
  deriving DecidableEq

structure Challenger (F : Type) where
  ladder : List String
  percent : F
  margin : F
  alpha : F
  mode : ChallengerMode
  sampleRate : F
  maxUsdPerDay : Option F

def Challenger.isPaired (ch : Challenger F) : Bool := ch.mode = .paired

structure Shadow (F : Type) where
  sampleRate : F
  maxUsdPerDay : F

structure Route (F : Type) where
  match_ : Match
  mode : Mode
  ladder : List String
  gates : List String
  deferredGates : List String
  routingMode : Option RoutingMode
  rollout : Option (Rollout F)
  shadow : Option (Shadow F)
  challenger : Option (Challenger F)

/-- The part of a route that its choice reads. -/
def Route.toRouting (r : Route F) : Routing.Route F where
  match_ := r.match_
  mode := r.mode
  ladder := r.ladder
  routingMode := r.routingMode
  rollout := r.rollout
  shadowed := r.shadow.isSome
  challengerLadder := r.challenger.map Challenger.ladder

-- ---------------------------------------------------------------------------
-- Budget and escalation
-- ---------------------------------------------------------------------------

inductive OnExhausted
  | serveBestAttempt
  | error
  deriving DecidableEq

structure Budget (F : Type) where
  perRequestUsd : Option F
  perSessionUsd : Option F
  perDayUsd : Option F
  onExhausted : OnExhausted

structure SessionPromotion where
  afterFailures : Nat
  window : String
  probeEvery : Nat
  maxSessions : Nat

structure BanditConfig (F : Type) where
  minObservations : Nat
  exploration : F
  discount : F

structure EProcessConfig (F : Type) where
  alpha : F
  delta : F
  bet : F
  grid : List F

structure ProbeConfig (F : Type) where
  k : Nat
  sampleRate : F

structure PredictorConfig (F : Type) where
  lr : F
  l2 : F

structure PriorConfig (F : Type) where
  provider : String
  timeoutMs : Nat
  strength : F
  rungs : List String

structure ElasticConfig (F : Type) where
  expensiveGates : List String
  lambda : F

structure Escalation (F : Type) where
  maxRungsPerRequest : Nat
  sessionPromotion : Option SessionPromotion
  speculation : Nat
  serveThreshold : Option F
  eprocess : Option (EProcessConfig F)
  enforceStructured : Bool
  bandit : Option (BanditConfig F)
  speculationBand : Option (F × F)
  /-- The epsilon of `[escalation.exploration]`. -/
  exploration : Option F
  probe : Option (ProbeConfig F)
  predictor : Option (PredictorConfig F)
  prior : Option (PriorConfig F)
  elastic : Option (ElasticConfig F)

def Escalation.default : Escalation F where
  maxRungsPerRequest := 3
  sessionPromotion := none
  speculation := 0
  serveThreshold := none
  eprocess := none
  enforceStructured := true
  bandit := none
  speculationBand := none
  exploration := none
  probe := none
  predictor := none
  prior := none
  elastic := none

-- ---------------------------------------------------------------------------
-- The whole
-- ---------------------------------------------------------------------------

structure PriceDef (F : Type) where
  model : String
  inputPerMtok : F
  outputPerMtok : F

structure Config (F : Type) where
  routes : List (Route F)
  budget : Budget F
  escalation : Escalation F
  guardrail : Option (Guardrail F)
  gateDefs : List (GateDef F)
  priceDefs : List (PriceDef F)
  /-- The ids of the `[[provider]]` blocks. -/
  providers : List String

def Config.toRouting (c : Config F) : Routing.Config F where
  routes := c.routes.map Route.toRouting
  enforceStructured := c.escalation.enforceStructured

/-- The first route whose match claims the request. -/
def Config.routeFor (c : Config F) (f : Features) : Option (Route F) :=
  c.routes.find? fun r => r.match_.matches f

theorem Config.routeFor_toRouting (c : Config F) (f : Features) :
    c.toRouting.routeFor f = (c.routeFor f).map Route.toRouting := by
  simp only [Routing.Config.routeFor, Config.toRouting, Config.routeFor, List.find?_map]
  rfl

end Firstpass.ConfigFile
