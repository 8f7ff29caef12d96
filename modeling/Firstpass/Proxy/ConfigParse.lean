import Firstpass.Core.Config
import Firstpass.Lib.Checks
import Firstpass.Proxy.Inbound

/-!
# Reading a configuration

`Config.parse` decodes its text and then checks the fields one by one, in the order of the
source. The decoder of the text is a parameter.
-/

namespace Firstpass

open Checks (require onSome each eachFresh)
open Inbound (trim)

variable {F : Type} [F64 F]

-- ---------------------------------------------------------------------------
-- Prices
-- ---------------------------------------------------------------------------

namespace PriceTable

def new : PriceTable F := ⟨fun _ => none⟩

def withOverride (t : PriceTable F) (model : String) (price : ModelPrice F) : PriceTable F :=
  ⟨fun m => if m = model then some price else t.get m⟩

def defaults : PriceTable F :=
  [("anthropic/claude-haiku-4-5", ⟨1.0, 5.0⟩),
    ("anthropic/claude-sonnet-5", ⟨3.0, 15.0⟩),
    ("anthropic/claude-opus-4-8", ⟨15.0, 75.0⟩),
    ("openai/gpt-4.1-mini", ⟨0.4, 1.6⟩),
    ("openai/gpt-5.5", ⟨5.0, 15.0⟩),
    ("google/gemini-3.5-flash-lite", ⟨0.3, 2.5⟩),
    ("google/gemini-3.6-flash", ⟨1.5, 7.5⟩),
    ("google/gemini-2.5-pro", ⟨1.25, 10.0⟩)].foldl (fun t p => t.withOverride p.1 p.2) new

end PriceTable

-- ---------------------------------------------------------------------------
-- Numbers and texts
-- ---------------------------------------------------------------------------

/-- What the checks need of the standard library besides arithmetic. -/
structure StdLib (F : Type) where
  isFinite : F → Bool
  ln : F → F
  sqrt : F → F
  ceil : F → F
  display : F → String
  /-- With so many digits after the point. -/
  fixed : Nat → F → String
  /-- A string in quotes. -/
  debug : String → String

variable (std : StdLib F)

/-- `lo ..= hi` contains `x`. -/
def within (lo hi x : F) : Prop := lo ≤ x ∧ x ≤ hi

instance (lo hi x : F) : Decidable (within lo hi x) := by
  unfold within
  exact inferInstance

-- ---------------------------------------------------------------------------
-- The parts that check themselves
-- ---------------------------------------------------------------------------

def Routing.Rollout.validate (r : Routing.Rollout F) : Except String Unit :=
  require (std.isFinite r.percent ∧ within 0 100.0 r.percent)
    ("route.rollout.percent must be finite and within [0, 100], got " ++ std.display r.percent)

/-- The slack of the bound alone has to leave room under `alpha`. -/
def Guardrail.validate (g : Guardrail F) : Except String Unit := do
  require (std.isFinite g.alpha ∧ ¬g.alpha ≤ 0 ∧ ¬1.0 ≤ g.alpha)
    ("guardrail.alpha must be within (0, 1), got " ++ std.display g.alpha)
  require (std.isFinite g.delta ∧ ¬g.delta ≤ 0 ∧ ¬1.0 ≤ g.delta)
    ("guardrail.delta must be within (0, 1), got " ++ std.display g.delta)
  require (g.window ≠ 0) "guardrail.window must be > 0"
  let floor := std.ln (1.0 / g.delta) / (2.0 * g.alpha * g.alpha)
  let minN : F := g.minN
  let slack := std.sqrt (std.ln (1.0 / g.delta) / (2.0 * F64.max minN 1.0))
  require (¬minN ≤ floor)
    ("guardrail.min_n (" ++ toString g.minN ++ ") is too small for alpha=" ++
      std.display g.alpha ++ " delta=" ++ std.display g.delta ++
      ": with that few samples the confidence slack alone is " ++ std.fixed 3 slack ++
      ", which already exceeds alpha — so even a window with zero failures would breach " ++
      "and every healthy route would be demoted. Use min_n > " ++
      std.fixed 0 (std.ceil floor) ++ ".")
  require (g.minN ≤ g.window)
    ("guardrail.min_n (" ++ toString g.minN ++ ") exceeds guardrail.window (" ++
      toString g.window ++ ") — the guardrail could never act, which is worse than " ++
      "having none because it looks like protection")

namespace ConfigFile

def Shadow.validate (sh : Shadow F) : Except String Unit := do
  require (std.isFinite sh.sampleRate ∧ within 0 1.0 sh.sampleRate)
    ("route.shadow.sample_rate must be finite and within [0, 1], got " ++
      std.display sh.sampleRate)
  require (std.isFinite sh.maxUsdPerDay ∧ ¬sh.maxUsdPerDay < 0)
    ("route.shadow.max_usd_per_day must be finite and >= 0, got " ++ std.display sh.maxUsdPerDay)

/-- What `Experiment::new` refuses. -/
def Challenger.testable (ch : Challenger F) : Except String Unit := do
  require (std.isFinite ch.margin ∧ ¬ch.margin ≤ 0 ∧ ¬0.5 < ch.margin)
    ("margin must be in (0, 0.5], got " ++ std.display ch.margin)
  require (std.isFinite ch.alpha ∧ ¬ch.alpha ≤ 0 ∧ ¬0.5 ≤ ch.alpha)
    ("alpha must be in (0, 0.5), got " ++ std.display ch.alpha)

def Challenger.validate (ch : Challenger F) : Except String Unit := do
  require (ch.ladder ≠ []) "route.challenger.ladder must not be empty"
  match ch.mode with
  | .live =>
    require (std.isFinite ch.percent ∧ ¬ch.percent ≤ 0 ∧ ¬100.0 ≤ ch.percent)
      ("route.challenger.percent must be finite and within (0, 100) exclusive — at 100 there " ++
        "is no incumbent control and the test can never pair — got " ++ std.display ch.percent)
  | .paired =>
    require (std.isFinite ch.sampleRate ∧ within 0 1.0 ch.sampleRate)
      ("route.challenger.sample_rate must be finite and within [0, 1], got " ++
        std.display ch.sampleRate)
    match ch.maxUsdPerDay with
    | none =>
      .error ("route.challenger.max_usd_per_day is required in paired mode — the challenger " ++
        "makes real model calls off the hot path; a ceiling prevents silent spend")
    | some max =>
      require (std.isFinite max ∧ ¬max < 0)
        ("route.challenger.max_usd_per_day must be finite and >= 0, got " ++ std.display max)
  (ch.testable std).mapError fun e => "route.challenger: " ++ e

-- ---------------------------------------------------------------------------
-- Durations
-- ---------------------------------------------------------------------------

inductive ParseError
  | toml (detail : String)
  | badDuration (s : String)
  | invalidConfig (detail : String)
  deriving DecidableEq

/-- `str::parse::<u64>` -/
def parseU64 (s : List Char) : Option Nat :=
  let digits := match s with
    | '+' :: ds => ds
    | _ => s
  if digits ≠ [] ∧ digits.all Char.isDigit then
    let n := digits.foldl (fun n c => 10 * n + (c.toNat - '0'.toNat)) 0
    if n < 18446744073709551616 then some n else none
  else none

def saturatingMul (n k : Nat) : Nat := min (n * k) 18446744073709551615

/-- The seconds of a compact duration such as `30m`. -/
def parseWindow (s : String) : Except ParseError Nat :=
  let s := trim s
  let num := s.toList.takeWhile fun c => !c.isAlpha
  match s.toList.dropWhile fun c => !c.isAlpha with
  | [] => .error (.badDuration s)
  | unit =>
    match parseU64 (trim (String.ofList num)).toList with
    | none => .error (.badDuration s)
    | some n =>
      match unit with
      | ['s'] => .ok n
      | ['m'] => .ok (saturatingMul n 60)
      | ['h'] => .ok (saturatingMul n 3600)
      | ['d'] => .ok (saturatingMul n 86400)
      | _ => .error (.badDuration s)

example : parseWindow " 30m" = .ok 1800 := by decide +kernel

def SessionPromotion.windowDuration (p : SessionPromotion) : Except ParseError Nat :=
  parseWindow p.window

-- ---------------------------------------------------------------------------
-- Routes
-- ---------------------------------------------------------------------------

/-- The ids of `BUILTIN_OPENAI_COMPATIBLE` -/
def builtinOpenaiCompatible : List String :=
  ["groq", "deepseek", "together", "fireworks", "mistral", "openrouter", "xai", "cerebras"]

def Config.priceTable (c : Config F) : PriceTable F :=
  c.priceDefs.foldl (fun t p => t.withOverride p.model ⟨p.inputPerMtok, p.outputPerMtok⟩)
    PriceTable.defaults

def inRoute (i : Nat) (detail : String) : ParseError :=
  .invalidConfig ("route[" ++ toString i ++ "]" ++ detail)

omit [F64 F] in
/-- The gate can be run: it is built in, or there is a definition of it. -/
def Config.definesGate (c : Config F) (g : String) : Bool :=
  g ∈ builtinGates || c.gateDefs.any fun d => d.id = g

def Config.validateChallenger (i : Nat) (route : Route F) (ch : Challenger F) :
    Except ParseError Unit := do
  (ch.validate std).mapError fun e => inRoute i (": " ++ e)
  require (route.mode = .enforce) <| inRoute i
    (": route.challenger requires mode = \"enforce\" — a challenger is served through the " ++
      "enforce path, and observe never runs a ladder")
  require (ch.ladder ≠ route.ladder) <| inRoute i
    (": route.challenger.ladder is identical to the route ladder — both arms would serve the " ++
      "same models and the experiment could prove nothing")
  require (ch.isPaired → route.gates.any (· ≠ "non-empty")) <| inRoute i
    (": paired challenger mode requires at least one gate other than `non-empty` (e.g. " ++
      "`json-valid`, a judge, or a test gate) — a pass-everything gate makes gate-pass " ++
      "non-inferiority meaningless")

def Config.validateRoute (c : Config F) (i : Nat) (route : Route F) : Except ParseError Unit := do
  each (fun _ g => require (c.definesGate g) <| inRoute i
    (": gate " ++ std.debug g ++ " is neither a built-in (" ++ ", ".intercalate builtinGates ++
      ") nor defined in a [[gate]] block")) 0 route.gates
  onSome route.rollout fun r => (r.validate std).mapError fun e => inRoute i (": " ++ e)
  onSome route.shadow fun sh => (sh.validate std).mapError fun e => inRoute i (": " ++ e)
  onSome route.challenger (Config.validateChallenger std i route)

-- ---------------------------------------------------------------------------
-- Gates and prices
-- ---------------------------------------------------------------------------

def GateDef.kindsSet (d : GateDef F) : Nat :=
  [!d.cmd.isEmpty, d.judge.isSome, d.consistency.isSome, d.schema.isSome,
    d.decision.isSome].count true

def GateDef.validate (d : GateDef F) : Except ParseError Unit := do
  let gate (detail : String) : ParseError := .invalidConfig ("gate " ++ std.debug d.id ++ detail)
  require (trim d.id ≠ "") (.invalidConfig "gate id must not be empty")
  require (d.kindsSet = 1) <| gate
    " must set exactly one of `cmd`, `judge`, `consistency`, `schema`, or `decision`"
  onSome d.judge fun judge =>
    require (within 0 1.0 judge.threshold) <| gate
      (" judge threshold " ++ std.display judge.threshold ++ " is outside [0, 1]")
  onSome d.consistency fun c => do
    require (2 ≤ c.k ∧ c.k ≤ 8) <| gate
      (" consistency k " ++ toString c.k ++ " is outside [2, 8]")
    require (within 0 1.0 c.threshold) <| gate
      (" consistency threshold " ++ std.display c.threshold ++ " is outside [0, 1]")
  onSome d.decision fun dec => do
    require (dec.provider = "typesafe") <| gate
      (" decision provider " ++ std.debug dec.provider ++ " is not supported — only " ++
        "\"typesafe\" is built in")
    require (std.isFinite dec.threshold ∧ 0 < dec.threshold ∧ dec.threshold < 1.0) <| gate
      (" decision threshold " ++ std.display dec.threshold ++ " must be finite and in (0, 1)")
    require (dec.timeoutMs ≠ 0) <| gate " decision timeout_ms must be >= 1"

def PriceDef.validate (p : PriceDef F) : Except ParseError Unit := do
  let ok (v : F) : Prop := std.isFinite v ∧ 0 ≤ v
  require (trim p.model ≠ "") (.invalidConfig "price model must not be empty")
  require (ok p.inputPerMtok ∧ ok p.outputPerMtok)
    (.invalidConfig ("price for " ++ std.debug p.model ++ " must be finite and >= 0"))

/-- The `[[price]]` block that a rung lacks. -/
def priceBlock (rung : String) : String :=
  "Declare it:\n\n[[price]]\nmodel = " ++ std.debug rung ++
    "\ninput_per_mtok = 0.0\noutput_per_mtok = 0.0\n\n"

def Config.validateLaddersArePriced (c : Config F) : Except ParseError Unit :=
  each (fun i route =>
    each (fun _ rung => require (c.priceTable.get rung).isSome <| inRoute i
      (" ladder rung " ++ std.debug rung ++ " has no price, so its cost would be recorded as " ++
        "$0.00 and any [budget] cap would never trip. " ++ priceBlock std rung ++
        "(use the real per-1M-token prices; 0.0 is correct only for a model you host yourself)"))
      0 route.ladder) 0 c.routes

def Config.validateChallengerRung (c : Config F) (i : Nat) (rung : String) :
    Except ParseError Unit :=
  let inRung (detail : String) : ParseError :=
    inRoute i (" challenger rung " ++ std.debug rung ++ detail)
  match ModelRef.parse rung with
  | .error _ => .error (inRung " is not a `provider/model` string")
  | .ok m => do
    let builtin := m.provider = "anthropic" ∨ m.provider = "openai" ∨
      m.provider ∈ builtinOpenaiCompatible
    require (builtin ∨ m.provider ∈ c.providers) <| inRung
      (": provider " ++ std.debug m.provider ++ " is not built in and has no " ++
        "`[[provider]]` block")
    require (c.priceTable.get rung).isSome <| inRung
      (" has no price. " ++ priceBlock std rung ++
        "(0.0 is correct only for a model you host yourself)")

def Config.validateChallengerLadders (c : Config F) : Except ParseError Unit :=
  each (fun i route => onSome route.challenger fun ch =>
    each (fun _ rung => c.validateChallengerRung std i rung) 0 ch.ladder) 0 c.routes

-- ---------------------------------------------------------------------------
-- Escalation
-- ---------------------------------------------------------------------------

def SessionPromotion.validate (p : SessionPromotion) : Except ParseError Unit := do
  let _ ← p.windowDuration
  require (p.probeEvery ≠ 0) <| .invalidConfig
    ("[escalation.session_promotion] probe_every must be >= 1. It is how a promoted session " ++
      "ever returns to a cheaper rung; 0 would pin it permanently.")
  require (p.maxSessions ≠ 0)
    (.invalidConfig "[escalation.session_promotion] max_sessions must be >= 1")

def BanditConfig.validate (b : BanditConfig F) : Except ParseError Unit := do
  require (std.isFinite b.exploration ∧ ¬b.exploration < 0) <| .invalidConfig
    ("bandit.exploration must be finite and >= 0, got " ++ std.display b.exploration)
  require (std.isFinite b.discount ∧ ¬b.discount ≤ 0 ∧ ¬1.0 < b.discount) <| .invalidConfig
    ("bandit.discount must be in (0, 1], got " ++ std.display b.discount)

def validateSpeculationBand (band : F × F) : Except ParseError Unit :=
  let ok (v : F) : Prop := std.isFinite v ∧ within 0 1.0 v
  require (ok band.1 ∧ ok band.2 ∧ ¬band.2 < band.1) <| .invalidConfig
    ("escalation.speculation_band must satisfy 0 <= low <= high <= 1, got [" ++
      std.display band.1 ++ ", " ++ std.display band.2 ++ "]")

def EProcessConfig.validate (ep : EProcessConfig F) : Except ParseError Unit := do
  require (std.isFinite ep.alpha ∧ ¬ep.alpha ≤ 0 ∧ ¬1.0 ≤ ep.alpha) <| .invalidConfig
    ("escalation.eprocess.alpha must be finite and in (0, 1), got " ++ std.display ep.alpha)
  require (std.isFinite ep.delta ∧ ¬ep.delta ≤ 0 ∧ ¬1.0 ≤ ep.delta) <| .invalidConfig
    ("escalation.eprocess.delta must be finite and in (0, 1), got " ++ std.display ep.delta)
  require (std.isFinite ep.bet ∧ ¬ep.bet ≤ 0 ∧ ¬1.0 < ep.bet) <| .invalidConfig
    ("escalation.eprocess.bet must be finite and in (0, 1], got " ++ std.display ep.bet)
  require (ep.grid ≠ []) <| .invalidConfig
    "escalation.eprocess.grid must not be empty — an empty grid certifies nothing"
  onSome (ep.grid.find? fun g => !(std.isFinite g && decide (¬g < 0) && decide (¬1.0 < g)))
    fun bad => .error <| .invalidConfig
      ("escalation.eprocess.grid values must be finite and in [0, 1], got " ++ std.display bad)

def validateExploration (epsilon : F) : Except ParseError Unit :=
  require (std.isFinite epsilon ∧ ¬epsilon ≤ 0 ∧ ¬0.5 < epsilon) <| .invalidConfig
    ("escalation.exploration.epsilon must be finite and in (0, 0.5], got " ++
      std.display epsilon)

def ProbeConfig.validate (probe : ProbeConfig F) : Except ParseError Unit := do
  require (2 ≤ probe.k ∧ probe.k ≤ 8) <| .invalidConfig
    ("escalation.probe.k must be in [2, 8], got " ++ toString probe.k)
  require (std.isFinite probe.sampleRate ∧ within 0 1.0 probe.sampleRate) <| .invalidConfig
    ("escalation.probe.sample_rate must be finite and in [0, 1], got " ++
      std.display probe.sampleRate)

/-- A rate in `[0, 1]` is zero where it is not above zero. -/
def PredictorConfig.validate (pred : PredictorConfig F) : Except ParseError Unit := do
  require (std.isFinite pred.lr ∧ within 0 1.0 pred.lr ∧ ¬pred.lr ≤ 0) <| .invalidConfig
    ("escalation.predictor.lr must be finite and in (0, 1], got " ++ std.display pred.lr)
  require (std.isFinite pred.l2 ∧ ¬pred.l2 < 0) <| .invalidConfig
    ("escalation.predictor.l2 must be finite and >= 0, got " ++ std.display pred.l2)

def Config.validatePrior (c : Config F) (prior : PriorConfig F) : Except ParseError Unit := do
  require (prior.provider = "typesafe") <| .invalidConfig
    ("escalation.prior.provider " ++ std.debug prior.provider ++ " is not supported — only " ++
      "\"typesafe\" is built in")
  require (std.isFinite prior.strength ∧ ¬prior.strength ≤ 0) <| .invalidConfig
    ("escalation.prior.strength must be finite and > 0, got " ++ std.display prior.strength)
  require (prior.timeoutMs ≠ 0) (.invalidConfig "escalation.prior.timeout_ms must be >= 1")
  require (prior.rungs ≠ []) (.invalidConfig "escalation.prior.rungs must not be empty")
  each (fun i route =>
    require (route.mode = .enforce → prior.rungs.length = route.ladder.length) <| .invalidConfig
      ("escalation.prior.rungs has " ++ toString prior.rungs.length ++ " entries but route[" ++
        toString i ++ "]'s enforce ladder has " ++ toString route.ladder.length ++
        " — they must match 1:1")) 0 c.routes

def Config.validateElastic (c : Config F) (elastic : ElasticConfig F) :
    Except ParseError Unit := do
  require (elastic.expensiveGates ≠ []) <| .invalidConfig
    "escalation.elastic.expensive_gates must name at least one gate to skip"
  each (fun _ g => require (c.definesGate g) <| .invalidConfig
    ("escalation.elastic.expensive_gates: gate " ++ std.debug g ++
      " is neither a built-in nor defined in a [[gate]] block")) 0 elastic.expensiveGates
  require (std.isFinite elastic.lambda ∧ within 0 1.0 elastic.lambda) <| .invalidConfig
    ("escalation.elastic.lambda must be finite and in [0, 1], got " ++ std.display elastic.lambda)

-- ---------------------------------------------------------------------------
-- The whole
-- ---------------------------------------------------------------------------

def Config.validate (c : Config F) : Except ParseError Unit := do
  each (c.validateRoute std) 0 c.routes
  onSome c.guardrail fun g => (g.validate std).mapError .invalidConfig
  onSome c.escalation.sessionPromotion SessionPromotion.validate
  eachFresh GateDef.id (GateDef.validate std)
    (fun d => .invalidConfig ("duplicate gate id " ++ std.debug d.id)) [] c.gateDefs
  each (fun _ p => PriceDef.validate std p) 0 c.priceDefs
  c.validateLaddersArePriced std
  c.validateChallengerLadders std
  onSome c.escalation.bandit (BanditConfig.validate std)
  onSome c.escalation.speculationBand (validateSpeculationBand std)
  onSome c.escalation.eprocess (EProcessConfig.validate std)
  onSome c.escalation.exploration (validateExploration std)
  onSome c.escalation.probe (ProbeConfig.validate std)
  onSome c.escalation.predictor (PredictorConfig.validate std)
  onSome c.escalation.prior (c.validatePrior std)
  onSome c.escalation.elastic (c.validateElastic std)

/-- `Config::parse`, given the decoder of the text. -/
def Config.parse (decode : String → Except String (Config F)) (text : String) :
    Except ParseError (Config F) := do
  let config ← (decode text).mapError .toml
  config.validate std
  .ok config

end ConfigFile

end Firstpass
