import Firstpass.Core.Config
import Firstpass.Proxy.Gate
import Firstpass.Proxy.Inbound

/-!
# From gate ids to gates

A route names its gates. A built-in name has a gate of its own; another is looked up among
the definitions, and skipped where what it needs is missing.

What a gate answers is arbitrary.
-/

namespace Firstpass.ConfigFile

open Inbound (providerId)
open Json (Value)

variable {F : Type} [F64 F]

/-- What a runnable gate is built from. -/
inductive GateSpec (F : Type)
  | nonEmpty
  | jsonValid
  | toolArgsValid
  | judge (id : String) (provider : Provider) (model : String) (auth : Auth) (threshold : F)
      (rubric : String) (prices : PriceTable F)
  | consistency (id : String) (provider : Provider) (model : String) (auth : Auth) (k : Nat)
      (threshold : F) (prices : PriceTable F)
  | schema (id : String) (schema : Value)
  | decision (id : String) (decision : DecisionDef F) (apiKey : String)
  | subprocess (id program : String) (args : List String) (timeoutMs : Nat)

def GateSpec.id : GateSpec F → String
  | .nonEmpty => "non-empty"
  | .jsonValid => "json-valid"
  | .toolArgsValid => "tool-args-valid"
  | .judge id .. => id
  | .consistency id .. => id
  | .schema id .. => id
  | .decision id .. => id
  | .subprocess id .. => id

/-- A gate, wrapped where its abstains fail closed. -/
structure ResolvedGate (F : Type) where
  spec : GateSpec F
  failsClosed : Bool

def push (spec : GateSpec F) (d : Option (GateDef F)) : ResolvedGate F :=
  ⟨spec, d.any fun d => d.onAbstain = .failClosed⟩

/-- What the resolution of a request's gates reads besides their ids. -/
structure GateEnv (F : Type) where
  defs : List (GateDef F)
  registry : ProviderRegistry
  auth : Auth
  prices : PriceTable F
  /-- The environment of the process. -/
  var : String → Option String

namespace GateEnv

variable (env : GateEnv F)

/-- The gate of a definition, tried kind by kind. -/
def build (d : GateDef F) : Option (GateSpec F) :=
  match d.judge, d.consistency, d.schema, d.decision, d.cmd with
  | some judge, _, _, _, _ =>
    (env.registry.get (providerId judge.model)).map fun provider =>
      .judge d.id provider judge.model env.auth judge.threshold (judge.rubric.getD "") env.prices
  | none, some cons, _, _, _ =>
    (env.registry.get (providerId cons.model)).map fun provider =>
      .consistency d.id provider cons.model env.auth cons.k cons.threshold env.prices
  | none, none, some schema, _, _ => some (.schema d.id schema)
  | none, none, none, some decision, _ =>
    (env.var decision.apiKeyEnv).map fun apiKey => .decision d.id decision apiKey
  | none, none, none, none, program :: args => some (.subprocess d.id program args d.timeoutMs)
  | none, none, none, none, [] => none

def resolveGate (name : String) : Option (ResolvedGate F) :=
  if name = "non-empty" then some (push .nonEmpty none)
  else if name = "json-valid" then some (push .jsonValid none)
  else if name = "tool-args-valid" then some (push .toolArgsValid none)
  else
    (env.defs.find? fun d => d.id = name).bind fun d =>
      (env.build d).map fun spec => push spec (some d)

def resolveGates (names : List String) : List (ResolvedGate F) := names.filterMap env.resolveGate

end GateEnv

/-- What the gates answer. Any outcome is possible, but a gate reports under its own id. -/
structure GateRunner (F : Type) [F64 F] where
  evaluate : GateSpec F → Nat → ModelRequest → ModelResponse → GateResult F
  evaluate_gateId : ∀ spec rung req resp, (evaluate spec rung req resp).gateId = spec.id

def ResolvedGate.toGate (run : GateRunner F) (g : ResolvedGate F) : Gate F where
  id := g.spec.id
  evaluate := run.evaluate g.spec
  abstainFailsClosed := g.failsClosed
  evaluate_gateId := run.evaluate_gateId g.spec

/-- The gates that a request on a route runs. -/
def GateEnv.gates (env : GateEnv F) (run : GateRunner F) (names : List String) : List (Gate F) :=
  (env.resolveGates names).map (·.toGate run)

-- ---------------------------------------------------------------------------
-- What is resolved
-- ---------------------------------------------------------------------------

variable {env : GateEnv F} {d : GateDef F} {spec : GateSpec F} {g : ResolvedGate F} {name : String}

omit [F64 F] in
theorem GateEnv.build_id (h : env.build d = some spec) : spec.id = d.id := by
  unfold GateEnv.build at h
  split at h
  · obtain ⟨provider, -, rfl⟩ := Option.map_eq_some_iff.mp h
    rfl
  · obtain ⟨provider, -, rfl⟩ := Option.map_eq_some_iff.mp h
    rfl
  · cases h
    rfl
  · obtain ⟨apiKey, -, rfl⟩ := Option.map_eq_some_iff.mp h
    rfl
  · cases h
    rfl
  · cases h

omit [F64 F] in
/-- A name that is not built in is resolved by its first definition. -/
theorem GateEnv.resolveGate_def (hname : name ∉ builtinGates) :
    env.resolveGate name = (env.defs.find? fun d => d.id = name).bind fun d =>
      (env.build d).map fun spec => push spec (some d) := by
  simp only [builtinGates, List.mem_cons, List.not_mem_nil, or_false, not_or] at hname
  simp only [GateEnv.resolveGate, hname.1, hname.2.1, hname.2.2, if_false]

omit [F64 F] in
/-- A gate is resolved under the name it is configured by. -/
theorem GateEnv.resolveGate_id (h : env.resolveGate name = some g) : g.spec.id = name := by
  unfold GateEnv.resolveGate at h
  split_ifs at h with hne hjson htool
  · cases h
    exact hne.symm
  · cases h
    exact hjson.symm
  · cases h
    exact htool.symm
  · obtain ⟨d, hfind, hbuild⟩ := Option.bind_eq_some_iff.mp h
    obtain ⟨spec, hspec, rfl⟩ := Option.map_eq_some_iff.mp hbuild
    have hid : d.id = name := by simpa using List.find?_some hfind
    exact (build_id hspec).trans hid

end Firstpass.ConfigFile
