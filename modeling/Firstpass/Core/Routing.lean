import Firstpass.Core.Trace

/-!
# Routes and rollout

Which route of a configuration claims a request, and which slice of its traffic is
enforced. SHA-256 is the parameter `sha256`.

Left out: the gates of a route, and the mode, margin and spend of its challenger, which
the choice of a route does not read.
-/

namespace Firstpass.Routing

inductive RoutingMode
  | observe
  | cost
  | balanced
  | quality
  | latency
  | max
  deriving DecidableEq

/-- What a mode overrides. -/
structure ModePreset where
  speculation : Option Nat
  maxRungsDelta : Option Int
  startAtTop : Bool

def RoutingMode.preset : RoutingMode → ModePreset
  | .observe => ⟨none, none, false⟩
  | .cost => ⟨some 0, none, false⟩
  | .balanced => ⟨none, none, false⟩
  | .quality => ⟨some 0, some 1, false⟩
  | .latency => ⟨some 1, none, false⟩
  | .max => ⟨some 0, none, true⟩

inductive StringOrVec
  | one (s : String)
  | many (v : List String)

def StringOrVec.contains (needle : String) : StringOrVec → Bool
  | .one s => s = needle
  | .many v => needle ∈ v

/-- Every present field is a constraint. -/
structure Match where
  agent : Option String
  subagent : Option StringOrVec
  taskKind : Option TaskKind
  language : Option StringOrVec

def Match.any : Match := ⟨none, none, none, none⟩

def Match.matches (m : Match) (f : Features) : Bool :=
  m.agent.all (fun agent => f.agent = some agent) &&
    m.subagent.all (fun subs => f.subagent.any subs.contains) &&
    m.taskKind.all (fun tk => f.taskKind = tk) &&
    m.language.all (fun langs => f.language.any langs.contains)

-- ---------------------------------------------------------------------------
-- Rollout
-- ---------------------------------------------------------------------------

/-- `BUCKETS` -/
def buckets : Nat := 10000

inductive RolloutKey
  | session
  | request
  | tenant
  deriving DecidableEq

def RolloutKey.tag : RolloutKey → String
  | .session => "session"
  | .request => "request"
  | .tenant => "tenant"

structure Rollout (F : Type) where
  percent : F
  key : RolloutKey

abbrev Bytes := List UInt8

def utf8 (s : String) : Bytes := s.toByteArray.toList

/-- `u32::from_be_bytes` of the first four bytes of a digest. -/
def firstU32 (digest : Bytes) : Nat := (digest.take 4).foldl (fun n b => 256 * n + b.toNat) 0

section
variable (sha256 : Bytes → Bytes)

def bucketOf (salt : String) (key : RolloutKey) (keyValue : String) : Nat :=
  firstU32 (sha256 (utf8 salt ++ [0] ++ utf8 key.tag ++ [0] ++ utf8 keyValue)) % buckets

def hexDigits (b : UInt8) : List Char :=
  [Nat.digitChar (b.toNat / 16), Nat.digitChar (b.toNat % 16)]

def hexEncode (bytes : Bytes) : String := String.ofList (bytes.flatMap hexDigits)

def requestIdentity (body : Bytes) : String := hexEncode ((sha256 body).take 8)

variable {F : Type} [F64 F]

/-- The cutoff is truncated to an integer, and the bucket is strictly below it. -/
def inRollout (bucket : Nat) (percent : F) : Bool :=
  if percent ≤ 0 then false
  else if (100.0 : F) ≤ percent then true
  else ((bucket + 1 : Nat) : F) ≤ percent / 100.0 * (buckets : F)

structure RolloutDecision (F : Type) where
  percent : F
  key : RolloutKey
  bucket : Nat
  enforced : Bool

def Rollout.decide (salt : String) (rollout : Rollout F) (keyValue : String) :
    RolloutDecision F :=
  let bucket := bucketOf sha256 salt rollout.key keyValue
  ⟨rollout.percent, rollout.key, bucket, inRollout bucket rollout.percent⟩

end

-- ---------------------------------------------------------------------------
-- Routes
-- ---------------------------------------------------------------------------

structure Route (F : Type) where
  match_ : Match
  mode : Mode
  ladder : List String
  routingMode : Option RoutingMode
  rollout : Option (Rollout F)
  shadowed : Bool
  challengerLadder : Option (List String)

structure Config (F : Type) where
  routes : List (Route F)
  enforceStructured : Bool

variable {F : Type}

/-- The first route whose match claims the request. -/
def Config.routeFor (c : Config F) (f : Features) : Option (Route F) :=
  c.routes.find? fun r => r.match_.matches f

/-- The position of that route. -/
def Config.routeIx (c : Config F) (f : Features) : Nat :=
  c.routes.findIdx fun r => r.match_.matches f

theorem Config.routes_routeIx (c : Config F) (f : Features) :
    c.routes[c.routeIx f]? = c.routeFor f := by
  unfold Config.routeIx Config.routeFor
  induction c.routes with
  | nil => rfl
  | cons r routes ih =>
    rw [List.findIdx_cons, List.find?_cons]
    cases r.match_.matches f with
    | true => rfl
    | false => simpa using ih

end Firstpass.Routing
