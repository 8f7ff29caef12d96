import Firstpass.Core.Number

/-!
# Verdicts and gate results
-/

namespace Firstpass

inductive Verdict
  | pass
  | fail
  | abstain
  deriving DecidableEq

def Verdict.asStr : Verdict → String
  | .pass => "pass"
  | .fail => "fail"
  | .abstain => "abstain"

structure Score (F : Type) [F64 F] where
  value : F
  nonneg : 0 ≤ value
  le_one : value ≤ 1

/-- What is not finite is out of range. -/
def Score.new [F64 F] (v : F) : Option (Score F) :=
  if hnonneg : 0 ≤ v then
    if hle : v ≤ 1 then some ⟨v, hnonneg, hle⟩ else none
  else none

structure GateResult (F : Type) [F64 F] where
  gateId : String
  verdict : Verdict
  score : Option (Score F)
  costUsd : F
  ms : Nat
  reason : Option String
  evidenceRef : Option String

namespace Reason

def providerError : String := "provider_error"
def timeout : String := "timeout"
def gateCrash : String := "gate_crash"
def contextOverflow : String := "context_overflow"

end Reason

def GateResult.deterministic [F64 F] (gateId : String) (verdict : Verdict) (ms : Nat) :
    GateResult F where
  gateId := gateId
  verdict := verdict
  score := none
  costUsd := 0
  ms := ms
  reason := none
  evidenceRef := none

def GateResult.abstain [F64 F] (gateId reason : String) (ms : Nat) : GateResult F where
  gateId := gateId
  verdict := .abstain
  score := none
  costUsd := 0
  ms := ms
  reason := some reason
  evidenceRef := none

end Firstpass
