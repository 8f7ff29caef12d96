import Firstpass.Core.HashChain
import Firstpass.Core.Number

/-!
# The cost model

Per-model token prices, and the reference `provider/model` they are looked up
by.
-/

namespace Firstpass

open HashChain (Error)

structure ModelRef where
  provider : String
  model : String
  deriving DecidableEq

/-- Exactly one `provider/model` pair, neither part empty. -/
def ModelRef.parse (s : String) : Except Error ModelRef :=
  let p := s.toList.takeWhile (· ≠ '/')
  match s.toList.dropWhile (· ≠ '/') with
  | '/' :: m =>
    if p ≠ [] ∧ m ≠ [] ∧ '/' ∉ m then .ok ⟨String.ofList p, String.ofList m⟩
    else .error (.badModelRef s)
  | _ => .error (.badModelRef s)

example : ModelRef.parse "acme/small" = .ok ⟨"acme", "small"⟩ := by decide

structure ModelPrice (F : Type) where
  inputPerMtok : F
  outputPerMtok : F

variable {F : Type} [F64 F]

def cacheWriteMultiplier : F := 1.25
def cacheReadMultiplier : F := 0.1

def ModelPrice.cost (p : ModelPrice F) (input output : Nat) : F :=
  ((input : F) / 1e6) * p.inputPerMtok + ((output : F) / 1e6) * p.outputPerMtok

def ModelPrice.costWithCache (p : ModelPrice F) (input cacheWrite cacheRead output : Nat) : F :=
  p.cost input output + ((cacheWrite : F) / 1e6) * p.inputPerMtok * cacheWriteMultiplier
    + ((cacheRead : F) / 1e6) * p.inputPerMtok * cacheReadMultiplier

structure PriceTable (F : Type) where
  get : String → Option (ModelPrice F)

def PriceTable.costUsdWithCache (t : PriceTable F) (model : String)
    (input cacheWrite cacheRead output : Nat) : Except Error F :=
  match t.get model with
  | some p => .ok (p.costWithCache input cacheWrite cacheRead output)
  | none => .error (.unknownModel model)

def PriceTable.costUsd (t : PriceTable F) (model : String) (input output : Nat) : Except Error F :=
  t.costUsdWithCache model input 0 0 output

end Firstpass
