import Firstpass.Core.Exact
import Mathlib.Algebra.Order.Field.Basic

/-!
# The guardrail

An upper confidence bound on the served-failure rate over a trailing window of
resolved outcomes, in exact arithmetic.
-/

namespace Firstpass

variable {F : Type} [Field F] [LinearOrder F] [Analytic F]

inductive GuardrailAction
  | demote
  | alarm
  deriving DecidableEq

structure Guardrail (F : Type) where
  alpha : F
  delta : F
  window : Nat
  minN : Nat
  action : GuardrailAction

structure GuardrailVerdict (F : Type) where
  n : Nat
  rate : F
  bound : F
  breached : Bool
  insufficientSamples : Bool

/-- The outcomes are oldest first, and `true` is a correct answer. -/
def Guardrail.evaluate (g : Guardrail F) (outcomes : List Bool) : GuardrailVerdict F :=
  let window := min outcomes.length g.window
  let recent := outcomes.drop (outcomes.length - window)
  let n := recent.length
  if n < g.minN then
    { n, rate := 0, bound := 0, breached := false, insufficientSamples := true }
  else
    let fails : F := (recent.filter (!·)).length
    let rate := fails / n
    let slack := max (Analytic.ln (1.0 / g.delta)) 0
    let bound := rate + Analytic.sqrt (slack / (2.0 * n))
    { n, rate, bound, breached := g.alpha < bound, insufficientSamples := false }

theorem Guardrail.breached_minN {g : Guardrail F} (h : (g.evaluate outcomes).breached) :
    g.minN ≤ outcomes.length := by
  by_contra hfew
  have hn : (outcomes.drop (outcomes.length - min outcomes.length g.window)).length < g.minN := by
    rw [List.length_drop]
    omega
  simp only [Guardrail.evaluate, if_pos hn] at h
  cases h

end Firstpass
