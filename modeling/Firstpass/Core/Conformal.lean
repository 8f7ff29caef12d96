import Firstpass.Core.Exact
import Firstpass.Lib.Descending

/-!
# Split-conformal calibration

The lowest score threshold whose served items fail rarely enough, by a sweep down
the sorted calibration pairs. A threshold of `⊤` serves nothing.
-/

namespace Firstpass.Conformal

open Descending (sortDesc)

variable {F : Type} [Field F] [LinearOrder F] [Analytic F]

structure ConformalResult (F : Type) where
  alpha : F
  delta : F
  threshold : WithTop F
  servedFrac : F
  calibRisk : F
  feasible : Bool

def hoeffding (delta : F) : F := Analytic.sqrt (Analytic.ln (1.0 / delta) / 2.0)

/-- The upper confidence bound on the failure rate. -/
def ucb (slack : F) (fails served : Nat) : F := fails / served + slack / Analytic.sqrt (served : F)

/-- The loop of `calibrate` from position `i`, with the failures before it and
the last position that met the target. -/
def sweep (slack alpha : F) (minN : Nat) : List (F × Bool) → Nat → Nat →
    Option (F × Nat × Nat) → Option (F × Nat × Nat)
  | [], _, _, best => best
  | (score, correct) :: rest, i, fails, best =>
    let fails := if correct then fails else fails + 1
    let served := i + 1
    if served < minN then sweep slack alpha minN rest served fails best
    else if ucb slack fails served ≤ alpha then
      sweep slack alpha minN rest served fails (some (score, served, fails))
    else sweep slack alpha minN rest served fails best

/-- `calibrate`, for any slack. -/
def calibrateWith (slack : F) (pairs : List (F × Bool)) (alpha delta : F) (minN : Nat) :
    ConformalResult F :=
  match sweep slack alpha minN (sortDesc Prod.fst pairs) 0 0 none with
  | some (threshold, served, fails) =>
    { alpha, delta, threshold
      servedFrac := served / (max pairs.length 1 : Nat)
      calibRisk := fails / served
      feasible := true }
  | none =>
    { alpha, delta
      threshold := ⊤
      servedFrac := 0
      calibRisk := 0
      feasible := false }

def calibrate (pairs : List (F × Bool)) (alpha delta : F) (minN : Nat) : ConformalResult F :=
  calibrateWith (hoeffding delta) pairs alpha delta minN

def servedFailureRate (pairs : List (F × Bool)) (threshold : WithTop F) : F × Nat :=
  let served := (pairs.filter fun p => threshold ≤ p.1).map Prod.snd
  if served = [] then (0, 0)
  else ((served.filter (!·)).length / served.length, served.length)

-- ---------------------------------------------------------------------------
-- Online
-- ---------------------------------------------------------------------------

/-- A threshold that every served outcome nudges. -/
structure AdaptiveConformal (F : Type) where
  alpha : F
  gamma : F
  threshold : F
  served : Nat
  servedFails : Nat

section

variable {F : Type} [Field F] [LinearOrder F]

def clamp01 (x : F) : F := max 0 (min x 1)

def AdaptiveConformal.new (alpha gamma initThreshold : F) : AdaptiveConformal F :=
  ⟨alpha, gamma, clamp01 initThreshold, 0, 0⟩

def AdaptiveConformal.shouldServe (c : AdaptiveConformal F) (score : F) : Bool :=
  c.threshold ≤ score

def AdaptiveConformal.observeServed (c : AdaptiveConformal F) (wasCorrect : Bool) :
    AdaptiveConformal F :=
  let err : F := if wasCorrect then 0 else 1
  { c with
    threshold := clamp01 (c.threshold + c.gamma * (err - c.alpha))
    served := c.served + 1
    servedFails := c.servedFails + if wasCorrect then 0 else 1 }

def AdaptiveConformal.realizedServedFailure (c : AdaptiveConformal F) : F :=
  if c.served = 0 then 0 else c.servedFails / c.served

end

end Firstpass.Conformal
