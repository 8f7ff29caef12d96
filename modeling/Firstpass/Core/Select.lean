import Firstpass.Core.Trace
import Mathlib.Algebra.Order.Field.Basic

/-!
# Certified model selection

A sequential non-inferiority test between the incumbent ladder and a challenger,
in exact arithmetic: every number is finite.
-/

namespace Firstpass.Select

variable {F : Type} [Field F] [LinearOrder F]

/-- `LAMBDA_GRID`: fractions of the largest bet. -/
def lambdaGrid : List F :=
  [0.05, 0.10, 0.15, 0.20, 0.25, 0.30, 0.35, 0.40, 0.45, 0.50, 0.55, 0.60, 0.65, 0.70, 0.75, 0.80,
    0.85, 0.90]

inductive Status
  | undecided
  | certified
  | halted
  deriving DecidableEq

structure Mixture (F : Type) where
  sign : F
  lambdas : List F
  wealth : List F

def worst (margin sign : F) : F := if 0 < sign then 1 + margin else 1 - margin

def Mixture.new (margin sign : F) : Mixture F where
  sign := sign
  lambdas := lambdaGrid.map (· / worst margin sign)
  wealth := List.replicate (lambdaGrid : List F).length 1

def Mixture.step (m : Mixture F) (d margin : F) : Mixture F :=
  let x := m.sign * (d - margin)
  { m with wealth := List.zipWith (fun w lambda => w * (1 + lambda * x)) m.wealth m.lambdas }

def Mixture.eValue (m : Mixture F) : F := m.wealth.sum / m.wealth.length

structure ArmStats (F : Type) where
  outcomes : Nat
  outcomeSum : F
  requests : Nat
  costUsd : F

def ArmStats.empty : ArmStats F := ⟨0, 0, 0, 0⟩

def ArmStats.outcome (s : ArmStats F) (x : F) : ArmStats F :=
  { s with outcomes := s.outcomes + 1, outcomeSum := s.outcomeSum + x }

def ArmStats.cost (s : ArmStats F) (costUsd : F) : ArmStats F :=
  { s with requests := s.requests + 1, costUsd := s.costUsd + costUsd }

structure Experiment (F : Type) where
  margin : F
  alpha : F
  certify : Mixture F
  halt : Mixture F
  pendingIncumbent : List F
  pendingChallenger : List F
  pairs : Nat
  status : Status
  decidedAtPair : Option Nat
  incumbent : ArmStats F
  challenger : ArmStats F

def Experiment.new (display : F → String) (margin alpha : F) : Except String (Experiment F) :=
  if margin ≤ 0 ∨ 0.5 < margin then
    .error ("margin must be in (0, 0.5], got " ++ display margin)
  else if alpha ≤ 0 ∨ 0.5 ≤ alpha then
    .error ("alpha must be in (0, 0.5), got " ++ display alpha)
  else
    .ok {
      margin, alpha
      certify := .new margin (-1)
      halt := .new margin 1
      pendingIncumbent := []
      pendingChallenger := []
      pairs := 0
      status := .undecided
      decidedAtPair := none
      incumbent := .empty
      challenger := .empty }

def Experiment.closePair (e : Experiment F) (xInc xCh : F) : Experiment F :=
  let e := { e with pairs := e.pairs + 1 }
  if e.status = .undecided then
    let d := xInc - xCh
    let e := { e with certify := e.certify.step d e.margin, halt := e.halt.step d e.margin }
    let level := 1 / e.alpha
    if level ≤ e.certify.eValue then { e with status := .certified, decidedAtPair := some e.pairs }
    else if level ≤ e.halt.eValue then { e with status := .halted, decidedAtPair := some e.pairs }
    else e
  else e

/-- The loop of `observe_outcome`: close pairs while both queues have a front. -/
def Experiment.closePairs (e : Experiment F) : List F → List F → Experiment F
  | xInc :: incs, xCh :: chs => (e.closePair xInc xCh).closePairs incs chs
  | incs, chs => { e with pendingIncumbent := incs, pendingChallenger := chs }

/-- `(0.0..=1.0).contains(&x)` -/
def inUnit (x : F) : Prop := 0 ≤ x ∧ x ≤ 1

instance (x : F) : Decidable (inUnit x) := inferInstanceAs (Decidable (_ ∧ _))

def Experiment.observeOutcome (e : Experiment F) (arm : Arm) (outcome : F) : Experiment F × Bool :=
  if inUnit outcome then
    match arm with
    | .incumbent =>
      ({ e with incumbent := e.incumbent.outcome outcome }.closePairs
        (e.pendingIncumbent ++ [outcome]) e.pendingChallenger, true)
    | .challenger =>
      ({ e with challenger := e.challenger.outcome outcome }.closePairs
        e.pendingIncumbent (e.pendingChallenger ++ [outcome]), true)
  else (e, false)

def Experiment.observePair (e : Experiment F) (xInc xCh : F) : Experiment F × Bool :=
  if inUnit xInc ∧ inUnit xCh then
    ({ e with
        incumbent := e.incumbent.outcome xInc
        challenger := e.challenger.outcome xCh }.closePair xInc xCh, true)
  else (e, false)

def Experiment.observeCost (e : Experiment F) (arm : Arm) (costUsd : F) : Experiment F :=
  if costUsd < 0 then e
  else
    match arm with
    | .incumbent => { e with incumbent := e.incumbent.cost costUsd }
    | .challenger => { e with challenger := e.challenger.cost costUsd }

def Experiment.observePairs (e : Experiment F) (pairs : List (F × F)) : Experiment F :=
  pairs.foldl (fun e p => (e.observePair p.1 p.2).1) e

end Firstpass.Select
