import Firstpass.Core.Trace
import Mathlib.Algebra.Order.Field.Basic

/-!
# Off-policy estimates for a start rung

What logged traffic says about always starting at one rung: each trace that
started there is weighted by the inverse of its recorded propensity. Field
arithmetic instead of `f64`.
-/

namespace Firstpass.Ope

variable {F : Type} [Field F] [LinearOrder F]

/-- The fields of a trace that the estimates read, with its stored feedback. -/
structure LoggedTrace (F : Type) where
  policy : PolicyRef F
  request : RequestInfo
  rungs : List Nat
  final : FinalOutcome F
  experiment : Option (ExperimentRecord F)
  deferred : List Verdict

def LoggedTrace.isIncumbent (t : LoggedTrace F) : Bool :=
  t.experiment.all fun e => e.arm ≠ .challenger

def LoggedTrace.taskKind (t : LoggedTrace F) : TaskKind := t.request.features.taskKind

-- ---------------------------------------------------------------------------
-- The reward model
-- ---------------------------------------------------------------------------

structure DmModel (F : Type) where
  bucket : TaskKind → Nat → Option F
  rungMean : Nat → Option F
  globalMean : F

structure Observation (F : Type) where
  taskKind : TaskKind
  rung : Nat
  cost : F

def observation (t : LoggedTrace F) : Option (Observation F) :=
  if t.policy.propensity.isNone then none
  else t.rungs.head?.map fun rung => ⟨t.taskKind, rung, t.final.totalCostUsd⟩

/-- The mean of an accumulator, which exists from the first observation on. -/
def meanOf (seen : List (Observation F)) : Option F :=
  if seen = [] then none else some ((seen.map Observation.cost).sum / seen.length)

def DmModel.build (traces : List (LoggedTrace F)) : DmModel F :=
  let seen := traces.filterMap observation
  { bucket := fun taskKind rung =>
      meanOf (seen.filter fun o => (o.taskKind, o.rung) = (taskKind, rung))
    rungMean := fun rung => meanOf (seen.filter fun o => o.rung = rung)
    globalMean := (meanOf seen).getD 0 }

def DmModel.predict (m : DmModel F) (taskKind : TaskKind) (rung : Nat) : F :=
  ((m.bucket taskKind rung).orElse fun _ => m.rungMean rung).getD m.globalMean

-- ---------------------------------------------------------------------------
-- The estimates
-- ---------------------------------------------------------------------------

structure IpsPoint (F : Type) where
  weight : F
  cost : F
  correctness : Option Bool
  taskKind : TaskKind
  loggedRung : Nat

structure IpsReport (F : Type) where
  nTraces : Nat
  nWithPropensity : Nat
  candidateStartRung : Nat
  ipsCost : F
  snipsCost : F
  ess : F
  ipsServedFailure : Option F
  snipsServedFailure : Option F
  nCorrectnessKnown : Nat
  drCost : F

variable (candidate : Nat)

/-- A trace with a positive propensity is a point. Its feedback counts only
where it started at the candidate. -/
def ipsPoint (t : LoggedTrace F) : Option (IpsPoint F) :=
  match t.policy.propensity with
  | none => none
  | some p =>
    if p ≤ 0 then none
    else
      let w := (if t.rungs.head? = some candidate then 1 else 0) / p
      some
        { weight := w
          cost := t.final.totalCostUsd
          correctness := if 0 < w then t.deferred.getLast?.map (decide <| · = .pass) else none
          taskKind := t.taskKind
          loggedRung := t.rungs.head?.getD 0 }

def ipsPoints (traces : List (LoggedTrace F)) : List (IpsPoint F) :=
  (traces.filter (·.isIncumbent)).filterMap (ipsPoint candidate)

/-- The mean of the doubly robust values under a reward model. -/
def drCost (predict : TaskKind → Nat → F) (points : List (IpsPoint F)) : F :=
  if points = [] then 0
  else
    (points.map fun pt => predict pt.taskKind candidate +
      pt.weight * (pt.cost - predict pt.taskKind pt.loggedRung)).sum / points.length

def ipsFromStore (stored : List (LoggedTrace F)) : IpsReport F :=
  let traces := stored.filter (·.isIncumbent)
  let points := ipsPoints candidate stored
  let n := points.length
  let sumW := (points.map IpsPoint.weight).sum
  let sumW2 := (points.map fun p => p.weight * p.weight).sum
  let sumWc := (points.map fun p => p.weight * p.cost).sum
  let known := points.filterMap fun p => p.correctness.map (p.weight, ·)
  let sumWf := ((known.filter (!·.2)).map Prod.fst).sum
  let sumWk := (known.map Prod.fst).sum
  { nTraces := traces.length
    nWithPropensity := n
    candidateStartRung := candidate
    ipsCost := if 0 < n then sumWc / n else 0
    snipsCost := if 0 < sumW then sumWc / sumW else 0
    ess := if 0 < sumW2 then sumW * sumW / sumW2 else 0
    ipsServedFailure := if known = [] then none else some (sumWf / known.length)
    snipsServedFailure :=
      if known = [] then none else some (if 0 < sumWk then sumWf / sumWk else 0)
    nCorrectnessKnown := known.length
    drCost := drCost candidate (DmModel.build traces).predict points }

end Firstpass.Ope
