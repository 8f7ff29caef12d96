import Mathlib.Algebra.Order.Field.Basic
import Mathlib.Data.List.Destutter
import Mathlib.Data.Rat.Cast.OfScientific

/-!
# Anytime-valid risk control

One e-value for each candidate threshold of a grid, in exact arithmetic. `none`
stands for an `f64` that is not finite.
-/

namespace Firstpass.RiskControl

variable {F : Type} [Field F] [LinearOrder F]

structure Certification (F : Type) where
  threshold : F
  eValue : F
  certifiedAtRound : Nat

def defaultBet : F := 0.5

def defaultCap : F := 10

/-- `f64::EPSILON` -/
def epsilon : F := 1 / 2 ^ 52

structure EProcessRiskControl (F : Type) where
  alpha : F
  delta : F
  bet : F
  cap : F
  grid : List F
  eValues : List F
  certifiedAt : List (Option Nat)
  rounds : Nat
  served : Nat
  servedFails : Nat

/-- The largest bet: a failure takes at most half of an e-value. -/
def maxBet (alpha : F) : F := 0.5 / max (1 - alpha) epsilon

def clampBet (alpha : F) : Option F → F
  | some bet => max 0 (min bet (maxBet alpha))
  | none => min defaultBet (maxBet alpha)

def candidates (grid : List (Option F)) : List F :=
  ((grid.filterMap id).mergeSort (· ≤ ·)).destutter (· ≠ ·)

def withCap (alpha delta : F) (bet : Option F) (cap : F) (grid : List (Option F)) :
    EProcessRiskControl F where
  alpha := alpha
  delta := delta
  bet := clampBet alpha bet
  cap := cap
  grid := candidates grid
  eValues := List.replicate (candidates grid).length 1
  certifiedAt := List.replicate (candidates grid).length none
  rounds := 0
  served := 0
  servedFails := 0

def EProcessRiskControl.new (alpha delta : F) (bet : Option F) (grid : List (Option F)) :
    EProcessRiskControl F := withCap alpha delta bet defaultCap grid

/-- The level of each threshold, `none` where it is infinite. -/
def EProcessRiskControl.crossingLevel (c : EProcessRiskControl F) : Option F :=
  if c.grid = [] ∨ c.delta ≤ 0 then none else some (c.grid.length / c.delta)

def reaches (eValue : F) : Option F → Prop
  | some level => level ≤ eValue
  | none => False

instance (eValue : F) : (level : Option F) → Decidable (reaches eValue level)
  | some level => inferInstanceAs (Decidable (level ≤ eValue))
  | none => inferInstanceAs (Decidable False)

/-- `min(cap * level)`, and no cap below an infinite level. -/
def capped (cap : F) (level : Option F) (eValue : F) : F :=
  match level with
  | some level => min eValue (cap * level)
  | none => eValue

def errOf (wasCorrect : Bool) : F := if wasCorrect then 0 else 1

def bump (c : EProcessRiskControl F) (score : F) (wasCorrect : Bool) (threshold eValue : F) : F :=
  if score < threshold then eValue
  else
    let factor := max (1 + c.bet * (c.alpha - errOf wasCorrect)) 0
    capped c.cap c.crossingLevel (eValue * factor)

def EProcessRiskControl.observeServed (c : EProcessRiskControl F) (score : F) (wasCorrect : Bool) :
    EProcessRiskControl F :=
  let rounds := c.rounds + 1
  let eValues := List.zipWith (bump c score wasCorrect) c.grid c.eValues
  { c with
    rounds, eValues
    served := c.served + 1
    servedFails := c.servedFails + if wasCorrect then 0 else 1
    certifiedAt := List.zipWith3 (fun threshold eValue first =>
      if ¬ score < threshold ∧ first = none ∧ reaches eValue c.crossingLevel then some rounds
      else first) c.grid eValues c.certifiedAt }

/-- The smallest threshold whose e-value stands at the level now. -/
def EProcessRiskControl.certifiedThreshold (c : EProcessRiskControl F) : Option (Certification F) :=
  ((c.grid.zip (c.eValues.zip c.certifiedAt)).find? fun p => reaches p.2.1 c.crossingLevel).map
    fun p => {
      threshold := p.1
      eValue := p.2.1
      certifiedAtRound := p.2.2.getD c.rounds }

def EProcessRiskControl.shouldServe (c : EProcessRiskControl F) (score : F) : Bool :=
  match c.certifiedThreshold with
  | some cert => cert.threshold ≤ score
  | none => false

end Firstpass.RiskControl
