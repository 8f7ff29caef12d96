import Firstpass.Core.Exact
import Firstpass.Core.Served
import Mathlib.Data.List.Destutter

/-!
# Learn-then-test calibration

A walk down the distinct scores of the calibration pairs that tests each as a
threshold and stops certifying at the first test that fails. A threshold of `⊤`
serves nothing.
-/

namespace Firstpass.Ltt

open Descending (sortDesc)

variable {F : Type} [Field F] [LinearOrder F] [Analytic F]

structure LttDiagnostic (F : Type) where
  lambda : F
  nServed : Nat
  empiricalRisk : F
  pValue : F
  certified : Bool

structure LttResult (F : Type) where
  alpha : F
  delta : F
  threshold : WithTop F
  feasible : Bool
  empiricalRisk : F
  nServed : Nat
  falseAcceptRate : Option F
  diagnostics : List (LttDiagnostic F)

def mkInfeasible (alpha delta : F) (diagnostics : List (LttDiagnostic F)) : LttResult F :=
  { alpha, delta
    threshold := ⊤
    feasible := false
    empiricalRisk := 0
    nServed := 0
    falseAcceptRate := none
    diagnostics }

-- ---------------------------------------------------------------------------
-- The binomial tail
-- ---------------------------------------------------------------------------

def nextLogTerm (n : Nat) (logRatio logTerm : F) (i : Nat) : F :=
  logTerm + (Analytic.ln ((n - i + 1 : Nat) : F) - Analytic.ln (i : F) + logRatio)

def logTerms (n k : Nat) (p : F) : List F :=
  let logP := Analytic.ln p
  let logQ := Analytic.ln (1 - p)
  (List.range' 1 k).scanl (nextLogTerm n (logP - logQ)) (n * logQ)

def maxLog (terms : List F) : WithBot F := terms.foldl (fun m l => max m (l : WithBot F)) ⊥

/-- `P(X ≤ k)` for `X` binomial with `n` trials of probability `p`. -/
def binomialCdf (n k : Nat) (p : F) : F :=
  if p ≤ 0 then 1
  else if 1 ≤ p then if n ≤ k then 1 else 0
  else if n ≤ k then 1
  else
    match maxLog (logTerms n k p) with
    | none => 0
    | some maxLog =>
      min (((logTerms n k p).map fun l => Analytic.exp (l - maxLog)).sum * Analytic.exp maxLog) 1

-- ---------------------------------------------------------------------------
-- The sweep
-- ---------------------------------------------------------------------------

/-- The running counters of the served set, with the sorted pairs from `ptr` on. -/
structure Cursor (F : Type) where
  rest : List (F × Bool)
  ptr : Nat
  failures : Nat

/-- The `while` loop: every pair with a score of at least `lambda` is taken. -/
def advance (lambda : F) : List (F × Bool) → Nat → Nat → Cursor F
  | [], ptr, failures => ⟨[], ptr, failures⟩
  | (score, correct) :: rest, ptr, failures =>
    if lambda ≤ score then
      advance lambda rest (ptr + 1) (if correct then failures else failures + 1)
    else ⟨(score, correct) :: rest, ptr, failures⟩

-- ---------------------------------------------------------------------------
-- The walk
-- ---------------------------------------------------------------------------

structure Walk (F : Type) where
  diagnostics : List (LttDiagnostic F)
  walkActive : Bool
  best : Option Nat
  best_lt : ∀ i ∈ best, i < diagnostics.length

def Walk.start : Walk F := ⟨[], true, none, nofun⟩

def Walk.push (w : Walk F) (walkActive : Bool) (row : LttDiagnostic F) : Walk F where
  diagnostics := w.diagnostics ++ [row]
  walkActive := walkActive
  best := if row.certified then some w.diagnostics.length else w.best
  best_lt := by
    intro i hi
    rw [List.length_append, List.length_singleton]
    split_ifs at hi
    · cases hi
      exact Nat.lt_succ_self _
    · exact (w.best_lt i hi).trans (Nat.lt_succ_self _)

def Walk.judge (alpha delta : F) (minN : Nat) (w : Walk F) (lambda : F)
    (nServed failures : Nat) : Walk F :=
  let empiricalRisk := if nServed = 0 then 0 else (failures : F) / nServed
  if nServed < minN then
    w.push w.walkActive { lambda, nServed, empiricalRisk, pValue := 1, certified := false }
  else
    let pValue := binomialCdf nServed failures alpha
    let certified := w.walkActive && decide (pValue ≤ delta)
    let walkActive := if w.walkActive && !certified then false else w.walkActive
    w.push walkActive { lambda, nServed, empiricalRisk, pValue, certified }

def visit (alpha delta : F) (minN : Nat) : Cursor F × Walk F → F → Cursor F × Walk F
  | (cursor, w), lambda =>
    let cursor := advance lambda cursor.rest cursor.ptr cursor.failures
    (cursor, w.judge alpha delta minN lambda cursor.ptr cursor.failures)

/-- One candidate for each distinct score, the greatest first. -/
def candidates (sorted : List (F × Bool)) : List F := (sorted.map Prod.fst).destutter (· ≠ ·)

def report (alpha delta : F) (sorted : List (F × Bool)) (w : Walk F) : LttResult F :=
  match h : w.best with
  | none => mkInfeasible alpha delta w.diagnostics
  | some bestIdx =>
    let d := w.diagnostics.get ⟨bestIdx, w.best_lt bestIdx h⟩
    let nIncorrect := (sorted.filter (!·.2)).length
    { alpha, delta
      threshold := d.lambda
      feasible := true
      empiricalRisk := d.empiricalRisk
      nServed := d.nServed
      falseAcceptRate :=
        if nIncorrect = 0 then none
        else some ((sorted.filter fun p => !p.2 && decide (d.lambda ≤ p.1)).length / nIncorrect)
      diagnostics := w.diagnostics }

def calibrate (pairs : List (F × Bool)) (alpha delta : F) (minN : Nat) : LttResult F :=
  if pairs = [] then mkInfeasible alpha delta []
  else
    let sorted := sortDesc Prod.fst pairs
    let start := (⟨sorted, 0, 0⟩, Walk.start)
    let (_, w) := (candidates sorted).foldl (visit alpha delta minN) start
    report alpha delta sorted w

end Firstpass.Ltt
