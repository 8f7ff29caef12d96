import Firstpass.Core.Exact
import Firstpass.Core.Trace

/-!
# The start-rung bandit

UCB1 over the gate verdicts of a context: the start rung of least expected cost, or the
one of least expected cost under a prior.

Left out: Thompson sampling.
-/

namespace Firstpass.Bandit

variable {F : Type} [Field F] [LinearOrder F] [Analytic F]

structure ContextBucket where
  taskKind : TaskKind
  promptBucketCoarse : Nat
  deriving DecidableEq

def ContextBucket.fromFeatures (f : Features) : ContextBucket :=
  ⟨f.taskKind, f.promptTokenBucket / 2⟩

def ContextBucket.representativePromptTokens (ctx : ContextBucket) : Nat :=
  2 ^ (min ctx.promptBucketCoarse 9 * 2 + 1)

structure ArmCounts (F : Type) where
  pass : F
  fail : F

def ArmCounts.n (c : ArmCounts F) : F := c.pass + c.fail

structure StartRungBandit (F : Type) where
  exploration : F
  minObservations : Nat
  priorStrength : F
  /-- The counts of a context, one entry for each rung it has seen. -/
  data : ContextBucket → List (Nat × ArmCounts F)

def StartRungBandit.new (minObservations : Nat) (exploration : F) : StartRungBandit F where
  exploration := exploration
  minObservations := minObservations
  priorStrength := 10.0
  data := fun _ => []

/-- The price of a model for input and output tokens, where it is known. -/
abbrev Prices (F : Type) := String → Option (Nat → Nat → F)

/-- The expected cost of the rungs from `r` on, which are reached with probability `reach`. -/
def expectedCost (price : String → F) (pPass : Nat → F) : Nat → F → F → List String → F
  | _, _, cost, [] => cost
  | r, reach, cost, model :: rest =>
    let cost := cost + reach * price model
    let reach := reach * (1 - pPass r)
    if reach < 1 / 10 ^ 10 then cost else expectedCost price pPass (r + 1) reach cost rest

/-- The better of the best start so far and start `s`; ties keep the lower one. -/
def cheaper (cost : Nat → F) (best : Option (F × Nat)) (s : Nat) : Option (F × Nat) :=
  match best with
  | none => some (cost s, s)
  | some (least, _) => if cost s < least then some (cost s, s) else best

/-- The expected cost of a ladder from start `s`. -/
def startCost (ladder : List String) (prices : Prices F) (inTokens : Nat) (pPass : Nat → F)
    (s : Nat) : F :=
  let outTokens := max (inTokens / 2) 1
  let price model := (prices model).elim 0 fun cost => cost inTokens outTokens
  expectedCost price pPass s 1 0 (ladder.drop s)

def argminExpectedCost (ladder : List String) (prices : Prices F) (inTokens : Nat)
    (pPass : Nat → F) : Nat :=
  let cost := startCost ladder prices inTokens pPass
  (((List.range ladder.length).foldl (cheaper cost) none).map Prod.snd).getD 0

def clamp01 (x : F) : F := max 0 (min x 1)

namespace StartRungBandit

variable (b : StartRungBandit F)

/-- An unobserved rung counts as one that always passes. -/
def ucbPass (ctx : ContextBucket) (lnN : F) (rung : Nat) : F :=
  match (b.data ctx).lookup rung with
  | none => 1
  | some c =>
    if c.n = 0 then 1
    else clamp01 (c.pass / c.n + b.exploration * Analytic.sqrt (lnN / c.n))

def observations (ctx : ContextBucket) : F := ((b.data ctx).map fun arm => arm.2.n).sum

def chooseStart (ctx : ContextBucket) (ladder : List String) (prices : Prices F) : Nat :=
  if ladder = [] then 0
  else if b.observations ctx < b.minObservations then 0
  else
    argminExpectedCost ladder prices ctx.representativePromptTokens
      (b.ucbPass ctx (Analytic.ln (b.observations ctx)))

/-- The pass rate with the prior as pseudo-observations. -/
def priorPass (ctx : ContextBucket) (prior : List F) (rung : Nat) : F :=
  let p := (prior[rung]?).getD 0
  let c := ((b.data ctx).lookup rung).getD ⟨0, 0⟩
  let pass := b.priorStrength * p + c.pass
  let fail := b.priorStrength * (1 - p) + c.fail
  clamp01 (pass / (pass + fail))

def chooseStartWithPrior (ctx : ContextBucket) (ladder : List String) (prices : Prices F)
    (prior : Option (List F)) : Nat :=
  match prior with
  | none => b.chooseStart ctx ladder prices
  | some prior =>
    if prior = [] ∨ prior.length ≠ ladder.length then b.chooseStart ctx ladder prices
    else
      argminExpectedCost ladder prices ctx.representativePromptTokens (b.priorPass ctx prior)

end StartRungBandit

-- ---------------------------------------------------------------------------
-- The choice is a rung
-- ---------------------------------------------------------------------------

omit [Field F] [Analytic F] in
theorem cheaper_mem (cost : Nat → F) (starts : List Nat) (best : Option (F × Nat))
    (h : starts.foldl (cheaper cost) best = some found) : best = some found ∨ found.2 ∈ starts := by
  induction starts generalizing best with
  | nil => exact .inl h
  | cons s starts ih =>
    rcases ih (cheaper cost best s) h with hbest | hmem
    · unfold cheaper at hbest
      split at hbest
      · cases hbest
        exact .inr List.mem_cons_self
      · split_ifs at hbest
        · cases hbest
          exact .inr List.mem_cons_self
        · exact .inl hbest
    · exact .inr (List.mem_cons_of_mem s hmem)

omit [Analytic F] in
theorem argminExpectedCost_lt {ladder : List String} (h : ladder ≠ []) (prices : Prices F)
    (inTokens : Nat) (pPass : Nat → F) :
    argminExpectedCost ladder prices inTokens pPass < ladder.length := by
  simp only [argminExpectedCost]
  cases hfound : (List.range ladder.length).foldl
      (cheaper (startCost ladder prices inTokens pPass)) none with
  | none => exact List.length_pos_iff.mpr h
  | some found =>
    rcases cheaper_mem _ _ _ hfound with hnone | hmem
    · cases hnone
    · exact List.mem_range.mp hmem

theorem chooseStart_lt (b : StartRungBandit F) (ctx : ContextBucket) {ladder : List String}
    (h : ladder ≠ []) (prices : Prices F) : b.chooseStart ctx ladder prices < ladder.length := by
  have hpos := List.length_pos_iff.mpr h
  unfold StartRungBandit.chooseStart
  split_ifs
  · exact hpos
  · exact hpos
  · exact argminExpectedCost_lt h _ _ _

theorem chooseStartWithPrior_lt (b : StartRungBandit F) (ctx : ContextBucket)
    {ladder : List String} (h : ladder ≠ []) (prices : Prices F) (prior : Option (List F)) :
    b.chooseStartWithPrior ctx ladder prices prior < ladder.length := by
  unfold StartRungBandit.chooseStartWithPrior
  split
  · exact chooseStart_lt b ctx h prices
  · split_ifs
    · exact chooseStart_lt b ctx h prices
    · exact argminExpectedCost_lt h _ _ _

end Firstpass.Bandit
