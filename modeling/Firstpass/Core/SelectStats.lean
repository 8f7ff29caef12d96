import Firstpass.Core.SelectRuns

/-!
# The test does not read the arms' costs

Counting an outcome or a pair commutes with every change of the arms' statistics that
leaves their outcomes alone, such as tallying a cost or forgetting all costs.
-/

namespace Firstpass.Select

variable {F : Type} [Field F] [LinearOrder F]

def Experiment.mapStats (e : Experiment F) (f g : ArmStats F → ArmStats F) : Experiment F :=
  { e with incumbent := f e.incumbent, challenger := g e.challenger }

/-- A change of statistics that commutes with counting an outcome. -/
def KeepsOutcomes (f : ArmStats F → ArmStats F) : Prop := ∀ s x, f (s.outcome x) = (f s).outcome x

theorem closePair_mapStats (e : Experiment F) (f g : ArmStats F → ArmStats F) (x y : F) :
    (e.mapStats f g).closePair x y = (e.closePair x y).mapStats f g :=
  calc (e.mapStats f g).closePair x y
    _ = (e.closePair x y).withArms e.pendingIncumbent e.pendingChallenger (f e.incumbent)
        (g e.challenger) := closePair_withArms e _ _ _ _ x y
    _ = ((e.withArms e.pendingIncumbent e.pendingChallenger e.incumbent e.challenger).closePair
        x y).mapStats f g := by rw [closePair_withArms]; rfl

theorem closePairs_mapStats (e : Experiment F) (f g : ArmStats F → ArmStats F)
    (incs chs : List F) :
    (e.mapStats f g).closePairs incs chs = (e.closePairs incs chs).mapStats f g := by
  induction incs generalizing e chs with
  | nil => cases chs <;> rfl
  | cons x incs ih =>
    cases chs with
    | nil => rfl
    | cons y chs =>
      simp only [Experiment.closePairs, closePair_mapStats]
      exact ih _ _

section
variable {f g : ArmStats F → ArmStats F} (hf : KeepsOutcomes f) (hg : KeepsOutcomes g)
include hf hg

theorem observeOutcome_mapStats (e : Experiment F) (arm : Arm) (x : F) :
    (e.mapStats f g).observeOutcome arm x =
      ((e.observeOutcome arm x).1.mapStats f g, (e.observeOutcome arm x).2) := by
  by_cases hx : inUnit x
  · cases arm with
    | incumbent =>
      simp only [Experiment.observeOutcome, hx, if_true, ← closePairs_mapStats]
      simp only [Experiment.mapStats, hf _ x]
    | challenger =>
      simp only [Experiment.observeOutcome, hx, if_true, ← closePairs_mapStats]
      simp only [Experiment.mapStats, hg _ x]
  · simp only [Experiment.observeOutcome, hx, if_false]

theorem observePair_mapStats (e : Experiment F) (x y : F) :
    (e.mapStats f g).observePair x y =
      ((e.observePair x y).1.mapStats f g, (e.observePair x y).2) := by
  by_cases hxy : inUnit x ∧ inUnit y
  · simp only [Experiment.observePair, if_pos hxy, ← closePair_mapStats]
    simp only [Experiment.mapStats, hf _ x, hg _ y]
  · simp only [Experiment.observePair, if_neg hxy]

end

-- ---------------------------------------------------------------------------
-- Tallying a cost
-- ---------------------------------------------------------------------------

/-- What a cost does to the statistics of an arm. -/
def tally (arm arm' : Arm) (costUsd : F) (s : ArmStats F) : ArmStats F :=
  if arm = arm' ∧ ¬costUsd < 0 then s.cost costUsd else s

theorem observeCost_eq (e : Experiment F) (arm : Arm) (costUsd : F) :
    e.observeCost arm costUsd =
      e.mapStats (tally arm .incumbent costUsd) (tally arm .challenger costUsd) := by
  by_cases h : costUsd < 0
  · simp [Experiment.observeCost, Experiment.mapStats, tally, h]
  · cases arm <;> simp [Experiment.observeCost, Experiment.mapStats, tally, h]

theorem tally_keeps (arm arm' : Arm) (costUsd : F) : KeepsOutcomes (tally arm arm' costUsd) := by
  intro s x
  simp only [tally]
  split_ifs <;> rfl

theorem observeOutcome_cost (e : Experiment F) (arm arm' : Arm) (usd x : F) :
    (e.observeCost arm usd).observeOutcome arm' x =
      ((e.observeOutcome arm' x).1.observeCost arm usd, (e.observeOutcome arm' x).2) := by
  simp only [observeCost_eq]
  exact observeOutcome_mapStats (tally_keeps _ _ _) (tally_keeps _ _ _) e arm' x

theorem observePair_cost (e : Experiment F) (arm : Arm) (usd x y : F) :
    (e.observeCost arm usd).observePair x y =
      ((e.observePair x y).1.observeCost arm usd, (e.observePair x y).2) := by
  simp only [observeCost_eq]
  exact observePair_mapStats (tally_keeps _ _ _) (tally_keeps _ _ _) e x y

theorem tally_comm (arm arm' arm'' : Arm) (usd usd' : F) (s : ArmStats F) :
    tally arm arm'' usd (tally arm' arm'' usd' s) =
      tally arm' arm'' usd' (tally arm arm'' usd s) := by
  simp only [tally]
  split_ifs
  · simp only [ArmStats.cost, add_right_comm]
  all_goals rfl

theorem observeCost_comm (e : Experiment F) (arm arm' : Arm) (usd usd' : F) :
    (e.observeCost arm usd).observeCost arm' usd' =
      (e.observeCost arm' usd').observeCost arm usd := by
  simp only [observeCost_eq, Experiment.mapStats, tally_comm arm arm']

-- ---------------------------------------------------------------------------
-- Forgetting the costs
-- ---------------------------------------------------------------------------

def ArmStats.uncosted (s : ArmStats F) : ArmStats F := { s with requests := 0, costUsd := 0 }

/-- The experiment without its costs. -/
def Experiment.uncosted (e : Experiment F) : Experiment F :=
  e.mapStats ArmStats.uncosted ArmStats.uncosted

omit [LinearOrder F] in
theorem uncosted_keeps : KeepsOutcomes (ArmStats.uncosted : ArmStats F → ArmStats F) := fun _ _ => rfl

theorem tally_uncosted (arm arm' : Arm) (usd : F) (s : ArmStats F) :
    (tally arm arm' usd s).uncosted = s.uncosted := by
  simp only [tally]
  split_ifs <;> rfl

@[simp] theorem observeCost_uncosted (e : Experiment F) (arm : Arm) (usd : F) :
    (e.observeCost arm usd).uncosted = e.uncosted := by
  simp only [observeCost_eq, Experiment.uncosted, Experiment.mapStats, tally_uncosted]

theorem observeOutcome_uncosted (e : Experiment F) (arm : Arm) (x : F) :
    e.uncosted.observeOutcome arm x =
      ((e.observeOutcome arm x).1.uncosted, (e.observeOutcome arm x).2) :=
  observeOutcome_mapStats uncosted_keeps uncosted_keeps e arm x

theorem observePair_uncosted (e : Experiment F) (x y : F) :
    e.uncosted.observePair x y = ((e.observePair x y).1.uncosted, (e.observePair x y).2) :=
  observePair_mapStats uncosted_keeps uncosted_keeps e x y

end Firstpass.Select
