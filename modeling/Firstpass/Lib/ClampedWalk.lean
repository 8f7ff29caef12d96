import Mathlib.Algebra.BigOperators.Group.List.Basic
import Mathlib.Algebra.Order.Group.Defs
import Mathlib.Algebra.Order.Group.MinMax
import Mathlib.Order.Interval.Set.Basic
import Mathlib.Tactic.Abel

/-!
# A walk between two walls

A position is moved by increments and stopped at both walls. The lower wall only
ever pushes it up. The upper wall loses what goes over it, which happens at most
once to a walk that takes no step from there.
-/

namespace ClampedWalk

variable {F : Type*} [AddCommGroup F] [LinearOrder F]

def step (lo hi x d : F) : F := max lo (min (x + d) hi)

def walk (lo hi x : F) (ds : List F) : F := ds.foldl (step lo hi) x

/-- No increment is taken at the upper wall. -/
def Below (lo hi : F) : F → List F → Prop
  | _, [] => True
  | x, d :: ds => x < hi ∧ Below lo hi (step lo hi x d) ds

variable {lo hi x d b : F} {ds : List F}

theorem step_mem (hwalls : lo ≤ hi) : step lo hi x d ∈ Set.Icc lo hi :=
  ⟨le_max_left _ _, max_le hwalls (min_le_right _ _)⟩

theorem walk_mem (hwalls : lo ≤ hi) (hx : x ∈ Set.Icc lo hi) : walk lo hi x ds ∈ Set.Icc lo hi := by
  induction ds generalizing x with
  | nil => exact hx
  | cons d ds ih => exact ih (step_mem hwalls)

/-- A step that stays under the upper wall loses nothing. -/
theorem le_step (h : x + d ≤ hi) : x + d ≤ step lo hi x d := by
  rw [step, min_eq_left h]
  exact le_max_right _ _

theorem step_over (hwalls : lo ≤ hi) (h : hi ≤ x + d) : step lo hi x d = hi := by
  rw [step, min_eq_right h, max_eq_right hwalls]

variable [IsOrderedAddMonoid F]

/-- The increments of a walk that stops at the upper wall add up to no more than
the way it went, and one overshoot. -/
theorem sum_le (hwalls : lo ≤ hi) (hb : 0 ≤ b) (hd : ∀ d ∈ ds, d ≤ b) (h : Below lo hi x ds) :
    ds.sum ≤ walk lo hi x ds - x + b := by
  induction ds generalizing x with
  | nil => simpa [walk] using hb
  | cons d ds ih =>
    obtain ⟨hx, hrest⟩ := h
    obtain ⟨hdb, hds⟩ := List.forall_mem_cons.mp hd
    rw [List.sum_cons]
    rcases le_total (x + d) hi with hunder | hover
    · calc d + ds.sum
          ≤ d + (walk lo hi (step lo hi x d) ds - step lo hi x d + b) :=
            add_le_add_right (ih hds hrest) d
        _ = walk lo hi (step lo hi x d) ds + b + (x + d) - x - step lo hi x d := by abel
        _ ≤ walk lo hi (step lo hi x d) ds + b + step lo hi x d - x - step lo hi x d :=
            sub_le_sub_right (sub_le_sub_right (add_le_add_right (le_step hunder) _) _) _
        _ = walk lo hi x (d :: ds) - x + b := by
            rw [walk, walk, List.foldl_cons]
            abel
    · rw [step_over hwalls hover] at hrest
      cases ds with
      | nil =>
        have hend : walk lo hi x [d] = hi := step_over hwalls hover
        rw [hend, List.sum_nil, add_zero]
        exact hdb.trans (le_add_of_nonneg_left (sub_nonneg.mpr hx.le))
      | cons d' ds => exact absurd hrest.1 (lt_irrefl hi)

end ClampedWalk
