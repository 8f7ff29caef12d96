import Mathlib.Algebra.Order.Field.Basic
import Mathlib.Tactic.Linarith

/-!
# Discounted counts

A count that loses a share of itself at every observation and gains one where the
observation is a hit. It stays below the sum of the geometric series, so a hit always makes
it grow, and a run with more hits in between ends above the run without them.
-/

namespace DiscountedCount

variable {G : Type} [Field G]

def step (d p : G) (hit : Bool) : G := d * p + if hit then 1 else 0

def count (d p : G) (hits : List Bool) : G := hits.foldl (step d) p

/-- The second run is the first with hits put in. -/
inductive Padded : List Bool → List Bool → Prop
  | nil : Padded [] []
  | same (hit : Bool) : Padded hits hits' → Padded (hit :: hits) (hit :: hits')
  | extra : Padded hits hits' → Padded hits (true :: hits')

theorem Padded.refl (hits : List Bool) : Padded hits hits := by
  induction hits with
  | nil => exact .nil
  | cons hit hits ih => exact .same hit ih

theorem Padded.append (h : Padded hits hits') (k : Padded rest rest') :
    Padded (hits ++ rest) (hits' ++ rest') := by
  induction h with
  | nil => exact k
  | same hit _ ih => exact .same hit ih
  | extra _ ih => exact .extra ih

theorem Padded.flatMap {α : Type} {f g : α → List Bool} (xs : List α)
    (h : ∀ x ∈ xs, Padded (f x) (g x)) : Padded (xs.flatMap f) (xs.flatMap g) := by
  induction xs with
  | nil => exact .nil
  | cons x xs ih =>
    obtain ⟨hx, hxs⟩ := List.forall_mem_cons.mp h
    exact hx.append (ih hxs)

variable [LinearOrder G] [IsStrictOrderedRing G]

/-- Below the sum of the series, whatever is observed. -/
theorem step_bound {d p : G} (hd : 0 < d) (h1 : d ≤ 1) (hp : p * (1 - d) < 1) (hit : Bool) :
    step d p hit * (1 - d) < 1 := by
  have hshrunk : d * (p * (1 - d)) < d := mul_lt_of_lt_one_right hd hp
  have hadded : (if hit then (1 : G) else 0) * (1 - d) ≤ 1 - d := by
    cases hit <;> simp [h1]
  calc step d p hit * (1 - d) = d * (p * (1 - d)) + (if hit then 1 else 0) * (1 - d) := by
        rw [step, add_mul, mul_assoc]
    _ < 1 := by linarith

/-- A hit makes the count grow. -/
theorem lt_step_hit {d p : G} (hp : p * (1 - d) < 1) : p < step d p true := by
  simp only [step, if_true]
  linarith

theorem step_lt_step {d p p' : G} (hd : 0 < d) (h : p < p') (hit : Bool) :
    step d p hit < step d p' hit := by
  have hscaled : d * p < d * p' := mul_lt_mul_of_pos_left h hd
  simp only [step]
  linarith

theorem count_lt_of_lt {d : G} (hd : 0 < d) (h1 : d ≤ 1) (h : Padded hits hits') {p p' : G}
    (hp : p < p') (hbound : p' * (1 - d) < 1) : count d p hits < count d p' hits' := by
  induction h generalizing p p' with
  | nil => exact hp
  | same hit _ ih => exact ih (step_lt_step hd hp hit) (step_bound hd h1 hbound hit)
  | extra _ ih => exact ih (hp.trans (lt_step_hit hbound)) (step_bound hd h1 hbound true)

/-- More hits, a larger count. -/
theorem count_lt {d : G} (hd : 0 < d) (h1 : d ≤ 1) (h : Padded hits hits')
    (hlength : hits.length < hits'.length) {p : G} (hbound : p * (1 - d) < 1) :
    count d p hits < count d p hits' := by
  induction h generalizing p with
  | nil => exact absurd hlength (lt_irrefl _)
  | same hit _ ih => exact ih (Nat.lt_of_succ_lt_succ hlength) (step_bound hd h1 hbound hit)
  | extra h _ => exact count_lt_of_lt hd h1 h (lt_step_hit hbound) (step_bound hd h1 hbound true)

end DiscountedCount
