import Firstpass.Lib.Descending

/-!
# What a threshold serves

Scored pairs with whether each was correct, and the part of them at or above a
threshold.
-/

namespace Firstpass

open Descending

/-- How many of the pairs are failures. -/
def failures (pairs : List (α × Bool)) : Nat := pairs.countP (!·.2)

theorem failures_append (xs ys : List (α × Bool)) :
    failures (xs ++ ys) = failures xs + failures ys := List.countP_append

theorem failures_perm {xs ys : List (α × Bool)} (h : xs.Perm ys) : failures xs = failures ys :=
  h.countP_eq _

def servedAt [LinearOrder α] (t : α) (pairs : List (α × Bool)) : List (α × Bool) :=
  atLeast Prod.fst t pairs

theorem servedAt_perm [LinearOrder α] {pairs pairs' : List (α × Bool)} (h : pairs.Perm pairs')
    (t : α) : (servedAt t pairs).Perm (servedAt t pairs') := h.filter _

theorem servedAt_pos [LinearOrder α] {s : List (α × Bool)} (hp : p ∈ s) :
    0 < (servedAt p.1 s).length :=
  List.length_pos_of_mem (List.mem_filter.mpr ⟨hp, by simp⟩)

theorem servedAt_append_below [LinearOrder α] {s : List (α × Bool)} (hs : Desc Prod.fst s)
    (t : α) : servedAt t s ++ below Prod.fst t s = s := by
  rw [servedAt, ← desc_atLeast hs, List.append_assoc, desc_split hs]

theorem take_servedAt [LinearOrder α] {s : List (α × Bool)} (hs : Desc Prod.fst s) (t : α) :
    s.take (servedAt t s).length = servedAt t s :=
  (congrArg (List.take _) (servedAt_append_below hs t).symm).trans List.take_left

end Firstpass
