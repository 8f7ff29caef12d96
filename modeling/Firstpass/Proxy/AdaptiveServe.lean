import Firstpass.Core.Conformal
import Firstpass.Lib.ClampedWalk
import Firstpass.Proxy.Gate
import Mathlib.Algebra.Order.Archimedean.Basic
import Mathlib.Tactic.FieldSimp
import Mathlib.Tactic.Linarith

/-!
# The adaptive threshold in the long run

The served failures are paid for by the threshold, which each of them raises. At
a threshold of one that stops: an item of score one is served there all the same,
and its failure moves nothing.
-/

namespace Firstpass.Conformal

open ClampedWalk (walk Below)

section

variable {F : Type} [Field F] [LinearOrder F]

namespace AdaptiveConformal

/-- One item of the stream, a score and whether its answer is correct: it is
observed where it is served. -/
def offer (c : AdaptiveConformal F) (item : F × Bool) : AdaptiveConformal F :=
  if c.shouldServe item.1 then c.observeServed item.2 else c

def run (c : AdaptiveConformal F) (items : List (F × Bool)) : AdaptiveConformal F :=
  items.foldl offer c

/-- No item comes with a score of one while the threshold stands at one. -/
def Unpinned : AdaptiveConformal F → List (F × Bool) → Prop
  | _, [] => True
  | c, item :: items => ¬ (c.threshold = 1 ∧ item.1 = 1) ∧ Unpinned (c.offer item) items

/-- The outcomes of the served items, in order. -/
def outcomes : AdaptiveConformal F → List (F × Bool) → List Bool
  | _, [] => []
  | c, item :: items =>
    if c.shouldServe item.1 then item.2 :: outcomes (c.observeServed item.2) items
    else outcomes c items

/-- What an outcome adds to the threshold before it is clamped. -/
def nudge (c : AdaptiveConformal F) (wasCorrect : Bool) : F :=
  c.gamma * ((if wasCorrect then 0 else 1) - c.alpha)

def InRange (items : List (F × Bool)) : Prop := ∀ item ∈ items, item.1 ∈ Set.Icc 0 1

/-- The long-run promise, at one state. -/
def WithinBound (alpha gamma : F) (c : AdaptiveConformal F) : Prop :=
  1 ≤ c.served → c.realizedServedFailure ≤ alpha + (1 + gamma) / (gamma * c.served)

end AdaptiveConformal

end

open AdaptiveConformal

variable {F : Type} [Field F] [LinearOrder F]
variable {c : AdaptiveConformal F} {items : List (F × Bool)} {alpha gamma initThreshold : F}

-- ---------------------------------------------------------------------------
-- The threshold as a walk
-- ---------------------------------------------------------------------------

theorem observeServed_threshold (wasCorrect : Bool) :
    (c.observeServed wasCorrect).threshold =
      ClampedWalk.step 0 1 c.threshold (c.nudge wasCorrect) := rfl

theorem nudge_observeServed (wasCorrect : Bool) : (c.observeServed wasCorrect).nudge = c.nudge := rfl

theorem run_threshold :
    (c.run items).threshold = walk 0 1 c.threshold ((c.outcomes items).map c.nudge) := by
  induction items generalizing c with
  | nil => rfl
  | cons item items ih =>
    simp only [run, List.foldl_cons, offer, outcomes] at ih ⊢
    split
    · rw [ih, nudge_observeServed, observeServed_threshold, List.map_cons, walk, walk,
        List.foldl_cons]
    · exact ih

theorem run_counts (c : AdaptiveConformal F) (items : List (F × Bool)) :
    (c.run items).served = c.served + (c.outcomes items).length ∧
      (c.run items).servedFails = c.servedFails + (c.outcomes items).count false := by
  induction items generalizing c with
  | nil => exact ⟨rfl, rfl⟩
  | cons item items ih =>
    simp only [run, List.foldl_cons, offer, outcomes] at ih ⊢
    split
    · obtain ⟨hserved, hfails⟩ := ih (c := c.observeServed item.2)
      rw [hserved, hfails]
      cases item.2 <;> simp [observeServed] <;> omega
    · exact ih c

omit [LinearOrder F] in
theorem sum_nudge (outcomes : List Bool) :
    (outcomes.map c.nudge).sum =
      c.gamma * (outcomes.count false - c.alpha * outcomes.length) := by
  induction outcomes with
  | nil => simp
  | cons wasCorrect outcomes ih =>
    rw [List.map_cons, List.sum_cons, ih, nudge]
    cases wasCorrect <;> simp <;> ring

theorem unpinned_of_ne (h : ∀ item ∈ items, item.1 ≠ 1) : Unpinned c items := by
  induction items generalizing c with
  | nil => trivial
  | cons item items ih =>
    obtain ⟨hitem, hitems⟩ := List.forall_mem_cons.mp h
    exact ⟨fun hpinned => hitem hpinned.2, ih hitems⟩

-- ---------------------------------------------------------------------------
-- The bound
-- ---------------------------------------------------------------------------

structure InDomain (alpha gamma initThreshold : F) : Prop where
  alpha_pos : 0 < alpha
  alpha_lt : alpha < 1
  gamma_pos : 0 < gamma
  gamma_le : gamma ≤ 1
  init : initThreshold ∈ Set.Icc 0 1

theorem InDomain.threshold (h : InDomain alpha gamma initThreshold) :
    (new alpha gamma initThreshold).threshold = initThreshold := by
  change max 0 (min initThreshold 1) = initThreshold
  rw [min_eq_left h.init.2, max_eq_right h.init.1]

variable [IsStrictOrderedRing F]

/-- A served item of an unpinned stream meets a threshold below one. -/
theorem AdaptiveConformal.Unpinned.below (h : Unpinned c items) (hrange : InRange items)
    (hc : c.threshold ∈ Set.Icc 0 1) :
    Below 0 1 c.threshold ((c.outcomes items).map c.nudge) := by
  induction items generalizing c with
  | nil => trivial
  | cons item items ih =>
    obtain ⟨hfree, hrest⟩ := h
    obtain ⟨⟨-, hle⟩, hitems⟩ := List.forall_mem_cons.mp hrange
    simp only [outcomes, offer] at hrest ⊢
    split
    next hserve =>
      rw [if_pos hserve] at hrest
      have hserve : c.threshold ≤ item.1 := by simpa [shouldServe] using hserve
      refine ⟨lt_of_le_of_ne hc.2 fun hone => hfree ⟨hone, ?_⟩, ?_⟩
      · exact le_antisymm hle (hone ▸ hserve)
      · exact ih hrest hitems (ClampedWalk.step_mem zero_le_one)
    next hserve =>
      rw [if_neg hserve] at hrest
      exact ih hrest hitems hc

/-- The failures that the steps of the threshold do not cover are no more than
its range and one overshoot. -/
theorem InDomain.fails_le (h : InDomain alpha gamma initThreshold) (hrange : InRange items)
    (hfree : Unpinned (new alpha gamma initThreshold) items) :
    gamma * ((((new alpha gamma initThreshold).run items).servedFails : F) -
      alpha * ((new alpha gamma initThreshold).run items).served) ≤ 1 + gamma := by
  obtain ⟨hserved, hfails⟩ := run_counts (new alpha gamma initThreshold) items
  have hstart : (new alpha gamma initThreshold).threshold ∈ Set.Icc 0 1 :=
    h.threshold.symm ▸ h.init
  have hbelow := hfree.below hrange hstart
  have hnudge : ∀ d ∈ ((new alpha gamma initThreshold).outcomes items).map
      (new alpha gamma initThreshold).nudge, d ≤ gamma := by
    rintro d hd
    obtain ⟨wasCorrect, -, rfl⟩ := List.mem_map.mp hd
    have hgain := mul_pos h.gamma_pos h.alpha_pos
    cases wasCorrect <;> simp [nudge, new] <;> linarith [h.gamma_pos]
  have hsum := ClampedWalk.sum_le zero_le_one h.gamma_pos.le hnudge hbelow
  rw [← run_threshold, sum_nudge] at hsum
  have hend : ((new alpha gamma initThreshold).run items).threshold ≤ 1 := by
    rw [run_threshold]
    exact (ClampedWalk.walk_mem zero_le_one hstart).2
  rw [hserved, hfails]
  simp only [new, Nat.zero_add] at hsum hend hstart ⊢
  linarith [hstart.1]

theorem InDomain.withinBound (h : InDomain alpha gamma initThreshold) (hrange : InRange items)
    (hfree : Unpinned (new alpha gamma initThreshold) items) :
    WithinBound alpha gamma ((new alpha gamma initThreshold).run items) := by
  intro hserved
  have hfails := h.fails_le hrange hfree
  have hpos : (0 : F) < ((new alpha gamma initThreshold).run items).served :=
    Nat.cast_pos.mpr hserved
  have hγ := h.gamma_pos
  rw [realizedServedFailure, if_neg (Nat.one_le_iff_ne_zero.mp hserved), div_le_iff₀ hpos, add_mul,
    div_mul_eq_mul_div, mul_div_mul_right _ _ hpos.ne', ← sub_le_iff_le_add', le_div_iff₀' hγ]
  exact hfails

-- ---------------------------------------------------------------------------
-- Items of score one
-- ---------------------------------------------------------------------------

/-- Wrong answers of score one are all served. -/
theorem outcomes_ones (hc : c.threshold ≤ 1) (n : Nat) :
    c.outcomes (List.replicate n (1, false)) = List.replicate n false := by
  induction n generalizing c with
  | zero => rfl
  | succ n ih =>
    have hnext : (c.observeServed false).threshold ≤ 1 := (ClampedWalk.step_mem zero_le_one).2
    simp [List.replicate_succ, outcomes, shouldServe, hc, ih hnext]

/-- A stream of them breaks every bound that is below one in the long run. -/
theorem InDomain.exceeds [Archimedean F] (h : InDomain alpha gamma initThreshold) :
    ∃ n, ¬ WithinBound alpha gamma
      ((new alpha gamma initThreshold).run (List.replicate n (1, false))) := by
  obtain ⟨n, hn⟩ := exists_nat_gt ((1 + gamma) / (gamma * (1 - alpha)))
  have hγ := h.gamma_pos
  have hgap : 0 < 1 - alpha := sub_pos.mpr h.alpha_lt
  have hnpos : (0 : F) < n := (div_pos (by linarith) (mul_pos hγ hgap)).trans hn
  have hn1 : 1 ≤ n := Nat.cast_pos.mp hnpos
  refine ⟨n, fun hbound => ?_⟩
  have hstart : (new alpha gamma initThreshold).threshold ≤ 1 := h.threshold.le.trans h.init.2
  obtain ⟨hserved, hfails⟩ := run_counts (new alpha gamma initThreshold)
    (List.replicate n (1, false))
  rw [outcomes_ones hstart, List.length_replicate] at hserved
  rw [outcomes_ones hstart, List.count_replicate_self] at hfails
  simp only [new, Nat.zero_add] at hserved hfails
  unfold WithinBound realizedServedFailure at hbound
  simp only [new, hserved, hfails] at hbound
  have hrate := hbound hn1
  rw [if_neg (Nat.one_le_iff_ne_zero.mp hn1), div_self hnpos.ne', ← sub_le_iff_le_add',
    le_div_iff₀ (mul_pos hγ hnpos)] at hrate
  rw [div_lt_iff₀ (mul_pos hγ hgap)] at hn
  linarith

/-- The long-run promise holds of a stream that is never served at a threshold
of one, and of all streams over a set of scores exactly if one is not among them. -/
theorem withinBound_iff [Archimedean F] (h : InDomain alpha gamma initThreshold) :
    (∀ items, InRange items → Unpinned (new alpha gamma initThreshold) items →
      WithinBound alpha gamma ((new alpha gamma initThreshold).run items)) ∧
    ∀ scores ⊆ Set.Icc (0 : F) 1,
      (∀ items, (∀ item ∈ items, item.1 ∈ scores) →
        WithinBound alpha gamma ((new alpha gamma initThreshold).run items)) ↔ 1 ∉ scores := by
  refine ⟨fun items hrange hfree => h.withinBound hrange hfree, fun scores hscores => ?_⟩
  constructor
  · intro hbound hone
    obtain ⟨n, hn⟩ := h.exceeds
    refine hn (hbound _ fun item hitem => ?_)
    rw [List.eq_of_mem_replicate hitem]
    exact hone
  · intro hone items hitems
    refine h.withinBound (fun item hitem => hscores (hitems item hitem)) (unpinned_of_ne ?_)
    rintro item hitem heq
    exact hone (heq ▸ hitems item hitem)

theorem withinBound_half :
    WithinBound (1 / 10) (1 / 20) ((new (1 / 10) (1 / 20) (1 / 2)).run
      [((1 / 2 : ℚ), false), (3 / 4, true), (1 / 2, false)]) := by
  have hdomain : InDomain (1 / 10 : ℚ) (1 / 20) (1 / 2) := by constructor <;> norm_num
  refine (withinBound_iff hdomain).1 _ ?_ (unpinned_of_ne ?_)
  · intro item hitem
    simp only [List.mem_cons, List.not_mem_nil, or_false] at hitem
    rcases hitem with rfl | rfl | rfl <;> norm_num
  · norm_num

/-- Gates that report no score give every answer they pass a score of one. -/
theorem scoreless_gates_exceed :
    ¬ ∀ (alpha gamma initThreshold : ℚ) (items : List (ℚ × Bool)),
      InDomain alpha gamma initThreshold → InRange items →
      WithinBound alpha gamma ((new alpha gamma initThreshold).run items) := by
  intro hbound
  have hdomain : InDomain (1 / 10 : ℚ) 1 1 := by constructor <;> norm_num
  have hscore : gateScore ([] : List (GateResult ℚ)) .pass = 1 := rfl
  have hten := hbound _ _ _ (List.replicate 10 (gateScore ([] : List (GateResult ℚ)) .pass, false))
    hdomain fun item hitem => by
      rw [List.eq_of_mem_replicate hitem, hscore]
      norm_num
  revert hten
  unfold WithinBound
  decide +kernel

end Firstpass.Conformal
