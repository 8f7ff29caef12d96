import Firstpass.Lib.BernoulliTrials
import Firstpass.Lib.FiniteProbability

/-!
# A test on the first large enough set

Of a growing list of sets, the first that holds enough of an independent sample
is tested for failures. The choice of the set looks at the sample, yet where
every set fails at least with probability `α`, the test rejects at most with
its size.
-/

namespace Firstpass.NestedTests

open FiniteProbability Trials

theorem length_selected (cs : List ℕ) (m : ℕ) {β : Type*} (b : ℕ → β) :
    ((cs.filter fun c => decide (c ≤ m)).map b).length = cs.countP fun c => decide (c ≤ m) := by
  rw [List.length_map, List.countP_eq_length_filter]

theorem forall_selected {cs : List ℕ} {β : Type*} {b : ℕ → β} {P : β → Prop}
    (h : ∀ c ≤ m, P (b c)) :
    ∀ p ∈ (cs.filter fun c => decide (c ≤ m)).map b, P p := by
  intro p hp
  obtain ⟨c, hc, rfl⟩ := List.mem_map.mp hp
  exact h c (of_decide_eq_true (List.mem_filter.mp hc).2)

variable {F : Type*} [Field F] [LinearOrder F] [IsStrictOrderedRing F] {X : Type*}

/-- How many of the draws are in a set: a number of successes of independent trials. -/
theorem expect_countP (D : FinDist F X) (p : X → Bool) (u : ℕ → F) (n k : ℕ) :
    (D.iid n).expect (fun xs => u (k + xs.countP p)) =
      mean (List.replicate n (D.prob (p · = true))) u k := by
  induction n generalizing k with
  | zero => simp [mean]
  | succ n ih =>
    have hdraw (x : X) : (D.iid n).expect (fun xs => u (k + (x :: xs).countP p)) =
        mean (List.replicate n (D.prob (p · = true))) u k +
          (mean (List.replicate n (D.prob (p · = true))) u (k + 1) -
            mean (List.replicate n (D.prob (p · = true))) u k) *
            if p x = true then 1 else 0 := by
      rw [← ih, ← ih]
      cases hx : p x with
      | true => simp [hx, Nat.add_assoc, Nat.add_comm 1]
      | false => simp [hx]
    rw [FinDist.expect_iid_succ]
    simp only [hdraw, FinDist.expect_add, FinDist.expect_const, FinDist.expect_mul_left]
    rw [List.replicate_succ, mean, step, FinDist.prob]
    ring

-- ---------------------------------------------------------------------------
-- Blocks
-- ---------------------------------------------------------------------------

section
variable (D : FinDist F X) (block : X → ℕ) (fails : X → Bool) (α : F)

def blockMass (c : ℕ) : F := D.prob fun x => block x = c

def blockFails (c : ℕ) : F := D.prob fun x => block x = c ∧ fails x = true

/-- The probability of a failure in a block, and `α` in a block that is never drawn. -/
def risk (c : ℕ) : F :=
  if blockMass D block c = 0 then α else blockFails D block fails c / blockMass D block c

theorem blockFails_le (c : ℕ) : blockFails D block fails c ≤ blockMass D block c :=
  D.prob_mono fun _ _ h => h.1

theorem mass_mul_risk (c : ℕ) :
    blockMass D block c * risk D block fails α c = blockFails D block fails c := by
  rw [risk]
  split_ifs with hzero
  · have hle := blockFails_le D block fails c
    rw [hzero] at hle ⊢
    rw [zero_mul]
    exact le_antisymm (D.prob_nonneg _) hle
  · exact mul_div_cancel₀ _ hzero

variable {α} in
theorem isProb_risk (hα : IsProb α) (c : ℕ) : IsProb (risk D block fails α c) := by
  rw [risk]
  split_ifs with hzero
  · exact hα
  · exact ⟨div_nonneg (D.prob_nonneg _) (D.prob_nonneg _),
      div_le_one_of_le₀ (blockFails_le D block fails c) (D.prob_nonneg _)⟩

theorem le_risk {c : ℕ} (h : α * blockMass D block c ≤ blockFails D block fails c) :
    α ≤ risk D block fails α c := by
  rw [risk]
  split_ifs with hzero
  · exact le_rfl
  · exact (le_div_iff₀ (lt_of_le_of_ne (D.prob_nonneg _) (Ne.symm hzero))).mpr h

/-- A mean is the sum of its parts over the blocks. -/
theorem expect_blocks (g : ℕ → F) (u : X → F) :
    D.expect (fun x => g (block x) * u x) =
      ∑ c ∈ (D.atoms.map fun a => block a.1).toFinset,
        g c * D.expect fun x => if block x = c then u x else 0 := by
  have hswap : ∀ s : Finset ℕ,
      ∑ c ∈ s, g c * D.expect (fun x => if block x = c then u x else 0) =
        D.expect fun x => ∑ c ∈ s, if block x = c then g c * u x else 0 := by
    intro s
    induction s using Finset.induction_on with
    | empty => simp
    | insert c s hc ih =>
      rw [Finset.sum_insert hc, ih]
      simp only [Finset.sum_insert hc, D.expect_add, ← D.expect_mul_left, mul_ite, mul_zero]
  rw [hswap]
  apply D.expect_congr
  rintro x ⟨w, -, hx⟩
  have hmem : block x ∈ (D.atoms.map fun a => block a.1).toFinset :=
    List.mem_toFinset.mpr (List.mem_map_of_mem (f := fun a => block a.1) hx)
  rw [Finset.sum_ite_eq, if_pos hmem]

/-- Given the blocks, failures come with the risk of each. -/
theorem expect_risk (g : ℕ → F) :
    D.expect (fun x => g (block x) * if fails x = true then 1 else 0) =
      D.expect fun x => g (block x) * risk D block fails α (block x) := by
  rw [expect_blocks D block, expect_blocks D block]
  apply Finset.sum_congr rfl
  rintro c -
  congr 1
  have hfails : (fun x => if block x = c then if fails x = true then (1 : F) else 0 else 0) =
      fun x => if block x = c ∧ fails x = true then 1 else 0 := by
    funext x
    split_ifs <;> simp_all
  have hrisk : (fun x => if block x = c then risk D block fails α (block x) else 0) =
      fun x => (if block x = c then 1 else 0) * risk D block fails α c := by
    funext x
    split_ifs with hc
    · rw [hc, one_mul]
    · rw [zero_mul]
  rw [hfails, hrisk, D.expect_mul_right]
  exact (mass_mul_risk D block fails α c).symm

/-- Draw the blocks first, and the failures of the selected draws then. -/
theorem expect_failures (selected : List ℕ → ℕ → Bool) (payoff : List ℕ → ℕ → F) (n : ℕ) :
    (D.iid n).expect (fun xs => payoff (xs.map block)
        (xs.countP fun x => selected (xs.map block) (block x) && fails x)) =
      (D.iid n).expect fun xs =>
        mean (((xs.map block).filter (selected (xs.map block))).map (risk D block fails α))
          (payoff (xs.map block)) 0 := by
  induction n generalizing selected payoff with
  | zero => simp [mean]
  | succ n ih =>
    let rest : ℕ → List X → ℕ → F := fun c xs =>
      mean (((xs.map block).filter (selected (c :: xs.map block))).map (risk D block fails α))
        (payoff (c :: xs.map block))
    let after : ℕ → Bool → F := fun c failed => (D.iid n).expect fun xs =>
      rest c xs (if (selected (c :: xs.map block) c && failed) = true then 1 else 0)
    have hhead : ∀ x, (D.iid n).expect (fun xs => payoff ((x :: xs).map block)
        ((x :: xs).countP fun y => selected ((x :: xs).map block) (block y) && fails y)) =
          after (block x) (fails x) := by
      intro x
      have hrest := ih (fun cs => selected (block x :: cs)) fun cs k =>
        payoff (block x :: cs) (k + if (selected (block x :: cs) (block x) && fails x) = true
          then 1 else 0)
      simp only [mean_shift, Nat.zero_add] at hrest
      simp only [List.map_cons, List.countP_cons]
      exact hrest
    have hsplit : ∀ x, after (block x) (fails x) = after (block x) false +
        (after (block x) true - after (block x) false) * if fails x = true then 1 else 0 := by
      intro x
      cases fails x <;> simp
    have htrial : ∀ x, after (block x) false +
        (after (block x) true - after (block x) false) * risk D block fails α (block x) =
          (D.iid n).expect fun xs => mean
            ((((x :: xs).map block).filter (selected ((x :: xs).map block))).map
              (risk D block fails α)) (payoff ((x :: xs).map block)) 0 := by
      intro x
      simp only [after, ← D.iid n |>.expect_sub, ← (D.iid n).expect_mul_right,
        ← (D.iid n).expect_add]
      congr 1
      funext xs
      cases hsel : selected (block x :: xs.map block) (block x) with
      | true =>
        simp only [List.map_cons, List.filter_cons_of_pos hsel, mean, step, rest, Bool.and_false,
          Bool.and_true, Bool.false_eq_true, if_false, if_true]
        ring
      | false =>
        have hneg : ¬ selected (block x :: xs.map block) (block x) = true := by simp [hsel]
        simp only [List.map_cons, List.filter_cons_of_neg hneg, rest, Bool.false_and,
          Bool.false_eq_true, if_false]
        ring
    have hrisk := expect_risk D block fails α fun c => after c true - after c false
    simp only [FinDist.expect_iid_succ, hhead, ← htrial]
    simp only [hsplit, D.expect_add, hrisk]

end

-- ---------------------------------------------------------------------------
-- The sets of a list, by block
-- ---------------------------------------------------------------------------

/-- The first set of the list that has the value. -/
def block : List (X → Bool) → X → ℕ
  | [], _ => 0
  | s :: sets, x => if s x = true then 0 else block sets x + 1

def Nested (sets : List (X → Bool)) : Prop := sets.Pairwise fun s t => ∀ x, s x = true → t x = true

theorem Nested.mem_iff {sets : List (X → Bool)} (h : Nested sets) (hs : sets[i]? = some s)
    (x : X) : s x = true ↔ block sets x ≤ i := by
  induction sets generalizing i with
  | nil => cases hs
  | cons t sets ih =>
    obtain ⟨ht, hsets⟩ := List.pairwise_cons.mp h
    cases i with
    | zero =>
      cases hs
      rw [block]
      split_ifs with hx
      · simp [hx]
      · simp [hx]
    | succ i =>
      rw [block]
      split_ifs with hx
      · simpa using ht s (List.mem_of_getElem? hs) x hx
      · rw [Nat.succ_le_succ_iff]
        exact ih hsets hs

theorem Nested.mem_eq {sets : List (X → Bool)} (h : Nested sets) (hs : sets[i]? = some s) :
    s = fun x => decide (block sets x ≤ i) := by
  funext x
  rw [Bool.eq_iff_iff, decide_eq_true_iff]
  exact h.mem_iff hs x

theorem Nested.countP_eq {sets : List (X → Bool)} (h : Nested sets) (hs : sets[i]? = some s)
    (xs : List X) : xs.countP s = (xs.map (block sets)).countP (· ≤ i) := by
  rw [List.countP_map, h.mem_eq hs]
  rfl

-- ---------------------------------------------------------------------------
-- Rejections
-- ---------------------------------------------------------------------------

variable {α δ : F} (tests : ∀ n, Test n α δ) (fails : X → Bool) (minN : ℕ)

/-- How likely the test of a set is to reject the sample's failures in it. -/
def reject (s : X → Bool) (xs : List X) : F :=
  (tests (xs.countP s)).reject (xs.countP fun x => s x && fails x)

def firstReject : List (X → Bool) → List X → F
  | [], _ => 0
  | s :: sets, xs => if minN ≤ xs.countP s then reject tests fails s xs else firstReject sets xs

omit [IsStrictOrderedRing F] in
theorem firstReject_nonneg (sets : List (X → Bool)) (xs : List X) :
    0 ≤ firstReject tests fails minN sets xs := by
  induction sets with
  | nil => exact le_rfl
  | cons s sets ih =>
    rw [firstReject]
    split_ifs
    · exact (tests _).nonneg _
    · exact ih

/-- No set before the `m`-th is large enough, and that one is. -/
def FirstLarge (m : ℕ) (blocks : List ℕ) : Prop :=
  (∀ i < m, blocks.countP (· ≤ i) < minN) ∧ minN ≤ blocks.countP (· ≤ m)

instance : DecidablePred (FirstLarge minN m) := fun _ => inferInstanceAs (Decidable (_ ∧ _))

def Small (sets : List (X → Bool)) (xs : List X) : Prop := ∀ s ∈ sets, xs.countP s < minN

instance : DecidablePred (Small minN sets : List X → Prop) :=
  fun _ => inferInstanceAs (Decidable (∀ s ∈ sets, _))

theorem firstLarge_iff {pre rest : List (X → Bool)} (h : Nested (pre ++ s :: rest))
    (xs : List X) : FirstLarge minN pre.length (xs.map (block (pre ++ s :: rest))) ↔
      Small minN pre xs ∧ minN ≤ xs.countP s := by
  have hlast : (pre ++ s :: rest)[pre.length]? = some s := by simp
  rw [FirstLarge, ← h.countP_eq hlast]
  apply and_congr_left'
  constructor
  · intro hall t ht
    obtain ⟨i, hi⟩ := List.mem_iff_getElem?.mp ht
    have hlt : i < pre.length := (List.getElem?_eq_some_iff.mp hi).1
    rw [h.countP_eq ((List.getElem?_append_left hlt).trans hi)]
    exact hall i hlt
  · intro hsmall i hi
    have hget : (pre ++ s :: rest)[i]? = some (pre.get ⟨i, hi⟩) := by
      rw [List.getElem?_append_left hi]
      exact List.getElem?_eq_getElem hi
    rw [← h.countP_eq hget]
    exact hsmall _ (List.get_mem _ _)

section
variable (D : FinDist F X) {blockOf : X → ℕ} {m : ℕ} (W : List ℕ → Prop) [DecidablePred W]

theorem expect_reject (n : ℕ) :
    (D.iid n).expect (fun xs => if W (xs.map blockOf) then
        reject tests fails (fun x => decide (blockOf x ≤ m)) xs else 0) =
      (D.iid n).expect fun xs => if W (xs.map blockOf) then
        mean (((xs.map blockOf).filter (· ≤ m)).map (risk D blockOf fails α))
          (tests ((xs.map blockOf).countP (· ≤ m))).reject 0 else 0 := by
  have hdraw := expect_failures D blockOf fails α (fun _ c => decide (c ≤ m))
    (fun cs k => if W cs then (tests (cs.countP (· ≤ m))).reject k else 0) n
  have hcount : ∀ xs : List X, (xs.map blockOf).countP (fun c => decide (c ≤ m)) =
      xs.countP fun x => decide (blockOf x ≤ m) := fun xs => List.countP_map
  have hif : ∀ xs : List X, mean
      (((xs.map blockOf).filter fun c => decide (c ≤ m)).map (risk D blockOf fails α))
        (fun k => if W (xs.map blockOf) then
          (tests ((xs.map blockOf).countP fun c => decide (c ≤ m))).reject k else 0) 0 =
        if W (xs.map blockOf) then
          mean (((xs.map blockOf).filter fun c => decide (c ≤ m)).map (risk D blockOf fails α))
            (tests ((xs.map blockOf).countP fun c => decide (c ≤ m))).reject 0 else 0 := by
    intro xs
    split_ifs
    · rfl
    · rw [mean_const]
  have hreject : ∀ xs : List X, reject tests fails (fun x => decide (blockOf x ≤ m)) xs =
      (tests ((xs.map blockOf).countP fun c => decide (c ≤ m))).reject
        (xs.countP fun x => decide (blockOf x ≤ m) && fails x) := by
    intro xs
    rw [reject, hcount]
  simp only [hif] at hdraw
  simp only [hreject]
  exact hdraw

variable {D} (hα : 0 < α) (hα1 : α ≤ 1) (hrisk : ∀ c ≤ m, α ≤ risk D blockOf fails α c)
include hα hα1 hrisk

/-- Where every block fails at least with probability `α`, a test keeps its size. -/
theorem expect_reject_le (n : ℕ) :
    (D.iid n).expect (fun xs => if W (xs.map blockOf) then
        reject tests fails (fun x => decide (blockOf x ≤ m)) xs else 0) ≤
      δ * (D.iid n).expect fun xs => if W (xs.map blockOf) then 1 else 0 := by
  have hprob : IsProb α := ⟨hα.le, hα1⟩
  rw [expect_reject, ← FinDist.expect_mul_left]
  apply FinDist.expect_mono
  rintro xs -
  split_ifs
  · rw [mul_one]
    exact (tests _).mean_le hprob (length_selected _ _ _)
      (forall_selected fun c hc => ⟨isProb_risk D blockOf fails hprob c, hrisk c hc⟩)
  · rw [mul_zero]

/-- Testing a set rejects at most as often as testing the next one, if what the
next one adds fails less than with probability `α`. -/
theorem expect_reject_le_next (hnext : risk D blockOf fails α (m + 1) ≤ α) (n : ℕ) :
    (D.iid n).expect (fun xs => if W (xs.map blockOf) then
        reject tests fails (fun x => decide (blockOf x ≤ m)) xs else 0) ≤
      (D.iid n).expect fun xs => if W (xs.map blockOf) then
        reject tests fails (fun x => decide (blockOf x ≤ m + 1)) xs else 0 := by
  have hprob : IsProb α := ⟨hα.le, hα1⟩
  rw [expect_reject, expect_reject]
  apply FinDist.expect_mono
  rintro xs -
  split_ifs
  · let cs := xs.map blockOf
    have hperm : (cs.filter (fun c => decide (c ≤ m)) ++ cs.filter fun c => decide (c = m + 1)).Perm
        (cs.filter fun c => decide (c ≤ m + 1)) := by
      have hparts := List.filter_append_perm (fun c => decide (c ≤ m))
        (cs.filter fun c => decide (c ≤ m + 1))
      rw [List.filter_filter, List.filter_filter] at hparts
      have hlow : (cs.filter fun c => decide (c ≤ m) && decide (c ≤ m + 1)) =
          cs.filter fun c => decide (c ≤ m) := by
        apply List.filter_congr
        intro c _
        rw [← Bool.decide_and]
        exact decide_eq_decide.mpr ⟨And.left, fun hc => ⟨hc, Nat.le_succ_of_le hc⟩⟩
      have hhigh : (cs.filter fun c => !decide (c ≤ m) && decide (c ≤ m + 1)) =
          cs.filter fun c => decide (c = m + 1) := by
        apply List.filter_congr
        intro c _
        rw [← decide_not, ← Bool.decide_and]
        exact decide_eq_decide.mpr ⟨fun hc => by omega, fun hc => by omega⟩
      rwa [hlow, hhigh] at hparts
    have hmap := hperm.map (risk D blockOf fails α)
    rw [List.map_append] at hmap
    have hlength : cs.countP (fun c => decide (c ≤ m)) +
        ((cs.filter fun c => decide (c = m + 1)).map (risk D blockOf fails α)).length =
          cs.countP fun c => decide (c ≤ m + 1) := by
      have htotal := hmap.length_eq
      rwa [List.length_append, length_selected, length_selected] at htotal
    have hadded : ∀ q ∈ (cs.filter fun c => decide (c = m + 1)).map (risk D blockOf fails α),
        IsProb q ∧ q ≤ α := by
      intro q hq
      obtain ⟨c, hc, rfl⟩ := List.mem_map.mp hq
      rw [of_decide_eq_true (List.mem_filter.mp hc).2]
      exact ⟨isProb_risk D blockOf fails hprob _, hnext⟩
    rw [← mean_perm hmap]
    exact (tests _).mean_le_pooled (tests _) hα hα1 (length_selected _ _ _) hlength
      (forall_selected fun c hc => ⟨isProb_risk D blockOf fails hprob c, hrisk c hc⟩) hadded
  · exact le_rfl

end

-- ---------------------------------------------------------------------------
-- The first large set
-- ---------------------------------------------------------------------------

theorem small_concat (pre : List (X → Bool)) (s : X → Bool) (xs : List X) :
    Small minN (pre ++ [s]) xs ↔ Small minN pre xs ∧ xs.countP s < minN := by
  simp [Small, or_imp, forall_and]

omit [IsStrictOrderedRing F] in
theorem firstReject_drop {pre post : List (X → Bool)} (hnested : Nested (pre ++ s :: t :: post))
    (xs : List X) :
    firstReject tests fails minN (pre ++ s :: t :: post) xs =
      firstReject tests fails minN (pre ++ t :: post) xs +
        ((if Small minN pre xs ∧ minN ≤ xs.countP s then reject tests fails s xs else 0) -
          if Small minN pre xs ∧ minN ≤ xs.countP s then reject tests fails t xs else 0) := by
  induction pre with
  | nil =>
    have hst := (List.pairwise_cons.mp hnested).1 t List.mem_cons_self
    have hle : xs.countP s ≤ xs.countP t := List.countP_mono_left fun x _ hx => hst x hx
    have hsmall : Small minN [] xs := fun _ h => absurd h List.not_mem_nil
    by_cases hlarge : minN ≤ xs.countP s
    · simp [firstReject, hsmall, hlarge, hlarge.trans hle]
    · simp [firstReject, hlarge]
  | cons u pre ih =>
    have hrest := ih (List.pairwise_cons.mp hnested).2
    by_cases hlarge : minN ≤ xs.countP u
    · have hsmall : ¬ Small minN (u :: pre) xs := fun h =>
        (h u List.mem_cons_self).not_ge hlarge
      simp [firstReject, hlarge, hsmall]
    · have hsmall : Small minN (u :: pre) xs ↔ Small minN pre xs := by
        simp [Small, not_le.mp hlarge]
      simp only [List.cons_append, firstReject, hlarge, if_false, hsmall]
      exact hrest

section
variable {D : FinDist F X} {sets : List (X → Bool)} (hα : 0 < α) (hα1 : α ≤ 1) (hδ : 0 ≤ δ)
include hα hα1 hδ

/-- Where every block fails at least with probability `α`, so does the first
large set, whatever the sample made it. -/
theorem expect_firstReject_le_of_risks (hnested : Nested sets)
    (hrisk : ∀ c < sets.length, α ≤ risk D (block sets) fails α c) (n : ℕ) {pre rest}
    (hsets : sets = pre ++ rest) :
    (D.iid n).expect (fun xs => if Small minN pre xs then firstReject tests fails minN rest xs
        else 0) ≤ δ * (D.iid n).expect fun xs => if Small minN pre xs then 1 else 0 := by
  induction rest generalizing pre with
  | nil =>
    simp only [firstReject, ite_self, FinDist.expect_const]
    exact mul_nonneg hδ (FinDist.expect_nonneg _ fun xs _ => by split_ifs <;> simp)
  | cons s rest ih =>
    have happend : sets = (pre ++ [s]) ++ rest := by rw [hsets, List.append_cons]
    have hrest := ih happend
    have hs : sets[pre.length]? = some s := by simp [hsets]
    have hlength : pre.length < sets.length := (List.getElem?_eq_some_iff.mp hs).1
    have hlevel := expect_reject_le (D := D) tests fails (FirstLarge minN pre.length) hα hα1
      (fun c hc => hrisk c (hc.trans_lt hlength)) n
    subst hsets
    rw [← hnested.mem_eq hs] at hlevel
    simp only [firstLarge_iff minN hnested] at hlevel
    simp only [small_concat] at hrest
    -- Either this set is the first large one, or it is small too.
    have hsplit : ∀ (xs : List X) (u v : F), (if Small minN pre xs then
        if minN ≤ xs.countP s then u else v else 0) =
          (if Small minN pre xs ∧ minN ≤ xs.countP s then u else 0) +
            if Small minN pre xs ∧ xs.countP s < minN then v else 0 := by
      intro xs u v
      by_cases hsmall : Small minN pre xs <;> by_cases hlarge : minN ≤ xs.countP s <;>
        simp [hsmall, hlarge, not_lt.mpr, not_le.mp]
    have hone : ∀ xs : List X, (if Small minN pre xs then (1 : F) else 0) =
        (if Small minN pre xs ∧ minN ≤ xs.countP s then 1 else 0) +
          if Small minN pre xs ∧ xs.countP s < minN then 1 else 0 := by
      intro xs
      rw [← hsplit, ite_self]
    simp only [firstReject, hsplit, hone, FinDist.expect_add, mul_add]
    exact add_le_add hlevel hrest

omit hα hα1 hδ in
/-- The first block that fails too rarely has another before it. -/
theorem exists_first_rare (hnested : Nested sets)
    (hbad : ∀ s ∈ sets, α * D.prob (s · = true) ≤ D.prob fun x => s x = true ∧ fails x = true)
    (hrisk : ¬∀ c < sets.length, α ≤ risk D (block sets) fails α c) :
    ∃ pre s t post, sets = pre ++ s :: t :: post ∧
      (∀ c ≤ pre.length, α ≤ risk D (block sets) fails α c) ∧
      risk D (block sets) fails α (pre.length + 1) < α := by
  have hlow : ∃ c, c < sets.length ∧ risk D (block sets) fails α c < α := by
    simpa using hrisk
  classical
  obtain ⟨hc, hrare⟩ := Nat.find_spec hlow
  have hfirst := fun c hc => Nat.find_min hlow (m := c) hc
  generalize Nat.find hlow = c at hc hrare hfirst
  cases c with
  | zero =>
    have hmem := hnested.mem_iff (List.getElem?_eq_getElem hc)
    have hzero := hbad _ (List.getElem_mem hc)
    simp only [hmem, Nat.le_zero] at hzero
    exact absurd hrare (not_lt.mpr (le_risk D (block sets) fails α hzero))
  | succ m =>
    have hm : m < sets.length := (Nat.lt_succ_self m).trans hc
    have hlength : (sets.take m).length = m := List.length_take_of_le hm.le
    refine ⟨sets.take m, sets[m], sets[m + 1], sets.drop (m + 2), ?_, fun c hle => ?_, ?_⟩
    · rw [← List.drop_eq_getElem_cons hc, ← List.drop_eq_getElem_cons hm, List.take_append_drop]
    · rw [hlength] at hle
      by_contra hlt
      exact hfirst c (Nat.lt_succ_of_le hle) ⟨(Nat.lt_succ_of_le hle).trans hc, not_le.mp hlt⟩
    · rwa [hlength]

/-- The first set that holds enough of the sample is rejected at most with
probability `δ`, if every set fails at least with probability `α`. -/
theorem expect_firstReject_le (hnested : Nested sets)
    (hbad : ∀ s ∈ sets, α * D.prob (s · = true) ≤ D.prob fun x => s x = true ∧ fails x = true)
    (n : ℕ) : (D.iid n).expect (firstReject tests fails minN sets) ≤ δ := by
  induction hlength : sets.length generalizing sets with
  | zero =>
    rw [List.length_eq_zero_iff.mp hlength]
    simp only [firstReject, FinDist.expect_const]
    exact hδ
  | succ length ih =>
    by_cases hrisk : ∀ c < sets.length, α ≤ risk D (block sets) fails α c
    · have hle := expect_firstReject_le_of_risks tests fails minN hα hα1 hδ hnested hrisk n
        (List.nil_append sets).symm
      have hsmall : ∀ xs : List X, Small minN [] xs := fun _ _ h => absurd h List.not_mem_nil
      simpa [hsmall] using hle
    · -- The first block that fails too rarely is pooled with the one before it.
      obtain ⟨pre, s, t, post, rfl, hbefore, hrare⟩ :=
        exists_first_rare fails hnested hbad hrisk
      have hs : (pre ++ s :: t :: post)[pre.length]? = some s := by simp
      have ht : (pre ++ s :: t :: post)[pre.length + 1]? = some t := by
        rw [List.getElem?_append_right (Nat.le_succ _)]
        simp
      have hpool := expect_reject_le_next (D := D) tests fails (FirstLarge minN pre.length)
        hα hα1 hbefore hrare.le n
      rw [← hnested.mem_eq hs, ← hnested.mem_eq ht] at hpool
      simp only [firstLarge_iff minN hnested] at hpool
      have hsub : (pre ++ t :: post).Sublist (pre ++ s :: t :: post) :=
        (List.sublist_cons_self s _).append_left pre
      have hshort := ih (hnested.sublist hsub) (fun u hu => hbad u (hsub.subset hu))
        (by simp only [List.length_append, List.length_cons] at hlength ⊢; omega)
      calc (D.iid n).expect (firstReject tests fails minN (pre ++ s :: t :: post))
          = (D.iid n).expect (firstReject tests fails minN (pre ++ t :: post)) +
              ((D.iid n).expect (fun xs => if Small minN pre xs ∧ minN ≤ xs.countP s then
                  reject tests fails s xs else 0) -
                (D.iid n).expect fun xs => if Small minN pre xs ∧ minN ≤ xs.countP s then
                  reject tests fails t xs else 0) := by
            rw [← FinDist.expect_sub, ← FinDist.expect_add]
            congr 1
            funext xs
            exact firstReject_drop tests fails minN hnested xs
        _ ≤ (D.iid n).expect (firstReject tests fails minN (pre ++ t :: post)) :=
            add_le_of_nonpos_right (sub_nonpos.mpr hpool)
        _ ≤ δ := hshort

end

end Firstpass.NestedTests
