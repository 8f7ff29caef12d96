import Firstpass.Proxy.Bandit
import Mathlib.Algebra.BigOperators.Group.List.Basic
import Mathlib.Algebra.Order.Ring.Rat
import Mathlib.Tactic.Linarith
import Mathlib.Tactic.Positivity

/-!
# How good the chosen start is

The cost of a start leaves out the rungs that are all but never reached. The start it picks
costs, on all rungs, at most that much more than the best.
-/

namespace Firstpass.Bandit

section
variable {F : Type} [LinearOrder F]

-- ---------------------------------------------------------------------------
-- The least of the starts
-- ---------------------------------------------------------------------------

/-- The first of the starts below `n` that cost least. -/
structure Least (cost : Nat → F) (n : Nat) (found : F × Nat) : Prop where
  value : found.1 = cost found.2
  lt : found.2 < n
  first : ∀ j < found.2, found.1 < cost j
  least : ∀ j < n, found.1 ≤ cost j

variable {cost : Nat → F} {n : Nat} {found found' : F × Nat}

theorem Least.unique (h : Least cost n found) (h' : Least cost n found') : found = found' := by
  have hcost : found.1 = found'.1 := by
    refine le_antisymm ?_ ?_
    · exact h'.value ▸ h.least _ h'.lt
    · exact h.value ▸ h'.least _ h.lt
  have hstart : found.2 = found'.2 := by
    rcases lt_trichotomy found.2 found'.2 with hlt | heq | hgt
    · exact absurd (h'.first _ hlt) (by rw [← hcost, h.value]; exact lt_irrefl _)
    · exact heq
    · exact absurd (h.first _ hgt) (by rw [hcost, h'.value]; exact lt_irrefl _)
  exact Prod.ext hcost hstart

theorem Least.zero : Least cost 1 (cost 0, 0) where
  value := rfl
  lt := Nat.one_pos
  first := by simp
  least := by simp

/-- The next start is the least where it costs less than all before. -/
theorem Least.next (h : Least cost n found) :
    Least cost (n + 1) (if cost n < found.1 then (cost n, n) else found) := by
  obtain ⟨hvalue, hlt, hfirst, hleast⟩ := h
  split_ifs with hless
  · refine ⟨rfl, Nat.lt_succ_self n, fun j hj => hless.trans_le (hleast j hj), ?_⟩
    intro j hj
    rcases Nat.lt_succ_iff_lt_or_eq.mp hj with hj | rfl
    · exact (hless.trans_le (hleast j hj)).le
    · exact le_rfl
  · refine ⟨hvalue, Nat.lt_succ_of_lt hlt, hfirst, fun j hj => ?_⟩
    rcases Nat.lt_succ_iff_lt_or_eq.mp hj with hj | rfl
    · exact hleast j hj
    · exact not_lt.mp hless

theorem least_of_fold (hn : 0 < n) :
    ∃ found, (List.range n).foldl (cheaper cost) none = some found ∧ Least cost n found := by
  induction n with
  | zero => exact absurd hn (Nat.lt_irrefl 0)
  | succ n ih =>
    rw [List.range_succ, List.foldl_append]
    rcases Nat.eq_zero_or_pos n with rfl | hpos
    · exact ⟨_, rfl, .zero⟩
    · obtain ⟨found, hfold, hleast⟩ := ih hpos
      refine ⟨_, ?_, hleast.next⟩
      rw [hfold]
      simp only [List.foldl_cons, List.foldl_nil, cheaper]
      split_ifs <;> rfl

/-- The scan that begins with a largest cost `top` and start 0, as it is in the source. -/
def cheaperThan (cost : Nat → F) (best : F × Nat) (s : Nat) : F × Nat :=
  if cost s < best.1 then (cost s, s) else best

/-- Beginning with a largest cost makes no difference, once some start costs less. -/
theorem least_of_top {top : F} (hbelow : ∃ t < n, cost t < top) :
    Least cost n ((List.range n).foldl (cheaperThan cost) (top, 0)) := by
  have hscan : ((∀ j < n, top ≤ cost j) ∧
        (List.range n).foldl (cheaperThan cost) (top, 0) = (top, 0)) ∨
      Least cost n ((List.range n).foldl (cheaperThan cost) (top, 0)) ∧
        ((List.range n).foldl (cheaperThan cost) (top, 0)).1 < top := by
    clear hbelow
    induction n with
    | zero => exact .inl ⟨by simp, rfl⟩
    | succ n ih =>
      rw [List.range_succ, List.foldl_append, List.foldl_cons, List.foldl_nil]
      rcases ih with ⟨hall, hfold⟩ | ⟨hleast, hlt⟩
      · rw [hfold]
        unfold cheaperThan
        split_ifs with hless
        · refine .inr ⟨⟨rfl, Nat.lt_succ_self n, fun j hj => hless.trans_le (hall j hj), ?_⟩, hless⟩
          intro j hj
          rcases Nat.lt_succ_iff_lt_or_eq.mp hj with hj | rfl
          · exact (hless.trans_le (hall j hj)).le
          · exact le_rfl
        · refine .inl ⟨fun j hj => ?_, rfl⟩
          rcases Nat.lt_succ_iff_lt_or_eq.mp hj with hj | rfl
          · exact hall j hj
          · exact not_lt.mp hless
      · refine .inr ⟨hleast.next, ?_⟩
        unfold cheaperThan
        split_ifs with hless
        · exact hless.trans hlt
        · exact hlt
  obtain ⟨t, ht, htop⟩ := hbelow
  rcases hscan with ⟨hall, -⟩ | ⟨hleast, -⟩
  · exact absurd htop (not_lt.mpr (hall t ht))
  · exact hleast

end

-- ---------------------------------------------------------------------------
-- True expected costs
-- ---------------------------------------------------------------------------

variable {F : Type} [Field F]

/-- What the rung of a model is charged at, nothing where it has no price. -/
def rungPrice (prices : Prices F) (inTokens : Nat) (model : String) : F :=
  (prices model).elim 0 fun cost => cost inTokens (max (inTokens / 2) 1)

/-- The expected cost of the rungs from `r` on: the price of the first, and where it fails that
of the others. -/
def trueCost (price : String → F) (pPass : Nat → F) : Nat → List String → F
  | _, [] => 0
  | r, model :: rest => price model + (1 - pPass r) * trueCost price pPass (r + 1) rest

section
variable (ladder : List String) (prices : Prices F) (inTokens : Nat) (pPass : Nat → F)

/-- The expected cost of a ladder from start `s`, however seldom its last rungs are reached. -/
def trueStart (s : Nat) : F := trueCost (rungPrice prices inTokens) pPass s (ladder.drop s)

/-- Every rung of the ladder has a price that is not negative and a chance to pass. -/
structure Priced [LinearOrder F] : Prop where
  price : ∀ model ∈ ladder, 0 ≤ rungPrice prices inTokens model
  pass : ∀ r < ladder.length, 0 ≤ pPass r ∧ pPass r ≤ 1

end

-- ---------------------------------------------------------------------------
-- What the truncation leaves out
-- ---------------------------------------------------------------------------

variable {ladder : List String} {prices : Prices F} {inTokens : Nat} {pPass : Nat → F}

theorem trueStart_of_lt {s : Nat} (hs : s < ladder.length) :
    trueStart ladder prices inTokens pPass s =
      rungPrice prices inTokens ladder[s] +
        (1 - pPass s) * trueStart ladder prices inTokens pPass (s + 1) := by
  rw [trueStart, List.drop_eq_getElem_cons hs, trueCost, trueStart]

theorem trueStart_length : trueStart ladder prices inTokens pPass ladder.length = 0 := by
  simp [trueStart, trueCost]

section
variable [LinearOrder F] [IsStrictOrderedRing F] {price : String → F} {models : List String}
  {r : Nat}

theorem sum_prices_nonneg (hprice : ∀ model ∈ models, 0 ≤ price model) :
    0 ≤ (models.map price).sum :=
  List.sum_nonneg (by simpa using hprice)

/-- The rungs cost at most what they would cost if all of them failed. -/
theorem trueCost_bounds (hprice : ∀ model ∈ models, 0 ≤ price model)
    (hpass : ∀ r', r ≤ r' → r' < r + models.length → 0 ≤ pPass r' ∧ pPass r' ≤ 1) :
    0 ≤ trueCost price pPass r models ∧ trueCost price pPass r models ≤ (models.map price).sum := by
  induction models generalizing r with
  | nil => simp [trueCost]
  | cons model rest ih =>
    rw [List.forall_mem_cons] at hprice
    obtain ⟨hmodel, hrest⟩ := hprice
    obtain ⟨hp, hp'⟩ := hpass r le_rfl (by simp)
    obtain ⟨hnonneg, hsum⟩ := ih hrest fun r' hr hr' =>
      hpass r' (Nat.le_of_succ_le hr) (by rw [List.length_cons]; omega)
    have hfail : 0 ≤ 1 - pPass r := by linarith
    have hpart : (1 - pPass r) * trueCost price pPass (r + 1) rest ≤
        trueCost price pPass (r + 1) rest := mul_le_of_le_one_left hnonneg (by linarith)
    simp only [trueCost, List.map_cons, List.sum_cons]
    constructor
    · exact add_nonneg hmodel (mul_nonneg hfail hnonneg)
    · linarith

omit [IsStrictOrderedRing F] in
theorem expectedCost_cons (price : String → F) (pPass : Nat → F) (r : Nat) (reach cost : F)
    (model : String) (rest : List String) :
    expectedCost price pPass r reach cost (model :: rest) =
      if reach * (1 - pPass r) < 1 / 10 ^ 10 then cost + reach * price model
      else expectedCost price pPass (r + 1) (reach * (1 - pPass r)) (cost + reach * price model)
        rest := rfl

/-- The computed cost is the true one, but for what is left out below a reach of `1e-10`. -/
theorem expectedCost_bounds (hprice : ∀ model ∈ models, 0 ≤ price model)
    (hpass : ∀ r', r ≤ r' → r' < r + models.length → 0 ≤ pPass r' ∧ pPass r' ≤ 1)
    {reach : F} (hreach : 0 ≤ reach) (cost : F) :
    expectedCost price pPass r reach cost models ≤ cost + reach * trueCost price pPass r models ∧
      cost + reach * trueCost price pPass r models ≤
        expectedCost price pPass r reach cost models + 1 / 10 ^ 10 * (models.map price).sum := by
  induction models generalizing r reach cost with
  | nil =>
    have hnil : expectedCost price pPass r reach cost [] = cost := rfl
    simp [hnil, trueCost]
  | cons model rest ih =>
    rw [List.forall_mem_cons] at hprice
    obtain ⟨hmodel, hrest⟩ := hprice
    obtain ⟨hp, hp'⟩ := hpass r le_rfl (by simp)
    have hpass' : ∀ r', r + 1 ≤ r' → r' < r + 1 + rest.length → 0 ≤ pPass r' ∧ pPass r' ≤ 1 :=
      fun r' hr hr' => hpass r' (Nat.le_of_succ_le hr) (by rw [List.length_cons]; omega)
    have hnext : 0 ≤ reach * (1 - pPass r) := mul_nonneg hreach (by linarith)
    have htol : (0 : F) ≤ 1 / 10 ^ 10 * price model := mul_nonneg (by positivity) hmodel
    have hsplit : cost + reach * trueCost price pPass r (model :: rest) =
        cost + reach * price model +
          reach * (1 - pPass r) * trueCost price pPass (r + 1) rest := by
      rw [trueCost]
      ring
    simp only [expectedCost_cons, List.map_cons, List.sum_cons, mul_add]
    rw [hsplit]
    split_ifs with hcut
    · obtain ⟨hnonneg, hsum⟩ := trueCost_bounds hrest hpass'
      have hleft : reach * (1 - pPass r) * trueCost price pPass (r + 1) rest ≤
          1 / 10 ^ 10 * (rest.map price).sum :=
        mul_le_mul hcut.le hsum hnonneg (by positivity)
      have hpos := mul_nonneg hnext hnonneg
      constructor <;> linarith
    · obtain ⟨hlow, hhigh⟩ := ih hrest hpass' hnext (cost + reach * price model)
      exact ⟨hlow, by linarith⟩

theorem startCost_bounds (h : Priced ladder prices inTokens pPass) {s : Nat}
    (hs : s < ladder.length) :
    startCost ladder prices inTokens pPass s ≤ trueStart ladder prices inTokens pPass s ∧
      trueStart ladder prices inTokens pPass s ≤ startCost ladder prices inTokens pPass s +
        1 / 10 ^ 10 * (ladder.map (rungPrice prices inTokens)).sum := by
  have hdrop : ∀ model ∈ ladder.drop s, 0 ≤ rungPrice prices inTokens model :=
    fun model hmodel => h.price model (List.mem_of_mem_drop hmodel)
  have hpass : ∀ r, s ≤ r → r < s + (ladder.drop s).length → 0 ≤ pPass r ∧ pPass r ≤ 1 := by
    intro r hr hr'
    rw [List.length_drop] at hr'
    exact h.pass r (by omega)
  obtain ⟨hlow, hhigh⟩ := expectedCost_bounds hdrop hpass (zero_le_one) 0
  rw [zero_add, one_mul] at hlow hhigh
  refine ⟨hlow, hhigh.trans (add_le_add_right ?_ _)⟩
  have hsum : ((ladder.take s).map (rungPrice prices inTokens)).sum +
      ((ladder.drop s).map (rungPrice prices inTokens)).sum =
        (ladder.map (rungPrice prices inTokens)).sum := by
    rw [← List.sum_append, ← List.map_append, List.take_append_drop]
  have htake : 0 ≤ ((ladder.take s).map (rungPrice prices inTokens)).sum :=
    sum_prices_nonneg fun model hmodel => h.price model (List.mem_of_mem_take hmodel)
  refine mul_le_mul_of_nonneg_left ?_ (by positivity)
  linarith

end

-- ---------------------------------------------------------------------------
-- The choice
-- ---------------------------------------------------------------------------

variable [LinearOrder F]

theorem argminExpectedCost_least {ladder : List String} (h : ladder ≠ []) (prices : Prices F)
    (inTokens : Nat) (pPass : Nat → F) :
    ∃ least, Least (startCost ladder prices inTokens pPass) ladder.length
      (least, argminExpectedCost ladder prices inTokens pPass) := by
  obtain ⟨found, hfold, hleast⟩ : ∃ found, (List.range ladder.length).foldl
      (cheaper (startCost ladder prices inTokens pPass)) none = some found ∧
        Least (startCost ladder prices inTokens pPass) ladder.length found :=
    least_of_fold (List.length_pos_iff.mpr h)
  refine ⟨found.1, ?_⟩
  simpa [argminExpectedCost, hfold] using hleast

/-- The source begins its scan with the largest float, which a price below it makes as good as
none. -/
theorem argminExpectedCost_of_top (h : ladder ≠ []) {top : F}
    (hbelow : ∃ t < ladder.length, startCost ladder prices inTokens pPass t < top) :
    ((List.range ladder.length).foldl (cheaperThan (startCost ladder prices inTokens pPass))
      (top, 0)).2 = argminExpectedCost ladder prices inTokens pPass := by
  obtain ⟨least, hleast⟩ := argminExpectedCost_least h prices inTokens pPass
  exact congrArg Prod.snd ((least_of_top hbelow).unique hleast)

theorem trueStart_argmin_le [IsStrictOrderedRing F] (hladder : ladder ≠ [])
    (h : Priced ladder prices inTokens pPass) {t : Nat} (ht : t < ladder.length) :
    trueStart ladder prices inTokens pPass (argminExpectedCost ladder prices inTokens pPass) ≤
      trueStart ladder prices inTokens pPass t +
        1 / 10 ^ 10 * (ladder.map (rungPrice prices inTokens)).sum := by
  obtain ⟨least, hvalue, hlt, -, hleast⟩ := argminExpectedCost_least hladder prices inTokens pPass
  dsimp only at hvalue hlt hleast
  subst hvalue
  calc trueStart ladder prices inTokens pPass (argminExpectedCost ladder prices inTokens pPass)
      ≤ startCost ladder prices inTokens pPass (argminExpectedCost ladder prices inTokens pPass) +
          1 / 10 ^ 10 * (ladder.map (rungPrice prices inTokens)).sum := (startCost_bounds h hlt).2
    _ ≤ startCost ladder prices inTokens pPass t +
          1 / 10 ^ 10 * (ladder.map (rungPrice prices inTokens)).sum :=
        add_le_add_left (hleast t ht) _
    _ ≤ trueStart ladder prices inTokens pPass t +
          1 / 10 ^ 10 * (ladder.map (rungPrice prices inTokens)).sum :=
        add_le_add_left (startCost_bounds h ht).1 _

/-- The chosen start is a rung of the ladder, its true expected cost is within `1e-10` of the
sum of the prices of any other start's, and every lower start has a larger computed cost. -/
theorem argmin_near_optimal [IsStrictOrderedRing F] (ladder : List String)
    (hladder : ladder ≠ []) (prices : Prices F) (inTokens : Nat) (pPass : Nat → F)
    (h : Priced ladder prices inTokens pPass) :
    argminExpectedCost ladder prices inTokens pPass < ladder.length ∧
    (∀ t < ladder.length,
      trueStart ladder prices inTokens pPass (argminExpectedCost ladder prices inTokens pPass) ≤
        trueStart ladder prices inTokens pPass t +
          1 / 10 ^ 10 * (ladder.map (rungPrice prices inTokens)).sum) ∧
    ∀ j < argminExpectedCost ladder prices inTokens pPass,
      startCost ladder prices inTokens pPass (argminExpectedCost ladder prices inTokens pPass) <
        startCost ladder prices inTokens pPass j := by
  obtain ⟨least, hvalue, hlt, hfirst, -⟩ := argminExpectedCost_least hladder prices inTokens pPass
  dsimp only at hvalue hlt hfirst
  subst hvalue
  exact ⟨hlt, fun t ht => trueStart_argmin_le hladder h ht, hfirst⟩

def twoPrices : Prices ℚ := fun model =>
  if model = "acme/small" then some fun _ _ => 1
  else if model = "acme/large" then some fun _ _ => 4
  else none

theorem argmin_near_optimal_two :
    argminExpectedCost ["acme/small", "acme/large"] twoPrices 1000 (fun _ => (1 / 2 : ℚ)) < 2 ∧
    trueStart ["acme/small", "acme/large"] twoPrices 1000 (fun _ => (1 / 2 : ℚ))
        (argminExpectedCost ["acme/small", "acme/large"] twoPrices 1000 fun _ => 1 / 2) ≤
      trueStart ["acme/small", "acme/large"] twoPrices 1000 (fun _ => 1 / 2) 1 +
        1 / 10 ^ 10 *
          (["acme/small", "acme/large"].map (rungPrice twoPrices 1000)).sum := by
  have hpriced : Priced ["acme/small", "acme/large"] twoPrices 1000 fun _ => (1 / 2 : ℚ) :=
    ⟨by simp [rungPrice, twoPrices], fun _ _ => by norm_num⟩
  obtain ⟨hlt, hnear, -⟩ := argmin_near_optimal _ (by simp) twoPrices 1000 _ hpriced
  exact ⟨hlt, hnear 1 (by simp)⟩

theorem clamp01_mem [IsStrictOrderedRing F] (x : F) : 0 ≤ clamp01 x ∧ clamp01 x ≤ 1 :=
  ⟨le_max_left _ _, max_le zero_le_one (min_le_right _ _)⟩

variable [Analytic F]

theorem ucbPass_mem [IsStrictOrderedRing F] (b : StartRungBandit F) (ctx : ContextBucket)
    (lnN : F) (rung : Nat) : 0 ≤ b.ucbPass ctx lnN rung ∧ b.ucbPass ctx lnN rung ≤ 1 := by
  unfold StartRungBandit.ucbPass
  split
  · exact ⟨zero_le_one, le_rfl⟩
  · split_ifs
    · exact ⟨zero_le_one, le_rfl⟩
    · exact clamp01_mem _

/-- A warm bandit starts within `1e-10` of the sum of the prices of the best, by its own
estimates of the pass rates. -/
theorem chooseStart_near_optimal [IsStrictOrderedRing F] (b : StartRungBandit F)
    (ctx : ContextBucket) {ladder : List String} (hladder : ladder ≠ []) (prices : Prices F)
    (hwarm : ¬ b.observations ctx < b.minObservations)
    (hprice : ∀ model ∈ ladder, 0 ≤ rungPrice prices ctx.representativePromptTokens model)
    {t : Nat} (ht : t < ladder.length) :
    let pPass := b.ucbPass ctx (Analytic.ln (b.observations ctx))
    trueStart ladder prices ctx.representativePromptTokens pPass
        (b.chooseStart ctx ladder prices) ≤
      trueStart ladder prices ctx.representativePromptTokens pPass t + 1 / 10 ^ 10 *
        (ladder.map (rungPrice prices ctx.representativePromptTokens)).sum := by
  intro pPass
  have hstart : b.chooseStart ctx ladder prices =
      argminExpectedCost ladder prices ctx.representativePromptTokens pPass := by
    rw [StartRungBandit.chooseStart, if_neg hladder, if_neg hwarm]
  rw [hstart]
  exact trueStart_argmin_le hladder ⟨hprice, fun r _ => ucbPass_mem b ctx _ r⟩ ht

end Firstpass.Bandit
