import Firstpass.Lib.FiniteProbability
import Firstpass.Proxy.Ope
import Mathlib.Tactic.FieldSimp
import Mathlib.Tactic.LinearCombination

/-!
# What the start-rung estimates expect

A logging policy draws the start rung of each context and records the
probability it drew it with. Weighted by its inverse, cost and reward model
average to the mean cost of the candidate. The failure estimate divides by the
traces that started at the candidate, where the others divide by all.
-/

namespace Firstpass.Ope

open FiniteProbability

variable {F : Type} [Field F] [LinearOrder F]

-- ---------------------------------------------------------------------------
-- Logged traffic
-- ---------------------------------------------------------------------------

/-- Contexts with the cost and the correctness of every start rung, a policy
that draws the start rung, and the trace that is logged, with its feedback. -/
structure Logging (F : Type) [Field F] [LinearOrder F] (X : Type) where
  contexts : FinDist F X
  policy : X → FinDist F Nat
  taskKind : X → TaskKind
  cost : X → Nat → F
  correct : X → Nat → Bool
  trace : X → Nat → LoggedTrace F
  incumbent : ∀ x rung, (trace x rung).isIncumbent = true
  propensity : ∀ x rung, (trace x rung).policy.propensity = some ((policy x).prob (· = rung))
  start : ∀ x rung, (trace x rung).rungs.head? = some rung
  total : ∀ x rung, (trace x rung).final.totalCostUsd = cost x rung
  kind : ∀ x rung, (trace x rung).taskKind = taskKind x
  feedback : ∀ x rung,
    (trace x rung).deferred.getLast?.map (decide <| · = .pass) = some (correct x rung)

namespace Logging

variable {X : Type} (L : Logging F X) (candidate : Nat)

def startProb (x : X) : F := (L.policy x).prob (· = candidate)

def meanCost : F := L.contexts.expect (L.cost · candidate)

def failureRate : F := L.contexts.prob fun x => L.correct x candidate = false

def logged (draws : List (X × Nat)) : List (LoggedTrace F) :=
  draws.map fun d => L.trace d.1 d.2

section
variable [IsStrictOrderedRing F]

def draws : FinDist F (X × Nat) := L.contexts.bind fun x => (L.policy x).map (x, ·)

/-- The expected value of a statistic of `n` logged traces. -/
def expected (n : Nat) (statistic : List (LoggedTrace F) → F) : F :=
  (L.draws.iid n).expect fun ds => statistic (L.logged ds)

structure Unbiased (n : Nat) : Prop where
  cost : L.expected n (fun traces => (ipsFromStore candidate traces).ipsCost) =
    L.meanCost candidate
  failure : L.expected n (fun traces => (ipsFromStore candidate traces).ipsServedFailure.getD 0) =
    L.failureRate candidate
  doublyRobust : ∀ predict, L.expected n (fun traces =>
    drCost candidate predict (ipsPoints candidate traces)) = L.meanCost candidate

/-- The candidate is in the support of the policy. -/
def Covers : Prop := ∀ x, L.contexts.Possible x → 0 < L.startProb candidate x

/-- Dividing by the matched traces comes to the same: there is one trace, or
every trace is matched, or there is nothing to count. -/
def Evens (n : Nat) : Prop :=
  n = 1 ∨ L.failureRate candidate = 0 ∨
    ∀ x, L.contexts.Possible x → L.startProb candidate x = 1

end

-- ---------------------------------------------------------------------------
-- One point
-- ---------------------------------------------------------------------------

def weight (d : X × Nat) : F :=
  (if d.2 = candidate then 1 else 0) / (L.policy d.1).prob (· = d.2)

def point (d : X × Nat) : IpsPoint F where
  weight := L.weight candidate d
  cost := L.cost d.1 d.2
  correctness := if d.2 = candidate then some (L.correct d.1 d.2) else none
  taskKind := L.taskKind d.1
  loggedRung := d.2

/-- The weight of a matched trace that failed. -/
def failedWeight (d : X × Nat) : F :=
  L.weight candidate d * if L.correct d.1 d.2 = false then 1 else 0

theorem known_logged (ds : List (X × Nat)) :
    (ds.map (L.point candidate)).filterMap (fun p => p.correctness.map (p.weight, ·)) =
      (ds.filter (·.2 = candidate)).map fun d => (L.weight candidate d, L.correct d.1 d.2) := by
  induction ds with
  | nil => rfl
  | cons d ds ih =>
    by_cases hd : d.2 = candidate <;> simp [point, hd, ih]

theorem sum_failed (ds : List (X × Nat)) :
    ((((ds.filter (·.2 = candidate)).map fun d =>
      (L.weight candidate d, L.correct d.1 d.2)).filter (!·.2)).map Prod.fst).sum =
        (ds.map (L.failedWeight candidate)).sum := by
  induction ds with
  | nil => rfl
  | cons d ds ih =>
    obtain ⟨x, rung⟩ := d
    by_cases hrung : rung = candidate
    · subst hrung
      cases hcorrect : L.correct x rung <;> simp [failedWeight, hcorrect, ih]
    · have hzero : L.failedWeight candidate (x, rung) = 0 := by simp [failedWeight, weight, hrung]
      simp [hrung, ih, hzero]

variable [IsStrictOrderedRing F]

theorem ipsPoint_trace {d : X × Nat} (h : 0 < (L.policy d.1).prob (· = d.2)) :
    ipsPoint candidate (L.trace d.1 d.2) = some (L.point candidate d) := by
  have hweight : (0 < (if d.2 = candidate then (1 : F) else 0) / (L.policy d.1).prob (· = d.2)) ↔
      d.2 = candidate := by
    by_cases heq : d.2 = candidate
    · simp [heq, heq ▸ h]
    · simp [heq]
  simp only [ipsPoint, L.propensity, h.not_ge, if_false, L.start, L.total, L.kind, L.feedback,
    Option.some.injEq, hweight, Option.getD_some]
  rfl

theorem possible_draw {d : X × Nat} (h : L.draws.Possible d) :
    L.contexts.Possible d.1 ∧ 0 < (L.policy d.1).prob (· = d.2) := by
  obtain ⟨x, hx, h⟩ := L.contexts.possible_bind h
  obtain ⟨rung, hrung, rfl⟩ := (L.policy x).possible_map h
  exact ⟨hx, (L.policy x).prob_pos hrung rfl⟩

theorem ipsPoints_logged {n : Nat} {ds : List (X × Nat)} (h : (L.draws.iid n).Possible ds) :
    ipsPoints candidate (L.logged ds) = ds.map (L.point candidate) := by
  have hall := (L.draws.possible_iid h).2
  have hkept : (L.logged ds).filter (·.isIncumbent) = L.logged ds := by
    apply List.filter_eq_self.mpr
    intro t ht
    obtain ⟨d, -, rfl⟩ := List.mem_map.mp ht
    exact L.incumbent d.1 d.2
  rw [ipsPoints, hkept, logged, List.filterMap_map, ← List.filterMap_eq_map]
  apply List.filterMap_congr
  intro d hd
  exact L.ipsPoint_trace candidate (L.possible_draw (hall d hd)).2

-- ---------------------------------------------------------------------------
-- The means of one draw
-- ---------------------------------------------------------------------------

theorem expect_draws (f : X → Nat → F) :
    L.draws.expect (fun d => f d.1 d.2) =
      L.contexts.expect fun x => (L.policy x).expect (f x) := by
  rw [draws, FinDist.expect_bind]
  simp only [FinDist.expect_map]

/-- The weight undoes the draw, where the candidate can be drawn. -/
theorem expect_weight (f : X → Nat → F) :
    L.draws.expect (fun d => L.weight candidate d * f d.1 d.2) =
      L.contexts.expect fun x => if L.startProb candidate x = 0 then 0 else f x candidate := by
  rw [L.expect_draws fun x rung => L.weight candidate (x, rung) * f x rung]
  congr 1
  funext x
  have hterm : ∀ rung, L.weight candidate (x, rung) * f x rung =
      (if rung = candidate then 1 else 0) * (f x candidate / L.startProb candidate x) := by
    intro rung
    by_cases hrung : rung = candidate
    · subst hrung
      rw [weight, startProb]
      simp only [if_true]
      ring
    · simp [weight, hrung]
  simp only [hterm, FinDist.expect_mul_right]
  change L.startProb candidate x * (f x candidate / L.startProb candidate x) = _
  split_ifs with hzero
  · rw [hzero, zero_mul]
  · exact mul_div_cancel₀ _ hzero

theorem expect_weight_of_covers (h : L.Covers candidate) (f : X → Nat → F) :
    L.draws.expect (fun d => L.weight candidate d * f d.1 d.2) =
      L.contexts.expect (f · candidate) := by
  rw [L.expect_weight]
  exact L.contexts.expect_congr fun x hx => if_neg (h x hx).ne'

def matchProb : F := L.draws.prob fun d => decide (d.2 = candidate) = true

theorem matchProb_eq : L.matchProb candidate = L.contexts.expect (L.startProb candidate) := by
  have hdraw := L.expect_draws fun _ rung => if decide (rung = candidate) = true then (1 : F) else 0
  simp only [decide_eq_true_eq] at hdraw
  rw [matchProb, FinDist.prob]
  simp only [decide_eq_true_eq]
  exact hdraw

-- ---------------------------------------------------------------------------
-- The means of a sample
-- ---------------------------------------------------------------------------

theorem expected_cost (n : Nat) :
    L.expected (n + 1) (fun traces => (ipsFromStore candidate traces).ipsCost) =
      L.draws.expect fun d => L.weight candidate d * L.cost d.1 d.2 := by
  have hreport : ∀ ds, (L.draws.iid (n + 1)).Possible ds →
      (ipsFromStore candidate (L.logged ds)).ipsCost =
        (ds.map fun d => L.weight candidate d * L.cost d.1 d.2).sum * (1 / (n + 1 : ℕ)) := by
    intro ds hds
    have hlength := (L.draws.possible_iid hds).1
    simp only [ipsFromStore, L.ipsPoints_logged candidate hds, List.length_map, hlength,
      Nat.zero_lt_succ, if_true, List.map_map]
    rw [mul_one_div]
    rfl
  have hn : ((n + 1 : ℕ) : F) ≠ 0 := Nat.cast_ne_zero.mpr n.succ_ne_zero
  rw [expected, FinDist.expect_congr _ hreport, FinDist.expect_mul_right, FinDist.expect_iid_sum]
  field_simp

theorem expected_drCost (n : Nat) (predict : TaskKind → Nat → F) :
    L.expected (n + 1) (fun traces => drCost candidate predict (ipsPoints candidate traces)) =
      L.contexts.expect (fun x => predict (L.taskKind x) candidate) +
        L.draws.expect fun d =>
          L.weight candidate d * (L.cost d.1 d.2 - predict (L.taskKind d.1) d.2) := by
  have hreport : ∀ ds, (L.draws.iid (n + 1)).Possible ds →
      drCost candidate predict (ipsPoints candidate (L.logged ds)) =
        (ds.map fun d => predict (L.taskKind d.1) candidate +
          L.weight candidate d * (L.cost d.1 d.2 - predict (L.taskKind d.1) d.2)).sum *
            (1 / (n + 1 : ℕ)) := by
    intro ds hds
    have hlength := (L.draws.possible_iid hds).1
    have hne : ds.map (L.point candidate) ≠ [] := by
      intro hnil
      rw [List.map_eq_nil_iff.mp hnil] at hlength
      exact absurd hlength (Nat.succ_ne_zero n).symm
    rw [drCost, L.ipsPoints_logged candidate hds, if_neg hne, List.length_map, hlength,
      List.map_map, mul_one_div]
    rfl
  have hn : ((n + 1 : ℕ) : F) ≠ 0 := Nat.cast_ne_zero.mpr n.succ_ne_zero
  have hbase := L.expect_draws fun x _ => predict (L.taskKind x) candidate
  simp only [FinDist.expect_const] at hbase
  rw [expected, FinDist.expect_congr _ hreport, FinDist.expect_mul_right, FinDist.expect_iid_sum,
    FinDist.expect_add, hbase]
  field_simp

theorem servedFailure_logged {n : Nat} {ds : List (X × Nat)} (h : (L.draws.iid n).Possible ds) :
    (ipsFromStore candidate (L.logged ds)).ipsServedFailure.getD 0 =
      (ds.map (L.failedWeight candidate)).sum * (1 / (ds.countP (·.2 = candidate) : F)) := by
  have hcount : (ds.filter (·.2 = candidate)).length = ds.countP (·.2 = candidate) :=
    List.countP_eq_length_filter.symm
  simp only [ipsFromStore, L.ipsPoints_logged candidate h, known_logged, sum_failed,
    List.length_map, hcount, List.map_eq_nil_iff]
  split_ifs with hnil
  · rw [← hcount, hnil]
    simp
  · rw [mul_one_div]
    rfl

/-- Weighted by how often a trace is matched, the failure estimate expects the
failures of the samples with a match. -/
theorem matchProb_mul_expected_failure (n : Nat) :
    L.matchProb candidate *
        L.expected (n + 1) (fun traces => (ipsFromStore candidate traces).ipsServedFailure.getD 0) =
      L.draws.expect (L.failedWeight candidate) * (1 - (1 - L.matchProb candidate) ^ (n + 1)) := by
  let matched : X × Nat → Bool := fun d => d.2 = candidate
  let inverse : Nat → F := fun k => 1 / k
  have hfailed : ∀ d, matched d = false → L.failedWeight candidate d = 0 := by
    intro d hd
    simp [failedWeight, weight, of_decide_eq_false hd]
  have hone : ∀ d, matched d = false → (if matched d = true then (1 : F) else 0) = 0 :=
    fun d hd => by rw [hd]; rfl
  have hsome : ∀ ds : List (X × Nat),
      (ds.map fun d => if matched d = true then (1 : F) else 0).sum * inverse (ds.countP matched) =
        1 - if ds.countP matched = 0 then 1 else 0 := by
    intro ds
    have hsum : (ds.map fun d => if matched d = true then (1 : F) else 0).sum =
        (ds.countP matched : F) := by
      induction ds with
      | nil => simp
      | cons d ds ih =>
        rw [List.map_cons, List.sum_cons, ih, List.countP_cons]
        split_ifs <;> simp [add_comm]
    rw [hsum]
    split_ifs with hzero
    · rw [hzero, Nat.cast_zero, zero_mul, sub_self]
    · rw [sub_zero]
      exact mul_one_div_cancel (Nat.cast_ne_zero.mpr hzero)
  -- Both means count the matched traces of the same smaller sample.
  have hfail := L.draws.expect_iid_sum_count matched hfailed n inverse
  have hmatch := L.draws.expect_iid_sum_count matched hone n inverse
  simp only [hsome, FinDist.expect_sub, FinDist.expect_const, FinDist.expect_iid_none] at hmatch
  have hexpected : L.expected (n + 1)
      (fun traces => (ipsFromStore candidate traces).ipsServedFailure.getD 0) =
        (L.draws.iid (n + 1)).expect fun ds =>
          (ds.map (L.failedWeight candidate)).sum * inverse (ds.countP matched) :=
    (L.draws.iid (n + 1)).expect_congr fun ds hds => L.servedFailure_logged candidate hds
  have hmatch' : 1 - (1 - L.matchProb candidate) ^ (n + 1) = (n + 1 : ℕ) * L.matchProb candidate *
      (L.draws.iid n).expect fun ds => inverse (ds.countP matched + 1) := hmatch
  rw [hexpected, hfail, hmatch']
  ring

theorem expect_failedWeight (h : L.Covers candidate) :
    L.draws.expect (L.failedWeight candidate) = L.failureRate candidate :=
  L.expect_weight_of_covers candidate h fun x rung => if L.correct x rung = false then 1 else 0

-- ---------------------------------------------------------------------------
-- When the estimates are unbiased
-- ---------------------------------------------------------------------------

theorem covers_of_doublyRobust {n : Nat} (h : ∀ predict, L.expected (n + 1) (fun traces =>
    drCost candidate predict (ipsPoints candidate traces)) = L.meanCost candidate) :
    L.Covers candidate := by
  -- Two constant reward models tell the uncovered contexts from the others.
  have hzero := h fun _ _ => 0
  have hone := h fun _ _ => 1
  rw [expected_drCost, L.expect_weight candidate fun x rung => L.cost x rung - 0,
    FinDist.expect_const] at hzero
  rw [expected_drCost, L.expect_weight candidate fun x rung => L.cost x rung - 1,
    FinDist.expect_const] at hone
  have hcovered : L.contexts.expect
      (fun x => if L.startProb candidate x = 0 then (0 : F) else 1) = 1 := by
    have hsplit := L.contexts.expect_sub
      (fun x => if L.startProb candidate x = 0 then 0 else L.cost x candidate - 0)
      fun x => if L.startProb candidate x = 0 then 0 else L.cost x candidate - 1
    have hterm : (fun x => (if L.startProb candidate x = 0 then 0 else L.cost x candidate - 0) -
        if L.startProb candidate x = 0 then 0 else L.cost x candidate - 1) =
          fun x => if L.startProb candidate x = 0 then (0 : F) else 1 := by
      funext x
      split_ifs <;> ring
    rw [hterm] at hsplit
    rw [hsplit]
    linear_combination hzero - hone
  intro x hx
  have hx1 := (L.contexts.expect_eq_const fun y => by split_ifs <;> simp).mp hcovered x hx
  split_ifs at hx1 with hstart
  · exact absurd hx1 zero_ne_one
  · exact lt_of_le_of_ne ((L.policy x).prob_nonneg _) (Ne.symm hstart)

theorem matchProb_pos (h : L.Covers candidate) : 0 < L.matchProb candidate := by
  obtain ⟨x, hx⟩ := L.contexts.exists_possible
  rw [matchProb_eq]
  have hnonneg : ∀ y, 0 ≤ L.startProb candidate y := fun y => (L.policy y).prob_nonneg _
  refine lt_of_le_of_ne (L.contexts.expect_nonneg fun y _ => hnonneg y) fun hzero => ?_
  exact (h x hx).ne' (L.contexts.expect_eq_zero hnonneg hzero.symm hx)

theorem failure_unbiased_iff (n : Nat) (h : L.Covers candidate) :
    L.expected (n + 1) (fun traces => (ipsFromStore candidate traces).ipsServedFailure.getD 0) =
        L.failureRate candidate ↔ L.Evens candidate (n + 1) := by
  have hpos := L.matchProb_pos candidate h
  have hle : L.matchProb candidate ≤ 1 := L.draws.prob_le_one _
  have hexpected := L.matchProb_mul_expected_failure candidate n
  rw [L.expect_failedWeight candidate h] at hexpected
  have hall : L.matchProb candidate = 1 ↔
      ∀ x, L.contexts.Possible x → L.startProb candidate x = 1 := by
    rw [matchProb_eq]
    exact L.contexts.expect_eq_const fun x => (L.policy x).prob_le_one _
  calc _ ↔ L.failureRate candidate * (1 - (1 - L.matchProb candidate) ^ (n + 1)) =
          L.matchProb candidate * L.failureRate candidate := by
        rw [← hexpected, mul_right_inj' hpos.ne']
    _ ↔ L.failureRate candidate = 0 ∨
          (1 - L.matchProb candidate) * (1 - (1 - L.matchProb candidate) ^ n) = 0 := by
        rw [← sub_eq_zero, ← mul_eq_zero, pow_succ]
        constructor <;> intro hzero <;> linear_combination hzero
    _ ↔ L.Evens candidate (n + 1) := by
        rw [Evens, ← hall, mul_eq_zero, sub_eq_zero, sub_eq_zero, Nat.add_eq_right]
        have hpow : 1 = (1 - L.matchProb candidate) ^ n ↔ n = 0 := by
          constructor
          · intro hone
            by_contra hn
            have hlt := pow_lt_one₀ (sub_nonneg.mpr hle) (sub_lt_self 1 hpos) hn
            exact hlt.ne hone.symm
          · rintro rfl
            exact (pow_zero _).symm
        rw [hpow]
        constructor
        · rintro (hzero | hone | hn)
          · exact .inr (.inl hzero)
          · exact .inr (.inr hone.symm)
          · exact .inl hn
        · rintro (hn | hzero | hone)
          · exact .inr (.inr hn)
          · exact .inl hzero
          · exact .inr (.inl hone.symm)

/-- The estimates are unbiased exactly when the policy can start every context
at the candidate and the count of matched traces does not bias the failures. -/
theorem unbiased_iff (n : Nat) :
    L.Unbiased candidate n ↔
      (n = 0 ∧ L.meanCost candidate = 0 ∧ L.failureRate candidate = 0) ∨
        (0 < n ∧ L.Covers candidate ∧ L.Evens candidate n) := by
  cases n with
  | zero =>
    have hcost : L.expected 0 (fun traces => (ipsFromStore candidate traces).ipsCost) = 0 :=
      L.draws.expect_iid_zero _
    have hfailure : L.expected 0
        (fun traces => (ipsFromStore candidate traces).ipsServedFailure.getD 0) = 0 :=
      L.draws.expect_iid_zero _
    constructor
    · rintro ⟨hc, hf, -⟩
      exact .inl ⟨rfl, hc.symm.trans hcost, hf.symm.trans hfailure⟩
    · rintro (⟨-, hc, hf⟩ | ⟨hpos, -⟩)
      · exact ⟨hcost.trans hc.symm, hfailure.trans hf.symm,
          fun _ => (L.draws.expect_iid_zero _).trans hc.symm⟩
      · exact absurd hpos (lt_irrefl 0)
  | succ n =>
    constructor
    · rintro ⟨-, hfailure, hdr⟩
      have hcovers := L.covers_of_doublyRobust candidate hdr
      exact .inr ⟨n.succ_pos, hcovers, (L.failure_unbiased_iff candidate n hcovers).mp hfailure⟩
    · rintro (⟨hzero, -⟩ | ⟨-, hcovers, hevens⟩)
      · exact absurd hzero n.succ_ne_zero
      · refine ⟨?_, (L.failure_unbiased_iff candidate n hcovers).mpr hevens, fun predict => ?_⟩
        · rw [expected_cost]
          exact L.expect_weight_of_covers candidate hcovers L.cost
        · rw [expected_drCost, L.expect_weight_of_covers candidate hcovers fun x rung =>
            L.cost x rung - predict (L.taskKind x) rung, FinDist.expect_sub, add_sub_cancel]
          rfl

/-- One context, started at rung 0 or 1 alike. No start is ever correct. -/
def fairStart : Logging ℚ Unit where
  contexts := .pure ()
  policy := fun _ => ⟨[(0, 1 / 2), (1, 1 / 2)], by norm_num, by norm_num⟩
  taskKind := fun _ => .codeEdit
  cost := fun _ rung => rung + 1
  correct := fun _ _ => false
  trace := fun _ rung =>
    { policy := ⟨"explore", true, some ((FinDist.mk [(0, 1 / 2), (1, 1 / 2)] (by norm_num)
        (by norm_num) : FinDist ℚ Nat).prob (· = rung)), none⟩
      request := ⟨"openai.chat", "", ⟨1, .codeEdit, none, none, none, 0, 0, false, none, 0, 0, 0⟩⟩
      rungs := [rung]
      final := ⟨some rung, .attempt, rung + 1, 0, 0, 0, 0, none, 0⟩
      experiment := none
      deferred := [.fail] }
  incumbent := fun _ _ => rfl
  propensity := fun _ _ => rfl
  start := fun _ _ => rfl
  total := fun _ _ => rfl
  kind := fun _ _ => rfl
  feedback := fun _ _ => rfl

theorem unbiased_iff_one_trace : fairStart.Unbiased 0 1 :=
  have hstart : 0 < fairStart.startProb 0 () := by decide +kernel
  (unbiased_iff fairStart 0 1).mpr <| .inr ⟨Nat.one_pos, fun _ _ => hstart, .inl rfl⟩

/-- Of two traces that start at rung 0 or 1 alike and always fail, rung 0 is
expected to fail one and a half times. -/
theorem fair_start_biased : fairStart.failureRate 0 = 1 ∧
    fairStart.expected 2 (fun traces => (ipsFromStore 0 traces).ipsServedFailure.getD 0) = 3 / 2 ∧
    ¬ fairStart.Unbiased 0 2 := by
  have hrate : fairStart.failureRate 0 = 1 := by decide +kernel
  have hexpected : fairStart.expected 2
      (fun traces => (ipsFromStore 0 traces).ipsServedFailure.getD 0) = 3 / 2 := by decide +kernel
  refine ⟨hrate, hexpected, fun h => ?_⟩
  have heq := h.failure
  rw [hrate, hexpected] at heq
  exact absurd heq (by norm_num)

end Logging

end Firstpass.Ope
