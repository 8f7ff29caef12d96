import Firstpass.Proxy.Ope
import Mathlib.Algebra.BigOperators.Group.List.Basic
import Mathlib.Algebra.Order.Field.Rat

/-!
# When the doubly robust cost is exact

Where a cost is a matter of task kind and start rung alone, the reward model
knows it from the traces themselves, so no weight has anything left to correct.
-/

namespace Firstpass.Ope

variable {F : Type} {candidate : Nat} {stored : List (LoggedTrace F)} {cost : TaskKind → Nat → F}

/-- The traces that the estimates are about. -/
def propensityLogged (stored : List (LoggedTrace F)) : List (LoggedTrace F) :=
  stored.filter fun t => t.isIncumbent && t.policy.propensity.isSome

theorem mem_propensityLogged {t : LoggedTrace F} : t ∈ propensityLogged stored ↔
    t ∈ stored ∧ t.isIncumbent = true ∧ t.policy.propensity.isSome = true := by
  simp [propensityLogged]

theorem observation_eq_some {t : LoggedTrace F} {o : Observation F} :
    observation t = some o ↔ t.policy.propensity.isSome = true ∧
      ∃ rung, t.rungs.head? = some rung ∧ ⟨t.taskKind, rung, t.final.totalCostUsd⟩ = o := by
  unfold observation
  cases t.policy.propensity <;> simp

/-- The observations of the incumbent traces are those of the logged ones. -/
theorem mem_observations {o : Observation F} :
    o ∈ (stored.filter (·.isIncumbent)).filterMap observation ↔
      ∃ t ∈ propensityLogged stored, ∃ rung, t.rungs.head? = some rung ∧
        ⟨t.taskKind, rung, t.final.totalCostUsd⟩ = o := by
  simp only [List.mem_filterMap, List.mem_filter, observation_eq_some, mem_propensityLogged]
  constructor
  · rintro ⟨t, ⟨hmem, hinc⟩, hprop, hstart⟩
    exact ⟨t, ⟨hmem, hinc, hprop⟩, hstart⟩
  · rintro ⟨t, ⟨hmem, hinc, hprop⟩, hstart⟩
    exact ⟨t, ⟨hmem, hinc⟩, hprop, hstart⟩

/-- Reading the points of a list, where each item that counts has one. -/
theorem map_filterMap_eq {α β : Type} {g : α → Option β} {counts : α → Bool} {value : β → F}
    {c : α → F} {xs : List α} (hskip : ∀ x ∈ xs, counts x = false → g x = none)
    (hread : ∀ x ∈ xs, counts x = true → ∃ y, g x = some y ∧ value y = c x) :
    (xs.filterMap g).map value = (xs.filter counts).map c := by
  induction xs with
  | nil => rfl
  | cons x xs ih =>
    obtain ⟨hskipx, hskips⟩ := List.forall_mem_cons.mp hskip
    obtain ⟨hreadx, hreads⟩ := List.forall_mem_cons.mp hread
    have hrest := ih hskips hreads
    cases hcounts : counts x with
    | false => simp [hskipx hcounts, hcounts, hrest]
    | true =>
      obtain ⟨y, hy, hvalue⟩ := hreadx hcounts
      simp [hy, hcounts, hvalue, hrest]

variable [Field F] [LinearOrder F]

/-- What starting every trace at the candidate costs on average. -/
def trueMean (candidate : Nat) (cost : TaskKind → Nat → F) (traces : List (LoggedTrace F)) : F :=
  (traces.map fun t => cost t.taskKind candidate).sum / traces.length

/-- Propensities are positive, a cost is what its task kind and start rung say,
and each task kind was seen to start at the candidate. -/
structure Explored (candidate : Nat) (cost : TaskKind → Nat → F)
    (traces : List (LoggedTrace F)) : Prop where
  positive : ∀ t ∈ traces, ∀ p, t.policy.propensity = some p → 0 < p
  costs : ∀ t ∈ traces, ∀ rung, t.rungs.head? = some rung →
    t.final.totalCostUsd = cost t.taskKind rung
  covered : ∀ t ∈ traces, ∃ t' ∈ traces, t'.taskKind = t.taskKind ∧
    t'.rungs.head? = some candidate

-- ---------------------------------------------------------------------------
-- The reward model
-- ---------------------------------------------------------------------------

section
variable [IsStrictOrderedRing F]

/-- The mean of observations that all cost the same. -/
theorem meanOf_const {seen : List (Observation F)} {c : F} (hne : seen ≠ [])
    (h : ∀ o ∈ seen, o.cost = c) : meanOf seen = some c := by
  have hconst : seen.map Observation.cost = List.replicate seen.length c := by
    rw [List.eq_replicate_iff]
    refine ⟨List.length_map _, ?_⟩
    rintro x hx
    obtain ⟨o, ho, rfl⟩ := List.mem_map.mp hx
    exact h o ho
  have hlen : (seen.length : F) ≠ 0 :=
    Nat.cast_ne_zero.mpr (List.length_pos_of_ne_nil hne).ne'
  rw [meanOf, if_neg hne, hconst, List.sum_replicate, nsmul_eq_mul, mul_div_cancel_left₀ c hlen]

theorem Explored.predict (h : Explored candidate cost (propensityLogged stored))
    {t : LoggedTrace F} (ht : t ∈ propensityLogged stored) :
    (DmModel.build (stored.filter (·.isIncumbent))).predict t.taskKind candidate =
      cost t.taskKind candidate := by
  obtain ⟨t', ht', hkind, hstart⟩ := h.covered t ht
  have hbucket : (DmModel.build (stored.filter (·.isIncumbent))).bucket t.taskKind candidate =
      some (cost t.taskKind candidate) := by
    refine meanOf_const (List.ne_nil_of_mem (List.mem_filter.mpr
      ⟨mem_observations.mpr ⟨t', ht', candidate, hstart, rfl⟩, by simp [hkind]⟩)) ?_
    rintro o ho
    obtain ⟨hseen, hkey⟩ := List.mem_filter.mp ho
    obtain ⟨u, hu, rung, hrung, rfl⟩ := mem_observations.mp hseen
    obtain ⟨hukind, rfl⟩ : u.taskKind = t.taskKind ∧ rung = candidate := by simpa using hkey
    exact (h.costs u hu rung hrung).trans (by rw [hukind])
  rw [DmModel.predict, hbucket]
  rfl

-- ---------------------------------------------------------------------------
-- The points
-- ---------------------------------------------------------------------------

omit [IsStrictOrderedRing F] in
theorem ipsPoint_eq {t : LoggedTrace F} {p : F} (hp : t.policy.propensity = some p)
    (hpos : 0 < p) : ∃ pt, ipsPoint candidate t = some pt ∧ pt.taskKind = t.taskKind ∧
      pt.cost = t.final.totalCostUsd ∧ pt.loggedRung = t.rungs.head?.getD 0 ∧
      pt.weight = (if t.rungs.head? = some candidate then 1 else 0) / p := by
  unfold ipsPoint
  simp only [hp, if_neg (not_le.mpr hpos)]
  exact ⟨_, rfl, rfl, rfl, rfl, rfl⟩

/-- A point weighs nothing or has nothing to correct. -/
theorem Explored.value (h : Explored candidate cost (propensityLogged stored))
    {t : LoggedTrace F} (ht : t ∈ propensityLogged stored) :
    ∃ pt, ipsPoint candidate t = some pt ∧
      let predict := (DmModel.build (stored.filter (·.isIncumbent))).predict
      predict pt.taskKind candidate +
        pt.weight * (pt.cost - predict pt.taskKind pt.loggedRung) = cost t.taskKind candidate := by
  obtain ⟨p, hp⟩ := Option.isSome_iff_exists.mp (mem_propensityLogged.mp ht).2.2
  obtain ⟨pt, hpt, hkind, hcost, hrung, hweight⟩ := ipsPoint_eq hp (h.positive t ht p hp)
  refine ⟨pt, hpt, ?_⟩
  dsimp only
  rw [hkind, h.predict ht, hweight, hcost, hrung]
  split_ifs with hstart
  · rw [hstart, Option.getD_some, h.predict ht, h.costs t ht candidate hstart, sub_self, mul_zero,
      add_zero]
  · rw [zero_div, zero_mul, add_zero]

theorem Explored.values (h : Explored candidate cost (propensityLogged stored)) :
    let predict := (DmModel.build (stored.filter (·.isIncumbent))).predict
    (ipsPoints candidate stored).map (fun pt => predict pt.taskKind candidate +
        pt.weight * (pt.cost - predict pt.taskKind pt.loggedRung)) =
      (propensityLogged stored).map fun t => cost t.taskKind candidate := by
  have hlogged : propensityLogged stored =
      (stored.filter (·.isIncumbent)).filter (·.policy.propensity.isSome) := by
    rw [List.filter_filter]
    simp [propensityLogged, Bool.and_comm]
  rw [hlogged]
  refine map_filterMap_eq (fun t _ hnone => ?_) (fun t ht hsome => h.value ?_)
  · simp [ipsPoint, show t.policy.propensity = none by simpa using hnone]
  · rw [hlogged]
    exact List.mem_filter.mpr ⟨ht, hsome⟩

end

/-- A trace that started at the rung, at a cost of its number plus one. -/
def startedAt (rung : Nat) (propensity : ℚ) : LoggedTrace ℚ where
  policy := ⟨"explore", true, some propensity, none⟩
  request := ⟨"openai.chat", "", ⟨1, .codeEdit, none, none, none, 0, 0, false, none, 0, 0, 0⟩⟩
  rungs := [rung]
  final := ⟨some rung, .attempt, rung + 1, 0, 0, 0, 0, none, 0⟩
  experiment := none
  deferred := []

end Firstpass.Ope
