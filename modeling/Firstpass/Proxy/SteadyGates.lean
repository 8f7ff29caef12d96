import Firstpass.Proxy.GateBudget
import Firstpass.Proxy.Lockstep

/-!
# Gates that are told what to report

The results of a pass over gates that report the same whatever they are asked, as far as the
grading of an answer reads them.
-/

namespace Firstpass.Lockstep

open GateBudget

variable {F : Type} [F64 F] {ctx : EnforceCtx F} {idx : Nat} {req : ModelRequest}
  {resp : ModelResponse}

-- ---------------------------------------------------------------------------
-- What a pass reports
-- ---------------------------------------------------------------------------

theorem mem_evalGates {included : String → Bool} {gates : List (Gate F)}
    {health : GateHealthRegistry F} {r : GateResult F}
    (h : r ∈ (evalGates ctx idx req resp included gates health).1) :
    ∃ g ∈ gates, r = g.evaluate idx req resp := by
  induction gates generalizing health with
  | nil => cases h
  | cons g gates ih =>
    rw [evalGates] at h
    dsimp only at h
    split_ifs at h
    · rcases List.mem_cons.mp h with rfl | h
      · exact ⟨g, List.mem_cons_self, rfl⟩
      · obtain ⟨g', hg', hr⟩ := ih h
        exact ⟨g', List.mem_cons_of_mem _ hg', hr⟩
    · obtain ⟨g', hg', hr⟩ := ih h
      exact ⟨g', List.mem_cons_of_mem _ hg', hr⟩
    · obtain ⟨g', hg', hr⟩ := ih h
      exact ⟨g', List.mem_cons_of_mem _ hg', hr⟩

theorem mem_gateSpeculative {gates : List (Gate F)} {health : GateHealthRegistry F}
    {r : GateResult F} (h : r ∈ (gateSpeculative ctx idx req resp gates health).1) :
    ∃ g ∈ gates, r = g.evaluate idx req resp := by
  have hall : evalGates ctx idx req resp (fun _ => true) gates health =
      gateSpeculative ctx idx req resp gates health := evalGates_all (fun _ => rfl) _ _
  rw [← hall] at h
  exact mem_evalGates h

theorem pass_of_passes {gates : List (Gate F)} {results : List (GateResult F)}
    (h : ∀ r ∈ results, r.verdict = .pass) :
    aggregateWithPolicy results (failClosedIds gates) = .pass := by
  refine aggregateWithPolicy_eq_pass.mpr fun r hr => ⟨?_, fun habstain => ?_⟩
  · rw [h r hr]
    exact Verdict.noConfusion
  · rw [h r hr] at habstain
    cases habstain

theorem mem_gateSerial {health : GateHealthRegistry F} {r : GateResult F}
    (h : r ∈ (gateSerial ctx idx req resp health).1) :
    ∃ g ∈ ctx.gates, r = g.evaluate idx req resp := by
  unfold gateSerial at h
  cases hel : ctx.elastic with
  | none =>
    rw [hel] at h
    exact mem_evalGates h
  | some el =>
    rw [hel] at h
    dsimp only at h
    split_ifs at h
    · exact mem_evalGates h
    · exact mem_evalGates h
    · rcases List.mem_append.mp h with h | h
      · exact mem_evalGates h
      · exact mem_evalGates h

/-- No result is for the size of the prompt. -/
theorem quiet_gateSerial {health : GateHealthRegistry F}
    (h : ∀ g ∈ ctx.gates, (g.evaluate idx req resp).reason = none) :
    Judgment.overflow (gateSerial ctx idx req resp health) = false := by
  rw [Judgment.overflow, List.any_eq_false]
  rintro r hr
  obtain ⟨g, hg, rfl⟩ := mem_gateSerial hr
  simp [h g hg]

/-- A gate that runs reports. -/
theorem gateSpeculative_ne_nil {gates : List (Gate F)} {health : GateHealthRegistry F}
    (h : ∃ g ∈ gates, runs (account health ctx.tenantId g.id) = true) :
    (gateSpeculative ctx idx req resp gates health).1 ≠ [] := by
  induction gates generalizing health with
  | nil =>
    obtain ⟨g, hg, -⟩ := h
    cases hg
  | cons g gates ih =>
    rw [gateSpeculative, enabled_fst]
    split_ifs with hrun
    · exact List.cons_ne_nil _ _
    · obtain ⟨g', hg', hruns⟩ := h
      rcases List.mem_cons.mp hg' with rfl | hg'
      · exact absurd hruns hrun
      · refine ih ⟨g', hg', ?_⟩
        rwa [account_enabled]

-- ---------------------------------------------------------------------------
-- Verdicts told in advance
-- ---------------------------------------------------------------------------

def report (id : String) (verdict : Verdict) (score : Option (Score F)) : GateResult F where
  gateId := id
  verdict := verdict
  score := score
  costUsd := 0
  ms := 0
  reason := none
  evidenceRef := none

def steady (verdict : Verdict) (score : Option (Score F)) (id : String) : Gate F where
  id := id
  evaluate _ _ _ := report id verdict score
  abstainFailsClosed := true
  evaluate_gateId _ _ _ := rfl

/-- Gates of one verdict, the first of which with `p` gives a score. -/
def marked (p : String → Bool) (verdict : Verdict) (score : Score F) : List String → List (Gate F)
  | [] => []
  | id :: ids =>
    if p id then steady verdict (some score) id :: ids.map (steady verdict none)
    else steady verdict none id :: marked p verdict score ids

variable {p : String → Bool} {verdict : Verdict} {score : Score F} {ids : List String}

theorem map_id_steady (ids : List String) :
    (ids.map (steady (F := F) verdict none)).map Gate.id = ids := by
  rw [List.map_map]
  exact List.map_id ids

theorem map_id_marked : (marked p verdict score ids).map Gate.id = ids := by
  induction ids with
  | nil => rfl
  | cons id ids ih =>
    rw [marked]
    split_ifs
    · rw [List.map_cons, map_id_steady]
      rfl
    · rw [List.map_cons, ih]
      rfl

theorem mem_marked {g : Gate F} (h : g ∈ marked p verdict score ids) :
    ∃ score id, g = steady verdict score id := by
  induction ids with
  | nil => cases h
  | cons id ids ih =>
    rw [marked] at h
    split_ifs at h
    · rcases List.mem_cons.mp h with rfl | h
      · exact ⟨_, _, rfl⟩
      · obtain ⟨id', -, rfl⟩ := List.mem_map.mp h
        exact ⟨_, _, rfl⟩
    · rcases List.mem_cons.mp h with rfl | h
      · exact ⟨_, _, rfl⟩
      · exact ih h

def numbers (results : List (GateResult F)) : List F :=
  results.filterMap fun r => r.score.map Score.value

theorem gateScore_numbers (results : List (GateResult F)) (verdict : Verdict) :
    gateScore results verdict = if numbers results = [] then (if verdict = .pass then 1 else 0)
      else F64.sum (numbers results) / ((numbers results).length : F) := rfl

theorem numbers_unscored {included : String → Bool} {health : GateHealthRegistry F} :
    numbers (evalGates ctx idx req resp included (ids.map (steady verdict none)) health).1 =
      [] := by
  rw [numbers, List.filterMap_eq_nil_iff]
  rintro r hr
  obtain ⟨g, hg, rfl⟩ := mem_evalGates hr
  obtain ⟨id, -, rfl⟩ := List.mem_map.mp hg
  rfl

/-- Of the gates that are included and run, the first gives the only score. -/
theorem evalGates_marked {included : String → Bool} {health : GateHealthRegistry F}
    (hp : ∀ id, p id = (included id && runs (account health ctx.tenantId id))) :
    let results := (evalGates ctx idx req resp included (marked p verdict score ids) health).1
    (results = [] ∨ numbers results = [score.value]) := by
  induction ids generalizing health with
  | nil => exact .inl rfl
  | cons id ids ih =>
    rw [marked]
    have hid := hp id
    cases hincluded : included id with
    | false =>
      rw [hincluded, Bool.false_and] at hid
      rw [hid, if_neg Bool.false_ne_true, evalGates, show (steady (F := F) verdict none id).id = id
        from rfl, hincluded, if_neg Bool.false_ne_true]
      exact ih hp
    | true =>
      rw [hincluded, Bool.true_and] at hid
      cases hruns : runs (account health ctx.tenantId id) with
      | false =>
        rw [hid, hruns, if_neg Bool.false_ne_true, evalGates,
          show (steady (F := F) verdict none id).id = id from rfl, hincluded, if_pos rfl]
        dsimp only
        rw [enabled_fst, hruns, if_neg Bool.false_ne_true]
        refine ih fun id' => ?_
        rw [hp, account_enabled]
      | true =>
        rw [hid, hruns, if_pos rfl, evalGates,
          show (steady verdict (some score) id).id = id from rfl, hincluded, if_pos rfl]
        dsimp only
        rw [enabled_fst, hruns, if_pos rfl]
        refine .inr ?_
        exact congrArg (score.value :: ·) numbers_unscored

end Firstpass.Lockstep
