import Firstpass.Proxy.FrozenGates
import Firstpass.Proxy.PairBias

/-!
# What the gates of a symmetric pair decide

Where no gate runs for the challenger, the incumbent serves whatever its gates report; where
one does, neither a threshold nor elastic may serve in spite of it.
-/

namespace Firstpass.PairedGrading

open ChatRequest (FromStr)
open GateBudget
open Lockstep

variable {F : Type} [F64 F] {fromStr : FromStr} {s : Setting F} {req base : ModelRequest}

/-- What is used of the numbers: a single score of one has the mean one. -/
structure Unital (F : Type) [F64 F] : Prop where
  zero_le_one : (0 : F) ≤ 1
  one_le_one : (1 : F) ≤ 1
  mean : (0 + 1 : F) / ((1 : Nat) : F) = 1

namespace Unital

variable (laws : Unital F)
include laws

def score : Score F := ⟨1, laws.zero_le_one, laws.one_le_one⟩

theorem gateScore_one {results : List (GateResult F)}
    (h : numbers results = [laws.score.value]) (verdict : Verdict) :
    gateScore results verdict = 1 := by
  rw [gateScore_numbers, h, if_neg (List.cons_ne_nil _ _)]
  exact laws.mean

end Unital

/-- The first step of a run, at which the gates decide alike. -/
structure FirstRung (fromStr : FromStr) (s : Setting F) (req base : ModelRequest) : Prop where
  symmetric : Symmetric fromStr s
  reads : Requests fromStr s req base
  start : min s.startRung (s.rungs - 1) = 0
  incumbent : 0 < s.maxRungs
  challenger : 0 < s.escalation.maxRungsPerRequest

theorem FirstRung.serves_eq (h : FirstRung fromStr s req base) {gates : List (Gate F)}
    (hids : gates.map Gate.id = s.gateIds) (hplain : ∀ g ∈ gates, Plain g) :
    incumbentServes s gates req 0 s.incumbentHealth =
      challengerServes s gates base 0 s.challengerHealth := by
  have hrungs := s.rungs_pos
  have hincumbent := h.incumbent
  have hchallenger := h.challenger
  exact h.symmetric.serves_eq h.reads hids hplain h.start (by omega) (by omega)

-- ---------------------------------------------------------------------------
-- No gate runs for the challenger
-- ---------------------------------------------------------------------------

theorem plain_frozen {gates : List (Gate F)} {idx : Nat} {asks : ModelRequest}
    {resp : ModelResponse} : ∀ g ∈ gates.map (frozen idx asks resp), Plain g := by
  rintro g hg
  obtain ⟨g', -, rfl⟩ := List.mem_map.mp hg
  exact ⟨fun _ _ _ _ => rfl, fun _ _ _ => rfl⟩

/-- A challenger whose gates are all disabled serves whatever answers. -/
theorem challengerServes_off {gates : List (Gate F)} {idx : Nat} {health : GateHealthRegistry F}
    (h : ∀ g ∈ gates, runs (account health s.request.tenant g.id) = false) :
    challengerServes s gates base idx health = true := by
  let ctx := challengerCtx s (steered s (fun _ _ => unreachable) gates) base
  have hnil : (gateSpeculative ctx idx (requestFor ctx "acme/b") reply gates health).1 = [] :=
    gateSpeculative_off h
  rw [challengerServes_iff, hnil]
  rfl

theorem FirstRung.idle (h : FirstRung fromStr s req base)
    (hoff : ∀ id ∈ s.gateIds, runs (account s.challengerHealth s.request.tenant id) = false) :
    GatesIdle s := by
  refine ⟨hoff, fun w hids req' asks idx resp => ?_⟩
  let gates := w.gates.map (frozen idx asks resp)
  have hgateIds : gates.map Gate.id = s.gateIds := map_id_frozen.trans hids
  have hchallenger : challengerServes s gates base 0 s.challengerHealth = true :=
    challengerServes_off fun g hg => hoff g.id (hgateIds ▸ List.mem_map_of_mem hg)
  have hincumbent := (h.serves_eq hgateIds plain_frozen).trans hchallenger
  let ctx := applied (incumbentCtx s w req')
  let A := applied (incumbentCtx s (steered s (fun _ _ => unreachable) gates) req)
  have hfrozen : Judgment.served A (judged A "acme/a" 0 reply s.incumbentHealth) =
      Judgment.served ctx (gateSerial ctx idx asks resp s.incumbentHealth) :=
    served_frozen (show A.tenantId = ctx.tenantId from rfl)
      (show A.serveThreshold = ctx.serveThreshold from rfl)
      (show A.elastic = ctx.elastic from rfl)
      (show A.gates = ctx.gates.map (frozen idx asks resp) from rfl) s.incumbentHealth
  exact hfrozen.symm.trans hincumbent

-- ---------------------------------------------------------------------------
-- A gate runs for the challenger
-- ---------------------------------------------------------------------------

theorem plain_marked {p : String → Bool} {verdict : Verdict} {score : Score F}
    {ids : List String} : ∀ g ∈ marked p verdict score ids, Plain g := by
  rintro g hg
  obtain ⟨score, id, rfl⟩ := mem_marked hg
  exact plain_steady verdict score id

/-- Gates of one verdict decide by it where one of them runs. -/
theorem challengerServes_marked {p : String → Bool} {verdict : Verdict} {score : Score F}
    {health : GateHealthRegistry F} {idx : Nat} (hverdict : verdict ≠ .abstain)
    (hruns : ∃ id ∈ s.gateIds, runs (account health s.request.tenant id) = true) :
    challengerServes s (marked p verdict score s.gateIds) base idx health =
      decide (verdict = .pass) := by
  let gates := marked p verdict score s.gateIds
  let ctx := challengerCtx s (steered s (fun _ _ => unreachable) gates) base
  let results := (gateSpeculative ctx idx (requestFor ctx "acme/b") reply gates health).1
  have hresults : ∀ r ∈ results, r.verdict = verdict := by
    rintro r hr
    obtain ⟨g, hg, rfl⟩ := mem_gateSpeculative hr
    obtain ⟨score, id, rfl⟩ := mem_marked hg
    rfl
  have hids : gates.map Gate.id = s.gateIds := map_id_marked
  have hne : results ≠ [] := by
    obtain ⟨id, hid, hrun⟩ := hruns
    rw [← hids] at hid
    obtain ⟨g, hg, rfl⟩ := List.mem_map.mp hid
    exact gateSpeculative_ne_nil ⟨g, hg, hrun⟩
  rw [challengerServes_iff]
  cases verdict with
  | pass =>
    have hpass : aggregateWithPolicy results (failClosedIds gates) = .pass :=
      pass_of_passes hresults
    exact decide_eq_true hpass
  | fail =>
    have hfail : aggregateWithPolicy results (failClosedIds gates) ≠ .pass := by
      rintro hpass
      obtain ⟨r, hr⟩ := List.exists_mem_of_ne_nil results hne
      exact (aggregateWithPolicy_eq_pass.mp hpass r hr).1 (hresults r hr)
    exact decide_eq_false hfail
  | abstain => exact absurd rfl hverdict

theorem incumbentServes_threshold {gates : List (Gate F)} {idx : Nat}
    {health : GateHealthRegistry F} {t : F} (ht : s.serveThreshold = some t)
    (he : s.speculation = 0 → s.escalation.elastic = none) :
    let ctx := applied (incumbentCtx s (steered s (fun _ _ => unreachable) gates) req)
    let results := (gateSpeculative ctx idx (requestFor ctx "acme/a") reply gates health).1
    incumbentServes s gates req idx health =
      decide (t ≤ gateScore results (aggregateWithPolicy results (failClosedIds gates))) := by
  intro ctx results
  have helastic : ctx.elastic = none := applied_elastic he
  have hthreshold : ctx.serveThreshold = some t := ht
  rw [incumbentServes]
  show Judgment.served ctx (judged ctx "acme/a" idx reply health) = _
  rw [judged, gateSerial_of_elastic_none helastic, Judgment.served, serves]
  simp only [Option.map_none, shouldServe, hthreshold]
  rfl

/-- The score of marked gates is one, whatever their verdict. -/
theorem gateScore_marked (laws : Unital F) {ctx : EnforceCtx F} {idx : Nat} {asks : ModelRequest}
    {resp : ModelResponse} {health : GateHealthRegistry F} {included p : String → Bool}
    {verdict : Verdict} {ids failClosed : List String}
    (hp : ∀ id, p id = (included id && runs (account health ctx.tenantId id))) :
    let results := (evalGates ctx idx asks resp included (marked p verdict laws.score ids)
      health).1
    gateScore results (aggregateWithPolicy results failClosed) = 1 := by
  intro results
  have hcases : results = [] ∨ numbers results = [laws.score.value] := evalGates_marked hp
  rcases hcases with hnil | hnumbers
  · rw [hnil]
    rfl
  · exact laws.gateScore_one hnumbers _

theorem served_skip {ctx : EnforceCtx F} {idx : Nat} {asks : ModelRequest}
    {resp : ModelResponse} {health : GateHealthRegistry F} {el : ElasticConfig F}
    (he : ctx.elastic = some el)
    (h : el.lambda ≤ gateScore
      (evalGates ctx idx asks resp (fun id => !el.expensiveGates.contains id) ctx.gates health).1
      (aggregateWithPolicy (evalGates ctx idx asks resp
        (fun id => !el.expensiveGates.contains id) ctx.gates health).1
        (failClosedIds ctx.gates))) :
    Judgment.served ctx (gateSerial ctx idx asks resp health) = true := by
  rw [Judgment.served, gateSerial, he]
  dsimp only
  rw [if_pos h]
  rfl

/-- Elastic serves a score of one before the other gates report. -/
theorem incumbentServes_elastic (laws : Unital F) {el : ElasticConfig F}
    (he : s.escalation.elastic = some el) (hspeculation : s.speculation = 0) {p : String → Bool}
    (hp : ∀ id, p id = (!el.expensiveGates.contains id &&
      runs (account s.incumbentHealth s.request.tenant id))) (verdict : Verdict) (idx : Nat) :
    incumbentServes s (marked p verdict laws.score s.gateIds) req idx s.incumbentHealth = true := by
  let gates := marked p verdict laws.score s.gateIds
  let ctx := applied (incumbentCtx s (steered s (fun _ _ => unreachable) gates) req)
  have helastic : ctx.elastic = some el := by
    show (if s.speculation = 0 then s.escalation.elastic else none) = some el
    rw [if_pos hspeculation, he]
  let included (id : String) : Bool := !el.expensiveGates.contains id
  let visible := (evalGates ctx idx (requestFor ctx "acme/a") reply included gates
    s.incumbentHealth).1
  have hscore : gateScore visible (aggregateWithPolicy visible (failClosedIds gates)) = 1 :=
    gateScore_marked laws hp
  have hlambda : el.lambda ≤ 1 := s.escalation.lambda_le_one el he
  have hreached : el.lambda ≤ gateScore visible
      (aggregateWithPolicy visible (failClosedIds gates)) := by
    rw [hscore]
    exact hlambda
  have hserved : Judgment.served ctx
      (gateSerial ctx idx (requestFor ctx "acme/a") reply s.incumbentHealth) = true :=
    served_skip helastic hreached
  exact hserved

/-- Where a gate runs for the challenger, the incumbent serves what its gates pass. -/
theorem FirstRung.serves_verdict (h : FirstRung fromStr s req base) {p : String → Bool}
    {verdict : Verdict} {score : Score F} (hverdict : verdict ≠ .abstain)
    (hruns : ∃ id ∈ s.gateIds, runs (account s.challengerHealth s.request.tenant id) = true) :
    incumbentServes s (marked p verdict score s.gateIds) req 0 s.incumbentHealth =
      decide (verdict = .pass) :=
  (h.serves_eq map_id_marked plain_marked).trans (challengerServes_marked hverdict hruns)

theorem FirstRung.elastic_none (h : FirstRung fromStr s req base) (laws : Unital F)
    (hruns : ∃ id ∈ s.gateIds, runs (account s.challengerHealth s.request.tenant id) = true)
    (hspeculation : s.speculation = 0) : s.escalation.elastic = none := by
  cases he : s.escalation.elastic with
  | none => rfl
  | some el =>
    let p (id : String) : Bool := !el.expensiveGates.contains id &&
      runs (account s.incumbentHealth s.request.tenant id)
    have hfail : incumbentServes s (marked p .fail laws.score s.gateIds) req 0
        s.incumbentHealth = false := h.serves_verdict Verdict.noConfusion hruns
    rw [incumbentServes_elastic laws he hspeculation fun _ => rfl] at hfail
    cases hfail

theorem FirstRung.threshold_none (h : FirstRung fromStr s req base) (laws : Unital F)
    (hruns : ∃ id ∈ s.gateIds, runs (account s.challengerHealth s.request.tenant id) = true) :
    s.serveThreshold = none := by
  cases ht : s.serveThreshold with
  | none => rfl
  | some t =>
    let p (id : String) : Bool := runs (account s.incumbentHealth s.request.tenant id)
    have hserves : ∀ verdict, incumbentServes s (marked p verdict laws.score s.gateIds) req 0
        s.incumbentHealth = decide (t ≤ 1) := by
      rintro verdict
      let gates := marked p verdict laws.score s.gateIds
      let ctx := applied (incumbentCtx s (steered s (fun _ _ => unreachable) gates) req)
      let results := (gateSpeculative ctx 0 (requestFor ctx "acme/a") reply gates
        s.incumbentHealth).1
      have hall : (evalGates ctx 0 (requestFor ctx "acme/a") reply (fun _ => true) gates
          s.incumbentHealth).1 = results := congrArg Prod.fst (evalGates_all (fun _ => rfl) _ _)
      have hscore : gateScore results (aggregateWithPolicy results (failClosedIds gates)) = 1 := by
        rw [← hall]
        exact gateScore_marked laws fun id => (Bool.true_and _).symm
      rw [incumbentServes_threshold ht (h.elastic_none laws hruns)]
      exact congrArg (fun score => decide (t ≤ score)) hscore
    have hpass := (hserves .pass).symm.trans (h.serves_verdict Verdict.noConfusion hruns)
    have hfail := (hserves .fail).symm.trans (h.serves_verdict Verdict.noConfusion hruns)
    rw [hpass] at hfail
    cases hfail

end Firstpass.PairedGrading
