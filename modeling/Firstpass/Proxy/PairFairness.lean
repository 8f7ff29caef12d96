import Firstpass.Proxy.PairVerdicts
import Firstpass.Proxy.TrackedGate

/-!
# The symmetry of paired grading

A pair is symmetric exactly where it is fair.
-/

namespace Firstpass.PairedGrading

open ChatRequest (FromStr)
open GateBudget
open Lockstep
open Monitor (challengerOutcome)

variable {F : Type} [F64 F] {fromStr : FromStr} {s : Setting F} {req base : ModelRequest}

-- ---------------------------------------------------------------------------
-- As many rungs
-- ---------------------------------------------------------------------------

/-- No mode takes a rung away, as long as the conversions do not wrap. -/
theorem Setting.le_maxRungs (s : Setting F)
    (hbound : s.escalation.maxRungsPerRequest < 2147483647) :
    s.escalation.maxRungsPerRequest ≤ s.maxRungs := by
  rw [Setting.maxRungs]
  cases s.mode with
  | quality =>
    show s.escalation.maxRungsPerRequest ≤
      (max (Int.bmod (s.escalation.maxRungsPerRequest + 1) (2 ^ 32)) 1).toNat
    rw [Int.bmod_eq_of_le (by omega) (by omega)]
    omega
  | _ => exact Nat.le_refl _

/-- An incumbent that serves all answers has no rung that the challenger has not. -/
theorem FirstRung.rungs_eq (h : FirstRung fromStr s req base)
    (hle : s.escalation.maxRungsPerRequest ≤ s.maxRungs) {gates : List (Gate F)}
    (hids : gates.map Gate.id = s.gateIds) (hplain : ∀ g ∈ gates, Plain g)
    (hserves : ∀ k, incumbentServes s gates req k s.incumbentHealth = true) :
    min s.maxRungs s.rungs = min s.escalation.maxRungsPerRequest s.rungs := by
  have hfew := h.symmetric.rungs_le h.reads hids hplain h.start hserves
  omega

theorem plain_steadies {verdict : Verdict} {ids : List String} :
    ∀ g ∈ ids.map (steady (F := F) verdict none), Plain g := by
  rintro g hg
  obtain ⟨id, -, rfl⟩ := List.mem_map.mp hg
  exact plain_steady verdict none id

theorem incumbentServes_pass {ids : List String} {idx : Nat} {health : GateHealthRegistry F}
    (ht : s.serveThreshold = none) (he : s.speculation = 0 → s.escalation.elastic = none) :
    incumbentServes s (ids.map (steady .pass none)) req idx health = true := by
  let gates := ids.map (steady (F := F) .pass none)
  let ctx := applied (incumbentCtx s (steered s (fun _ _ => unreachable) gates) req)
  have hserved : Judgment.served ctx (gateSerial ctx idx (requestFor ctx "acme/a") reply health) =
      decide (aggregateWithPolicy (gateSpeculative ctx idx (requestFor ctx "acme/a") reply
        ctx.gates health).1 (failClosedIds ctx.gates) = .pass) :=
    served_of_elastic_none (applied_elastic he) ht
  refine hserved.trans (decide_eq_true (pass_of_passes fun r hr => ?_))
  obtain ⟨g, hg, rfl⟩ := mem_gateSpeculative hr
  obtain ⟨id, -, rfl⟩ := List.mem_map.mp hg
  rfl

/-- Beyond its rungs a run looks a gate up for a condensed request. -/
theorem Setting.lookups_condensed (s : Setting F) {l : Nat} (hlt : l < s.lookups req)
    (hge : min s.maxRungs s.rungs ≤ l) :
    l = min s.maxRungs s.rungs ∧ ∃ cfg, s.escalation.condense = some cfg ∧
      ∃ c, condense (s.baseRequest req) cfg.keepHead cfg.keepTail = some c := by
  rw [Setting.lookups] at hlt
  split_ifs at hlt with hsome
  · obtain ⟨c, hc⟩ := Option.isSome_iff_exists.mp hsome
    obtain ⟨cfg, hcfg, hc⟩ := Option.bind_eq_some_iff.mp hc
    exact ⟨by omega, cfg, hcfg, c, hc⟩
  · omega

-- ---------------------------------------------------------------------------
-- The same budgets
-- ---------------------------------------------------------------------------

section budgets

variable {gates : List (Gate F)} {answer : Answers} {id : String} {outcomes : List Bool}

theorem tracking_incumbent (ht : s.serveThreshold = none)
    (he : s.speculation = 0 → s.escalation.elastic = none) (hid : id ∈ s.gateIds)
    (hnodup : s.gateIds.Nodup) :
    Tracking (applied (incumbentCtx s
      (steered s answer (s.gateIds.map (tracked id outcomes))) req)) id outcomes s.gateIds :=
  ⟨rfl, applied_elastic he, ht, hid, hnodup⟩

theorem tracking_challenger (hid : id ∈ s.gateIds) (hnodup : s.gateIds.Nodup) :
    Tracking (challengerCtx s (steered s answer (s.gateIds.map (tracked id outcomes))) base) id
      outcomes s.gateIds :=
  ⟨rfl, rfl, rfl, hid, hnodup⟩

theorem blind_tracked : ∀ g ∈ s.gateIds.map (tracked (F := F) id outcomes), Blind g := by
  rintro g hg idx asks asks' resp
  obtain ⟨other, -, rfl⟩ := List.mem_map.mp hg
  rfl

/-- Where the runs of a tracked gate end alike in all but the gate, its budgets agree. -/
theorem Symmetric.runs_eq (hsym : Symmetric fromStr s) (hreads : Requests fromStr s req base)
    {a b : Bool}
    (hinc : incumbentSource s (steered s answer (s.gateIds.map (tracked id outcomes))) req =
      if a then .bestAttempt else .attempt)
    (hch : challengerSource s (steered s answer (s.gateIds.map (tracked id outcomes))) base =
      if b then .bestAttempt else .attempt) : a = b := by
  have hnot : (!a) = !b := by
    refine hsym.passes_iff hreads map_id_tracked blind_tracked (hinc.trans ?_) ?_
    · cases a <;> rfl
    · rw [hch]
      cases b <;> rfl
  cases a <;> cases b <;> simp_all

/-- The budgets of a symmetric pair agree for the lookups ahead. -/
theorem FirstRung.budgets (h : FirstRung fromStr s req base) (hnodup : s.gateIds.Nodup)
    (hasked : asked (s.baseRequest base) = asked (s.baseRequest req))
    (ht : s.serveThreshold = none) (he : s.speculation = 0 → s.escalation.elastic = none)
    (hrungs : min s.maxRungs s.rungs = min s.escalation.maxRungsPerRequest s.rungs)
    (hid : id ∈ s.gateIds) :
    SameUpTo (s.lookups req) (account s.incumbentHealth s.request.tenant id)
      (account s.challengerHealth s.request.tenant id) := by
  refine .of_running fun outcomes hlength hruns => ?_
  have hpositive := s.rungs_pos
  have hincumbent := h.incumbent
  have hchallenger := h.challenger
  have hstart := h.start
  have hendInc : ∀ answer : Answers, rungEnd (applied (incumbentCtx s
      (steered s answer (s.gateIds.map (tracked id outcomes))) req)) = min s.maxRungs s.rungs := by
    rintro answer
    rw [rungEnd_steered_incumbent, hstart, Nat.zero_add, Nat.sub_zero]
  have hendCh : ∀ answer : Answers, rungEnd (challengerCtx s
      (steered s answer (s.gateIds.map (tracked id outcomes))) base) = min s.maxRungs s.rungs := by
    rintro answer
    rw [rungEnd_steered_challenger, hrungs]
  have hstartInc : ∀ answer : Answers, startOf (applied (incumbentCtx s
      (steered s answer (s.gateIds.map (tracked id outcomes))) req)) = 0 := by
    rintro answer
    rw [startOf_steered_incumbent, hstart]
  rcases Nat.lt_or_ge outcomes.length (min s.maxRungs s.rungs) with hlt | hge
  · let answer : Answers := fun i _ => if i ≤ outcomes.length then .ok reply else unreachable
    have hok : ∀ r, ∀ i ≤ outcomes.length, answer i r = .ok reply := fun r i hi => if_pos hi
    have hdown : ∀ r, ∀ i, outcomes.length < i → answer i r = unreachable :=
      fun r i hi => if_neg (Nat.not_le_of_lt hi)
    have hinc := (tracking_incumbent ht he hid hnodup).servedFrom_next
      (steered_incumbent answer) (hstartInc _) (by rw [hendInc]; exact hlt)
      (fun i hi => (hruns i hi).1) (hok (asked (s.baseRequest req)))
      (hdown (asked (s.baseRequest req))) (fun _ => 0) fun _ => 0
    have hch := (tracking_challenger hid hnodup).servedFrom_next
      (steered_challenger answer) startOf_steered_challenger (by rw [hendCh]; exact hlt)
      (fun i hi => (hruns i hi).2) (hok (asked (s.baseRequest base)))
      (hdown (asked (s.baseRequest base))) (fun _ => 0) fun _ => 0
    exact h.symmetric.runs_eq h.reads hinc hch
  · let answer : Answers := fun _ _ => .ok reply
    obtain ⟨hlast, cfg, hcfg, c, hc⟩ := s.lookups_condensed hlength hge
    have hcondensed := condense_asked (s.baseRequest base) cfg.keepHead cfg.keepTail
    rw [hasked, ← condense_asked, hc] at hcondensed
    obtain ⟨c', hc', -⟩ := Option.map_eq_some_iff.mp hcondensed
    have hinc := (tracking_incumbent ht he hid hnodup).servedFrom_condensed
      (steered_incumbent answer) hpositive hincumbent (hstartInc _)
      (by rw [hendInc]; exact hlast) hcfg hc (fun i hi => (hruns i hi).1) (fun _ _ => rfl)
      (fun _ => 0) fun _ => 0
    have hch := (tracking_challenger hid hnodup).servedFrom_condensed
      (steered_challenger answer) hpositive hchallenger startOf_steered_challenger
      (by rw [hendCh]; exact hlast) hcfg hc'
      (fun i hi => (hruns i hi).2) (fun _ _ => rfl) (fun _ => 0) fun _ => 0
    exact h.symmetric.runs_eq h.reads hinc hch

end budgets

-- ---------------------------------------------------------------------------
-- Exactly the fair pairs
-- ---------------------------------------------------------------------------

theorem FirstRung.graded (h : FirstRung fromStr s req base) (laws : Unital F)
    (hnodup : s.gateIds.Nodup)
    (hasked : asked (s.baseRequest base) = asked (s.baseRequest req))
    (hle : s.escalation.maxRungsPerRequest ≤ s.maxRungs) :
    min s.maxRungs s.rungs = min s.escalation.maxRungsPerRequest s.rungs ∧
      (GatesDecide s req ∨ GatesIdle s) := by
  by_cases hruns : ∃ id ∈ s.gateIds, runs (account s.challengerHealth s.request.tenant id) = true
  · have ht := h.threshold_none laws hruns
    have he := h.elastic_none laws hruns
    have hrungs := h.rungs_eq hle (map_id_steady s.gateIds) plain_steadies
      fun k => incumbentServes_pass ht he
    refine ⟨hrungs, .inl ⟨ht, he, fun id hid => ?_⟩⟩
    rw [List.count_eq_one_of_mem hnodup hid, Nat.one_mul]
    exact h.budgets hnodup hasked ht he hrungs hid
  · have hidle : GatesIdle s := h.idle fun id hid =>
      Bool.eq_false_iff.mpr fun hrun => hruns ⟨id, hid, hrun⟩
    let gates := s.gateIds.map (steady (F := F) .pass none)
    have hids : gates.map Gate.id = s.gateIds := map_id_steady s.gateIds
    refine ⟨h.rungs_eq hle hids plain_steadies fun k => ?_, .inr hidle⟩
    exact hidle.serves (steered s (fun _ _ => unreachable) gates) hids req _ k reply

/-- What a symmetric setting is taken to have besides: gates that are listed once, a rung to
run, and a number of rungs that does not wrap. -/
structure Regular (s : Setting F) : Prop where
  laws : Unital F
  gateIds : s.gateIds.Nodup
  rungs : 0 < s.escalation.maxRungsPerRequest
  bound : s.escalation.maxRungsPerRequest < 2147483647

/-- A symmetric pair is fair. -/
theorem fair_of_symmetric (hregular : Regular s) (hsym : Symmetric fromStr s) :
    FairPair fromStr s := by
  rintro req base hreq hbase
  have hrungs := hregular.rungs
  have hle := s.le_maxRungs hregular.bound
  have hreads : Requests fromStr s req base := ⟨hreq, hbase⟩
  obtain ⟨hasked, hstart⟩ := hsym.request_start hreads (Nat.lt_of_lt_of_le hrungs hle) hrungs
  have hfirst : FirstRung fromStr s req base :=
    ⟨hsym, hreads, hstart, Nat.lt_of_lt_of_le hrungs hle, hrungs⟩
  obtain ⟨hsame, hgraded⟩ := hfirst.graded hregular.laws hregular.gateIds hasked hle
  exact ⟨hasked, hstart, hsame, hgraded⟩

/-- Ladders that behave alike are graded alike exactly where the two runs are of one request,
from one rung on, over as many rungs, with gates that decide for both. -/
theorem paired_grading_iff (fromStr : FromStr) (s : Setting F) :
    (FairPair fromStr s → Symmetric fromStr s) ∧
      (Regular s → Symmetric fromStr s → FairPair fromStr s) :=
  ⟨symmetric_of_fair, fair_of_symmetric⟩

def samplePrompt : Json.Value :=
  .object [("messages", .array
    [.object [("content", .string "Be brief."), ("role", .string "system")],
      .object [("content", .string "Hello."), ("role", .string "user")]])]

def sampleSetting (endpoint : Dispatch.Endpoint) : Setting ℚ where
  escalation := ⟨3, 0, none, none, none, fun _ h => (by cases h), none, false⟩
  gateIds := ["non-empty"]
  rungs := 1
  rungs_pos := Nat.one_pos
  endpoint
  request := ⟨fun _ => none, .ofValue samplePrompt, "default", ⟨0, 0⟩⟩
  carryRaw := false
  mode := .balanced
  certified := none
  aci := none
  passEstimate := none
  chosen := 0
  incumbentHealth := ⟨fun _ => none, fun _ _ => none⟩
  challengerHealth := ⟨fun _ => none, fun _ _ => none⟩

/-- The body as a Messages request. -/
theorem paired_grading_iff_sample :
    Symmetric (fun _ => none) (sampleSetting .messages) ∧
      FairPair (fun _ => none) (sampleSetting .messages) := by
  obtain ⟨hsymmetric, hfair⟩ := paired_grading_iff (fun _ => none) (sampleSetting .messages)
  have hregular : Regular (sampleSetting .messages) :=
    ⟨⟨by decide, by decide, by norm_num⟩, List.nodup_singleton _, Nat.succ_pos _, by decide⟩
  have hpair : FairPair (fun _ => none) (sampleSetting .messages) := by
    rintro req base hreq hbase
    obtain rfl : req = base := Option.some.inj (hreq.symm.trans hbase)
    exact ⟨rfl, rfl, rfl, .inl ⟨rfl, fun _ => rfl, fun _ _ _ _ => rfl⟩⟩
  exact ⟨hsymmetric hpair, hfair hregular (hsymmetric hpair)⟩

/-- Models that take a system prompt as a field, and refuse one among the messages. -/
def sampleWorld : World ℚ :=
  steered (sampleSetting .chatCompletions) (fun _ req =>
    if req.messages.any (·.role = "system") then .error (.http 400 "") else .ok reply)
    [steady .pass none "non-empty"]

/-- The challenger is asked what was not translated. -/
theorem untranslated_challenger_fails :
    ¬ ∀ (fromStr : FromStr) (s : Setting ℚ), Symmetric fromStr s := by
  rintro h
  have hpair : recordedPair (fun _ => none) (sampleSetting .chatCompletions) sampleWorld =
      some (1, 0) := by decide +kernel
  have halike : Alike (sampleSetting .chatCompletions) sampleWorld :=
    alike_steered rfl fun g hg => by
      obtain rfl := List.mem_singleton.mp hg
      exact (plain_steady _ _ _).blind
  have hsame := h _ _ sampleWorld halike _ _ hpair
  cases hsame

end Firstpass.PairedGrading
