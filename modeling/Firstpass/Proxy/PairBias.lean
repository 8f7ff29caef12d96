import Firstpass.Proxy.PairSymmetry
import Firstpass.Proxy.SteadyGates
import Firstpass.Proxy.SteeredLadder

/-!
# A pair that is not fair is biased

For each way in which a pair may be unfair, ladders whose rungs behave alike and are graded
differently.
-/

namespace Firstpass.PairedGrading

open ChatRequest (FromStr)
open GateBudget
open Lockstep
open Monitor (pairOutcome challengerOutcome)

variable {F : Type} [F64 F]

-- ---------------------------------------------------------------------------
-- Steered pairs
-- ---------------------------------------------------------------------------

def idleSchedule : Schedule where
  panicked _ := false
  isFinished _ := false
  drainOrder keys := keys
  drainOrder_perm _ := .refl _

/-- Two ladders of free models whose rungs answer what they are told to. -/
def steered (s : Setting F) (answer : Answers) (gates : List (Gate F)) : World F where
  incumbent := List.replicate s.rungs "acme/a"
  challenger := List.replicate s.rungs "acme/b"
  providers := ⟨fun _ => some ⟨"acme", fun idx req _ => answer idx (asked req)⟩⟩
  auth := ⟨none, none, none, none, none, none⟩
  prices := ⟨fun _ => some ⟨0, 0⟩⟩
  gates
  budgetPerRequestUsd := none
  features := Inbound.newFeatures 0
  sessionId := "session"
  promptHash := "hash"
  api := "api"
  policyId := "policy"
  incumbentFirst := ⟨fun _ => 0, idleSchedule⟩
  incumbentSecond := ⟨fun _ => 0, idleSchedule⟩
  challengerFirst := ⟨fun _ => 0, idleSchedule⟩
  challengerSecond := ⟨fun _ => 0, idleSchedule⟩
  traceId := "trace"
  ts := "0"

def reply : ModelResponse where
  model := ""
  text := ""
  inTokens := 0
  cacheWriteTokens := 0
  cacheReadTokens := 0
  outTokens := 0
  raw := .null

/-- A gate that does not read the request. -/
def Blind (g : Gate F) : Prop :=
  ∀ idx req req' resp, g.evaluate idx req resp = g.evaluate idx req' resp

section steered

variable {s : Setting F} {answer : Answers} {gates : List (Gate F)} {req base : ModelRequest}

theorem resolve_steered {ctx : EnforceCtx F} {provider : Provider}
    (h : ctx.providers = ⟨fun _ => some provider⟩) {model : String} {m : ModelRef}
    (hmodel : ModelRef.parse model = .ok m) : resolveProvider ctx model = some provider := by
  rw [resolveProvider, hmodel, h]

theorem steered_incumbent (answer : Answers) : Steered
    (applied (incumbentCtx s (steered s answer gates) req)) s.rungs "acme/a" answer where
  ladder := rfl
  call idx r := by
    rw [callAt, resolve_steered rfl (m := ⟨"acme", "a"⟩) (by decide)]
    rfl
  budget := rfl

theorem steered_challenger (answer : Answers) : Steered
    (challengerCtx s (steered s answer gates) base) s.rungs "acme/b" answer where
  ladder := rfl
  call idx r := by
    rw [callAt, resolve_steered rfl (m := ⟨"acme", "b"⟩) (by decide)]
    rfl
  budget := rfl

theorem alike_steered (hids : gates.map Gate.id = s.gateIds) (hblind : ∀ g ∈ gates, Blind g) :
    Alike s (steered s answer gates) where
  incumbent_length := List.length_replicate
  challenger_length := List.length_replicate
  rung := by
    rintro idx a b ha hb req base
    obtain rfl := List.eq_of_mem_replicate (List.mem_of_getElem? ha)
    obtain rfl := List.eq_of_mem_replicate (List.mem_of_getElem? hb)
    refine ⟨fun r => ?_, fun resp => rfl, fun g hg r resp => hblind g hg idx _ _ resp⟩
    have hinc : Steered (applied (incumbentCtx s (steered s answer gates) req)) s.rungs "acme/a"
      answer := steered_incumbent answer
    have hch : Steered (challengerCtx s (steered s answer gates) base) s.rungs "acme/b" answer :=
      steered_challenger answer
    exact (hinc.call idx r).trans (hch.call idx r).symm
  gateIds := hids
  first_finishes := fun _ => rfl
  second_finishes := fun _ => rfl

/-- Where the answers of the two runs are served from. -/
def incumbentSource (s : Setting F) (w : World F) (req : ModelRequest) : ServedFrom :=
  servedFrom (serialLadder (applied (incumbentCtx s w req)) (fun _ => 0) (fun _ => 0)
    s.incumbentHealth).toLadderRun

def challengerSource (s : Setting F) (w : World F) (base : ModelRequest) : ServedFrom :=
  servedFrom (serialLadder (challengerCtx s w base) (fun _ => 0) (fun _ => 0)
    s.challengerHealth).toLadderRun

/-- Both requests of a pair, as they are read off the body. -/
structure Requests (fromStr : FromStr) (s : Setting F) (req base : ModelRequest) : Prop where
  incumbent : inboundRequest fromStr s.endpoint s.request s.carryRaw = some req
  challenger : parseModelRequest s.request.body = some base

/-- In a symmetric setting the runs of steered ladders pass together. -/
theorem Symmetric.passes_iff {fromStr : FromStr} (hsym : Symmetric fromStr s)
    (hreads : Requests fromStr s req base) (hids : gates.map Gate.id = s.gateIds)
    (hblind : ∀ g ∈ gates, Blind g) {b c : Bool}
    (hinc : incumbentSource s (steered s answer gates) req =
      if b then .attempt else .bestAttempt)
    (hch : challengerOutcome (challengerSource s (steered s answer gates) base) =
      some (if c then (1 : ℚ) else 0)) : b = c := by
  have halike : Alike s (steered s answer gates) := alike_steered hids hblind
  have hout : pairOutcome (incumbentTrace s (steered s answer gates) req).final.servedFrom =
      some (if b then (1 : ℚ) else 0) := by
    rw [incumbentTrace_servedFrom halike]
    refine (congrArg pairOutcome hinc).trans ?_
    cases b <;> rfl
  have hpair : recordedPair fromStr s (steered s answer gates) =
      some (if b then 1 else 0, if c then 1 else 0) := by
    rw [recordedPair, hreads.incumbent, Option.bind_some, hout, Option.bind_some,
      hreads.challenger, Option.bind_some, challengerTrace_servedFrom]
    exact Option.map_eq_some_iff.mpr ⟨_, hch, rfl⟩
  have hsame := hsym _ halike _ _ hpair
  cases b <;> cases c <;> simp_all

end steered

-- ---------------------------------------------------------------------------
-- One answer
-- ---------------------------------------------------------------------------

/-- A gate that does not read the request and says nothing of its size. -/
structure Plain (g : Gate F) : Prop where
  blind : Blind g
  quiet : ∀ idx req resp, (g.evaluate idx req resp).reason = none

theorem plain_steady (verdict : Verdict) (score : Option (Score F)) (id : String) :
    Plain (steady verdict score id) := ⟨fun _ _ _ _ => rfl, fun _ _ _ => rfl⟩

/-- Whether the incumbent serves the answer of a rung. -/
def incumbentServes (s : Setting F) (gates : List (Gate F)) (req : ModelRequest) (idx : Nat)
    (health : GateHealthRegistry F) : Bool :=
  let ctx := applied (incumbentCtx s (steered s (fun _ _ => unreachable) gates) req)
  Judgment.served ctx (judged ctx "acme/a" idx reply health)

def challengerServes (s : Setting F) (gates : List (Gate F)) (base : ModelRequest) (idx : Nat)
    (health : GateHealthRegistry F) : Bool :=
  let ctx := challengerCtx s (steered s (fun _ _ => unreachable) gates) base
  Judgment.served ctx (judged ctx "acme/b" idx reply health)

section judged

variable {s : Setting F} {answer : Answers} {gates : List (Gate F)} {req base : ModelRequest}

theorem judged_incumbent (answer : Answers) (idx : Nat) (health : GateHealthRegistry F) :
    (judged (applied (incumbentCtx s (steered s answer gates) req)) "acme/a" idx reply
      health).served (applied (incumbentCtx s (steered s answer gates) req)) =
      incumbentServes s gates req idx health :=
  congrArg (Judgment.served (applied (incumbentCtx s (steered s answer gates) req)))
    (gateSerial_congr (A := applied (incumbentCtx s (steered s answer gates) req))
      (B := applied (incumbentCtx s (steered s (fun _ _ => unreachable) gates) req)) rfl rfl rfl
      idx _ reply health)

theorem judged_challenger (answer : Answers) (idx : Nat) (health : GateHealthRegistry F) :
    (judged (challengerCtx s (steered s answer gates) base) "acme/b" idx reply
      health).served (challengerCtx s (steered s answer gates) base) =
      challengerServes s gates base idx health :=
  congrArg (Judgment.served (challengerCtx s (steered s answer gates) base))
    (gateSerial_congr (A := challengerCtx s (steered s answer gates) base)
      (B := challengerCtx s (steered s (fun _ _ => unreachable) gates) base) rfl rfl rfl
      idx _ reply health)

theorem startOf_steered_incumbent :
    startOf (applied (incumbentCtx s (steered s answer gates) req)) =
      min s.startRung (s.rungs - 1) := by
  rw [startOf, (steered_incumbent answer).ladder, List.length_replicate]
  rfl

theorem rungEnd_steered_incumbent :
    rungEnd (applied (incumbentCtx s (steered s answer gates) req)) =
      min s.startRung (s.rungs - 1) +
        min s.maxRungs (s.rungs - min s.startRung (s.rungs - 1)) := by
  rw [rungEnd, startOf_steered_incumbent, (steered_incumbent answer).ladder, List.length_replicate]
  rfl

theorem startOf_steered_challenger :
    startOf (challengerCtx s (steered s answer gates) base) = 0 := Nat.zero_min _

theorem rungEnd_steered_challenger :
    rungEnd (challengerCtx s (steered s answer gates) base) =
      min s.escalation.maxRungsPerRequest s.rungs := by
  rw [rungEnd, startOf_steered_challenger, (steered_challenger answer).ladder,
    List.length_replicate, Nat.zero_add]
  rfl

/-- The incumbent's answer is served as its gates judge it. -/
theorem incumbentSource_judged {k : Nat} (hplain : ∀ g ∈ gates, Plain g)
    (hk : min s.startRung (s.rungs - 1) ≤ k ∧ k < min s.startRung (s.rungs - 1) +
      min s.maxRungs (s.rungs - min s.startRung (s.rungs - 1)))
    (hbefore : ∀ i, min s.startRung (s.rungs - 1) ≤ i → i < k →
      answer i (asked (s.baseRequest req)) = unreachable)
    (hok : answer k (asked (s.baseRequest req)) = .ok reply)
    (hafter : ∀ i, k < i → answer i (asked (s.baseRequest req)) = unreachable) :
    incumbentSource s (steered s answer gates) req =
      if incumbentServes s gates req k s.incumbentHealth then .attempt else .bestAttempt := by
  rw [← judged_incumbent answer]
  refine Steered.servedFrom_judged (n := s.rungs) (steered_incumbent answer) ?_ ?_ hok
    _ _ _ (quiet_gateSerial fun g hg => (hplain g hg).quiet _ _ _) fun _ => hafter
  · rw [startOf_steered_incumbent, rungEnd_steered_incumbent]
    exact hk
  · rw [startOf_steered_incumbent]
    exact hbefore

theorem challengerSource_judged {k : Nat} (hplain : ∀ g ∈ gates, Plain g)
    (hk : k < min s.escalation.maxRungsPerRequest s.rungs)
    (hbefore : ∀ i, i < k → answer i (asked (s.baseRequest base)) = unreachable)
    (hok : answer k (asked (s.baseRequest base)) = .ok reply)
    (hafter : challengerServes s gates base k s.challengerHealth = false →
      ∀ i, k < i → answer i (asked (s.baseRequest base)) = unreachable) :
    challengerSource s (steered s answer gates) base =
      if challengerServes s gates base k s.challengerHealth then .attempt else .bestAttempt := by
  rw [← judged_challenger answer] at hafter ⊢
  refine Steered.servedFrom_judged (n := s.rungs) (steered_challenger answer) ?_ ?_ hok
    _ _ _ (quiet_gateSerial fun g hg => (hplain g hg).quiet _ _ _) hafter
  · rw [startOf_steered_challenger, rungEnd_steered_challenger]
    exact ⟨Nat.zero_le k, hk⟩
  · rw [startOf_steered_challenger]
    exact fun i _ => hbefore i

end judged

-- ---------------------------------------------------------------------------
-- The request and the start
-- ---------------------------------------------------------------------------

section request

variable {fromStr : FromStr} {s : Setting F} {req base : ModelRequest}

theorem challengerServes_iff {gates : List (Gate F)} {idx : Nat}
    {health : GateHealthRegistry F} : challengerServes s gates base idx health =
      decide (aggregateWithPolicy (gateSpeculative
        (challengerCtx s (steered s (fun _ _ => unreachable) gates) base) idx
        (requestFor (challengerCtx s (steered s (fun _ _ => unreachable) gates) base) "acme/b")
        reply gates health).1 (failClosedIds gates) = .pass) :=
  served_of_elastic_none rfl rfl

/-- Where every gate passes, so does the challenger. -/
theorem challengerServes_pass {gates : List (Gate F)} {idx : Nat}
    {health : GateHealthRegistry F}
    (h : ∀ g ∈ gates, ∀ idx asks resp, (g.evaluate idx asks resp).verdict = .pass) :
    challengerServes s gates base idx health = true := by
  rw [challengerServes_iff, decide_eq_true_eq]
  refine pass_of_passes fun r hr => ?_
  obtain ⟨g, hg, rfl⟩ := mem_gateSpeculative hr
  exact h g hg _ _ _

/-- The incumbent is asked by its own request at its first rung; whatever the first rung
answers otherwise decides for the challenger alone. -/
theorem Symmetric.request_start (hsym : Symmetric fromStr s)
    (hreads : Requests fromStr s req base) (hmax : 0 < s.maxRungs)
    (hconfig : 0 < s.escalation.maxRungsPerRequest) :
    asked (s.baseRequest base) = asked (s.baseRequest req) ∧
      min s.startRung (s.rungs - 1) = 0 := by
  classical
  by_contra hne
  have hrungs := s.rungs_pos
  let top := min s.startRung (s.rungs - 1)
  let answer (x : Except ProviderError ModelResponse) : Answers := fun i r =>
    if i = top ∧ r = asked (s.baseRequest req) then .ok reply
    else if i = 0 then x else unreachable
  let gates := s.gateIds.map (steady (F := F) .pass none)
  have hids : gates.map Gate.id = s.gateIds := map_id_steady s.gateIds
  have hplain : ∀ g ∈ gates, Plain g := by
    rintro g hg
    obtain ⟨id, -, rfl⟩ := List.mem_map.mp hg
    exact plain_steady _ _ _
  have hinc : ∀ x, incumbentSource s (steered s (answer x) gates) req =
      if incumbentServes s gates req top s.incumbentHealth then .attempt else .bestAttempt := by
    rintro x
    refine incumbentSource_judged hplain ⟨Nat.le_refl _, ?_⟩ (fun i hi hlt => ?_)
      (if_pos ⟨rfl, rfl⟩) fun i hi => ?_
    · have htop : min s.startRung (s.rungs - 1) < s.rungs := by omega
      omega
    · exact absurd (Nat.lt_of_le_of_lt hi hlt) (Nat.lt_irrefl _)
    · have hi0 : i ≠ 0 := Nat.ne_of_gt (Nat.zero_lt_of_lt hi)
      simp only [answer, if_neg hi0, Nat.ne_of_gt hi, false_and, if_false]
  have hzero : ∀ x, answer x 0 (asked (s.baseRequest base)) = x := by
    rintro x
    refine (if_neg ?_).trans (if_pos rfl)
    rintro ⟨htop, hasked⟩
    exact hne ⟨hasked, htop.symm⟩
  have hserved : challengerSource s (steered s (answer (.ok reply)) gates) base = .attempt := by
    have hpass : challengerServes s gates base 0 s.challengerHealth = true := by
      refine challengerServes_pass fun g hg _ _ _ => ?_
      obtain ⟨id, -, rfl⟩ := List.mem_map.mp hg
      rfl
    rw [challengerSource_judged (k := 0) hplain (by omega) (fun i hi => by omega) (hzero _)
      (fun h => by rw [hpass] at h; cases h), if_pos hpass]
  have hrefused : challengerSource s (steered s (answer (.error (.http 400 ""))) gates) base =
      .error := by
    refine Steered.servedFrom_refused (n := s.rungs)
      (steered_challenger (answer (.error (.http 400 "")))) ?_ (hzero (.error (.http 400 "")))
      (by decide +kernel) _ _ _
    rw [startOf_steered_challenger, rungEnd_steered_challenger]
    omega
  have hblind : ∀ g ∈ gates, Blind g := fun g hg => (hplain g hg).blind
  have hyes := hsym.passes_iff hreads hids hblind (c := true) (hinc _)
    (congrArg challengerOutcome hserved)
  have hno := hsym.passes_iff hreads hids hblind (c := false) (hinc _)
    (congrArg challengerOutcome hrefused)
  rw [hyes] at hno
  cases hno

end request

-- ---------------------------------------------------------------------------
-- One rung that answers
-- ---------------------------------------------------------------------------

/-- One rung answers whatever it is asked. -/
def onlyAt (k : Nat) : Answers := fun idx _ => if idx = k then .ok reply else unreachable

section onlyAt

variable {fromStr : FromStr} {s : Setting F} {gates : List (Gate F)} {req base : ModelRequest}

theorem onlyAt_self (k : Nat) (r : ModelRequest) : onlyAt k k r = .ok reply := if_pos rfl

theorem onlyAt_ne {k idx : Nat} (h : idx ≠ k) (r : ModelRequest) :
    onlyAt k idx r = unreachable := if_neg h

theorem incumbentSource_onlyAt {k : Nat} (hplain : ∀ g ∈ gates, Plain g)
    (hstart : min s.startRung (s.rungs - 1) = 0) (hk : k < min s.maxRungs s.rungs) :
    incumbentSource s (steered s (onlyAt k) gates) req =
      if incumbentServes s gates req k s.incumbentHealth then .attempt else .bestAttempt := by
  refine incumbentSource_judged hplain (by rw [hstart]; omega)
    (fun i _ hi => onlyAt_ne (Nat.ne_of_lt hi) _) (onlyAt_self k _)
    fun i hi => onlyAt_ne (Nat.ne_of_gt hi) _

/-- The gates of a rung decide alike for both runs. -/
theorem Symmetric.serves_eq (hsym : Symmetric fromStr s) (hreads : Requests fromStr s req base)
    (hids : gates.map Gate.id = s.gateIds) (hplain : ∀ g ∈ gates, Plain g)
    (hstart : min s.startRung (s.rungs - 1) = 0) {k : Nat} (hk : k < min s.maxRungs s.rungs)
    (hk' : k < min s.escalation.maxRungsPerRequest s.rungs) :
    incumbentServes s gates req k s.incumbentHealth =
      challengerServes s gates base k s.challengerHealth := by
  refine hsym.passes_iff hreads hids (fun g hg => (hplain g hg).blind)
    (incumbentSource_onlyAt hplain hstart hk) ?_
  rw [challengerSource_judged hplain hk' (fun i hi => onlyAt_ne (Nat.ne_of_lt hi) _)
    (onlyAt_self k _) fun _ i hi => onlyAt_ne (Nat.ne_of_gt hi) _]
  cases challengerServes s gates base k s.challengerHealth <;> rfl

/-- No rung of the incumbent that serves is out of the challenger's reach. -/
theorem Symmetric.rungs_le (hsym : Symmetric fromStr s) (hreads : Requests fromStr s req base)
    (hids : gates.map Gate.id = s.gateIds) (hplain : ∀ g ∈ gates, Plain g)
    (hstart : min s.startRung (s.rungs - 1) = 0)
    (hserves : ∀ k, incumbentServes s gates req k s.incumbentHealth = true) :
    min s.maxRungs s.rungs ≤ min s.escalation.maxRungsPerRequest s.rungs := by
  by_contra hlt
  let k := min s.escalation.maxRungsPerRequest s.rungs
  have hk : k < min s.maxRungs s.rungs := by omega
  have hinc : incumbentSource s (steered s (onlyAt k) gates) req =
      if incumbentServes s gates req k s.incumbentHealth then .attempt else .bestAttempt :=
    incumbentSource_onlyAt hplain hstart hk
  have hdown : challengerSource s (steered s (onlyAt k) gates) base = .error := by
    refine Steered.servedFrom_down (n := s.rungs) (steered_challenger (onlyAt k)) (fun i _ hi => ?_)
      _ _ _
    rw [rungEnd_steered_challenger] at hi
    exact onlyAt_ne (Nat.ne_of_lt hi) _
  have hsame := hsym.passes_iff hreads hids (fun g hg => (hplain g hg).blind) (c := false) hinc
    (congrArg challengerOutcome hdown)
  rw [hserves] at hsame
  cases hsame

end onlyAt

end Firstpass.PairedGrading
