import Firstpass.Proxy.PairedGrading

/-!
# A fair pair is symmetric

The ladders of a fair pair keep step, so that both are graded by the same outcome.
-/

namespace Firstpass.PairedGrading

open GateBudget
open Lockstep

variable {F : Type} [F64 F]

-- ---------------------------------------------------------------------------
-- The gates of one rung
-- ---------------------------------------------------------------------------

/-- Gates with the same budgets for the lookups ahead have the same results. -/
theorem gateSpeculative_inStep {A B : EnforceCtx F} (htenant : A.tenantId = B.tenantId)
    {idx : Nat} {req req' : ModelRequest} {resp : ModelResponse} {gates : List (Gate F)}
    (hsame : ∀ g ∈ gates, g.evaluate idx req resp = g.evaluate idx req' resp)
    (left : String → Nat) {hA hB : GateHealthRegistry F}
    (h : ∀ id, SameUpTo ((gates.map Gate.id).count id + left id) (account hA A.tenantId id)
      (account hB A.tenantId id)) :
    (gateSpeculative A idx req resp gates hA).1 = (gateSpeculative B idx req' resp gates hB).1 ∧
      ∀ id, SameUpTo (left id) (account (gateSpeculative A idx req resp gates hA).2 A.tenantId id)
        (account (gateSpeculative B idx req' resp gates hB).2 A.tenantId id) := by
  induction gates generalizing hA hB with
  | nil => exact ⟨rfl, fun id => (h id).mono (Nat.le_add_left _ _)⟩
  | cons g gates ih =>
    obtain ⟨hg, hgates⟩ := List.forall_mem_cons.mp hsame
    have hown := h g.id
    rw [List.map_cons, List.count_cons_self, Nat.add_right_comm] at hown
    have hruns := hown.now
    rw [gateSpeculative, gateSpeculative, ← htenant, enabled_fst, enabled_fst, ← hruns, ← hg]
    cases hrun : runs (account hA A.tenantId g.id) with
    | false =>
      rw [if_neg Bool.false_ne_true, if_neg Bool.false_ne_true]
      refine ih hgates fun id => ?_
      rw [account_enabled, account_enabled]
      refine (h id).mono ?_
      rw [List.map_cons]
      exact Nat.add_le_add_right (List.count_le_count_cons) _
    | true =>
      rw [if_pos rfl, if_pos rfl]
      dsimp only
      generalize decide ((g.evaluate idx req resp).verdict = .abstain) = errored
      have hnext : ∀ id, SameUpTo ((gates.map Gate.id).count id + left id)
          (account ((hA.enabled A.tenantId g.id).2.record A.tenantId g.id errored) A.tenantId id)
          (account ((hB.enabled A.tenantId g.id).2.record A.tenantId g.id errored) A.tenantId
            id) := by
        intro id
        by_cases hid : id = g.id
        · subst hid
          rw [account_record_self, account_record_self, account_enabled, account_enabled]
          exact hown.record errored
        · rw [account_record_ne _ _ _ hid, account_record_ne _ _ _ hid, account_enabled,
            account_enabled]
          have hother := h id
          rwa [List.map_cons, List.count_cons_of_ne (Ne.symm hid)] at hother
      obtain ⟨hresults, haccounts⟩ := ih hgates hnext
      exact ⟨congrArg (_ :: ·) hresults, haccounts⟩

/-- A gate that is disabled is skipped. -/
theorem gateSpeculative_off {ctx : EnforceCtx F} {idx : Nat} {req : ModelRequest}
    {resp : ModelResponse} {gates : List (Gate F)} {health : GateHealthRegistry F}
    (h : ∀ g ∈ gates, runs (account health ctx.tenantId g.id) = false) :
    (gateSpeculative ctx idx req resp gates health).1 = [] := by
  induction gates generalizing health with
  | nil => rfl
  | cons g gates ih =>
    obtain ⟨hg, hgates⟩ := List.forall_mem_cons.mp h
    rw [gateSpeculative, enabled_fst, hg, if_neg Bool.false_ne_true]
    refine ih fun g' hg' => ?_
    rw [account_enabled]
    exact hgates g' hg'

-- ---------------------------------------------------------------------------
-- The ladders of a pair
-- ---------------------------------------------------------------------------

variable {s : Setting F} {w : World F} {req base : ModelRequest}

theorem incumbentTrace_servedFrom (halike : Alike s w) :
    (incumbentTrace s w req).final.servedFrom =
      servedFrom (serialLadder (applied (incumbentCtx s w req)) w.incumbentFirst.elapsed
        w.incumbentSecond.elapsed s.incumbentHealth).toLadderRun :=
  servedFrom_serial (incumbentCtx s w req) w.incumbentFirst w.incumbentSecond
    (fun _ => halike.first_finishes) (fun _ => halike.second_finishes) s.incumbentHealth

theorem challengerTrace_servedFrom :
    (challengerTrace s w base).final.servedFrom =
      servedFrom (serialLadder (challengerCtx s w base) w.challengerFirst.elapsed
        w.challengerSecond.elapsed s.challengerHealth).toLadderRun :=
  servedFrom_serial (challengerCtx s w base) w.challengerFirst w.challengerSecond
    (fun h => absurd rfl h) (fun h => absurd rfl h) s.challengerHealth

theorem recordedPair_eq_some {fromStr : ChatRequest.FromStr} {xInc xCh : ℚ}
    (h : recordedPair fromStr s w = some (xInc, xCh)) :
    ∃ req base, inboundRequest fromStr s.endpoint s.request s.carryRaw = some req ∧
      parseModelRequest s.request.body = some base ∧
      Monitor.pairOutcome (incumbentTrace s w req).final.servedFrom = some xInc ∧
      Monitor.challengerOutcome (challengerTrace s w base).final.servedFrom = some xCh := by
  obtain ⟨req, hreq, h⟩ := Option.bind_eq_some_iff.mp h
  obtain ⟨x, hx, h⟩ := Option.bind_eq_some_iff.mp h
  obtain ⟨base, hbase, h⟩ := Option.bind_eq_some_iff.mp h
  obtain ⟨y, hy, heq⟩ := Option.map_eq_some_iff.mp h
  cases heq
  exact ⟨req, base, hreq, hbase, hx, hy⟩

theorem served_of_elastic_none {ctx : EnforceCtx F} {idx : Nat} {asks : ModelRequest}
    {resp : ModelResponse} {health : GateHealthRegistry F} (he : ctx.elastic = none)
    (ht : ctx.serveThreshold = none) :
    Judgment.served ctx (gateSerial ctx idx asks resp health) =
      decide (aggregateWithPolicy (gateSpeculative ctx idx asks resp ctx.gates health).1
        (failClosedIds ctx.gates) = .pass) := by
  rw [gateSerial_of_elastic_none he, Judgment.served, serves]
  simp [shouldServe, ht]

theorem applied_elastic (h : s.speculation = 0 → s.escalation.elastic = none) :
    (applied (incumbentCtx s w req)).elastic = none := by
  rw [applied]
  split_ifs with hspeculation
  · exact h hspeculation
  · rfl

/-- The gates have the same budgets on both sides, for as many rungs. -/
def SameBudgets (s : Setting F) (n : Nat) (hA hB : GateHealthRegistry F) : Prop :=
  ∀ id, SameUpTo (s.gateIds.count id * n) (account hA s.request.tenant id)
    (account hB s.request.tenant id)

theorem decide_inStep (halike : Alike s w) (hdecide : GatesDecide s req) :
    InStep (applied (incumbentCtx s w req)) (challengerCtx s w base) (SameBudgets s) where
  mono := fun n hA hB h id => (h id).mono (Nat.mul_le_mul_left _ (Nat.le_succ n))
  length := halike.incumbent_length.trans halike.challenger_length.symm
  budget := rfl
  rung := fun idx a b ha hb =>
    have h := halike.rung idx a b ha hb req base
    ⟨h.answer, h.cost, h.gates⟩
  judge := by
    rintro idx a b ha hb n asks resp hA hB h
    have helastic : (applied (incumbentCtx s w req)).elastic = none :=
      applied_elastic hdecide.elastic
    have hgates := (halike.rung idx a b ha hb req base).gates
    have hbudgets : ∀ id, SameUpTo ((w.gates.map Gate.id).count id + s.gateIds.count id * n)
        (account hA s.request.tenant id) (account hB s.request.tenant id) := by
      rintro id
      rw [halike.gateIds, Nat.add_comm, ← Nat.mul_succ]
      exact h id
    obtain ⟨hresults, haccounts⟩ := gateSpeculative_inStep (A := applied (incumbentCtx s w req))
      (B := challengerCtx s w base) rfl (fun g hg => hgates g hg asks resp) _ hbudgets
    have hserved : Judgment.served (applied (incumbentCtx s w req))
        (gateSerial (applied (incumbentCtx s w req)) idx { asks with model := a } resp hA) =
        Judgment.served (challengerCtx s w base)
          (gateSerial (challengerCtx s w base) idx { asks with model := b } resp hB) := by
      rw [served_of_elastic_none helastic hdecide.threshold, served_of_elastic_none rfl rfl]
      exact congrArg (fun results => decide (aggregateWithPolicy results
        (failClosedIds w.gates) = .pass)) hresults
    cases hright : Judgment.served (challengerCtx s w base)
        (gateSerial (challengerCtx s w base) idx { asks with model := b } resp hB) with
    | true => exact .served (hserved.trans hright) hright
    | false =>
      refine .escalated (hserved.trans hright) hright ?_ ?_
      · rw [gateSerial_of_elastic_none helastic, gateSerial_of_elastic_none rfl]
        exact hresults
      · rw [gateSerial_of_elastic_none helastic, gateSerial_of_elastic_none rfl]
        exact haccounts

theorem idle_inStep (halike : Alike s w) (hidle : GatesIdle s) :
    InStep (applied (incumbentCtx s w req)) (challengerCtx s w base)
      (fun _ hA hB => hA = s.incumbentHealth ∧ hB = s.challengerHealth) where
  mono := fun _ _ _ h => h
  length := halike.incumbent_length.trans halike.challenger_length.symm
  budget := rfl
  rung := fun idx a b ha hb =>
    have h := halike.rung idx a b ha hb req base
    ⟨h.answer, h.cost, h.gates⟩
  judge := by
    rintro idx a b - - n asks resp hA hB ⟨rfl, rfl⟩
    refine .served (hidle.serves w halike.gateIds req _ idx resp) ?_
    have hoff : ∀ g ∈ w.gates, runs (account s.challengerHealth s.request.tenant g.id) = false :=
      fun g hg => hidle.off g.id (halike.gateIds ▸ List.mem_map_of_mem hg)
    have hnil : (gateSpeculative (challengerCtx s w base) idx { asks with model := b } resp
        (challengerCtx s w base).gates s.challengerHealth).1 = [] := gateSpeculative_off hoff
    rw [served_of_elastic_none rfl rfl, hnil]
    rfl

theorem startOf_incumbent (halike : Alike s w) (hstart : min s.startRung (s.rungs - 1) = 0) :
    startOf (applied (incumbentCtx s w req)) = 0 := by
  rw [startOf, show (applied (incumbentCtx s w req)).ladder = w.incumbent from rfl,
    halike.incumbent_length]
  exact hstart

/-- The ladders of a fair pair serve from the same place. -/
theorem servedFrom_of_fair (halike : Alike s w) (hfair : Fair s req base) :
    (incumbentTrace s w req).final.servedFrom = (challengerTrace s w base).final.servedFrom := by
  rw [incumbentTrace_servedFrom halike, challengerTrace_servedFrom]
  have hstart : startOf (applied (incumbentCtx s w req)) = 0 :=
    startOf_incumbent halike hfair.start
  have hstart' : startOf (challengerCtx s w base) = 0 := Nat.zero_min _
  have hrungs := hfair.rungs
  have hend : rungEnd (applied (incumbentCtx s w req)) = rungEnd (challengerCtx s w base) := by
    rw [rungEnd, rungEnd, hstart, hstart',
      show (applied (incumbentCtx s w req)).ladder = w.incumbent from rfl,
      show (challengerCtx s w base).ladder = w.challenger from rfl, halike.incumbent_length,
      halike.challenger_length]
    exact congrArg (0 + ·) hrungs
  have hzero : s.maxRungs = 0 ↔ s.escalation.maxRungsPerRequest = 0 := by
    have := s.rungs_pos
    omega
  have hcount : (rungsFrom (applied (incumbentCtx s w req))
      (startOf (applied (incumbentCtx s w req)))).length = min s.maxRungs s.rungs := by
    rw [length_rungsFrom, rungEnd, hstart,
      show (applied (incumbentCtx s w req)).ladder = w.incumbent from rfl,
      halike.incumbent_length]
    show min (0 + min s.maxRungs (s.rungs - 0) - 0) (s.rungs - 0) = _
    omega
  let condensed := s.escalation.condense.bind fun cfg =>
    condense (s.baseRequest req) cfg.keepHead cfg.keepTail
  have hextra : ∀ cfg, s.escalation.condense = some cfg →
      (condense (s.baseRequest req) cfg.keepHead cfg.keepTail).isSome →
      (if condensed.isSome then 1 else 0) = 1 := by
    rintro cfg hcfg hsome
    exact if_pos (by simp only [condensed, hcfg, Option.bind_some, hsome])
  have hsteps : ∀ {H : Nat → GateHealthRegistry F → GateHealthRegistry F → Prop},
      InStep (applied (incumbentCtx s w req)) (challengerCtx s w base) H →
      H (s.lookups req) s.incumbentHealth s.challengerHealth →
      servedFrom (serialLadder (applied (incumbentCtx s w req)) w.incumbentFirst.elapsed
        w.incumbentSecond.elapsed s.incumbentHealth).toLadderRun =
      servedFrom (serialLadder (challengerCtx s w base) w.challengerFirst.elapsed
        w.challengerSecond.elapsed s.challengerHealth).toLadderRun := by
    rintro H hstep h
    refine serialLadder_inStep hstep hfair.request.symm rfl (hstart.trans hstart'.symm) hend hzero
      w.incumbentFirst.elapsed w.incumbentSecond.elapsed w.challengerFirst.elapsed
      w.challengerSecond.elapsed (if condensed.isSome then 1 else 0) hextra ?_
    rw [hcount]
    exact h
  rcases hfair.graded with hdecide | hidle
  · refine hsteps (decide_inStep halike hdecide) fun id => ?_
    by_cases hid : id ∈ s.gateIds
    · exact hdecide.budgets id hid
    · rw [List.count_eq_zero_of_not_mem hid, Nat.zero_mul]
      exact fun outcomes hlength => absurd hlength (Nat.not_lt_zero _)
  · exact hsteps (idle_inStep halike hidle) ⟨rfl, rfl⟩

theorem outcomes_eq {source : ServedFrom} {xInc xCh : ℚ}
    (hinc : Monitor.pairOutcome source = some xInc)
    (hch : Monitor.challengerOutcome source = some xCh) : xInc = xCh := by
  cases source with
  | attempt => exact Option.some.inj (hinc.symm.trans hch)
  | bestAttempt => exact Option.some.inj (hinc.symm.trans hch)
  | cache => cases hinc
  | error => cases hinc

/-- A fair pair is symmetric. -/
theorem symmetric_of_fair {fromStr : ChatRequest.FromStr} (h : FairPair fromStr s) :
    Symmetric fromStr s := by
  rintro w halike xInc xCh hpair
  obtain ⟨req, base, hreq, hbase, hinc, hch⟩ := recordedPair_eq_some hpair
  rw [servedFrom_of_fair halike (h req base hreq hbase)] at hinc
  exact outcomes_eq hinc hch

end Firstpass.PairedGrading
