import Firstpass.Proxy.Ceiling
import Firstpass.Proxy.VerifiedCache

/-!
# The calibration pair of a trace

The served attempt is found by its rung, and the first attempt of that rung is taken.
After a condensed retry that is the one of the first pass, where it got that far.
-/

namespace Firstpass

variable {F : Type} [F64 F] {ctx : EnforceCtx F} {first second : Surroundings}
  {health : GateHealthRegistry F}

def attemptScore (a : Attempt F) : F := gateScore a.gates a.verdict

/-- The score of the served attempt, and whether the latest feedback was a pass. -/
def tracePair (trace : Trace F) (deferred : List (DeferredVerdict F)) : Option (F × Bool) :=
  match deferred.getLast? with
  | none => none
  | some last =>
    match trace.final.servedRung with
    | none => none
    | some servedRung =>
      match trace.attempts.find? fun a => a.rung = servedRung with
      | none => none
      | some a => some (attemptScore a, decide (last.verdict = .pass))

/-- The pair of the trace describes the attempt the answer comes from. -/
def PairOfServed (trace : Trace F) (deferred : List (DeferredVerdict F)) (last : DeferredVerdict F) :
    Prop :=
  ∃ a, ServedAttempt trace a ∧
    tracePair trace deferred = some (attemptScore a, decide (last.verdict = .pass))

theorem tracePair_eq {trace : Trace F} (hlast : deferred.getLast? = some last)
    (hserved : trace.final.servedRung = some rung)
    (hfind : (trace.attempts.find? fun a => a.rung = rung) = some a) :
    tracePair trace deferred = some (attemptScore a, decide (last.verdict = .pass)) := by
  simp [tracePair, hlast, hserved, hfind]

/-- Where no key comes twice, what is found under a key is the one entry that has it. -/
theorem find_key [DecidableEq κ] {xs : List α} {key : α → κ} (hnodup : (xs.map key).Nodup)
    (hx : x ∈ xs) : (xs.find? fun y => key y = key x) = some x := by
  induction xs with
  | nil => cases hx
  | cons y xs ih =>
    obtain ⟨hfresh, hrest⟩ := List.nodup_cons.mp hnodup
    rcases List.mem_cons.mp hx with rfl | hx
    · simp
    · have hne : key y ≠ key x := fun heq => hfresh (heq ▸ List.mem_map_of_mem hx)
      simp [hne, ih hrest hx]

theorem Ran.find (h : Ran ctx idx s) (ha : a ∈ s.attempts) :
    (s.attempts.find? fun b => b.rung = a.rung) = some a :=
  find_key (h.rungs ▸ List.nodup_range') ha

/-- The one attempt of the retry is on the tallest rung. -/
theorem retry_rung {c : Condensed} (hrungs : 0 < ctx.maxRungs) (hladder : 0 < ctx.ladder.length)
    (h : EndsRan (retryCtx ctx c.request) s) : ∃ a, s.attempts = [a] ∧ a.rung = topRung ctx := by
  obtain ⟨a, ha⟩ := List.length_eq_one_iff.mp (retry_length hrungs hladder h)
  obtain ⟨idx, -, -, hran⟩ := h
  have hmem : topRung ctx ∈ s.attempts.map Attempt.rung := by
    have hstart : startOf (retryCtx ctx c.request) = topRung ctx := by
      simp [startOf, retryCtx, topRung]
    have hlen := hran.length
    rw [ha, hstart, List.length_singleton] at hlen
    rw [hran.rungs, hstart, ← hlen]
    simp
  rw [ha, List.map_singleton, List.mem_singleton] at hmem
  exact ⟨a, ha, hmem.symm⟩

theorem Ran.find_top (h : Ran ctx idx s) (hidx : startOf ctx < idx) (hend : idx ≤ topRung ctx + 1)
    (htop : ¬ReachedTop ctx s.toLadderRun) :
    (s.attempts.find? fun b => b.rung = topRung ctx) = none := by
  rw [h.reachedTop hidx] at htop
  rw [List.find?_eq_none]
  intro b hb
  have hrung := List.mem_map_of_mem (f := Attempt.rung) hb
  rw [h.rungs, List.mem_range'_1] at hrung
  simp
  omega

/-- The pair describes the served attempt exactly where there was no retry, or the first
pass did not get to the tallest rung, or its attempt there scored as the served one did. -/
theorem trace_pair_iff (ctx : EnforceCtx F) (first second : Surroundings)
    (health : GateHealthRegistry F) (traceId ts : String) (deferred : List (DeferredVerdict F))
    (last : DeferredVerdict F) (hlast : deferred.getLast? = some last)
    (hfrom : (routeEnforce ctx first second health traceId ts).trace.final.servedFrom = .attempt) :
    PairOfServed (routeEnforce ctx first second health traceId ts).trace deferred last ↔
      (retried ctx (runEngine ctx first health).toLadderRun = none ∨
        ¬ReachedTop ctx (runEngine ctx first health).toLadderRun ∨
        ∃ b a, (runEngine ctx first health).attempts.getLast? = some b ∧
          ServedAttempt (routeEnforce ctx first second health traceId ts).trace a ∧
          attemptScore b = attemptScore a) := by
  obtain ⟨rung, resp, hrung, _, _, htrace⟩ := serveDecision_attempt hfrom
  obtain ⟨run, hrun, earlier, a, resp', hat, rfl, _⟩ := runLadder_served hrung
  have hattempts : (routeEnforce ctx first second health traceId ts).trace.attempts =
      earlier ++ [a] := hat
  have hserved : ServedAttempt (routeEnforce ctx first second health traceId ts).trace a := by
    refine ⟨?_, htrace⟩
    rw [hattempts]
    exact List.getLast?_concat
  have hone : ∀ b, ServedAttempt (routeEnforce ctx first second health traceId ts).trace b →
      b = a := fun b hb => Option.some.inj (hb.1.symm.trans hserved.1)
  obtain ⟨hends, -⟩ := runEngine_ran ctx first health
  cases hretry : retried ctx (runEngine ctx first health).toLadderRun with
  | none =>
    refine iff_of_true ⟨a, hserved, tracePair_eq hlast htrace ?_⟩ (.inl rfl)
    obtain ⟨idx, -, -, hran⟩ := hends
    rw [runLadder_once hretry] at hat
    rw [hattempts, ← hat]
    exact hran.find (by rw [hat]; simp)
  | some c =>
    obtain ⟨hover, htwice⟩ := runLadder_twice second hretry
    obtain ⟨idx, hend, hfirst, hran⟩ := hends
    have hpast : startOf ctx < idx := by
      have hlength := List.length_pos_iff.mpr (overflowed_ne_nil hover)
      rw [hran.length] at hlength
      omega
    have hwindow : 0 < ctx.maxRungs ∧ 0 < ctx.ladder.length := by
      unfold rungEnd at hend
      omega
    have htop : idx ≤ topRung ctx + 1 := hend.trans (rungEnd_le_top hwindow.2)
    obtain ⟨a', hretried, htoprung⟩ := retry_rung hwindow.1 hwindow.2
      (runEngine_ran (retryCtx ctx c.request) second (runEngine ctx first health).health).1
    rw [htwice, LoopState.append, hretried] at hat
    obtain ⟨rfl, heq⟩ := List.append_inj' hat rfl
    obtain rfl : a' = a := by simpa using heq
    by_cases hreached : ReachedTop ctx (runEngine ctx first health).toLadderRun
    · obtain ⟨b, hb, hbrung⟩ := Option.map_eq_some_iff.mp hreached
      have hpair : tracePair (routeEnforce ctx first second health traceId ts).trace deferred =
          some (attemptScore b, decide (last.verdict = .pass)) := by
        refine tracePair_eq hlast hserved.2 ?_
        rw [hattempts, htoprung, ← hbrung, List.find?_append,
          hran.find (List.mem_of_getLast? hb), Option.some_or]
      simp only [PairOfServed, hpair, hreached, not_true_eq_false, reduceCtorEq, false_or]
      constructor
      · rintro ⟨a, ha, hsame⟩
        exact ⟨b, a, hb, ha, congrArg Prod.fst (Option.some.inj hsame)⟩
      · rintro ⟨b', a, hb', ha, hscore⟩
        obtain rfl : b' = b := Option.some.inj (hb'.symm.trans hb)
        exact ⟨a, ha, by rw [hscore]⟩
    · refine iff_of_true ⟨a', hserved, tracePair_eq hlast hserved.2 ?_⟩ (.inr (.inl hreached))
      rw [hattempts, List.find?_append, htoprung, hran.find_top hpast htop hreached]
      simp [htoprung]

/-- A provider's abstention scores nothing, so its score is that of the served attempt only
where the latter has none either. -/
theorem attemptScore_abstain (rung : Nat) (model provider reason : String) (ms : Nat) :
    attemptScore (abstainAttempt (F := F) rung model provider reason ms) = 0 := by
  simp [attemptScore, abstainAttempt, GateResult.abstain, gateScore]

-- ---------------------------------------------------------------------------
-- A request that is condensed
-- ---------------------------------------------------------------------------

/-- Four turns overflow every window, three do not. -/
def narrowProvider : Provider where
  id := "acme"
  complete _ req _ :=
    if 3 < req.messages.length then .error (.http 413 "prompt is too long")
    else .ok (sampleAnswer "done")

def condensedCtx : EnforceCtx ℚ :=
  { overflowCtx with
    providers := ⟨fun id => if id = "acme" then some narrowProvider else none⟩
    maxRungs := 2 }

def condensedTrace : Trace ℚ :=
  (routeEnforce condensedCtx ⟨fun _ => 7, sampleSchedule⟩ ⟨fun _ => 7, sampleSchedule⟩
    sampleHealth "t" "now").trace

def passed : DeferredVerdict ℚ := ⟨"ci", .pass, none, "later", "ci"⟩

theorem trace_pair_sample :
    PairOfServed (routeEnforce sampleCtx ⟨fun _ => 7, sampleSchedule⟩ ⟨fun _ => 7, sampleSchedule⟩
      sampleHealth "t" "now").trace [passed] passed :=
  (trace_pair_iff sampleCtx ⟨fun _ => 7, sampleSchedule⟩ ⟨fun _ => 7, sampleSchedule⟩
    sampleHealth "t" "now" [passed] passed rfl (by decide +kernel)).mpr (.inl rfl)

/-- The condensed answer passed its gate, and the pair has the score of the overflow. -/
theorem trace_pair_overflow :
    condensedTrace.final.servedFrom = .attempt ∧
      condensedTrace.attempts.map (fun a => (a.rung, attemptScore a)) = [(0, 0), (1, 0), (1, 1)] ∧
      tracePair condensedTrace [passed] = some (0, true) ∧
      ¬PairOfServed condensedTrace [passed] passed := by
  have hpair : tracePair condensedTrace [passed] = some (0, true) := by decide +kernel
  have hscore : condensedTrace.attempts.getLast?.map attemptScore = some 1 := by decide +kernel
  refine ⟨by decide +kernel, by decide +kernel, hpair, ?_⟩
  rintro ⟨a, ⟨hlast, -⟩, hserved⟩
  rw [hlast, Option.map_some, Option.some.injEq] at hscore
  rw [hpair, hscore] at hserved
  exact absurd (congrArg Prod.fst (Option.some.inj hserved)) (by decide)

end Firstpass
