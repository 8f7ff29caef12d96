import Firstpass.Proxy.LadderTurn

/-!
# The ceiling on attempts

The condensed retry enters the ladder a second time with a window of its own.
`ceiling_iff` says when the attempts of both passes stay below `maxRungs` and the
retry comes after the tallest rung.
-/

namespace Firstpass

variable {F : Type} [F64 F] {ctx : EnforceCtx F} {first second : Surroundings}
  {health : GateHealthRegistry F}

def topRung (ctx : EnforceCtx F) : Nat := ctx.ladder.length - 1

/-- The provider of the tallest rung rejects the request: it overflows its window. -/
def TallestRejects (ctx : EnforceCtx F) : Prop :=
  ∃ err, spawnRung ctx (topRung ctx) = some (.error err) ∧ isContextOverflow err = true

/-- In this log the tallest rung has rejected the request. -/
def TallestRejected (ctx : EnforceCtx F) (log : List ProviderEvent) : Prop :=
  ∃ err, .answer (topRung ctx) (.error err) ∈ log ∧ isContextOverflow err = true

theorem Ran.length (h : Ran ctx idx s) : s.attempts.length = idx - startOf ctx := by
  have hlen := congrArg List.length h.rungs
  simpa using hlen

theorem startOf_le_top (ctx : EnforceCtx F) : startOf ctx ≤ topRung ctx := Nat.min_le_right _ _

theorem rungEnd_le (ctx : EnforceCtx F) : rungEnd ctx - startOf ctx ≤ ctx.maxRungs := by
  unfold rungEnd
  omega

theorem EndsRan.length_le (h : EndsRan ctx s) : s.attempts.length ≤ ctx.maxRungs := by
  obtain ⟨idx, hend, _, hran⟩ := h
  have hwindow := rungEnd_le ctx
  rw [hran.length]
  omega

/-- The retry starts at the tallest rung, so it is one attempt. -/
theorem retry_length {c : Condensed} (hrungs : 0 < ctx.maxRungs) (hladder : 0 < ctx.ladder.length)
    (h : EndsRan (retryCtx ctx c.request) s) : s.attempts.length = 1 := by
  obtain ⟨idx, hend, hfirst, hran⟩ := h
  have hstart : startOf (retryCtx ctx c.request) = topRung ctx := by
    simp [startOf, retryCtx, topRung]
  have hwindow : rungEnd (retryCtx ctx c.request) = topRung ctx + 1 := by
    have hmax : (retryCtx ctx c.request).maxRungs = ctx.maxRungs := rfl
    have hlen : (retryCtx ctx c.request).ladder.length = ctx.ladder.length := rfl
    rw [rungEnd, hstart, hmax, hlen, topRung]
    omega
  rw [hstart, hwindow] at hfirst
  rw [hran.length, hstart]
  have hpast := hfirst (Nat.lt_succ_self _)
  omega

theorem overflowed_ne_nil {run : LadderRun F} (h : overflowedEverywhere run = true) :
    run.attempts ≠ [] := by
  simp only [overflowedEverywhere, Bool.and_eq_true, decide_eq_true_eq] at h
  exact h.1.2

/-- The tallest rung was the last one attempted. -/
def ReachedTop (ctx : EnforceCtx F) (run : LadderRun F) : Prop :=
  run.attempts.getLast?.map Attempt.rung = some (topRung ctx)

theorem Ran.reachedTop (h : Ran ctx idx s) (hidx : startOf ctx < idx) :
    ReachedTop ctx s.toLadderRun ↔ idx = topRung ctx + 1 := by
  have hlast : s.attempts.getLast?.map Attempt.rung = some (idx - 1) := by
    rw [← List.getLast?_map, h.rungs, List.getLast?_range', if_neg (by omega)]
    congr 1
    omega
  rw [ReachedTop, hlast, Option.some.injEq]
  omega

theorem rungEnd_le_top (h : 0 < ctx.ladder.length) : rungEnd ctx ≤ topRung ctx + 1 := by
  have hstart := startOf_le_top ctx
  unfold rungEnd topRung at *
  omega

theorem Ran.rejected_iff (h : Ran ctx idx s) (hover : overflowedEverywhere s.toLadderRun = true)
    (hidx : startOf ctx < idx) (hend : idx ≤ topRung ctx + 1) :
    TallestRejected ctx s.log ↔ idx = topRung ctx + 1 ∧ TallestRejects ctx := by
  constructor
  · rintro ⟨err, hmem, herr⟩
    obtain ⟨hspawn, a, ha, hrung⟩ := h.answered _ _ hmem
    have hwithin := List.mem_map_of_mem (f := Attempt.rung) ha
    rw [h.rungs, hrung, List.mem_range'_1] at hwithin
    exact ⟨by omega, err, hspawn, herr⟩
  · rintro ⟨htop, err, hspawn, herr⟩
    have hlast : topRung ctx ∈ s.attempts.map Attempt.rung := by
      rw [h.rungs, List.mem_range'_1]
      omega
    obtain ⟨a, ha, hrung⟩ := List.mem_map.mp hlast
    obtain ⟨g, hg, hreason⟩ := overflowed_attempts hover a ha
    rcases h.accounted a ha with hquiet | ⟨r, hr, hmem⟩
    · exact (hquiet g hg hreason).elim
    · rw [hrung] at hr hmem
      obtain rfl : r = .error err := Option.some.inj (hr.symm.trans hspawn)
      exact ⟨err, hmem, herr⟩

/-- The ceiling holds exactly where no retry is made, or where the first pass went up
to the tallest rung, was rejected there and has left room for one attempt more. -/
theorem ceiling_iff (ctx : EnforceCtx F) (first second : Surroundings)
    (health : GateHealthRegistry F) (traceId ts : String) :
    ((routeEnforce ctx first second health traceId ts).trace.attempts.length ≤ ctx.maxRungs ∧
      (∀ c, retried ctx (runEngine ctx first health).toLadderRun = some c →
        TallestRejected ctx (runEngine ctx first health).log)) ↔
    (retried ctx (runEngine ctx first health).toLadderRun = none ∨
      (ctx.ladder.length - startOf ctx < ctx.maxRungs ∧
        ReachedTop ctx (runEngine ctx first health).toLadderRun ∧ TallestRejects ctx)) := by
  have hattempts : (routeEnforce ctx first second health traceId ts).trace.attempts =
      (runLadder ctx first second health).attempts := rfl
  obtain ⟨hends, -⟩ := runEngine_ran ctx first health
  cases hretry : retried ctx (runEngine ctx first health).toLadderRun with
  | none =>
    rw [hattempts, runLadder_once hretry]
    exact ⟨fun _ => .inl rfl, fun _ => ⟨hends.length_le, nofun⟩⟩
  | some c =>
    obtain ⟨hover, htwice⟩ := runLadder_twice second hretry
    obtain ⟨idx, hend, -, hran⟩ := hends
    have hnonempty : 0 < idx - startOf ctx := by
      rw [← hran.length]
      exact List.length_pos_iff.mpr (overflowed_ne_nil hover)
    have hwindow : 0 < ctx.maxRungs ∧ startOf ctx < ctx.ladder.length := by
      unfold rungEnd at hend
      omega
    have hladder : 0 < ctx.ladder.length := by omega
    have hlength : (runLadder ctx first second health).attempts.length =
        idx - startOf ctx + 1 := by
      rw [htwice, LoopState.append, List.length_append, hran.length,
        retry_length hwindow.1 hladder (runEngine_ran _ _ _).1]
    have htop := hend.trans (rungEnd_le_top hladder)
    have hlen : ctx.ladder.length = topRung ctx + 1 := by
      unfold topRung
      omega
    rw [hattempts, hlength, hran.reachedTop (by omega), hlen]
    simp only [Option.some.injEq, forall_eq', reduceCtorEq, false_or,
      hran.rejected_iff hover (by omega) htop]
    constructor
    · rintro ⟨hceiling, rfl, hrejects⟩
      exact ⟨by omega, rfl, hrejects⟩
    · rintro ⟨hroom, rfl, hrejects⟩
      exact ⟨by omega, rfl, hrejects⟩

/-- The small window of the first rung is too short, that of the second is not. -/
def overflowProvider : Provider where
  id := "acme"
  complete rung _ _ :=
    if rung = 0 then .error (.http 413 "prompt is too long") else .ok (sampleAnswer "done")

def overflowCtx : EnforceCtx ℚ :=
  { sampleCtx with
    condense := some ⟨1, 1⟩
    baseRequest := { sampleCtx.baseRequest with
      messages := [.text "user" "a", .text "user" "b", .text "user" "c", .text "user" "d"] }
    providers := ⟨fun id => if id = "acme" then some overflowProvider else none⟩
    maxRungs := 1
    speculation := 0 }

/-- One rung is allowed and overflows: the retry goes to a rung that was never tried. -/
theorem ceiling_broken :
    (routeEnforce overflowCtx ⟨fun _ => 7, sampleSchedule⟩ ⟨fun _ => 7, sampleSchedule⟩
      sampleHealth "t" "now").trace.attempts.map Attempt.rung = [0, 1] ∧
    overflowCtx.maxRungs = 1 ∧
    (retried overflowCtx (runEngine overflowCtx ⟨fun _ => 7, sampleSchedule⟩
      sampleHealth).toLadderRun).isSome ∧
    ¬TallestRejected overflowCtx
      (runEngine overflowCtx ⟨fun _ => 7, sampleSchedule⟩ sampleHealth).log := by
  refine ⟨by decide +kernel, rfl, by decide +kernel, ?_⟩
  rintro ⟨err, hmem, -⟩
  obtain ⟨⟨idx, hend, -, hran⟩, -⟩ :=
    runEngine_ran overflowCtx ⟨fun _ => 7, sampleSchedule⟩ sampleHealth
  obtain ⟨hspawn, -⟩ := hran.answered _ _ hmem
  cases (show spawnRung overflowCtx 1 = some (.ok (sampleAnswer "done")) by rfl).symm.trans hspawn

end Firstpass
