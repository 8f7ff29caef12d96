import Firstpass.Proxy.Lockstep

/-!
# Ladders that are steered

A ladder of one model, whose rungs answer what they are told to. Where one rung alone is
reached, its gates decide where the answer is served from.
-/

namespace Firstpass.Lockstep

variable {F : Type} [F64 F]

/-- What a rung answers to a request, apart from its model. -/
abbrev Answers := Nat → ModelRequest → Except ProviderError ModelResponse

structure Steered (ctx : EnforceCtx F) (n : Nat) (model : String) (answer : Answers) : Prop where
  ladder : ctx.ladder = List.replicate n model
  call : ∀ idx req, callAt ctx idx model req = some (answer idx (asked req))
  budget : ctx.budgetPerRequestUsd = none

def unreachable : Except ProviderError ModelResponse := .error (.transport "")

/-- A number of rungs did not answer, and their errors are not for the size of the prompt. -/
structure Unanswered (n : Nat) (s t : LoopState F) : Prop where
  servedRung : t.servedRung = s.servedRung
  best : t.best = s.best
  health : t.health = s.health
  attempts : t.attempts.map overflowed = s.attempts.map overflowed ++ List.replicate n false

section loop

variable {ctx : EnforceCtx F} {n : Nat} {model : String} {answer : Answers}

/-- The rung at `idx` does not answer. -/
def Down (ctx : EnforceCtx F) (answer : Answers) (idx : Nat) : Prop :=
  answer idx (asked ctx.baseRequest) = unreachable

theorem Steered.rung_down (h : Steered ctx n model answer) {idx : Nat}
    (hdown : Down ctx answer idx) (elapsed : Nat → Nat) (s : LoopState F) :
    Unanswered 1 s (serialRung ctx elapsed idx model s).1 ∧
      (serialRung ctx elapsed idx model s).2 = .next := by
  have hcall : callAt ctx idx model ctx.baseRequest = some unreachable := by
    rw [h.call, hdown]
  obtain ⟨hfailed, hflow⟩ := serialRung_error hcall elapsed s
  exact ⟨⟨hfailed.servedRung, hfailed.best, hfailed.health, hfailed.attempts⟩, hflow⟩

theorem Steered.loop_down (h : Steered ctx n model answer) (elapsed : Nat → Nat) (l : Nat)
    {idx : Nat} (hdown : ∀ i, idx ≤ i → i < idx + l → Down ctx answer i) (s : LoopState F) :
    Unanswered l s (serialLoop ctx elapsed (List.replicate l model) idx s) := by
  induction l generalizing idx s with
  | zero => exact ⟨rfl, rfl, rfl, (List.append_nil _).symm⟩
  | succ l ih =>
    obtain ⟨hrung, hflow⟩ := h.rung_down (hdown idx (Nat.le_refl _) (by omega)) elapsed s
    rw [List.replicate_succ, serialLoop]
    generalize serialRung ctx elapsed idx model s = x at *
    obtain ⟨u, flow⟩ := x
    obtain rfl : flow = .next := hflow
    have hrest : Unanswered l u (serialLoop ctx elapsed (List.replicate l model) (idx + 1) u) :=
      ih (fun i hi hlt => hdown i (by omega) (by omega)) u
    refine ⟨hrest.servedRung.trans hrung.servedRung, hrest.best.trans hrung.best,
      hrest.health.trans hrung.health, ?_⟩
    rw [hrest.attempts, hrung.attempts, List.append_assoc, List.replicate_succ]
    rfl

/-- The judgment of the answer of rung `k`. -/
def judged (ctx : EnforceCtx F) (model : String) (k : Nat) (resp : ModelResponse)
    (health : GateHealthRegistry F) : Judgment F :=
  gateSerial ctx k (requestFor ctx model) resp health

theorem Steered.rung_ok (h : Steered ctx n model answer) {k : Nat} {resp : ModelResponse}
    (hok : answer k (asked ctx.baseRequest) = .ok resp) (elapsed : Nat → Nat) (s : LoopState F) :
    Gated ctx k (modelCost ctx model resp) (judged ctx model k resp s.health) s
      (serialRung ctx elapsed k model s).1 (serialRung ctx elapsed k model s).2 :=
  serialRung_ok (by rw [h.call, hok]) elapsed s

/-- Without a cap the ladder climbs until an answer is served. -/
theorem Steered.flow (h : Steered ctx n model answer) {k : Nat} {cost : F} {out : Judgment F}
    {s t : LoopState F} {flow : Flow} (hgated : Gated ctx k cost out s t flow)
    (hserved : out.served ctx = false) : flow = .next := by
  obtain ⟨-, hflow⟩ := hgated.escalated hserved
  rw [hflow, overBudget, h.budget]
  rfl

/-- What a run ends with whose one answer was judged. -/
structure Concluded (served : Bool) (t : LoopState F) : Prop where
  servedRung : t.servedRung.isSome = served
  best : t.best.isSome = true
  quiet : false ∈ t.attempts.map overflowed

theorem Steered.loop_judged (h : Steered ctx n model answer) (elapsed : Nat → Nat) (l : Nat)
    {idx k : Nat} {resp : ModelResponse} (hk : idx ≤ k ∧ k < idx + l)
    (hbefore : ∀ i, idx ≤ i → i < k → Down ctx answer i)
    (hok : answer k (asked ctx.baseRequest) = .ok resp) (s : LoopState F)
    (hnone : s.servedRung = none)
    (hquiet : (judged ctx model k resp s.health).overflow = false)
    (hafter : (judged ctx model k resp s.health).served ctx = false →
      ∀ i, k < i → Down ctx answer i) :
    Concluded ((judged ctx model k resp s.health).served ctx)
      (serialLoop ctx elapsed (List.replicate l model) idx s) := by
  induction l generalizing idx s with
  | zero => omega
  | succ l ih =>
    rw [List.replicate_succ, serialLoop]
    rcases Nat.lt_or_eq_of_le hk.1 with hlt | rfl
    · obtain ⟨hrung, hflow⟩ := h.rung_down (hbefore idx (Nat.le_refl _) hlt) elapsed s
      generalize serialRung ctx elapsed idx model s = x at *
      obtain ⟨u, flow⟩ := x
      obtain rfl : flow = .next := hflow
      rw [← hrung.health] at hquiet hafter ⊢
      exact ih (by omega) (fun i hi hlt => hbefore i (by omega) hlt) u
        (hrung.servedRung.trans hnone) hquiet hafter
    · have hgated := h.rung_ok hok elapsed s
      generalize serialRung ctx elapsed idx model s = x at *
      obtain ⟨u, flow⟩ := x
      have hmem : false ∈ u.attempts.map overflowed := by
        rw [hgated.attempts, hquiet]
        exact List.mem_append_right _ List.mem_cons_self
      cases hserved : (judged ctx model idx resp s.health).served ctx with
      | true =>
        obtain ⟨hrung, rfl⟩ := hgated.served hserved
        exact ⟨hrung, hgated.best, hmem⟩
      | false =>
        obtain rfl := h.flow hgated hserved
        obtain ⟨hrung, -⟩ := hgated.escalated hserved
        have hrest := h.loop_down elapsed l (fun i hi _ => hafter hserved i hi) u
        refine ⟨?_, hrest.best ▸ hgated.best, ?_⟩
        · dsimp only at hrung ⊢
          rw [hrest.servedRung, hrung, hnone]
          rfl
        · rw [hrest.attempts]
          exact List.mem_append_left _ hmem

-- ---------------------------------------------------------------------------
-- Runs
-- ---------------------------------------------------------------------------

theorem Steered.rungsFrom (h : Steered ctx n model answer) (idx : Nat) :
    rungsFrom ctx idx = List.replicate (min (rungEnd ctx - idx) (n - idx)) model := by
  rw [Firstpass.rungsFrom, h.ladder, List.drop_replicate, List.take_replicate]

theorem overflowedEverywhere_quiet {run : LadderRun F} (h : false ∈ run.attempts.map overflowed) :
    overflowedEverywhere run = false := by
  obtain ⟨a, ha, hquiet⟩ := List.mem_map.mp h
  rw [overflowedEverywhere, Bool.and_eq_false_iff]
  refine .inr (List.all_eq_false.mpr ⟨a, ha, ?_⟩)
  exact Bool.eq_false_iff.mp hquiet

theorem serialLadder_quiet {first second : Nat → Nat} {health : GateHealthRegistry F}
    (h : overflowedEverywhere (runSerial ctx first health).toLadderRun = false) :
    serialLadder ctx first second health = runSerial ctx first health := by
  rw [serialLadder]
  cases ctx.condense with
  | none => rfl
  | some cfg => exact if_neg (by rw [h]; exact Bool.false_ne_true)

theorem Steered.runSerial (h : Steered ctx n model answer) (elapsed : Nat → Nat)
    (health : GateHealthRegistry F) :
    runSerial ctx elapsed health = serialLoop ctx elapsed
      (List.replicate (rungEnd ctx - startOf ctx) model) (startOf ctx) (.init health) := by
  have hlength : min (rungEnd ctx - startOf ctx) (n - startOf ctx) =
      rungEnd ctx - startOf ctx := by
    rw [rungEnd, h.ladder, List.length_replicate]
    omega
  rw [Firstpass.runSerial, h.rungsFrom, hlength]

theorem servedFrom_answered {run : LadderRun F} (h : run.best.isSome = true) :
    servedFrom run = if run.servedRung.isSome then .attempt else .bestAttempt := by
  obtain ⟨answered, hbest⟩ := Option.isSome_iff_exists.mp h
  rw [servedFrom, serveDecision, hbest]
  cases run.servedRung <;> rfl

/-- One answer is judged, and served as it is judged. -/
theorem Steered.servedFrom_judged (h : Steered ctx n model answer) {k : Nat}
    {resp : ModelResponse} (hk : startOf ctx ≤ k ∧ k < rungEnd ctx)
    (hbefore : ∀ i, startOf ctx ≤ i → i < k → Down ctx answer i)
    (hok : answer k (asked ctx.baseRequest) = .ok resp) (first second : Nat → Nat)
    (health : GateHealthRegistry F) (hquiet : (judged ctx model k resp health).overflow = false)
    (hafter : (judged ctx model k resp health).served ctx = false →
      ∀ i, k < i → Down ctx answer i) :
    servedFrom (serialLadder ctx first second health).toLadderRun =
      if (judged ctx model k resp health).served ctx then .attempt else .bestAttempt := by
  have hrun := h.loop_judged first (rungEnd ctx - startOf ctx) (by omega) hbefore hok
    (.init health) rfl hquiet hafter
  rw [← h.runSerial] at hrun
  rw [serialLadder_quiet (overflowedEverywhere_quiet hrun.quiet), servedFrom_answered hrun.best,
    hrun.servedRung]
  rfl

/-- A run without an answer. -/
theorem servedFrom_unanswered {l : Nat} {first second : Nat → Nat}
    {health : GateHealthRegistry F}
    (h : Unanswered l (.init health) (Firstpass.runSerial ctx first health)) :
    servedFrom (serialLadder ctx first second health).toLadderRun = .error := by
  have hquiet : overflowedEverywhere (Firstpass.runSerial ctx first health).toLadderRun =
      false := by
    cases l with
    | zero =>
      have hnil := List.map_eq_nil_iff.mp h.attempts
      simp [overflowedEverywhere, hnil]
    | succ l =>
      refine overflowedEverywhere_quiet ?_
      rw [h.attempts]
      exact List.mem_append_right _ List.mem_cons_self
  rw [serialLadder_quiet hquiet, servedFrom, serveDecision, h.servedRung, h.best]
  rfl

theorem Steered.servedFrom_down (h : Steered ctx n model answer)
    (hdown : ∀ i, startOf ctx ≤ i → i < rungEnd ctx → Down ctx answer i)
    (first second : Nat → Nat) (health : GateHealthRegistry F) :
    servedFrom (serialLadder ctx first second health).toLadderRun = .error := by
  have hrun := h.loop_down first (rungEnd ctx - startOf ctx)
    (fun i hi hlt => hdown i hi (by omega)) (.init health)
  rw [← h.runSerial] at hrun
  exact servedFrom_unanswered hrun

/-- A first rung that refuses the request ends the run. -/
theorem Steered.servedFrom_refused (h : Steered ctx n model answer) {err : ProviderError}
    (hrungs : startOf ctx < rungEnd ctx)
    (hrefused : answer (startOf ctx) (asked ctx.baseRequest) = .error err)
    (hhard : failing err = (false, .stop)) (first second : Nat → Nat)
    (health : GateHealthRegistry F) :
    servedFrom (serialLadder ctx first second health).toLadderRun = .error := by
  have hcall : callAt ctx (startOf ctx) model ctx.baseRequest = some (.error err) := by
    rw [h.call, hrefused]
  obtain ⟨hfailed, hflow⟩ := serialRung_error hcall first (.init health)
  obtain ⟨l, hl⟩ : ∃ l, rungEnd ctx - startOf ctx = l + 1 :=
    ⟨rungEnd ctx - startOf ctx - 1, by omega⟩
  refine servedFrom_unanswered (l := 1) ?_
  rw [h.runSerial, hl, List.replicate_succ, serialLoop]
  rw [hhard] at hfailed hflow
  generalize serialRung ctx first (startOf ctx) model (.init health) = x at *
  obtain ⟨u, flow⟩ := x
  obtain rfl : flow = .stop := hflow
  exact ⟨hfailed.servedRung, hfailed.best, hfailed.health, hfailed.attempts⟩

end loop

end Firstpass.Lockstep
