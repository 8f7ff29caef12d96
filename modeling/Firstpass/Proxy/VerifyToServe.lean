import Firstpass.Proxy.RouterLaws

/-!
# Verify to serve

`Climbing` holds as long as a ladder run goes on, `Finished` once it has
stopped, in either engine. `verify_to_serve` reads off them what an answer
served from an attempt rests on, and that nothing follows a hard error.
-/

namespace Firstpass

variable {F : Type} [F64 F] {ctx : EnforceCtx F}

-- ---------------------------------------------------------------------------
-- Attempts
-- ---------------------------------------------------------------------------

/-- A provider error that is neither failed over nor a context overflow. -/
def Hard (err : ProviderError) : Prop :=
  err.isFailoverEligible = false ∧ isContextOverflow err = false

def AbstainsFor (a : Attempt F) (reason : String) : Prop :=
  ∃ ms, a = abstainAttempt a.rung a.model a.provider reason ms

def ProviderAbstain (a : Attempt F) : Prop := ∃ reason, AbstainsFor a reason

/-- The attempt was passed over: its provider abstained, or its gates failed it. -/
def Escalated (ctx : EnforceCtx F) (a : Attempt F) : Prop :=
  ProviderAbstain a ∨
    a.verdict = .fail ∧ aggregateWithPolicy a.gates (failClosedIds ctx.gates) = .fail

/-- The attempt called the model of its rung, which answered `resp`, and none
of the gates that ran on it blocks. -/
structure Verified (ctx : EnforceCtx F) (a : Attempt F) (resp : ModelResponse) : Prop where
  model : ctx.ladder[a.rung]? = some a.model
  answered : ∃ provider, resolveProvider ctx a.model = some provider ∧
    a.provider = provider.id ∧ answerOf ctx a.rung a.model provider = .ok resp
  verdict : a.verdict = .pass
  clears : ∀ g ∈ a.gates, Clears ctx.gates g

-- ---------------------------------------------------------------------------
-- The invariants of a ladder run
-- ---------------------------------------------------------------------------

/-- A run that is about to attempt rung `idx`. -/
structure Climbing (ctx : EnforceCtx F) (idx : Nat) (s : LoopState F) : Prop where
  start_le : startOf ctx ≤ idx
  rungs : s.attempts.map Attempt.rung = List.range' (startOf ctx) (idx - startOf ctx)
  escalated : ∀ a ∈ s.attempts, Escalated ctx a
  notServed : s.servedRung = none
  noHard : ∀ rung err, .answer rung (.error err) ∈ s.log → ¬ Hard err

/-- The served rung is the last attempt, verified, and all before it escalated. -/
def ServedLast (ctx : EnforceCtx F) (s : LoopState F) (rung : Nat) : Prop :=
  ∃ earlier a resp, s.attempts = earlier ++ [a] ∧ a.rung = rung ∧ s.best = some (rung, resp) ∧
    Verified ctx a resp ∧ ∀ b ∈ earlier, Escalated ctx b

/-- The hard error is the last event, and its abstain the last attempt. -/
def HardLast (s : LoopState F) (rung : Nat) (back : List ProviderEvent) : Prop :=
  back = [] ∧ s.servedRung = none ∧
    ∃ earlier a, s.attempts = earlier ++ [a] ∧ a.rung = rung ∧
      AbstainsFor a Reason.providerError

structure Finished (ctx : EnforceCtx F) (s : LoopState F) : Prop where
  rungs : s.attempts.map Attempt.rung = List.range' (startOf ctx) s.attempts.length
  served : ∀ rung, s.servedRung = some rung → ServedLast ctx s rung
  hard : ∀ front rung err back, s.log = front ++ .answer rung (.error err) :: back → Hard err →
    HardLast s rung back

theorem Climbing.init : Climbing ctx (startOf ctx) (.init health) where
  start_le := Nat.le_refl _
  rungs := by simp [LoopState.init]
  escalated := by simp [LoopState.init]
  notServed := rfl
  noHard := by simp [LoopState.init]

theorem Climbing.calls (h : Climbing ctx idx s) (js : List Nat) :
    Climbing ctx idx (s.logged (js.map .call)) where
  start_le := h.start_le
  rungs := h.rungs
  escalated := h.escalated
  notServed := h.notServed
  noHard := by
    intro rung err hmem
    refine h.noHard rung err ?_
    simpa [LoopState.logged] using hmem

theorem rungs_append {as : List (Attempt F)} (hidx : startOf ctx ≤ idx)
    (hr : as.map Attempt.rung = List.range' (startOf ctx) (idx - startOf ctx)) (ha : a.rung = idx) :
    (as ++ [a]).map Attempt.rung = List.range' (startOf ctx) (idx + 1 - startOf ctx) := by
  rw [show idx + 1 - startOf ctx = (idx - startOf ctx) + 1 by omega, List.range'_concat, ← hr,
    List.map_append, List.map_singleton, ha]
  simp [Nat.add_sub_cancel' hidx]

theorem range'_length {as : List (Attempt F)} (h : as.map Attempt.rung = List.range' start n) :
    as.map Attempt.rung = List.range' start as.length := by
  have hlen : as.length = n := by simpa using congrArg List.length h
  rw [h, hlen]

theorem Climbing.abstain (h : Climbing ctx idx s) (model provider reason : String) (ms : Nat) :
    Climbing ctx (idx + 1) (s.abstain idx model provider reason ms) where
  start_le := by have := h.start_le; omega
  rungs := rungs_append h.start_le h.rungs rfl
  escalated := by
    intro a ha
    cases List.mem_append.mp ha with
    | inl ha =>
      exact h.escalated a ha
    | inr ha =>
      obtain rfl := List.mem_singleton.mp ha
      exact .inl ⟨reason, ms, rfl⟩
  notServed := h.notServed
  noHard := h.noHard

theorem Climbing.answered (result : Except ProviderError ModelResponse) (h : Climbing ctx idx s)
    (hr : ∀ err, result = .error err → ¬ Hard err) :
    Climbing ctx idx (s.logged [.answer idx result]) where
  start_le := h.start_le
  rungs := h.rungs
  escalated := h.escalated
  notServed := h.notServed
  noHard := by
    intro rung err hmem
    cases List.mem_append.mp hmem with
    | inl hmem =>
      exact h.noHard rung err hmem
    | inr hmem =>
      obtain ⟨_, rfl⟩ : rung = idx ∧ .error err = result := by simpa using hmem
      exact hr err rfl

theorem Climbing.finished (h : Climbing ctx idx s) : Finished ctx s where
  rungs := range'_length h.rungs
  served := by intro rung hs; rw [h.notServed] at hs; cases hs
  hard := by
    intro front rung err back hlog hh
    exact absurd hh (h.noHard rung err (by simp [hlog]))

theorem shouldServe_none (ht : ctx.serveThreshold = none) :
    shouldServe ctx.serveThreshold results verdict = true ↔ verdict = .pass := by
  simp [shouldServe, ht]

-- ---------------------------------------------------------------------------
-- One answer
-- ---------------------------------------------------------------------------

theorem Climbing.gated (model provider : String) (resp : ModelResponse) (ms : Nat) (cost : F)
    (health : GateHealthRegistry F) (h : Climbing ctx idx s)
    (hfail : aggregateWithPolicy results (failClosedIds ctx.gates) = .fail) :
    Climbing ctx (idx + 1) { s.gated idx model provider resp ms cost results
      (aggregateWithPolicy results (failClosedIds ctx.gates)) with health } where
  start_le := by have := h.start_le; omega
  rungs := rungs_append h.start_le h.rungs rfl
  escalated := by
    intro a ha
    cases List.mem_append.mp ha with
    | inl ha =>
      exact h.escalated a ha
    | inr ha =>
      obtain rfl := List.mem_singleton.mp ha
      exact .inr ⟨hfail, hfail⟩
  notServed := h.notServed
  noHard := h.noHard

theorem Climbing.served (h : Climbing ctx idx s) (hm : ctx.ladder[idx]? = some model)
    (hp : resolveProvider ctx model = some provider)
    (hans : answerOf ctx idx model provider = .ok resp)
    (hpass : aggregateWithPolicy results (failClosedIds ctx.gates) = .pass) :
    Finished ctx { s.gated idx model provider.id resp ms cost results
      (aggregateWithPolicy results (failClosedIds ctx.gates)) with
        health, servedRung := some idx } where
  rungs := range'_length (rungs_append h.start_le h.rungs rfl)
  served := by
    rintro rung ⟨⟩
    exact ⟨s.attempts, _, resp, rfl, rfl, rfl,
      ⟨hm, ⟨provider, hp, rfl, hans⟩, hpass, aggregateWithPolicy_eq_pass.mp hpass⟩, h.escalated⟩
  hard := by
    intro front rung err back hlog hh
    have hmem : .answer rung (.error err) ∈ s.log := by
      rw [show s.log = front ++ .answer rung (.error err) :: back from hlog]; simp
    exact absurd hh (h.noHard rung err hmem)

theorem split_concat {xs : List α} (h : xs ++ [y] = front ++ x :: back) (hx : x ∉ xs) :
    back = [] ∧ x = y := by
  cases back using List.reverseRecOn with
  | nil => exact ⟨rfl, (List.append_inj_right' h rfl |> List.cons.inj).1.symm⟩
  | append_singleton back' z =>
    have h' : xs ++ [y] = (front ++ x :: back') ++ [z] := by simpa using h
    have hcut : xs = front ++ x :: back' := (List.append_inj' h' rfl).1
    exact absurd (by simp [hcut]) hx

theorem Climbing.hard (h : Climbing ctx idx s) (hh : Hard err) :
    Finished ctx { (s.logged [.answer idx (.error err)]).abstain idx model provider
      (hardReason err).1 ms with hardError } where
  rungs := range'_length (rungs_append h.start_le h.rungs rfl)
  served := by
    intro rung hs
    have hnone : s.servedRung = none := h.notServed
    simp_all [LoopState.abstain, LoopState.logged]
  hard := by
    intro front rung err' back hlog hh'
    have hnew : .answer rung (.error err') ∉ s.log := fun hm => h.noHard rung err' hm hh'
    obtain ⟨rfl, heq⟩ := split_concat hlog hnew
    obtain ⟨rfl, _⟩ : rung = idx ∧ err' = err := by simpa using heq
    have hreason : (hardReason err).1 = Reason.providerError := by cases err <;> rfl
    exact ⟨rfl, h.notServed, s.attempts, _, rfl, rfl, ms, by rw [hreason]; rfl⟩

theorem Climbing.settle (h : Climbing ctx idx s) (ht : ctx.serveThreshold = none)
    (hm : ctx.ladder[idx]? = some model) (hp : resolveProvider ctx model = some provider)
    (hout : settle ctx idx model provider.id (answerOf ctx idx model provider) ms
      (s.logged [.answer idx (answerOf ctx idx model provider)]) = out) :
    (out.2 = .next → Climbing ctx (idx + 1) out.1) ∧ (out.2 = .stop → Finished ctx out.1) := by
  subst hout
  cases hans : answerOf ctx idx model provider with
  | error err =>
    by_cases hf : err.isFailoverEligible = true
    · have hsoft := h.answered (.error err) (by rintro _ ⟨⟩ ⟨hf', _⟩; simp_all)
      simpa [Firstpass.settle, hf] using hsoft.abstain model provider.id Reason.providerError ms
    · by_cases ho : isContextOverflow err = true
      · have hsoft := h.answered (.error err) (by rintro _ ⟨⟩ ⟨_, ho'⟩; simp_all)
        simpa [Firstpass.settle, hf, ho] using
          hsoft.abstain model provider.id Reason.contextOverflow ms
      · simpa [Firstpass.settle, hf, ho] using h.hard ⟨by simpa using hf, by simpa using ho⟩
  | ok resp =>
    have hsoft := h.answered (.ok resp) (by rintro _ ⟨⟩)
    simp only [Firstpass.settle]
    generalize gateSpeculative ctx idx (requestFor ctx model) resp ctx.gates _ = gates
    unfold LoopState.conclude
    split
    · rename_i hserve
      have hpass := (shouldServe_none ht).mp hserve
      exact ⟨by rintro ⟨⟩, fun _ => hsoft.served hm hp hans hpass⟩
    · rename_i hserve
      have hfail := aggregateWithPolicy_ne_pass.mp (fun hp => hserve ((shouldServe_none ht).mpr hp))
      have hnext := hsoft.gated model provider.id resp ms (modelCost ctx model resp) gates.2 hfail
      split
      · exact ⟨by rintro ⟨⟩, fun _ => hnext.finished⟩
      · exact ⟨fun _ => hnext, by rintro ⟨⟩⟩

-- ---------------------------------------------------------------------------
-- The loops
-- ---------------------------------------------------------------------------

theorem rungsFrom_cons (h : rungsFrom ctx idx = model :: rest) :
    ctx.ladder[idx]? = some model ∧ idx < rungEnd ctx ∧ rest = rungsFrom ctx (idx + 1) := by
  unfold rungsFrom at h ⊢
  obtain ⟨n, hn⟩ : ∃ n, rungEnd ctx - idx = n + 1 := by
    refine ⟨rungEnd ctx - idx - 1, ?_⟩
    rcases Nat.eq_zero_or_pos (rungEnd ctx - idx) with hz | hpos
    · simp [hz] at h
    · omega
  have hlt : idx < ctx.ladder.length := by
    by_contra hge
    rw [List.drop_eq_nil_of_le (Nat.le_of_not_lt hge)] at h
    simp at h
  rw [hn, List.drop_eq_getElem_cons hlt, List.take_succ_cons, List.cons.injEq] at h
  obtain ⟨rfl, rfl⟩ := h
  refine ⟨List.getElem?_eq_getElem hlt, by omega, ?_⟩
  rw [show rungEnd ctx - (idx + 1) = n by omega]

theorem serialRung_climbing (elapsed : Nat → Nat) (h : Climbing ctx idx s) (he : ctx.elastic = none)
    (hs : s.elastic = none) (ht : ctx.serveThreshold = none) (hm : ctx.ladder[idx]? = some model)
    (hout : serialRung ctx elapsed idx model s = out) :
    out.1.elastic = none ∧ (out.2 = .next → Climbing ctx (idx + 1) out.1) ∧
      (out.2 = .stop → Finished ctx out.1) := by
  cases hp : resolveProvider ctx model with
  | none =>
    rw [serialRung_unknown hp] at hout
    subst hout
    exact ⟨hs, fun _ => h.abstain _ _ _ _, by rintro ⟨⟩⟩
  | some provider =>
    rw [serialRung_eq he hs hp] at hout
    have hcall := h.calls [idx]
    have hlog : s.logged [.call idx, .answer idx (answerOf ctx idx model provider)] =
        (s.logged ([idx].map .call)).logged [.answer idx (answerOf ctx idx model provider)] := by
      simp [LoopState.logged]
    rw [hlog] at hout
    exact ⟨hout ▸ (settle_frame _ _ _ _ _ _ _).2.1.trans hs, hcall.settle ht hm hp hout⟩

theorem serialLoop_finished (he : ctx.elastic = none) (ht : ctx.serveThreshold = none)
    (h : Climbing ctx idx s) (hs : s.elastic = none) (hrest : rest = rungsFrom ctx idx) :
    Finished ctx (serialLoop ctx elapsed rest idx s) := by
  induction rest generalizing idx s with
  | nil => exact h.finished
  | cons model rest ih =>
    obtain ⟨hm, _, hnext⟩ := rungsFrom_cons hrest.symm
    obtain ⟨hel, hclimb, hstop⟩ := serialRung_climbing elapsed h he hs ht hm rfl
    simp only [serialLoop]
    split
    · rename_i t heq
      rw [heq] at hel hclimb
      exact ih (hclimb rfl) hel hnext
    · rename_i t heq
      rw [heq] at hstop
      exact hstop rfl

theorem fireWindow_climbing {s : SpecState F} (h : Climbing ctx idx s.toLoopState) :
    Climbing ctx idx (fireWindow ctx idx s).toLoopState := by
  obtain ⟨js, hjs⟩ := fireWindow_eq ctx idx s
  rw [hjs]
  exact h.calls js

theorem specRung_climbing (sched : Schedule) (elapsed : Nat → Nat) {s : SpecState F}
    (h : Climbing ctx idx s.toLoopState)
    (hin : Inflight ctx idx s) (ht : ctx.serveThreshold = none)
    (hm : ctx.ladder[idx]? = some model) (hidx : idx < rungEnd ctx)
    (hout : specRung ctx sched elapsed idx model s = out) :
    (out.2 = .next → Climbing ctx (idx + 1) out.1.toLoopState) ∧
      (out.2 = .stop → Finished ctx out.1.toLoopState) := by
  have hfire := fireWindow_climbing h
  subst hout
  cases hp : resolveProvider ctx model with
  | none =>
    rw [specRung_unknown hp]
    exact ⟨fun _ => hfire.abstain _ _ _ _, by rintro ⟨⟩⟩
  | some provider =>
    cases hpanic : sched.panicked idx with
    | true =>
      rw [specRung_panicked hin hidx hm hp hpanic]
      exact ⟨fun _ => hfire.abstain _ _ _ _, by rintro ⟨⟩⟩
    | false =>
      rw [specRung_eq hin hidx hm hp hpanic]
      exact hfire.settle ht hm hp rfl

theorem specLoop_finished {s : SpecState F} (ht : ctx.serveThreshold = none)
    (h : Climbing ctx idx s.toLoopState) (hin : Inflight ctx idx s)
    (hrest : rest = rungsFrom ctx idx) :
    Finished ctx (specLoop ctx sched elapsed rest idx s).toLoopState := by
  induction rest generalizing idx s with
  | nil => exact h.finished
  | cons model rest ih =>
    obtain ⟨hm, hidx, hnext⟩ := rungsFrom_cons hrest.symm
    obtain ⟨hclimb, hstop⟩ := specRung_climbing sched elapsed h hin ht hm hidx rfl
    have hin' := specRung_inflight sched elapsed hin hidx hm
    simp only [specLoop]
    split
    · rename_i t heq
      rw [heq] at hclimb hin'
      exact ih (hclimb rfl) hin' hnext
    · rename_i t heq
      rw [heq] at hstop
      exact hstop rfl

theorem Finished.spent (h : Finished ctx s) : Finished ctx { s with spent := total } where
  rungs := h.rungs
  served := h.served
  hard := h.hard

theorem runEngine_finished (env : Surroundings) (health : GateHealthRegistry F)
    (he : ctx.elastic = none) (ht : ctx.serveThreshold = none) :
    Finished ctx (runEngine ctx env health) := by
  unfold runEngine
  split
  · exact serialLoop_finished he ht .init rfl rfl
  · exact (specLoop_finished ht .init (.init _ _) rfl).spent

-- ---------------------------------------------------------------------------
-- The decision
-- ---------------------------------------------------------------------------

/-- The ladder run the decision rests on, and the attempts before it: the only
run, or the condensed retry of a run that overflowed everywhere. -/
inductive LastRun (ctx : EnforceCtx F) : EnforceCtx F → List (Attempt F) → Prop
  | first : LastRun ctx ctx []
  | retry : ctx.condense = some cfg →
      condense ctx.baseRequest cfg.keepHead cfg.keepTail = some c →
      (∀ b ∈ before, ∃ g ∈ b.gates, g.reason = some Reason.contextOverflow) →
      LastRun ctx (retryCtx ctx c.request) before

theorem HardLast.not_overflowed {s : LoopState F} (h : HardLast s rung back) :
    overflowedEverywhere s.toLadderRun = false := by
  obtain ⟨_, _, earlier, a, hat, _, ms, ha⟩ := h
  have hno : (a.gates.any fun g => g.reason = some Reason.contextOverflow) = false := by
    rw [ha]
    simp [abstainAttempt, GateResult.abstain, Reason.providerError, Reason.contextOverflow]
  simp [overflowedEverywhere, hat, hno]

theorem overflowed_attempts {run : LadderRun F} (h : overflowedEverywhere run = true) :
    ∀ b ∈ run.attempts, ∃ g ∈ b.gates, g.reason = some Reason.contextOverflow := by
  simp only [overflowedEverywhere, Bool.and_eq_true, List.all_eq_true, List.any_eq_true,
    decide_eq_true_eq] at h
  exact h.2

theorem runLadder_finished (first second : Surroundings) (health : GateHealthRegistry F)
    (he : ctx.elastic = none) (ht : ctx.serveThreshold = none) :
    ∃ run before quiet s, LastRun ctx run before ∧ Finished run s ∧
      (∀ rung err, .answer rung (.error err) ∈ quiet → ¬ Hard err) ∧
      (runLadder ctx first second health).attempts = before ++ s.attempts ∧
      (runLadder ctx first second health).servedRung = s.servedRung ∧
      (runLadder ctx first second health).best = s.best ∧
      (runLadder ctx first second health).log = quiet ++ s.log := by
  have hfirst := runEngine_finished first health he ht
  generalize hrun : runEngine ctx first health = s at hfirst
  unfold runLadder
  simp only [hrun]
  split
  · exact ⟨ctx, [], [], s, .first, hfirst, by simp, rfl, rfl, rfl, rfl⟩
  · rename_i cfg hcfg
    split
    · rename_i hover
      split
      · exact ⟨ctx, [], [], s, .first, hfirst, by simp, rfl, rfl, rfl, rfl⟩
      · rename_i c hc
        refine ⟨retryCtx ctx c.request, s.attempts, s.log, _,
          .retry hcfg hc (overflowed_attempts hover), runEngine_finished _ _ he ht, ?_, rfl, rfl,
          rfl, rfl⟩
        intro rung err hmem hh
        obtain ⟨front, back, hlog⟩ := List.append_of_mem hmem
        have hlast := hfirst.hard front rung err back hlog hh
        rw [hlast.not_overflowed] at hover
        cases hover
    · exact ⟨ctx, [], [], s, .first, hfirst, by simp, rfl, rfl, rfl, rfl⟩

theorem split_after {quiet rest : List α} (h : quiet ++ rest = front ++ x :: back)
    (hx : x ∉ quiet) : ∃ front', rest = front' ++ x :: back := by
  rcases List.append_eq_append_iff.mp h with ⟨cut, rfl, hrest⟩ | ⟨cut, rfl, hrest⟩
  · exact ⟨cut, hrest⟩
  · cases cut with
    | nil => exact ⟨[], hrest.symm⟩
    | cons y cut =>
      obtain ⟨rfl, _⟩ := List.cons.inj hrest
      exact absurd (by simp) hx

/-- What a decision served from an attempt rests on. -/
structure ServedFromAttempt (ctx : EnforceCtx F) (out : Routed F) (run : EnforceCtx F)
    (before earlier : List (Attempt F)) (a : Attempt F) (resp : ModelResponse) : Prop where
  lastRun : LastRun ctx run before
  attempts : out.trace.attempts = before ++ (earlier ++ [a])
  servedRung : out.trace.final.servedRung = some a.rung
  outcome : out.outcome = .served resp
  verified : Verified run a resp
  escalated : ∀ b ∈ earlier, Escalated run b
  rungs : (earlier ++ [a]).map Attempt.rung =
    List.range' (min run.startRung (run.ladder.length - 1)) (earlier.length + 1)

/-- The log of the decision says nothing more after the hard error of `rung`,
whose abstain is the last attempt on the trace. -/
structure EndsHard (out : Routed F) (rung : Nat) (back : List ProviderEvent) : Prop where
  noCall : ∀ j, .call j ∉ back
  lastAttempt : ∃ earlier a, out.trace.attempts = earlier ++ [a] ∧ a.rung = rung ∧
    AbstainsFor a Reason.providerError

theorem serveDecision_attempt {run : LadderRun F} (h : (serveDecision run).2.1 = .attempt) :
    ∃ rung resp, run.servedRung = some rung ∧
      run.best.map Prod.snd = some resp ∧ (serveDecision run).1 = .served resp ∧
      (serveDecision run).2.2.1 = some rung := by
  unfold serveDecision at h ⊢
  split
  · rename_i rung _ resp hs hb
    exact ⟨rung, resp, hs, by simp [hb], rfl, rfl⟩
  · rename_i hs hb; rw [hs, hb] at h; cases h
  · rename_i hb; cases hs : run.servedRung <;> simp [hs, hb] at h

/-- Verify to serve, with plain pass/fail serving. -/
theorem verify_to_serve (ctx : EnforceCtx F) (he : ctx.elastic = none)
    (ht : ctx.serveThreshold = none) (first second : Surroundings)
    (health : GateHealthRegistry F) (traceId ts : String) :
    ((routeEnforce ctx first second health traceId ts).trace.final.servedFrom = .attempt →
      ∃ run before earlier a resp, ServedFromAttempt ctx
        (routeEnforce ctx first second health traceId ts) run before earlier a resp) ∧
    (∀ front rung err back,
      (routeEnforce ctx first second health traceId ts).log =
        front ++ .answer rung (.error err) :: back →
      Hard err → EndsHard (routeEnforce ctx first second health traceId ts) rung back) := by
  obtain ⟨run, before, quiet, s, hlast, hfin, hquiet, hat, hsr, hbest, hlog⟩ :=
    runLadder_finished first second health he ht
  constructor
  · intro hfrom
    obtain ⟨rung, resp, hs, hb, hout, hrung⟩ := serveDecision_attempt hfrom
    rw [hsr] at hs
    obtain ⟨earlier, a, resp', hsat, rfl, hsb, hver, hesc⟩ := hfin.served rung hs
    obtain rfl : resp' = resp := by simpa [hbest, hsb] using hb
    refine ⟨run, before, earlier, a, resp', hlast, ?_, hrung, hout, hver, hesc, ?_⟩
    · exact hat.trans (by rw [hsat])
    · have hr := hfin.rungs
      rw [hsat] at hr
      simpa [startOf] using hr
  · intro front rung err back hsplit hh
    obtain ⟨front', hsplit'⟩ := split_after (hlog.symm.trans hsplit) fun hm => hquiet _ _ hm hh
    obtain ⟨hback, _, earlier, a, hsat, hrung, habs⟩ := hfin.hard front' rung err back hsplit' hh
    refine ⟨by simp [hback], before ++ earlier, a, ?_, hrung, habs⟩
    exact hat.trans (by rw [hsat, List.append_assoc])

-- ---------------------------------------------------------------------------
-- A ladder of two rungs
-- ---------------------------------------------------------------------------

def sampleAnswer (text : String) : ModelResponse where
  model := "acme/model"
  text := text
  inTokens := 20
  cacheWriteTokens := 0
  cacheReadTokens := 0
  outTokens := 5
  raw := .null

def sampleProvider : Provider where
  id := "acme"
  complete rung _ _ := .ok (sampleAnswer (if rung = 0 then "" else "done"))

def sampleGate : Gate ℚ where
  id := "non-empty"
  evaluate _ _ resp :=
    { GateResult.abstain "non-empty" "" 0 with
      verdict := if resp.text = "" then .fail else .pass
      reason := none }
  abstainFailsClosed := true
  evaluate_gateId _ _ _ := rfl

def sampleCtx : EnforceCtx ℚ where
  condense := none
  ladder := ["acme/small", "acme/large"]
  gates := [sampleGate]
  baseRequest :=
    { model := "", system := none, messages := [], maxTokens := 64, tools := .null, raw := .null,
      cachePrefix := false }
  providers := ⟨fun id => if id = "acme" then some sampleProvider else none⟩
  auth := ⟨none, none, none, none, none, none⟩
  prices := ⟨fun _ => some ⟨3, 15⟩⟩
  budgetPerRequestUsd := none
  maxRungs := 5
  speculation := 1
  serveThreshold := none
  elastic := none
  features :=
    { version := 3, taskKind := .chat, language := none, agent := none, subagent := none,
      promptTokenBucket := 4, toolCount := 0, hasImages := false, repoFingerprint := none,
      sessionFailureCount := 0, difficultyHint := 0, hourBucket := 12 }
  startRung := 0
  tenantId := "default"
  sessionId := "s"
  promptHash := "p"
  api := "openai.chat"
  policyId := "static-ladder@v0"

def sampleSchedule : Schedule where
  panicked _ := false
  isFinished _ := true
  drainOrder keys := keys
  drainOrder_perm _ := .refl _

def sampleHealth : GateHealthRegistry ℚ := ⟨fun _ => none, fun _ _ => none⟩

theorem verify_to_serve_sample :
    ∃ run before earlier a resp, ServedFromAttempt sampleCtx
      (routeEnforce sampleCtx ⟨fun _ => 7, sampleSchedule⟩ ⟨fun _ => 7, sampleSchedule⟩
        sampleHealth "t" "now") run before earlier a resp :=
  (verify_to_serve sampleCtx rfl rfl ⟨fun _ => 7, sampleSchedule⟩ ⟨fun _ => 7, sampleSchedule⟩
    sampleHealth "t" "now").1 (by decide +kernel)

end Firstpass
