import Firstpass.Proxy.LadderTurn
import Firstpass.Proxy.Speculation

/-!
# Two ladders in lockstep

Two contexts whose rungs answer the same call alike take the same path, as long as the gates
of both serve, or have the same results and serve neither. `Level` is what their states have
in common on the way.
-/

namespace Firstpass.Lockstep

variable {F : Type} [F64 F]

-- ---------------------------------------------------------------------------
-- Where an answer is served from
-- ---------------------------------------------------------------------------

def servedFrom (run : LadderRun F) : ServedFrom := (serveDecision run).2.1

theorem servedFrom_congr {run run' : LadderRun F}
    (hserved : run.servedRung.isSome = run'.servedRung.isSome)
    (hbest : run.best.isSome = run'.best.isSome) : servedFrom run = servedFrom run' := by
  rw [servedFrom, servedFrom, serveDecision, serveDecision]
  cases hr : run.servedRung <;> cases hr' : run'.servedRung <;> cases hb : run.best <;>
    cases hb' : run'.best <;> simp_all

/-- The prompt did not fit the rung of the attempt. -/
def overflowed (a : Attempt F) : Bool := a.gates.any fun g => g.reason = some Reason.contextOverflow

theorem overflowedEverywhere_congr {run run' : LadderRun F}
    (hserved : run.servedRung.isSome = run'.servedRung.isSome)
    (hattempts : run.servedRung = none →
      run.attempts.map overflowed = run'.attempts.map overflowed) :
    overflowedEverywhere run = overflowedEverywhere run' := by
  have hempty : ∀ as bs : List (Attempt F), as.map overflowed = bs.map overflowed →
      decide (as ≠ []) = decide (bs ≠ []) ∧ as.all overflowed = bs.all overflowed := by
    rintro as bs h
    constructor
    · have hlength := congrArg List.length h
      rw [List.length_map, List.length_map] at hlength
      cases as <;> cases bs <;> simp_all
    · have hall := congrArg (List.all · id) h
      simpa [List.all_map, Function.comp_def] using hall
  have hnone : run.servedRung.isNone = run'.servedRung.isNone := by
    rw [← Option.not_isSome, ← Option.not_isSome, hserved]
  rw [overflowedEverywhere, overflowedEverywhere, ← hnone]
  cases hr : run.servedRung with
  | some rung => rfl
  | none =>
    obtain ⟨hne, hall⟩ := hempty _ _ (hattempts hr)
    rw [hne]
    exact congrArg _ hall

-- ---------------------------------------------------------------------------
-- What a context is read for
-- ---------------------------------------------------------------------------

theorem gateSpeculative_congr {A B : EnforceCtx F} (h : A.tenantId = B.tenantId) (rung : Nat)
    (req : ModelRequest) (resp : ModelResponse) (gates : List (Gate F))
    (health : GateHealthRegistry F) :
    gateSpeculative A rung req resp gates health =
      gateSpeculative B rung req resp gates health := by
  induction gates generalizing health with
  | nil => rfl
  | cons g gates ih =>
    rw [gateSpeculative, gateSpeculative, h]
    simp only [ih]

theorem evalGates_congr {A B : EnforceCtx F} (h : A.tenantId = B.tenantId) (rung : Nat)
    (req : ModelRequest) (resp : ModelResponse) (included : String → Bool) (gates : List (Gate F))
    (health : GateHealthRegistry F) :
    evalGates A rung req resp included gates health =
      evalGates B rung req resp included gates health := by
  induction gates generalizing health with
  | nil => rfl
  | cons g gates ih =>
    rw [evalGates, evalGates, h]
    simp only [ih]

theorem gateSerial_congr {A B : EnforceCtx F} (htenant : A.tenantId = B.tenantId)
    (hgates : A.gates = B.gates) (helastic : A.elastic = B.elastic) (idx : Nat)
    (req : ModelRequest) (resp : ModelResponse) (health : GateHealthRegistry F) :
    gateSerial A idx req resp health = gateSerial B idx req resp health := by
  have heval : ∀ included gates health, evalGates A idx req resp included gates health =
      evalGates B idx req resp included gates health :=
    fun included gates health => evalGates_congr htenant idx req resp included gates health
  unfold gateSerial
  rw [hgates, helastic]
  simp only [heval]

-- ---------------------------------------------------------------------------
-- Speculation does not matter
-- ---------------------------------------------------------------------------

/-- Elastic is not applied where rungs are prefetched. -/
def applied (ctx : EnforceCtx F) : EnforceCtx F :=
  { ctx with elastic := if ctx.speculation = 0 then ctx.elastic else none }

theorem specRung_applied (ctx : EnforceCtx F) (sched : Schedule) (elapsed : Nat → Nat)
    (idx : Nat) (model : String) (s : SpecState F) :
    specRung (applied ctx) sched elapsed idx model s = specRung ctx sched elapsed idx model s := by
  have hgates : ∀ req resp health,
      gateSpeculative (applied ctx) idx req resp ctx.gates health =
        gateSpeculative ctx idx req resp ctx.gates health :=
    fun req resp health =>
      gateSpeculative_congr (A := applied ctx) (B := ctx) rfl idx req resp ctx.gates health
  have hfire : fireWindow (applied ctx) idx s = fireWindow ctx idx s := rfl
  have hresolve : resolveProvider (applied ctx) model = resolveProvider ctx model := rfl
  unfold specRung
  rw [hfire, hresolve]
  generalize fireWindow ctx idx s = fired
  dsimp only
  cases resolveProvider ctx model with
  | none => rfl
  | some provider =>
    cases fired.inflight.lookup idx with
    | none => rfl
    | some result =>
      cases result with
      | error err => rfl
      | ok resp =>
        rw [show (applied ctx).gates = ctx.gates from rfl]
        simp only [show requestFor (applied ctx) model = requestFor ctx model from rfl, hgates]
        rfl

theorem specLoop_applied (ctx : EnforceCtx F) (sched : Schedule) (elapsed : Nat → Nat)
    (rest : List String) (idx : Nat) (s : SpecState F) :
    specLoop (applied ctx) sched elapsed rest idx s = specLoop ctx sched elapsed rest idx s := by
  induction rest generalizing idx s with
  | nil => rfl
  | cons model rest ih =>
    rw [specLoop, specLoop, specRung_applied]
    simp only [ih]

theorem runSpeculative_applied (ctx : EnforceCtx F) (sched : Schedule) (elapsed : Nat → Nat)
    (health : GateHealthRegistry F) :
    runSpeculative (applied ctx) sched elapsed health =
      runSpeculative ctx sched elapsed health := by
  have hloop := specLoop_applied ctx sched elapsed (rungsFrom ctx (startOf ctx)) (startOf ctx)
    ⟨.init health, []⟩
  unfold runSpeculative
  rw [← hloop]
  rfl

def serialLadder (ctx : EnforceCtx F) (first second : Nat → Nat) (health : GateHealthRegistry F) :
    LoopState F :=
  let run := runSerial ctx first health
  match ctx.condense with
  | none => run
  | some cfg =>
    if overflowedEverywhere run.toLadderRun then
      match condense ctx.baseRequest cfg.keepHead cfg.keepTail with
      | none => run
      | some c => run.append (runSerial (retryCtx ctx c.request) second run.health)
    else run

theorem sameDecision_overflowed {s t : LoopState F} (h : SameDecision s t) :
    overflowedEverywhere s.toLadderRun = overflowedEverywhere t.toLadderRun := by
  have huntimed : ∀ a : Attempt F, overflowed a.untimed = overflowed a := by
    rintro a
    rw [overflowed, overflowed, Attempt.untimed]
    dsimp only
    split_ifs
    · rw [List.any_map]
      rfl
    · rfl
  refine overflowedEverywhere_congr (congrArg _ h.servedRung) fun _ => ?_
  have hattempts := congrArg (List.map overflowed) h.attempts
  rw [List.map_map, List.map_map] at hattempts
  simpa only [Function.comp_def, huntimed] using hattempts

theorem runEngine_serial (ctx : EnforceCtx F) (env : Surroundings)
    (hpanic : ctx.speculation ≠ 0 → NoPanic env.sched) (health : GateHealthRegistry F) :
    SameDecision (runEngine ctx env health) (runSerial (applied ctx) env.elapsed health) := by
  rw [runEngine]
  split_ifs with hspeculation
  · have happlied : applied ctx = ctx := by
      rw [applied, if_pos hspeculation]
    rw [happlied]
    exact ⟨rfl, rfl, rfl, rfl, rfl, rfl⟩
  · have helastic : (applied ctx).elastic = none := if_neg hspeculation
    rw [← runSpeculative_applied]
    exact (speculative_agrees (applied ctx) helastic env.sched (hpanic hspeculation) env.elapsed
      env.elapsed health).1

/-- An answer is served from where the serial engine serves it from. -/
theorem servedFrom_serial (ctx : EnforceCtx F) (first second : Surroundings)
    (hfirst : ctx.speculation ≠ 0 → NoPanic first.sched)
    (hsecond : ctx.speculation ≠ 0 → NoPanic second.sched)
    (health : GateHealthRegistry F) :
    servedFrom (runLadder ctx first second health).toLadderRun =
      servedFrom (serialLadder (applied ctx) first.elapsed second.elapsed health).toLadderRun := by
  have hrun := runEngine_serial ctx first hfirst health
  have hsame : ∀ {s t : LoopState F}, SameDecision s t →
      servedFrom s.toLadderRun = servedFrom t.toLadderRun :=
    fun h => servedFrom_congr (congrArg _ h.servedRung) (congrArg _ h.best)
  rw [runLadder, serialLadder, show (applied ctx).condense = ctx.condense from rfl,
    show (applied ctx).baseRequest = ctx.baseRequest from rfl]
  cases ctx.condense with
  | none => exact hsame hrun
  | some cfg =>
    dsimp only
    rw [sameDecision_overflowed hrun]
    split_ifs
    · cases condense ctx.baseRequest cfg.keepHead cfg.keepTail with
      | none => exact hsame hrun
      | some c =>
        have hretry := runEngine_serial (retryCtx ctx c.request) second hsecond
          (runEngine ctx first health).health
        rw [hrun.health] at hretry ⊢
        exact servedFrom_congr (congrArg _ hretry.servedRung) (congrArg _ hretry.best)
    · exact hsame hrun

-- ---------------------------------------------------------------------------
-- One rung
-- ---------------------------------------------------------------------------

/-- What the provider of a model answers at a rung, if the model has one. -/
def callAt (ctx : EnforceCtx F) (idx : Nat) (model : String) (req : ModelRequest) :
    Option (Except ProviderError ModelResponse) :=
  (resolveProvider ctx model).map fun p => p.complete idx { req with model } ctx.auth

/-- Whether an error is for the size of the prompt, and whether the ladder climbs on. -/
def failing (err : ProviderError) : Bool × Flow :=
  if err.isFailoverEligible then (false, .next)
  else if isContextOverflow err then (true, .next)
  else (false, .stop)

/-- A rung without an answer. -/
structure Failed (s t : LoopState F) (overflow : Bool) : Prop where
  servedRung : t.servedRung = s.servedRung
  best : t.best = s.best
  spent : t.spent = s.spent
  health : t.health = s.health
  attempts : t.attempts.map overflowed = s.attempts.map overflowed ++ [overflow]

/-- The results of a rung's gates, what elastic decided, and the budgets after them. -/
abbrev Judgment (F : Type) [F64 F] :=
  List (GateResult F) × Option (ElasticDecision F) × GateHealthRegistry F

def Judgment.served (ctx : EnforceCtx F) (out : Judgment F) : Bool := serves ctx out.1 out.2.1

def Judgment.overflow (out : Judgment F) : Bool :=
  out.1.any fun g => g.reason = some Reason.contextOverflow

/-- A rung whose answer the gates have judged. -/
structure Gated (ctx : EnforceCtx F) (idx : Nat) (cost : F) (out : Judgment F) (s t : LoopState F)
    (flow : Flow) : Prop where
  best : t.best.isSome
  attempts : t.attempts.map overflowed = s.attempts.map overflowed ++ [out.overflow]
  spent : t.spent = s.spent + cost + F64.sum (out.1.map GateResult.costUsd)
  health : t.health = out.2.2
  served : out.served ctx = true → t.servedRung.isSome ∧ flow = .stop
  escalated : out.served ctx = false → t.servedRung = s.servedRung ∧
    flow = if overBudget ctx t.spent && idx + 1 < rungEnd ctx then .stop else .next

section rung

variable {ctx : EnforceCtx F} {idx : Nat} {model : String}

theorem Failed.abstain (s : LoopState F) (idx : Nat) (model provider reason : String) (ms : Nat) :
    Failed s (s.abstain idx model provider reason ms) (reason = Reason.contextOverflow) := by
  refine ⟨rfl, rfl, rfl, rfl, ?_⟩
  rw [LoopState.abstain, List.map_append, List.map_singleton, overflowed, abstainAttempt]
  simp [GateResult.abstain]

theorem Failed.of_logged {s t : LoopState F} {events : List ProviderEvent}
    (h : Failed (s.logged events) t overflow) : Failed s t overflow :=
  ⟨h.servedRung, h.best, h.spent, h.health, h.attempts⟩

theorem hardReason_ne (err : ProviderError) : (hardReason err).1 ≠ Reason.contextOverflow := by
  cases err <;> simp [hardReason, Reason.providerError, Reason.contextOverflow]

theorem serialRung_none (h : callAt ctx idx model ctx.baseRequest = none) (elapsed : Nat → Nat)
    (s : LoopState F) :
    Failed s (serialRung ctx elapsed idx model s).1 false ∧
      (serialRung ctx elapsed idx model s).2 = .next := by
  rw [serialRung_unknown (Option.map_eq_none_iff.mp h)]
  exact ⟨.abstain s idx model "unknown" Reason.providerError (elapsed idx), rfl⟩

theorem serialRung_error (h : callAt ctx idx model ctx.baseRequest = some (.error err))
    (elapsed : Nat → Nat) (s : LoopState F) :
    Failed s (serialRung ctx elapsed idx model s).1 (failing err).1 ∧
      (serialRung ctx elapsed idx model s).2 = (failing err).2 := by
  obtain ⟨provider, hprovider, hanswer⟩ := Option.map_eq_some_iff.mp h
  rw [serialRung_failed hprovider hanswer, failing, settle]
  have hfailed := fun reason => Failed.abstain
    (s.logged [.call idx, .answer idx (.error err)]) idx model provider.id reason (elapsed idx)
  split_ifs
  · exact ⟨(hfailed Reason.providerError).of_logged, rfl⟩
  · exact ⟨(hfailed Reason.contextOverflow).of_logged, rfl⟩
  · have hhard := hfailed (hardReason err).1
    rw [decide_eq_false (hardReason_ne err)] at hhard
    exact ⟨⟨rfl, rfl, rfl, rfl, hhard.attempts⟩, rfl⟩

theorem Gated.conclude {s t : LoopState F} {out : Judgment F} (hbest : t.best.isSome)
    (hattempts : t.attempts.map overflowed = s.attempts.map overflowed ++ [out.overflow])
    (hspent : t.spent = s.spent + cost + F64.sum (out.1.map GateResult.costUsd))
    (hhealth : t.health = out.2.2) (hrung : t.servedRung = s.servedRung)
    (hserve : serve = out.served ctx) :
    Gated ctx idx cost out s (t.conclude ctx idx serve).1 (t.conclude ctx idx serve).2 := by
  rw [LoopState.conclude, hserve]
  cases hserved : out.served ctx with
  | true =>
    rw [if_pos rfl]
    exact ⟨hbest, hattempts, hspent, hhealth, fun _ => ⟨rfl, rfl⟩, fun h => by simp [hserved] at h⟩
  | false =>
    rw [if_neg Bool.false_ne_true]
    split_ifs with hbudget
    · exact ⟨hbest, hattempts, hspent, hhealth, fun h => by simp [hserved] at h,
        fun _ => ⟨hrung, (if_pos hbudget).symm⟩⟩
    · exact ⟨hbest, hattempts, hspent, hhealth, fun h => by simp [hserved] at h,
        fun _ => ⟨hrung, (if_neg hbudget).symm⟩⟩

theorem serialRung_ok (h : callAt ctx idx model ctx.baseRequest = some (.ok resp))
    (elapsed : Nat → Nat) (s : LoopState F) :
    Gated ctx idx (modelCost ctx model resp)
      (gateSerial ctx idx (requestFor ctx model) resp s.health) s
      (serialRung ctx elapsed idx model s).1 (serialRung ctx elapsed idx model s).2 := by
  obtain ⟨provider, hprovider, hanswer⟩ := Option.map_eq_some_iff.mp h
  rw [serialRung_answered hprovider hanswer]
  refine Gated.conclude rfl ?_ rfl rfl rfl rfl
  exact List.map_append

end rung

-- ---------------------------------------------------------------------------
-- Two contexts
-- ---------------------------------------------------------------------------

/-- The same answer or error, the same cost and the same gate results, for the same call. -/
structure SameRung (A B : EnforceCtx F) (idx : Nat) (a b : String) : Prop where
  answer : ∀ req, callAt A idx a req = callAt B idx b req
  cost : ∀ resp, modelCost A a resp = modelCost B b resp
  gates : ∀ g ∈ A.gates, ∀ (req : ModelRequest) (resp : ModelResponse),
    g.evaluate idx { req with model := a } resp = g.evaluate idx { req with model := b } resp

/-- Both judgments serve, or they are the same and neither does. -/
inductive SameJudgment (A B : EnforceCtx F)
    (next : GateHealthRegistry F → GateHealthRegistry F → Prop) (x y : Judgment F) : Prop
  | served (left : x.served A = true) (right : y.served B = true)
  | escalated (left : x.served A = false) (right : y.served B = false) (results : x.1 = y.1)
    (health : next x.2.2 y.2.2)

/-- What two ladders need to stay in step; `H n` relates the budgets of their gates when `n`
rungs may still be judged. -/
structure InStep (A B : EnforceCtx F)
    (H : Nat → GateHealthRegistry F → GateHealthRegistry F → Prop) : Prop where
  mono : ∀ n hA hB, H (n + 1) hA hB → H n hA hB
  length : A.ladder.length = B.ladder.length
  budget : A.budgetPerRequestUsd = B.budgetPerRequestUsd
  rung : ∀ (idx : Nat) (a b : String), A.ladder[idx]? = some a → B.ladder[idx]? = some b →
    SameRung A B idx a b
  judge : ∀ (idx : Nat) (a b : String), A.ladder[idx]? = some a → B.ladder[idx]? = some b →
    ∀ n (req : ModelRequest) resp hA hB, H (n + 1) hA hB →
      SameJudgment A B (H n) (gateSerial A idx { req with model := a } resp hA)
        (gateSerial B idx { req with model := b } resp hB)

/-- The request without the model, which each call replaces. -/
def asked (req : ModelRequest) : ModelRequest := { req with model := "" }

/-- What two runs in step have in common. -/
structure Level (next : GateHealthRegistry F → GateHealthRegistry F → Prop)
    (s t : LoopState F) : Prop where
  servedRung : s.servedRung.isSome = t.servedRung.isSome
  best : s.best.isSome = t.best.isSome
  climbing : s.servedRung = none → s.attempts.map overflowed = t.attempts.map overflowed ∧
    s.spent = t.spent ∧ next s.health t.health

section lockstep

variable {A B : EnforceCtx F} {H : Nat → GateHealthRegistry F → GateHealthRegistry F → Prop}
  {idx n : Nat} {a b : String} {s t : LoopState F}

theorem model_asked {req base : ModelRequest} (h : asked req = asked base) (model : String) :
    { req with model := model } = { base with model := model } :=
  congrArg (fun r : ModelRequest => { r with model := model }) h

theorem callAt_asked {ctx : EnforceCtx F} {req base : ModelRequest} (h : asked req = asked base)
    (idx : Nat) (model : String) : callAt ctx idx model req = callAt ctx idx model base := by
  rw [callAt, callAt, model_asked h model]

theorem Level.failed (h : Level (H (n + 1)) s t) (hstep : InStep A B H)
    (hs : Failed s s' overflow) (ht : Failed t t' overflow) : Level (H n) s' t' where
  servedRung := by rw [hs.servedRung, ht.servedRung, h.servedRung]
  best := by rw [hs.best, ht.best, h.best]
  climbing := by
    rintro hnone
    rw [hs.servedRung] at hnone
    obtain ⟨hattempts, hspent, hhealth⟩ := h.climbing hnone
    rw [hs.attempts, ht.attempts, hs.spent, ht.spent, hs.health, ht.health, hattempts]
    exact ⟨rfl, hspent, hstep.mono n _ _ hhealth⟩

theorem Level.gated (h : Level (H (n + 1)) s t) (hnone : s.servedRung = none)
    (hstep : InStep A B H) (hend : rungEnd A = rungEnd B) {x y : Judgment F}
    (hjudge : SameJudgment A B (H n) x y) (hs : Gated A idx cost x s s' flow)
    (ht : Gated B idx cost y t t' flow') :
    Level (H n) s' t' ∧ flow = flow' ∧ (flow = .next → s'.servedRung = none) := by
  have hbest : s'.best.isSome = t'.best.isSome := by rw [hs.best, ht.best]
  obtain ⟨hattempts, hspent, -⟩ := h.climbing hnone
  cases hjudge with
  | served left right =>
    obtain ⟨hserved, hflow⟩ := hs.served left
    obtain ⟨hserved', hflow'⟩ := ht.served right
    refine ⟨⟨by rw [hserved, hserved'], hbest, fun hr => ?_⟩, hflow.trans hflow'.symm, ?_⟩
    · rw [hr] at hserved
      cases hserved
    · rintro rfl
      cases hflow
  | escalated left right results health =>
    obtain ⟨hrung, hflow⟩ := hs.escalated left
    obtain ⟨hrung', hflow'⟩ := ht.escalated right
    have hspent' : s'.spent = t'.spent := by rw [hs.spent, ht.spent, hspent, results]
    have hbudget : overBudget A t'.spent = overBudget B t'.spent := by
      rw [overBudget, overBudget, hstep.budget]
    refine ⟨⟨by rw [hrung, hrung', h.servedRung], hbest, fun _ => ⟨?_, hspent', ?_⟩⟩, ?_, ?_⟩
    · rw [hs.attempts, ht.attempts, hattempts, Judgment.overflow, Judgment.overflow, results]
    · rw [hs.health, ht.health]
      exact health
    · rw [hflow, hflow', hspent', hbudget, hend]
    · exact fun _ => hrung.trans hnone

theorem rung_inStep (hstep : InStep A B H) (hbase : asked A.baseRequest = asked B.baseRequest)
    (hend : rungEnd A = rungEnd B) (ha : A.ladder[idx]? = some a) (hb : B.ladder[idx]? = some b)
    (elapsed elapsed' : Nat → Nat) (h : Level (H (n + 1)) s t) (hnone : s.servedRung = none) :
    Level (H n) (serialRung A elapsed idx a s).1 (serialRung B elapsed' idx b t).1 ∧
      (serialRung A elapsed idx a s).2 = (serialRung B elapsed' idx b t).2 ∧
      ((serialRung A elapsed idx a s).2 = .next →
        (serialRung A elapsed idx a s).1.servedRung = none) := by
  have hsame := hstep.rung idx a b ha hb
  have hcall : callAt B idx b B.baseRequest = callAt A idx a A.baseRequest := by
    rw [hsame.answer, callAt_asked hbase]
  cases hanswer : callAt A idx a A.baseRequest with
  | none =>
    obtain ⟨hs, hflow⟩ := serialRung_none hanswer elapsed s
    obtain ⟨ht, hflow'⟩ := serialRung_none (hcall.trans hanswer) elapsed' t
    exact ⟨h.failed hstep hs ht, hflow.trans hflow'.symm, fun _ => hs.servedRung.trans hnone⟩
  | some answer =>
    cases answer with
    | error err =>
      obtain ⟨hs, hflow⟩ := serialRung_error hanswer elapsed s
      obtain ⟨ht, hflow'⟩ := serialRung_error (hcall.trans hanswer) elapsed' t
      exact ⟨h.failed hstep hs ht, hflow.trans hflow'.symm, fun _ => hs.servedRung.trans hnone⟩
    | ok resp =>
      have hs := serialRung_ok hanswer elapsed s
      have ht := serialRung_ok (hcall.trans hanswer) elapsed' t
      obtain ⟨-, -, hhealth⟩ := h.climbing hnone
      have hjudge := hstep.judge idx a b ha hb n A.baseRequest resp s.health t.health hhealth
      rw [model_asked hbase b] at hjudge
      rw [← hsame.cost] at ht
      exact h.gated hnone hstep hend hjudge hs ht

theorem InStep.mono_le (hstep : InStep A B H) {m : Nat} (hle : n ≤ m)
    {hA hB : GateHealthRegistry F} (h : H m hA hB) : H n hA hB := by
  induction hle with
  | refl => exact h
  | step _ ih => exact ih (hstep.mono _ _ _ h)

theorem Level.mono (h : Level (H m) s t) (hstep : InStep A B H) (hle : n ≤ m) :
    Level (H n) s t where
  servedRung := h.servedRung
  best := h.best
  climbing := fun hnone =>
    have ⟨hattempts, hspent, hhealth⟩ := h.climbing hnone
    ⟨hattempts, hspent, hstep.mono_le hle hhealth⟩

theorem length_rungsFrom (ctx : EnforceCtx F) (idx : Nat) :
    (rungsFrom ctx idx).length = min (rungEnd ctx - idx) (ctx.ladder.length - idx) := by
  rw [rungsFrom, List.length_take, List.length_drop]

/-- The loops keep step; `extra` rungs may still be judged after them. -/
theorem loop_inStep (hstep : InStep A B H) (hbase : asked A.baseRequest = asked B.baseRequest)
    (hend : rungEnd A = rungEnd B) (elapsed elapsed' : Nat → Nat) (extra : Nat)
    {restA restB : List String} (hA : restA = rungsFrom A idx) (hB : restB = rungsFrom B idx)
    (h : Level (H (restA.length + extra)) s t) (hnone : s.servedRung = none) :
    Level (H extra) (serialLoop A elapsed restA idx s) (serialLoop B elapsed' restB idx t) := by
  have hlength : restA.length = restB.length := by
    rw [hA, hB, length_rungsFrom, length_rungsFrom, hend, hstep.length]
  induction restA generalizing restB idx s t with
  | nil =>
    obtain rfl := List.eq_nil_of_length_eq_zero hlength.symm
    exact h.mono hstep (by omega)
  | cons a restA ih =>
    cases restB with
    | nil => cases hlength
    | cons b restB =>
      obtain ⟨ha, -, hnextA⟩ := rungsFrom_cons hA.symm
      obtain ⟨hb, -, hnextB⟩ := rungsFrom_cons hB.symm
      have hcount : (a :: restA).length + extra = restA.length + extra + 1 := by
        rw [List.length_cons]
        omega
      rw [hcount] at h
      obtain ⟨hlevel, hflow, hclimbs⟩ :=
        rung_inStep hstep hbase hend ha hb elapsed elapsed' h hnone
      rw [serialLoop, serialLoop]
      generalize serialRung A elapsed idx a s = x at *
      generalize serialRung B elapsed' idx b t = y at *
      obtain ⟨s', flow⟩ := x
      obtain ⟨t', flow'⟩ := y
      obtain rfl : flow = flow' := hflow
      cases flow with
      | next => exact ih hnextA hnextB hlevel (hclimbs rfl) (Nat.succ.inj hlength)
      | stop => exact hlevel.mono hstep (by omega)

theorem init_level {hA hB : GateHealthRegistry F} (h : H n hA hB) :
    Level (H n) (.init hA) (.init hB) :=
  ⟨rfl, rfl, fun _ => ⟨rfl, rfl, h⟩⟩

theorem runSerial_inStep (hstep : InStep A B H) (hbase : asked A.baseRequest = asked B.baseRequest)
    (hstart : startOf A = startOf B) (hend : rungEnd A = rungEnd B) (elapsed elapsed' : Nat → Nat)
    (extra : Nat) {hA hB : GateHealthRegistry F}
    (h : H ((rungsFrom A (startOf A)).length + extra) hA hB) :
    Level (H extra) (runSerial A elapsed hA) (runSerial B elapsed' hB) := by
  rw [runSerial, runSerial, ← hstart]
  exact loop_inStep hstep hbase hend elapsed elapsed' extra rfl rfl (init_level h) rfl

theorem condense_asked (req : ModelRequest) (keepHead keepTail : Nat) :
    (condense req keepHead keepTail).map (asked ·.request) =
      (condense (asked req) keepHead keepTail).map Condensed.request := by
  rw [condense, condense, show (asked req).messages = req.messages from rfl]
  split_ifs <;> rfl

theorem gateSerial_retry (ctx : EnforceCtx F) (r req : ModelRequest) (idx : Nat)
    (resp : ModelResponse) (health : GateHealthRegistry F) :
    gateSerial (retryCtx ctx r) idx req resp health = gateSerial ctx idx req resp health :=
  gateSerial_congr (A := retryCtx ctx r) (B := ctx) rfl rfl rfl idx req resp health

theorem InStep.retry (hstep : InStep A B H) (r r' : ModelRequest) :
    InStep (retryCtx A r) (retryCtx B r') H where
  mono := hstep.mono
  length := hstep.length
  budget := hstep.budget
  rung := fun idx a b ha hb =>
    have h := hstep.rung idx a b ha hb
    ⟨h.answer, h.cost, h.gates⟩
  judge := by
    rintro idx a b ha hb n req resp hA hB h
    rw [gateSerial_retry, gateSerial_retry]
    cases hstep.judge idx a b ha hb n req resp hA hB h with
    | served left right => exact .served left right
    | escalated left right results health => exact .escalated left right results health

theorem rungEnd_retry (hlength : A.ladder.length = B.ladder.length)
    (hzero : A.maxRungs = 0 ↔ B.maxRungs = 0) (r r' : ModelRequest) :
    rungEnd (retryCtx A r) = rungEnd (retryCtx B r') := by
  simp only [rungEnd, startOf, retryCtx, hlength]
  omega

/-- The second pass is one rung. -/
theorem length_rungsFrom_retry (ctx : EnforceCtx F) (r : ModelRequest) :
    (rungsFrom (retryCtx ctx r) (startOf (retryCtx ctx r))).length + 0 ≤ 1 := by
  rw [length_rungsFrom]
  simp only [startOf, retryCtx]
  omega

/-- Two ladders in step serve from the same place. -/
theorem serialLadder_inStep (hstep : InStep A B H)
    (hbase : asked A.baseRequest = asked B.baseRequest) (hcondense : A.condense = B.condense)
    (hstart : startOf A = startOf B) (hend : rungEnd A = rungEnd B)
    (hzero : A.maxRungs = 0 ↔ B.maxRungs = 0) (first second first' second' : Nat → Nat)
    (extra : Nat)
    (hextra : ∀ cfg, A.condense = some cfg →
      (condense A.baseRequest cfg.keepHead cfg.keepTail).isSome → extra = 1)
    {hA hB : GateHealthRegistry F} (h : H ((rungsFrom A (startOf A)).length + extra) hA hB) :
    servedFrom (serialLadder A first second hA).toLadderRun =
      servedFrom (serialLadder B first' second' hB).toLadderRun := by
  have hrun := runSerial_inStep hstep hbase hstart hend first first' extra h
  have hsame : servedFrom (runSerial A first hA).toLadderRun =
      servedFrom (runSerial B first' hB).toLadderRun := servedFrom_congr hrun.servedRung hrun.best
  rw [serialLadder, serialLadder, ← hcondense]
  cases hcfg : A.condense with
  | none => exact hsame
  | some cfg =>
    dsimp only
    rw [overflowedEverywhere_congr hrun.servedRung fun hnone => (hrun.climbing hnone).1]
    split_ifs with hover
    · have hrequests := condense_asked B.baseRequest cfg.keepHead cfg.keepTail
      rw [← hbase, ← condense_asked] at hrequests
      have hnone : (runSerial A first hA).servedRung = none := by
        rw [← overflowedEverywhere_congr hrun.servedRung fun hnone => (hrun.climbing hnone).1]
          at hover
        rw [overflowedEverywhere, Bool.and_assoc] at hover
        exact Option.isNone_iff_eq_none.mp (Bool.and_eq_true_iff.mp hover).1
      cases hc : condense A.baseRequest cfg.keepHead cfg.keepTail with
      | none =>
        cases hc' : condense B.baseRequest cfg.keepHead cfg.keepTail with
        | none => exact hsame
        | some c' => simp [hc, hc'] at hrequests
      | some c =>
        cases hc' : condense B.baseRequest cfg.keepHead cfg.keepTail with
        | none => simp [hc, hc'] at hrequests
        | some c' =>
          rw [hc, hc', Option.map_some, Option.map_some, Option.some.injEq] at hrequests
          obtain rfl := hextra cfg hcfg (by rw [hc]; rfl)
          have hstart' : startOf (retryCtx A c.request) = startOf (retryCtx B c'.request) := by
            simp only [startOf, retryCtx, hstep.length]
          have hretry := hstep.retry c.request c'.request
          have hlast := hretry.mono_le (length_rungsFrom_retry A c.request)
            (hrun.climbing hnone).2.2
          have hlevel := runSerial_inStep hretry hrequests.symm hstart'
            (rungEnd_retry hstep.length hzero c.request c'.request) second second' 0 hlast
          exact servedFrom_congr hlevel.servedRung hlevel.best
    · exact hsame

end lockstep

end Firstpass.Lockstep
