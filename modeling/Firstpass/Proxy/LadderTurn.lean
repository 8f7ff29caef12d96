import Firstpass.Proxy.VerifyToServe

/-!
# Ladder runs under any settings

`Turn` is what one rung of either engine adds to a run, whatever elastic and the
serve threshold are set to. `Ran` is what holds of a run after any number of turns.
-/

namespace Firstpass

variable {F : Type} [F64 F] {ctx : EnforceCtx F}

-- ---------------------------------------------------------------------------
-- One turn
-- ---------------------------------------------------------------------------

/-- Whether the results are served, given what elastic decided on them. -/
def serves (ctx : EnforceCtx F) (results : List (GateResult F))
    (decision : Option (ElasticDecision F)) : Bool :=
  match decision.map ElasticDecision.action with
  | some .serveSkip => true
  | _ => shouldServe ctx.serveThreshold results
    (aggregateWithPolicy results (failClosedIds ctx.gates))

/-- The results are those of one pass over the gates, with the decision taken on it. -/
inductive Judged (ctx : EnforceCtx F) (idx : Nat) :
    List (GateResult F) → Option (ElasticDecision F) → Prop
  | serial (model : String) (resp : ModelResponse) (health : GateHealthRegistry F) :
    Judged ctx idx (gateSerial ctx idx (requestFor ctx model) resp health).1
      (gateSerial ctx idx (requestFor ctx model) resp health).2.1
  | speculative (model : String) (resp : ModelResponse) (health : GateHealthRegistry F) :
    Judged ctx idx (gateSpeculative ctx idx (requestFor ctx model) resp ctx.gates health).1 none

/-- A rung whose provider answers puts the answer through the gates. -/
theorem serialRung_answered (hp : resolveProvider ctx model = some provider)
    (hans : answerOf ctx idx model provider = .ok resp) (elapsed : Nat → Nat) (s : LoopState F) :
    let out := gateSerial ctx idx (requestFor ctx model) resp s.health
    serialRung ctx elapsed idx model s =
      LoopState.conclude
        { (s.logged [.call idx, .answer idx (.ok resp)]).gated idx model provider.id resp
            (elapsed idx) (modelCost ctx model resp) out.1
            (aggregateWithPolicy out.1 (failClosedIds ctx.gates)) with
          elastic := out.2.1, health := out.2.2 }
        ctx idx (serves ctx out.1 out.2.1) := by
  rw [answerOf] at hans
  unfold serialRung
  simp only [hp, hans]
  rfl

/-- The attempt was judged by the gates. -/
structure JudgedAttempt (ctx : EnforceCtx F) (a : Attempt F)
    (decision : Option (ElasticDecision F)) : Prop where
  verdict : a.verdict = aggregateWithPolicy a.gates (failClosedIds ctx.gates)
  judged : Judged ctx a.rung a.gates decision

def Quiet (a : Attempt F) : Prop := ∀ g ∈ a.gates, g.reason ≠ some Reason.contextOverflow

/-- The calls of a turn, and the answer of its rung where one was waited for. -/
def TurnLog (ctx : EnforceCtx F) (idx : Nat) (s t : LoopState F)
    (answer : Option (Except ProviderError ModelResponse)) : Prop :=
  (∃ js : List Nat, t.log = s.log ++ js.map .call ++ (answer.map (.answer idx)).toList) ∧
    ∀ r ∈ answer, spawnRung ctx idx = some r

inductive Turn (ctx : EnforceCtx F) (idx : Nat) (s t : LoopState F) (flow : Flow) : Prop
  | abstained (a : Attempt F) (answer : Option (Except ProviderError ModelResponse))
    (rung : a.rung = idx) (attempts : t.attempts = s.attempts ++ [a])
    (log : TurnLog ctx idx s t answer) (quiet : answer = none → Quiet a)
    (servedRung : t.servedRung = s.servedRung) (elastic : t.elastic = s.elastic)
  | gated (a : Attempt F) (resp : ModelResponse)
    (rung : a.rung = idx) (attempts : t.attempts = s.attempts ++ [a])
    (log : TurnLog ctx idx s t (some (.ok resp))) (judged : JudgedAttempt ctx a t.elastic)
    (best : t.best = some (idx, resp))
    (outcome : (serves ctx a.gates t.elastic = true ∧ t.servedRung = some idx ∧ flow = .stop) ∨
      t.servedRung = s.servedRung)

theorem quiet_providerError (idx : Nat) (model provider : String) (ms : Nat) :
    Quiet (abstainAttempt (F := F) idx model provider Reason.providerError ms) := by
  intro g hg
  obtain rfl := List.mem_singleton.mp hg
  simp [GateResult.abstain, Reason.providerError, Reason.contextOverflow]

theorem turnLog_calls {s t : LoopState F} (js : List Nat) (h : t.log = s.log ++ js.map .call) :
    TurnLog ctx idx s t none :=
  ⟨⟨js, by rw [h]; exact (List.append_nil _).symm⟩, nofun⟩

theorem turnLog_answer {s t : LoopState F} {js : List Nat} (hs : spawnRung ctx idx = some r)
    (h : t.log = s.log ++ js.map .call ++ [.answer idx r]) : TurnLog ctx idx s t (some r) :=
  ⟨⟨js, h⟩, fun r' hr => by cases hr; exact hs⟩

theorem turn_abstain (js : List Nat) (model provider : String) (ms : Nat) {s t : LoopState F}
    (hlog : t.log = s.log ++ js.map .call) (hat : t.attempts = s.attempts)
    (hsr : t.servedRung = s.servedRung) (hel : t.elastic = s.elastic) :
    Turn ctx idx s (t.abstain idx model provider Reason.providerError ms) flow :=
  .abstained _ none rfl (congrArg (· ++ _) hat) (turnLog_calls js hlog)
    (fun _ => quiet_providerError idx model provider ms) hsr hel

theorem turn_error (js : List Nat) (model provider : String) (ms : Nat) {s t : LoopState F}
    (hs : spawnRung ctx idx = some (.error err))
    (hlog : t.log = s.log ++ js.map .call ++ [.answer idx (.error err)])
    (hat : t.attempts = s.attempts) (hsr : t.servedRung = s.servedRung)
    (hel : t.elastic = s.elastic) :
    Turn ctx idx s (settle ctx idx model provider (.error err) ms t).1
      (settle ctx idx model provider (.error err) ms t).2 := by
  unfold settle
  simp only
  split
  · exact .abstained _ _ rfl (congrArg (· ++ _) hat) (turnLog_answer hs hlog) nofun hsr hel
  · split
    · exact .abstained _ _ rfl (congrArg (· ++ _) hat) (turnLog_answer hs hlog) nofun hsr hel
    · exact .abstained _ _ rfl (congrArg (· ++ _) hat) (turnLog_answer hs hlog) nofun hsr hel

theorem turn_conclude (js : List Nat) {s t : LoopState F} {a : Attempt F}
    (hs : spawnRung ctx idx = some (.ok resp))
    (hlog : t.log = s.log ++ js.map .call ++ [.answer idx (.ok resp)])
    (ha : a.rung = idx) (hat : t.attempts = s.attempts ++ [a]) (hsr : t.servedRung = s.servedRung)
    (hbest : t.best = some (idx, resp)) (hel : t.elastic = decision)
    (hjudged : JudgedAttempt ctx a decision) (hserve : serve = serves ctx a.gates decision) :
    Turn ctx idx s (t.conclude ctx idx serve).1 (t.conclude ctx idx serve).2 := by
  subst hel
  unfold LoopState.conclude
  split
  · rename_i hserved
    exact .gated a resp ha hat (turnLog_answer hs hlog) hjudged hbest
      (.inl ⟨hserve ▸ hserved, rfl, rfl⟩)
  · split
    · exact .gated a resp ha hat (turnLog_answer hs hlog) hjudged hbest (.inr hsr)
    · exact .gated a resp ha hat (turnLog_answer hs hlog) hjudged hbest (.inr hsr)

theorem serialRung_turn (elapsed : Nat → Nat) (hm : ctx.ladder[idx]? = some model)
    (s : LoopState F) :
    Turn ctx idx s (serialRung ctx elapsed idx model s).1 (serialRung ctx elapsed idx model s).2 := by
  cases hp : resolveProvider ctx model with
  | none =>
    rw [serialRung_unknown hp]
    exact turn_abstain [] model "unknown" (elapsed idx) (List.append_nil _).symm rfl rfl rfl
  | some provider =>
    have hspawn := spawnRung_eq hm hp
    cases hans : answerOf ctx idx model provider with
    | error err =>
      rw [hans] at hspawn
      have hlog : (s.logged [.call idx, .answer idx (.error err)]).log =
          s.log ++ [idx].map .call ++ [.answer idx (.error err)] := by simp [LoopState.logged]
      rw [serialRung_failed hp hans]
      exact turn_error [idx] model provider.id (elapsed idx) hspawn hlog rfl rfl rfl
    | ok resp =>
      rw [hans] at hspawn
      rw [serialRung_answered hp hans]
      refine turn_conclude [idx] hspawn ?_ rfl rfl rfl rfl rfl
        ⟨rfl, .serial model resp s.health⟩ rfl
      simp [LoopState.gated, LoopState.logged]

theorem turn_settle (js : List Nat) (model provider : String) (ms : Nat) {s t : LoopState F}
    (hs : spawnRung ctx idx = some result)
    (hlog : t.log = s.log ++ js.map .call ++ [.answer idx result])
    (hat : t.attempts = s.attempts) (hsr : t.servedRung = s.servedRung)
    (hel : s.elastic = none) (htel : t.elastic = none) :
    Turn ctx idx s (settle ctx idx model provider result ms t).1
      (settle ctx idx model provider result ms t).2 := by
  cases result with
  | error err => exact turn_error js model provider ms hs hlog hat hsr (htel.trans hel.symm)
  | ok resp =>
    exact turn_conclude js hs hlog rfl (congrArg (· ++ _) hat) hsr rfl htel
      ⟨rfl, .speculative model resp t.health⟩ rfl

theorem specRung_turn (sched : Schedule) (elapsed : Nat → Nat) {s : SpecState F}
    (hin : Inflight ctx idx s) (hidx : idx < rungEnd ctx) (hm : ctx.ladder[idx]? = some model)
    (hel : s.elastic = none) :
    Turn ctx idx s.toLoopState (specRung ctx sched elapsed idx model s).1.toLoopState
        (specRung ctx sched elapsed idx model s).2 ∧
      (specRung ctx sched elapsed idx model s).1.elastic = none := by
  obtain ⟨js, hfire⟩ := fireWindow_eq ctx idx s
  have hfel : (fireWindow ctx idx s).elastic = none := by rw [hfire]; exact hel
  cases hp : resolveProvider ctx model with
  | none =>
    rw [specRung_unknown hp]
    refine ⟨turn_abstain js model "unknown" 0 ?_ ?_ ?_ ?_, hfel⟩ <;>
      rw [hfire] <;> rfl
  | some provider =>
    cases hpanic : sched.panicked idx with
    | true =>
      rw [specRung_panicked hin hidx hm hp hpanic]
      refine ⟨turn_abstain js model provider.id (elapsed idx) ?_ ?_ ?_ ?_, hfel⟩ <;>
        simp only [takeTask] <;> rw [hfire] <;> rfl
    | false =>
      rw [specRung_eq hin hidx hm hp hpanic]
      refine ⟨turn_settle js model provider.id (elapsed idx) (spawnRung_eq hm hp)
        ?_ ?_ ?_ hel hfel, (settle_frame _ _ _ _ _ _ _).2.1.trans hfel⟩ <;>
        simp [takeTask, hfire, LoopState.logged]

-- ---------------------------------------------------------------------------
-- A run of turns
-- ---------------------------------------------------------------------------

/-- The served rung is the last attempt, judged by its gates and served on them. -/
def ServedOn (ctx : EnforceCtx F) (s : LoopState F) (rung : Nat) : Prop :=
  ∃ earlier a resp, s.attempts = earlier ++ [a] ∧ a.rung = rung ∧ s.best = some (rung, resp) ∧
    JudgedAttempt ctx a s.elastic ∧ serves ctx a.gates s.elastic = true

/-- What holds of a run that has attempted the rungs before `idx`. -/
structure Ran (ctx : EnforceCtx F) (idx : Nat) (s : LoopState F) : Prop where
  start_le : startOf ctx ≤ idx
  rungs : s.attempts.map Attempt.rung = List.range' (startOf ctx) (idx - startOf ctx)
  accounted : ∀ a ∈ s.attempts,
    Quiet a ∨ ∃ r, spawnRung ctx a.rung = some r ∧ .answer a.rung r ∈ s.log
  answered : ∀ j r, .answer j r ∈ s.log → spawnRung ctx j = some r ∧ ∃ a ∈ s.attempts, a.rung = j
  served : ∀ rung, s.servedRung = some rung → ServedOn ctx s rung

theorem Ran.init : Ran ctx (startOf ctx) (.init health) where
  start_le := Nat.le_refl _
  rungs := by simp [LoopState.init]
  accounted := by simp [LoopState.init]
  answered := by simp [LoopState.init]
  served := by simp [LoopState.init]

/-- What a turn adds to the attempts and the log, whichever way it went. -/
theorem Turn.adds (h : Turn ctx idx s t flow) : ∃ a answer, a.rung = idx ∧
    t.attempts = s.attempts ++ [a] ∧ TurnLog ctx idx s t answer ∧ (answer = none → Quiet a) := by
  cases h with
  | abstained a answer rung attempts log quiet => exact ⟨a, answer, rung, attempts, log, quiet⟩
  | gated a resp rung attempts log => exact ⟨a, _, rung, attempts, log, nofun⟩

theorem Ran.turn (h : Ran ctx idx s) (hs : s.servedRung = none) (ht : Turn ctx idx s t flow) :
    Ran ctx (idx + 1) t := by
  obtain ⟨a, answer, rfl, hat, ⟨⟨js, hlog⟩, hspawn⟩, hquiet⟩ := ht.adds
  refine ⟨Nat.le_succ_of_le h.start_le, ?_, ?_, ?_, ?_⟩
  · rw [hat]
    exact rungs_append h.start_le h.rungs rfl
  · intro b hb
    rw [hat] at hb
    rw [hlog]
    cases List.mem_append.mp hb with
    | inl hb =>
      refine (h.accounted b hb).imp_right fun ⟨r, hr, hmem⟩ => ⟨r, hr, ?_⟩
      exact List.mem_append_left _ (List.mem_append_left _ hmem)
    | inr hb =>
      obtain rfl := List.mem_singleton.mp hb
      cases answer with
      | none => exact .inl (hquiet rfl)
      | some r => exact .inr ⟨r, hspawn r rfl, List.mem_append_right _ (List.mem_singleton.mpr rfl)⟩
  · intro j r hmem
    rw [hlog] at hmem
    rw [hat]
    rcases List.mem_append.mp hmem with hmem | hmem
    · have hold : .answer j r ∈ s.log := by simpa using hmem
      obtain ⟨hr, b, hb, hrung⟩ := h.answered j r hold
      exact ⟨hr, b, List.mem_append_left _ hb, hrung⟩
    · cases answer with
      | none => cases hmem
      | some r' =>
        obtain ⟨rfl, rfl⟩ : j = a.rung ∧ r = r' := by simpa using hmem
        exact ⟨hspawn r rfl, a, by simp, rfl⟩
  · intro rung hrung
    cases ht with
    | abstained b answer' hb hat' log' quiet' hsr hel => rw [hsr, hs] at hrung; cases hrung
    | gated b resp hb hat' log' judged best outcome =>
      rcases outcome with ⟨hserves, hsr, -⟩ | hsr
      · rw [hsr] at hrung
        cases hrung
        exact ⟨s.attempts, b, resp, hat', hb, best, judged, hserves⟩
      · rw [hsr, hs] at hrung
        cases hrung

theorem Turn.next (h : Turn ctx idx s t flow) (hs : s.servedRung = none) (hnext : flow = .next) :
    t.servedRung = none := by
  cases h with
  | abstained a answer rung attempts log quiet servedRung => exact servedRung.trans hs
  | gated a resp rung attempts log judged best outcome =>
    rcases outcome with ⟨_, _, hstop⟩ | hsr
    · rw [hnext] at hstop; cases hstop
    · exact hsr.trans hs

/-- A run that has ended: somewhere in the window, and not before its first rung. -/
def EndsRan (ctx : EnforceCtx F) (s : LoopState F) : Prop :=
  ∃ idx, idx ≤ rungEnd ctx ∧ (startOf ctx < rungEnd ctx → startOf ctx < idx) ∧ Ran ctx idx s

theorem serialLoop_ran (h : Ran ctx idx s) (hs : s.servedRung = none)
    (hrest : rest = rungsFrom ctx idx) (hidx : idx ≤ rungEnd ctx)
    (hfirst : rest = [] → startOf ctx < rungEnd ctx → startOf ctx < idx) :
    EndsRan ctx (serialLoop ctx elapsed rest idx s) := by
  induction rest generalizing idx s with
  | nil => exact ⟨idx, hidx, hfirst rfl, h⟩
  | cons model rest ih =>
    obtain ⟨hm, hlt, hnext⟩ := rungsFrom_cons hrest.symm
    have hturn := serialRung_turn elapsed hm s
    have hran := h.turn hs hturn
    have hpast : startOf ctx < idx + 1 := Nat.lt_succ_of_le h.start_le
    simp only [serialLoop]
    split
    · rename_i t heq
      rw [heq] at hturn hran
      exact ih hran (hturn.next hs rfl) hnext hlt fun _ _ => hpast
    · rename_i t heq
      rw [heq] at hran
      exact ⟨idx + 1, hlt, fun _ => hpast, hran⟩

theorem specLoop_ran (sched : Schedule) (elapsed : Nat → Nat) {s : SpecState F}
    (h : Ran ctx idx s.toLoopState) (hs : s.servedRung = none)
    (hin : Inflight ctx idx s) (hel : s.elastic = none)
    (hrest : rest = rungsFrom ctx idx) (hidx : idx ≤ rungEnd ctx)
    (hfirst : rest = [] → startOf ctx < rungEnd ctx → startOf ctx < idx) :
    EndsRan ctx (specLoop ctx sched elapsed rest idx s).toLoopState ∧
      (specLoop ctx sched elapsed rest idx s).elastic = none := by
  induction rest generalizing idx s with
  | nil => exact ⟨⟨idx, hidx, hfirst rfl, h⟩, hel⟩
  | cons model rest ih =>
    obtain ⟨hm, hlt, hnext⟩ := rungsFrom_cons hrest.symm
    obtain ⟨hturn, hel'⟩ := specRung_turn sched elapsed hin hlt hm hel
    have hin' := specRung_inflight sched elapsed hin hlt hm
    have hran := h.turn hs hturn
    have hpast : startOf ctx < idx + 1 := Nat.lt_succ_of_le h.start_le
    simp only [specLoop]
    split
    · rename_i t heq
      rw [heq] at hturn hran hin' hel'
      exact ih hran (hturn.next hs rfl) hin' hel' hnext hlt fun _ _ => hpast
    · rename_i t heq
      rw [heq] at hran hel'
      exact ⟨⟨idx + 1, hlt, fun _ => hpast, hran⟩, hel'⟩

theorem rungsFrom_start (h : rungsFrom ctx (startOf ctx) = []) : ¬startOf ctx < rungEnd ctx := by
  intro hlt
  have hlen := congrArg List.length h
  simp only [rungsFrom, rungEnd, List.length_take, List.length_drop, List.length_nil] at hlen hlt
  omega

theorem runEngine_ran (ctx : EnforceCtx F) (env : Surroundings) (health : GateHealthRegistry F) :
    EndsRan ctx (runEngine ctx env health) ∧
      (ctx.speculation ≠ 0 → (runEngine ctx env health).elastic = none) := by
  have hstart : startOf ctx ≤ rungEnd ctx := Nat.le_add_right _ _
  unfold runEngine
  split
  · rename_i hserial
    refine ⟨serialLoop_ran .init rfl rfl hstart fun hnil hlt => ?_, fun h => (h hserial).elim⟩
    exact (rungsFrom_start hnil hlt).elim
  · have hinit : Inflight ctx (startOf ctx) ⟨.init health, []⟩ := .init health _
    obtain ⟨⟨idx, hend, hfirst, hran⟩, hel⟩ := specLoop_ran env.sched env.elapsed .init rfl hinit
      rfl rfl hstart fun hnil hlt => (rungsFrom_start hnil hlt).elim
    exact ⟨⟨idx, hend, hfirst, ⟨hran.start_le, hran.rungs, hran.accounted, hran.answered,
      hran.served⟩⟩, fun _ => hel⟩

-- ---------------------------------------------------------------------------
-- The condensed retry
-- ---------------------------------------------------------------------------

/-- The condensed request of the second pass, where the code makes one. -/
def retried (ctx : EnforceCtx F) (run : LadderRun F) : Option Condensed :=
  match ctx.condense with
  | none => none
  | some cfg =>
    if overflowedEverywhere run then condense ctx.baseRequest cfg.keepHead cfg.keepTail else none

theorem runLadder_once (h : retried ctx (runEngine ctx first health).toLadderRun = none) :
    runLadder ctx first second health = runEngine ctx first health := by
  unfold retried at h
  unfold runLadder
  cases hcfg : ctx.condense with
  | none => rfl
  | some cfg =>
    simp only [hcfg] at h ⊢
    split
    · rename_i hover
      rw [if_pos hover] at h
      rw [h]
    · rfl

theorem runLadder_twice (second : Surroundings) {c : Condensed}
    (h : retried ctx (runEngine ctx first health).toLadderRun = some c) :
    overflowedEverywhere (runEngine ctx first health).toLadderRun = true ∧
      runLadder ctx first second health = (runEngine ctx first health).append
        (runEngine (retryCtx ctx c.request) second (runEngine ctx first health).health) := by
  unfold retried at h
  unfold runLadder
  cases hcfg : ctx.condense with
  | none => rw [hcfg] at h; cases h
  | some cfg =>
    simp only [hcfg] at h ⊢
    split at h
    · rename_i hover
      rw [if_pos hover, h]
      exact ⟨hover, rfl⟩
    · cases h

/-- The settings of the pass that decides: those of the only pass, or of the retry. -/
inductive LastPass (ctx : EnforceCtx F) : EnforceCtx F → Prop
  | only : LastPass ctx ctx
  | retry (request : ModelRequest) : LastPass ctx (retryCtx ctx request)

theorem LastPass.gates (h : LastPass ctx run) : run.gates = ctx.gates := by
  cases h <;> rfl

theorem ServedOn.append {s t : LoopState F} (h : ServedOn ctx t rung) :
    ServedOn ctx (s.append t) rung := by
  obtain ⟨earlier, a, resp, hat, hrung, hbest, hjudged⟩ := h
  refine ⟨s.attempts ++ earlier, a, resp, ?_, hrung, hbest, hjudged⟩
  rw [List.append_assoc, ← hat]
  rfl

/-- A served rung is the last attempt of the whole run. -/
theorem runLadder_served (h : (runLadder ctx first second health).servedRung = some rung) :
    ∃ run, LastPass ctx run ∧ ServedOn run (runLadder ctx first second health) rung := by
  cases hretry : retried ctx (runEngine ctx first health).toLadderRun with
  | none =>
    rw [runLadder_once hretry] at h ⊢
    obtain ⟨⟨idx, -, -, hran⟩, -⟩ := runEngine_ran ctx first health
    exact ⟨ctx, .only, hran.served rung h⟩
  | some c =>
    rw [(runLadder_twice second hretry).2] at h ⊢
    obtain ⟨⟨idx, -, -, hran⟩, -⟩ := runEngine_ran (retryCtx ctx c.request) second
      (runEngine ctx first health).health
    exact ⟨_, .retry c.request, (hran.served rung h).append⟩

end Firstpass
