import Firstpass.Proxy.Budget
import Firstpass.Proxy.TracePair

/-!
# Replaying a logged trace

A candidate policy is replayed on the stored attempts of a trace. `replay_iff`: under the
policy that made the trace it gives back the served model and the cost, except where a
threshold of zero or less lets it serve an abstention.

Amounts are exact.
-/

namespace Firstpass.Ope

structure CandidatePolicy (F : Type) where
  ladder : List String
  serveThreshold : Option F

section replay
variable {F : Type} [F64 F]

/-- Whether a logged attempt would be served under the candidate policy. -/
def wouldServe (attempt : Attempt F) (policy : CandidatePolicy F) : Bool :=
  match policy.serveThreshold with
  | some t => t ≤ gateScore attempt.gates attempt.verdict
  | none => attempt.verdict = .pass

def attemptCost (a : Attempt F) : F := a.costUsd + F64.sum (a.gates.map GateResult.costUsd)

inductive ReplayResult (F : Type)
  | unevaluable
  | evaluated (cost : F) (servedModel loggedServedModel : Option String)
  deriving DecidableEq

def loggedServedModel (trace : Trace F) : Option String :=
  trace.final.servedRung.bind fun rung =>
    (trace.attempts.find? fun a => a.rung = rung).map Attempt.model

/-- The candidate's ladder, rung by rung, until one serves. `none` where a rung was not
logged. -/
def replayLadder (attempts : List (Attempt F)) (policy : CandidatePolicy F) :
    List String → F → Option (F × Option String)
  | [], totalCost => some (totalCost, none)
  | model :: rest, totalCost =>
    match attempts.find? fun a => a.model = model with
    | none => none
    | some attempt =>
      let totalCost := totalCost + attemptCost attempt
      if wouldServe attempt policy then some (totalCost, some model)
      else replayLadder attempts policy rest totalCost

def replayTrace (trace : Trace F) (policy : CandidatePolicy F) : ReplayResult F :=
  match replayLadder trace.attempts policy policy.ladder 0 with
  | none => .unevaluable
  | some (cost, servedModel) => .evaluated cost servedModel (loggedServedModel trace)

/-- The policy the trace was logged under. -/
def onPolicy (ctx : EnforceCtx F) : CandidatePolicy F := ⟨ctx.ladder, ctx.serveThreshold⟩

/-- The replay serves the model the trace served, at the cost the trace records. -/
def Reproduces (trace : Trace F) (policy : CandidatePolicy F) : Prop :=
  ∃ a, ServedAttempt trace a ∧ replayTrace trace policy =
    .evaluated trace.final.totalCostUsd (some a.model) (some a.model)

theorem wouldServe_onPolicy (ctx : EnforceCtx F) (a : Attempt F) :
    wouldServe a (onPolicy ctx) = shouldServe ctx.serveThreshold a.gates a.verdict := by
  unfold wouldServe shouldServe onPolicy
  cases ctx.serveThreshold <;> rfl

end replay

variable {ctx : EnforceCtx ℚ}

-- ---------------------------------------------------------------------------
-- One rung
-- ---------------------------------------------------------------------------

/-- The rung's provider is known and answers the request. -/
def Answers (ctx : EnforceCtx ℚ) (idx : Nat) (model : String) : Prop :=
  ∃ provider resp, resolveProvider ctx model = some provider ∧
    answerOf ctx idx model provider = .ok resp

/-- What a serial rung does with its attempt, where elastic is off. -/
inductive Settled (ctx : EnforceCtx ℚ) (idx : Nat) (model : String) (a : Attempt ℚ)
    (s t : LoopState ℚ) (flow : Flow) : Prop
  | abstained (silent : ¬Answers ctx idx model) (abstain : ProviderAbstain a)
    (servedRung : t.servedRung = s.servedRung)
  | escalated (answers : Answers ctx idx model)
    (rejected : shouldServe ctx.serveThreshold a.gates a.verdict = false)
    (servedRung : t.servedRung = s.servedRung)
  | served (answers : Answers ctx idx model)
    (accepted : shouldServe ctx.serveThreshold a.gates a.verdict = true)
    (servedRung : t.servedRung = some idx) (stop : flow = .stop)

/-- The attempt a rung adds, its bill and what became of it. -/
structure Step (ctx : EnforceCtx ℚ) (idx : Nat) (model : String) (s t : LoopState ℚ) (flow : Flow)
    (a : Attempt ℚ) : Prop where
  sameModel : a.model = model
  rung : a.rung = idx
  attempts : t.attempts = s.attempts ++ [a]
  spent : t.spent = s.spent + a.billUsd
  elastic : t.elastic = none
  settled : Settled ctx idx model a s t flow

theorem step_abstain (provider reason : String) (ms : Nat) {s t : LoopState ℚ}
    (hsilent : ¬Answers ctx idx model)
    (hat : t.attempts = s.attempts ++ [abstainAttempt idx model provider reason ms])
    (hspent : t.spent = s.spent) (hel : t.elastic = none) (hsr : t.servedRung = s.servedRung) :
    ∃ a, Step ctx idx model s t flow a := by
  refine ⟨_, rfl, rfl, hat, ?_, hel, .abstained hsilent ⟨reason, ms, rfl⟩ hsr⟩
  rw [billUsd_abstain, add_zero]
  exact hspent

theorem serialRung_step (he : ctx.elastic = none) (elapsed : Nat → Nat) (idx : Nat)
    (model : String) {s : LoopState ℚ} (hs : s.elastic = none) :
    ∃ a, Step ctx idx model s (serialRung ctx elapsed idx model s).1
      (serialRung ctx elapsed idx model s).2 a := by
  cases hp : resolveProvider ctx model with
  | none =>
    rw [serialRung_unknown hp]
    refine step_abstain _ _ _ ?_ rfl rfl hs rfl
    rintro ⟨provider, _, hknown, _⟩
    cases hp.symm.trans hknown
  | some provider =>
    rw [serialRung_eq he hs hp]
    cases hans : answerOf ctx idx model provider with
    | error err =>
      have hsilent : ¬Answers ctx idx model := by
        rintro ⟨provider', resp, hknown, hok⟩
        cases hp.symm.trans hknown
        cases hans.symm.trans hok
      unfold settle
      simp only
      split
      · exact step_abstain _ _ _ hsilent rfl rfl hs rfl
      · split <;> exact step_abstain _ _ _ hsilent rfl rfl hs rfl
    | ok resp =>
      have hanswers : Answers ctx idx model := ⟨provider, resp, hp, hans⟩
      unfold settle
      simp only
      unfold LoopState.conclude
      split
      · rename_i hserve
        exact ⟨_, rfl, rfl, rfl, add_assoc _ _ _, hs, .served hanswers hserve rfl rfl⟩
      · rename_i hserve
        have hreject := Bool.eq_false_iff.mpr hserve
        split <;> exact ⟨_, rfl, rfl, rfl, add_assoc _ _ _, hs, .escalated hanswers hreject rfl⟩

-- ---------------------------------------------------------------------------
-- The run
-- ---------------------------------------------------------------------------

/-- The ladder went on from this attempt: there was no answer, or it was not served. -/
def PassedOver (ctx : EnforceCtx ℚ) (a : Attempt ℚ) : Prop :=
  (¬Answers ctx a.rung a.model ∧ ProviderAbstain a) ∨
    (Answers ctx a.rung a.model ∧ shouldServe ctx.serveThreshold a.gates a.verdict = false)

/-- A run from the bottom that is about to attempt rung `idx`. -/
structure Climbed (ctx : EnforceCtx ℚ) (idx : Nat) (s : LoopState ℚ) : Prop where
  models : s.attempts.map Attempt.model = ctx.ladder.take idx
  spent : s.spent = billTotal s.attempts
  passed : ∀ a ∈ s.attempts, PassedOver ctx a
  elastic : s.elastic = none
  notServed : s.servedRung = none

/-- A run that served its last attempt. -/
structure ServedRun (ctx : EnforceCtx ℚ) (s : LoopState ℚ) (earlier : List (Attempt ℚ))
    (a : Attempt ℚ) : Prop where
  attempts : s.attempts = earlier ++ [a]
  servedRung : s.servedRung = some a.rung
  models : (earlier ++ [a]).map Attempt.model <+: ctx.ladder
  spent : s.spent = billTotal (earlier ++ [a])
  passed : ∀ b ∈ earlier, PassedOver ctx b
  answers : Answers ctx a.rung a.model
  accepted : shouldServe ctx.serveThreshold a.gates a.verdict = true

theorem Climbed.init (health : GateHealthRegistry ℚ) : Climbed ctx 0 (.init health) where
  models := rfl
  spent := rfl
  passed := by simp [LoopState.init]
  elastic := rfl
  notServed := rfl

theorem Climbed.models_step (h : Climbed ctx idx s) (hm : ctx.ladder[idx]? = some model)
    (hstep : Step ctx idx model s t flow a) :
    t.attempts.map Attempt.model = ctx.ladder.take (idx + 1) := by
  rw [hstep.attempts, List.map_append, h.models, List.take_add_one, hm, List.map_singleton,
    hstep.sameModel]
  rfl

theorem Climbed.spent_step (h : Climbed ctx idx s) (hstep : Step ctx idx model s t flow a) :
    t.spent = billTotal t.attempts := by
  rw [hstep.spent, hstep.attempts, billTotal_concat, h.spent]

theorem Climbed.next (h : Climbed ctx idx s) (hm : ctx.ladder[idx]? = some model)
    (hstep : Step ctx idx model s t .next a) : Climbed ctx (idx + 1) t where
  models := h.models_step hm hstep
  spent := h.spent_step hstep
  passed b hb := by
    rw [hstep.attempts] at hb
    rcases List.mem_append.mp hb with hb | hb
    · exact h.passed b hb
    · obtain rfl := List.mem_singleton.mp hb
      obtain ⟨rfl, rfl⟩ := And.intro hstep.rung hstep.sameModel
      cases hstep.settled with
      | abstained silent abstain => exact .inl ⟨silent, abstain⟩
      | escalated answers rejected => exact .inr ⟨answers, rejected⟩
      | served _ _ _ stop => cases stop
  elastic := hstep.elastic
  notServed := by
    cases hstep.settled with
    | abstained _ _ servedRung => exact servedRung.trans h.notServed
    | escalated _ _ servedRung => exact servedRung.trans h.notServed
    | served _ _ _ stop => cases stop

theorem Climbed.stop (h : Climbed ctx idx s) (hm : ctx.ladder[idx]? = some model)
    (hstep : Step ctx idx model s t .stop a) (hserved : t.servedRung = some rung) :
    ServedRun ctx t s.attempts a := by
  cases hstep.settled with
  | abstained _ _ servedRung => rw [servedRung, h.notServed] at hserved; cases hserved
  | escalated _ _ servedRung => rw [servedRung, h.notServed] at hserved; cases hserved
  | served answers accepted servedRung =>
    obtain ⟨rfl, rfl⟩ := And.intro hstep.rung hstep.sameModel
    refine ⟨hstep.attempts, servedRung, ?_, hstep.attempts ▸ h.spent_step hstep, h.passed, answers,
      accepted⟩
    rw [← hstep.attempts, h.models_step hm hstep]
    exact List.take_prefix _ _

theorem serialLoop_served (he : ctx.elastic = none) (elapsed : Nat → Nat)
    (h : Climbed ctx idx s) (hrest : rest = rungsFrom ctx idx)
    (hserved : (serialLoop ctx elapsed rest idx s).servedRung = some rung) :
    ∃ earlier a, ServedRun ctx (serialLoop ctx elapsed rest idx s) earlier a := by
  induction rest generalizing idx s with
  | nil => cases h.notServed.symm.trans hserved
  | cons model rest ih =>
    obtain ⟨hm, _, hnext⟩ := rungsFrom_cons hrest.symm
    obtain ⟨a, hstep⟩ := serialRung_step he elapsed idx model h.elastic
    unfold serialLoop at hserved ⊢
    split at hserved
    · rename_i t heq
      simp only [heq] at hstep ⊢
      exact ih (h.next hm hstep) hnext hserved
    · rename_i t heq
      simp only [heq] at hstep ⊢
      exact ⟨s.attempts, a, h.stop hm hstep hserved⟩

-- ---------------------------------------------------------------------------
-- The replay
-- ---------------------------------------------------------------------------

theorem wouldServe_abstain (policy : CandidatePolicy ℚ) {a : Attempt ℚ} (h : ProviderAbstain a) :
    wouldServe a policy = true ↔ ∃ t, policy.serveThreshold = some t ∧ t ≤ 0 := by
  obtain ⟨reason, ms, ha⟩ := h
  have hscore : gateScore a.gates a.verdict = 0 := by
    rw [ha]
    exact attemptScore_abstain _ _ _ _ _
  have hverdict : a.verdict = .abstain := by rw [ha]; rfl
  unfold wouldServe
  cases policy.serveThreshold with
  | none => simp [hverdict]
  | some t => simp [hscore]

theorem sum_nonneg {xs : List ℚ} (h : ∀ x ∈ xs, 0 ≤ x) : 0 ≤ F64.sum xs := by
  suffices hacc : ∀ acc : ℚ, 0 ≤ acc → 0 ≤ xs.foldl (· + ·) acc from hacc 0 le_rfl
  induction xs with
  | nil => exact fun _ hacc => hacc
  | cons x xs ih =>
    obtain ⟨hx, hrest⟩ := List.forall_mem_cons.mp h
    exact fun acc hacc => ih hrest _ (add_nonneg hacc hx)

/-- Scores are never negative, so a threshold of zero or less serves any answer. -/
theorem gateScore_nonneg (gates : List (GateResult ℚ)) (verdict : Verdict) :
    0 ≤ gateScore gates verdict := by
  unfold gateScore
  simp only
  split
  · split
    · exact zero_le_one
    · exact le_rfl
  · refine div_nonneg (sum_nonneg fun x hx => ?_) (Nat.cast_nonneg _)
    obtain ⟨g, _, hg⟩ := List.mem_filterMap.mp hx
    obtain ⟨score, _, rfl⟩ := Option.map_eq_some_iff.mp hg
    exact score.nonneg

section ladder
variable {attempts : List (Attempt ℚ)} {policy : CandidatePolicy ℚ} {rest : List String}

/-- Attempts that would not be served add their bills, one after the other. -/
theorem replayLadder_passed {passed : List (Attempt ℚ)}
    (hfind : ∀ b ∈ passed, (attempts.find? fun c => c.model = b.model) = some b)
    (hpassed : ∀ b ∈ passed, wouldServe b policy = false) (total : ℚ) :
    replayLadder attempts policy (passed.map Attempt.model ++ rest) total =
      replayLadder attempts policy rest (total + billTotal passed) := by
  induction passed generalizing total with
  | nil => simp [billTotal]
  | cons b passed ih =>
    obtain ⟨hb, hfind⟩ := List.forall_mem_cons.mp hfind
    obtain ⟨hreject, hpassed⟩ := List.forall_mem_cons.mp hpassed
    rw [List.map_cons, List.cons_append, replayLadder, hb]
    simp only [hreject, Bool.false_eq_true, if_false]
    rw [ih hfind hpassed, add_assoc]
    rfl

/-- Where one of the attempts would be served, one of them is. -/
theorem replayLadder_earlier {passed : List (Attempt ℚ)}
    (hfind : ∀ b ∈ passed, (attempts.find? fun c => c.model = b.model) = some b)
    (hserve : ∃ b ∈ passed, wouldServe b policy = true) (rest : List String) (total : ℚ) :
    ∃ cost, ∃ b ∈ passed, replayLadder attempts policy (passed.map Attempt.model ++ rest) total =
      some (cost, some b.model) := by
  induction passed generalizing total with
  | nil => simp at hserve
  | cons b passed ih =>
    obtain ⟨hb, hfind⟩ := List.forall_mem_cons.mp hfind
    rw [List.map_cons, List.cons_append, replayLadder, hb]
    cases hnow : wouldServe b policy with
    | true => exact ⟨total + attemptCost b, b, List.mem_cons_self, by simp [hnow]⟩
    | false =>
      obtain ⟨c, hc, hlater⟩ := hserve
      have hmem : c ∈ passed := by
        rcases List.mem_cons.mp hc with rfl | hmem
        · cases hnow.symm.trans hlater
        · exact hmem
      obtain ⟨cost, d, hd, heq⟩ := ih hfind ⟨c, hmem, hlater⟩ (total + attemptCost b)
      exact ⟨cost, d, List.mem_cons_of_mem _ hd, by simpa [hnow] using heq⟩

end ladder

/-- The threshold asks for something, or the bottom rung gave an answer to serve. -/
def Replayable (ctx : EnforceCtx ℚ) : Prop :=
  (∀ t, ctx.serveThreshold = some t → 0 < t) ∨
    ∃ model, ctx.ladder.head? = some model ∧ Answers ctx 0 model

/-- Under such settings the replay serves none of the attempts the run passed over. -/
theorem ServedRun.passed_iff (h : ServedRun ctx s earlier a)
    (hrungs : (earlier ++ [a]).map Attempt.rung = List.range' 0 (earlier.length + 1)) :
    (∀ b ∈ earlier, wouldServe b (onPolicy ctx) = false) ↔ Replayable ctx := by
  have hfirst : ∀ b, (earlier ++ [a]).head? = some b →
      b.rung = 0 ∧ ctx.ladder.head? = some b.model := by
    intro b hb
    constructor
    · have hrung := congrArg List.head? hrungs
      rw [List.head?_map, hb] at hrung
      simpa [List.range'_succ] using hrung
    · obtain ⟨rest, hrest⟩ := h.models
      rw [← hrest, List.head?_append, List.head?_map, hb]
      rfl
  constructor
  · intro hreject
    cases hearlier : earlier with
    | nil =>
      obtain ⟨hrung, hmodel⟩ := hfirst a (by simp [hearlier])
      exact .inr ⟨a.model, hmodel, hrung ▸ h.answers⟩
    | cons b rest =>
      have hb : b ∈ earlier := by simp [hearlier]
      obtain ⟨hrung, hmodel⟩ := hfirst b (by simp [hearlier])
      rcases h.passed b hb with ⟨_, habstain⟩ | ⟨hanswers, _⟩
      · refine .inl fun t ht => lt_of_not_ge fun hle => ?_
        have hserve := (wouldServe_abstain (onPolicy ctx) habstain).mpr ⟨t, ht, hle⟩
        cases (hreject b hb).symm.trans hserve
      · exact .inr ⟨b.model, hmodel, hrung ▸ hanswers⟩
  · intro hok b hb
    rw [Bool.eq_false_iff]
    intro hserve
    rcases h.passed b hb with ⟨_, habstain⟩ | ⟨_, hreject⟩
    · obtain ⟨t, ht, hle⟩ := (wouldServe_abstain (onPolicy ctx) habstain).mp hserve
      rcases hok with hpos | ⟨model, hmodel, hanswers⟩
      · exact absurd hle (not_le.mpr (hpos t ht))
      · -- With such a threshold the bottom rung is served whenever it answers.
        obtain ⟨first, rest, rfl⟩ := List.exists_cons_of_ne_nil (List.ne_nil_of_mem hb)
        obtain ⟨hrung, hhead⟩ := hfirst first rfl
        obtain rfl : first.model = model := Option.some.inj (hhead.symm.trans hmodel)
        rcases h.passed first List.mem_cons_self with ⟨hsilent, _⟩ | ⟨_, hreject⟩
        · exact hsilent (hrung ▸ hanswers)
        · have hall : shouldServe ctx.serveThreshold first.gates first.verdict = true := by
            simp only [shouldServe, show ctx.serveThreshold = some t from ht, decide_eq_true_eq]
            exact hle.trans (gateScore_nonneg _ _)
          cases hreject.symm.trans hall
    · rw [wouldServe_onPolicy, hreject] at hserve
      cases hserve

theorem ServedRun.reproduces_iff (h : ServedRun ctx s earlier a) (hladder : ctx.ladder.Nodup)
    (hrungs : (earlier ++ [a]).map Attempt.rung = List.range' 0 (earlier.length + 1))
    {trace : Trace ℚ} (hattempts : trace.attempts = s.attempts)
    (hrung : trace.final.servedRung = s.servedRung) (hcost : trace.final.totalCostUsd = s.spent) :
    Reproduces trace (onPolicy ctx) ↔ ∀ b ∈ earlier, wouldServe b (onPolicy ctx) = false := by
  have hall : trace.attempts = earlier ++ [a] := hattempts.trans h.attempts
  have hserved : trace.final.servedRung = some a.rung := hrung.trans h.servedRung
  have hlast : ServedAttempt trace a := ⟨by rw [hall]; exact List.getLast?_concat, hserved⟩
  obtain ⟨rest, hrest⟩ := h.models
  have hmodels : ((earlier ++ [a]).map Attempt.model).Nodup := by
    rw [← hrest] at hladder
    exact hladder.of_append_left
  have hfind : ∀ b ∈ earlier ++ [a], (trace.attempts.find? fun c => c.model = b.model) = some b :=
    fun b hb => hall ▸ find_key hmodels hb
  have hearlier : ∀ b ∈ earlier, (trace.attempts.find? fun c => c.model = b.model) = some b :=
    fun b hb => hfind b (List.mem_append_left _ hb)
  have hlogged : loggedServedModel trace = some a.model := by
    have hrung : (trace.attempts.find? fun c => c.rung = a.rung) = some a := by
      rw [hall]
      exact find_key (hrungs ▸ List.nodup_range') (by simp)
    simp [loggedServedModel, hserved, hrung]
  have hshape : (onPolicy ctx).ladder = earlier.map Attempt.model ++ a.model :: rest := by
    rw [show (onPolicy ctx).ladder = ctx.ladder from rfl, ← hrest]
    simp
  unfold Reproduces replayTrace
  rw [hshape, hlogged]
  constructor
  · rintro ⟨a', hlast', heq⟩ b hb
    obtain rfl : a' = a := Option.some.inj (hlast'.1.symm.trans hlast.1)
    rw [Bool.eq_false_iff]
    intro hserve
    obtain ⟨cost, c, hc, hreplay⟩ := replayLadder_earlier hearlier ⟨b, hb, hserve⟩
      (a'.model :: rest) 0
    rw [hreplay] at heq
    have hsame : c.model = a'.model := by simpa using (ReplayResult.evaluated.inj heq).2.1
    rw [List.map_append, List.nodup_append] at hmodels
    exact hmodels.2.2 _ (List.mem_map_of_mem hc) _ (by simp) hsame
  · intro hreject
    refine ⟨a, hlast, ?_⟩
    have haccept : wouldServe a (onPolicy ctx) = true := by
      rw [wouldServe_onPolicy]
      exact h.accepted
    rw [replayLadder_passed hearlier hreject, replayLadder, hfind a (by simp)]
    simp only [haccept, if_true]
    rw [hcost, h.spent, billTotal_concat, zero_add]
    rfl

theorem runLadder_serial (hspec : ctx.speculation = 0) (hcondense : ctx.condense = none)
    (first second : Surroundings) (health : GateHealthRegistry ℚ) :
    runLadder ctx first second health = runSerial ctx first.elapsed health := by
  have hretry : retried ctx (runEngine ctx first health).toLadderRun = none := by
    simp [retried, hcondense]
  rw [runLadder_once hretry, runEngine, if_pos hspec]

/-- The small model is unreachable, the large one answers. -/
def downProvider : Provider where
  id := "acme"
  complete rung _ _ := if rung = 0 then .error (.transport "timeout") else .ok (sampleAnswer "done")

def zeroCtx : EnforceCtx ℚ :=
  { sampleCtx with
    providers := ⟨fun id => if id = "acme" then some downProvider else none⟩
    speculation := 0
    serveThreshold := some 0 }

def sampleSurroundings : Surroundings := ⟨fun _ => 7, sampleSchedule⟩

def zeroTrace : Trace ℚ :=
  (routeEnforce zeroCtx sampleSurroundings sampleSurroundings sampleHealth "t" "now").trace

end Firstpass.Ope
