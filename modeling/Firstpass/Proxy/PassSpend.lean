import Firstpass.Proxy.Budget
import Firstpass.Proxy.SteadyGates

/-!
# What is spent by the time of a call

`budget_law` for either engine, and for calls that are made ahead of their turn: an amount is
spent from the answer on that it was paid for. Of the condensed retry it is a law for each
pass, since a pass begins at zero.
-/

namespace Firstpass

variable {ctx : EnforceCtx ℚ} {s t : LoopState ℚ} {idx : Nat} {flow : Flow}

-- ---------------------------------------------------------------------------
-- Spending in the order of the log
-- ---------------------------------------------------------------------------

def answered (front : List ProviderEvent) (rung : Nat) : Bool :=
  front.any fun
    | .answer r _ => r = rung
    | .call _ => false

/-- What the answers in `front` have cost. -/
def spentAt (attempts : List (Attempt ℚ)) (front : List ProviderEvent) : ℚ :=
  billTotal (attempts.filter fun a => answered front a.rung)

theorem answered_append (front back : List ProviderEvent) (rung : Nat) :
    answered (front ++ back) rung = (answered front rung || answered back rung) := by
  simp [answered]

theorem answered_calls (js : List Nat) (rung : Nat) :
    answered (js.map .call) rung = false := by
  simp [answered]

theorem mem_of_answered {front : List ProviderEvent} (h : answered front rung = true) :
    ∃ r, .answer rung r ∈ front := by
  obtain ⟨e, he, hrung⟩ := List.any_eq_true.mp h
  cases e with
  | call j => cases hrung
  | answer r result =>
    obtain rfl : r = rung := by simpa using hrung
    exact ⟨result, he⟩

theorem spentAt_concat (attempts : List (Attempt ℚ)) {a : Attempt ℚ} {front : List ProviderEvent}
    (h : answered front a.rung = false) :
    spentAt (attempts ++ [a]) front = spentAt attempts front := by
  simp [spentAt, List.filter_append, h]

/-- Attempts without an answer cost nothing. -/
theorem spentAt_all {attempts : List (Attempt ℚ)} {front : List ProviderEvent}
    (h : ∀ a ∈ attempts, a.billUsd = 0 ∨ answered front a.rung = true) :
    spentAt attempts front = billTotal attempts := by
  induction attempts with
  | nil => rfl
  | cons a attempts ih =>
    obtain ⟨ha, hrest⟩ := List.forall_mem_cons.mp h
    have htail := ih hrest
    unfold spentAt at htail ⊢
    rw [List.filter_cons]
    split_ifs with hans
    · simp only [billTotal, List.map_cons, List.sum_cons] at htail ⊢
      rw [htail]
    · have hzero : a.billUsd = 0 := ha.resolve_right hans
      simp only [billTotal, List.map_cons, List.sum_cons, hzero, zero_add] at htail ⊢
      exact htail

-- ---------------------------------------------------------------------------
-- One rung
-- ---------------------------------------------------------------------------

/-- The answer of a rung, where one was waited for. -/
def AnswerOf (idx : Nat) (events : List ProviderEvent) : Prop :=
  events = [] ∨ ∃ r, events = [.answer idx r]

/-- What one rung of either engine adds to a run: calls, then an answer, then its bill. -/
structure Spend (ctx : EnforceCtx ℚ) (idx : Nat) (s t : LoopState ℚ) (flow : Flow)
    (a : Attempt ℚ) : Prop where
  rung : a.rung = idx
  attempts : t.attempts = s.attempts ++ [a]
  spent : t.spent = s.spent + a.billUsd
  log : ∃ (js : List Nat) (events : List ProviderEvent), AnswerOf idx events ∧
    t.log = s.log ++ js.map .call ++ events ∧ (a.billUsd = 0 ∨ events ≠ [])
  next : flow = .next → idx + 1 < rungEnd ctx →
    t.spent = s.spent ∨ overBudget ctx t.spent = false
  best : (a.billUsd = 0 ∧ t.best = s.best) ∨ t.best ≠ none
  gated : a.billUsd = 0 ∨ ∃ decision, Judged ctx idx a.gates decision

theorem spend_abstain (js : List Nat) (events : List ProviderEvent) (hevents : AnswerOf idx events)
    (model provider reason : String) (ms : Nat)
    (hat : t.attempts = s.attempts ++ [abstainAttempt idx model provider reason ms])
    (hspent : t.spent = s.spent) (hlog : t.log = s.log ++ js.map .call ++ events)
    (hbest : t.best = s.best) : ∃ a, Spend ctx idx s t flow a := by
  have hzero := billUsd_abstain idx model provider reason ms
  refine ⟨_, rfl, hat, ?_, ⟨js, events, hevents, hlog, .inl hzero⟩, fun _ _ => .inl hspent,
    .inl ⟨hzero, hbest⟩, .inl hzero⟩
  rw [hzero, add_zero]
  exact hspent

theorem conclude_best (s : LoopState ℚ) (serve : Bool) :
    (s.conclude ctx idx serve).1.best = s.best := by
  rcases conclude_cases s ctx idx serve with h | h <;> rw [h]

theorem spend_conclude {a : Attempt ℚ} (js : List Nat) (r : Except ProviderError ModelResponse)
    (serve : Bool) (ha : a.rung = idx) (hat : t.attempts = s.attempts ++ [a])
    (hspent : t.spent = s.spent + a.billUsd)
    (hlog : t.log = s.log ++ js.map .call ++ [.answer idx r]) (hbest : t.best ≠ none)
    (hjudged : Judged ctx idx a.gates decision) :
    Spend ctx idx s (t.conclude ctx idx serve).1 (t.conclude ctx idx serve).2 a where
  rung := ha
  attempts := (conclude_attempts t serve).trans hat
  spent := (conclude_spent t serve).trans hspent
  log := ⟨js, _, .inr ⟨r, rfl⟩, (conclude_log t serve).trans hlog, .inr (List.cons_ne_nil _ _)⟩
  next hnext hidx := .inr (conclude_next t serve hnext hidx)
  best := .inr ((conclude_best t serve).symm ▸ hbest)
  gated := .inr ⟨decision, hjudged⟩

theorem spend_error (err : ProviderError) (js : List Nat) (model provider : String) (ms : Nat)
    (hat : t.attempts = s.attempts) (hspent : t.spent = s.spent) (hbest : t.best = s.best)
    (hlog : t.log = s.log ++ js.map .call ++ [.answer idx (.error err)]) :
    ∃ a, Spend ctx idx s (settle ctx idx model provider (.error err) ms t).1
      (settle ctx idx model provider (.error err) ms t).2 a := by
  have hanswer : AnswerOf idx [.answer idx (.error err)] := .inr ⟨_, rfl⟩
  unfold settle
  simp only
  split_ifs
  · exact spend_abstain js _ hanswer _ _ _ _ (congrArg (· ++ _) hat) hspent hlog hbest
  · exact spend_abstain js _ hanswer _ _ _ _ (congrArg (· ++ _) hat) hspent hlog hbest
  · exact spend_abstain js _ hanswer _ _ _ _ (congrArg (· ++ _) hat) hspent hlog hbest

theorem spend_settle (result : Except ProviderError ModelResponse) (js : List Nat)
    (model provider : String) (ms : Nat) (hat : t.attempts = s.attempts)
    (hspent : t.spent = s.spent) (hbest : t.best = s.best)
    (hlog : t.log = s.log ++ js.map .call ++ [.answer idx result]) :
    ∃ a, Spend ctx idx s (settle ctx idx model provider result ms t).1
      (settle ctx idx model provider result ms t).2 a := by
  cases result with
  | error err => exact spend_error err js model provider ms hat hspent hbest hlog
  | ok resp =>
    refine ⟨_, spend_conclude js _ _ rfl (congrArg (· ++ _) hat) ?_ hlog (Option.some_ne_none _)
      (.speculative model resp t.health)⟩
    simp only [LoopState.gated, Attempt.billUsd, hspent]
    exact add_assoc _ _ _

theorem serialRung_spend (ctx : EnforceCtx ℚ) (elapsed : Nat → Nat) (idx : Nat) (model : String)
    (s : LoopState ℚ) :
    ∃ a, Spend ctx idx s (serialRung ctx elapsed idx model s).1
      (serialRung ctx elapsed idx model s).2 a := by
  cases hp : resolveProvider ctx model with
  | none =>
    rw [serialRung_unknown hp]
    exact spend_abstain [] [] (.inl rfl) _ _ _ _ rfl rfl (by simp [LoopState.abstain]) rfl
  | some provider =>
    cases hans : answerOf ctx idx model provider with
    | error err =>
      have hlog : (s.logged [.call idx, .answer idx (.error err)]).log =
          s.log ++ [idx].map .call ++ [.answer idx (.error err)] := by simp [LoopState.logged]
      rw [serialRung_failed hp hans]
      exact spend_error err [idx] model provider.id (elapsed idx) rfl rfl rfl hlog
    | ok resp =>
      rw [serialRung_answered hp hans]
      refine ⟨_, spend_conclude [idx] (.ok resp) _ rfl rfl ?_ ?_ (Option.some_ne_none _)
        (.serial model resp s.health)⟩
      · exact add_assoc _ _ _
      · simp [LoopState.gated, LoopState.logged]

theorem specRung_spend (sched : Schedule) (elapsed : Nat → Nat) {s : SpecState ℚ}
    (hin : Inflight ctx idx s) (hidx : idx < rungEnd ctx) (hm : ctx.ladder[idx]? = some model) :
    ∃ a, Spend ctx idx s.toLoopState (specRung ctx sched elapsed idx model s).1.toLoopState
      (specRung ctx sched elapsed idx model s).2 a := by
  obtain ⟨js, hfire⟩ := fireWindow_eq ctx idx s
  have hat : (fireWindow ctx idx s).attempts = s.attempts := congrArg (·.attempts) hfire
  have hspent : (fireWindow ctx idx s).spent = s.spent := congrArg (·.spent) hfire
  have hbest : (fireWindow ctx idx s).best = s.best := congrArg (·.best) hfire
  have hlog : (fireWindow ctx idx s).log = s.log ++ js.map .call ++ [] := by
    rw [hfire, List.append_nil]
    rfl
  cases hp : resolveProvider ctx model with
  | none =>
    rw [specRung_unknown hp]
    exact spend_abstain js [] (.inl rfl) _ _ _ _ (congrArg (· ++ _) hat) hspent hlog hbest
  | some provider =>
    cases hpanic : sched.panicked idx with
    | true =>
      rw [specRung_panicked hin hidx hm hp hpanic]
      exact spend_abstain js [] (.inl rfl) _ _ _ _ (congrArg (· ++ _) hat) hspent hlog hbest
    | false =>
      rw [specRung_eq hin hidx hm hp hpanic]
      refine spend_settle _ js model provider.id (elapsed idx) hat hspent hbest ?_
      simp [takeTask, LoopState.logged, hlog]

-- ---------------------------------------------------------------------------
-- A pass
-- ---------------------------------------------------------------------------

/-- What holds of a pass under the cap that has attempted the rungs before `idx`. -/
structure Capped (ctx : EnforceCtx ℚ) (cap : ℚ) (idx : Nat) (s : LoopState ℚ) : Prop where
  spent : s.spent = billTotal s.attempts
  behind : ∀ a ∈ s.attempts, a.rung < idx
  answers : ∀ r result, .answer r result ∈ s.log → r < idx
  billed : ∀ a ∈ s.attempts, a.billUsd = 0 ∨ answered s.log a.rung = true
  calls : ∀ front j back, s.log = front ++ .call j :: back → spentAt s.attempts front < cap
  best : s.best = none → billTotal s.attempts = 0
  gated : ∀ a ∈ s.attempts, a.billUsd = 0 ∨ ∃ decision, Judged ctx a.rung a.gates decision

variable {cap : ℚ}

theorem Capped.init (health : GateHealthRegistry ℚ) (idx : Nat) :
    Capped ctx cap idx (.init health) where
  spent := rfl
  behind := by simp [LoopState.init]
  answers := by simp [LoopState.init]
  billed := by simp [LoopState.init]
  calls := by simp [LoopState.init]
  best _ := rfl
  gated := by simp [LoopState.init]

/-- Before a call of a rung there are only other calls of it. -/
theorem answered_of_calls {js : List Nat} {events rest back : List ProviderEvent}
    (hevents : AnswerOf idx events) (h : js.map .call ++ events = rest ++ .call j :: back)
    (r : Nat) : answered rest r = false := by
  rcases List.append_eq_append_iff.mp h with ⟨cut, rfl, hcut⟩ | ⟨cut, hcut, -⟩
  · rcases hevents with rfl | ⟨result, rfl⟩
    · cases cut <;> cases hcut
    · cases cut with
      | nil => cases hcut
      | cons e cut => cases cut <;> cases hcut
  · have hcalls := answered_calls js r
    rw [hcut, answered_append, Bool.or_eq_false_iff] at hcalls
    exact hcalls.1

/-- The rung to come has had no answer. -/
theorem Capped.unanswered {a : Attempt ℚ} (h : Capped ctx cap idx s) (ha : a.rung = idx) :
    answered s.log a.rung = false := by
  rw [← Bool.not_eq_true]
  rintro hans
  obtain ⟨r, hr⟩ := mem_of_answered hans
  exact absurd (h.answers _ r hr) (by rw [ha]; exact Nat.lt_irrefl _)

/-- Whatever is called in a rung is called below the cap. -/
theorem Capped.spentAt_lt {a : Attempt ℚ} (h : Capped ctx cap idx s) (hspent : s.spent < cap)
    (ha : a.rung = idx) {js : List Nat} {events front back : List ProviderEvent} {j : Nat}
    (hevents : AnswerOf idx events)
    (hsplit : s.log ++ (js.map .call ++ events) = front ++ .call j :: back) :
    spentAt (s.attempts ++ [a]) front < cap := by
  have hunanswered := h.unanswered ha
  have hnow (rest : List ProviderEvent) (hrest : answered rest = fun _ => false) :
      spentAt (s.attempts ++ [a]) (s.log ++ rest) < cap := by
    rw [spentAt_concat _ (by simp [answered_append, hunanswered, hrest])]
    have hpaid : spentAt s.attempts (s.log ++ rest) = billTotal s.attempts :=
      spentAt_all fun b hb => (h.billed b hb).imp_right fun hans => by
        simp [answered_append, hans]
    rwa [hpaid, ← h.spent]
  -- the call is one of this rung, or one of an earlier one
  rcases List.append_eq_append_iff.mp hsplit with ⟨rest, rfl, hrest⟩ | ⟨cut, hcut, hback⟩
  · exact hnow rest (funext fun r => answered_of_calls hevents hrest r)
  · cases cut with
    | nil =>
      rw [List.append_nil] at hcut
      have hzero := hnow [] (funext fun _ => rfl)
      rwa [List.append_nil, hcut] at hzero
    | cons e cut =>
      obtain ⟨rfl, -⟩ := List.cons.inj hback
      have hfront : answered front a.rung = false := by
        rw [hcut, answered_append, Bool.or_eq_false_iff] at hunanswered
        exact hunanswered.1
      rw [spentAt_concat _ hfront]
      exact h.calls front j cut hcut

/-- The calls of a rung come before its answer, and after what was spent until then. -/
theorem Capped.rung {a : Attempt ℚ} (h : Capped ctx cap idx s) (hspent : s.spent < cap)
    (hs : Spend ctx idx s t flow a) : Capped ctx cap (idx + 1) t := by
  obtain ⟨js, events, hevents, hlog, hpaid⟩ := hs.log
  refine ⟨?_, fun b hb => ?_, fun r result hr => ?_, fun b hb => ?_, fun front j back hsplit => ?_,
    fun hbest => ?_, fun b hb => ?_⟩
  · rw [hs.spent, hs.attempts, billTotal_concat, h.spent]
  · rw [hs.attempts] at hb
    rcases List.mem_append.mp hb with hb | hb
    · exact Nat.lt_succ_of_lt (h.behind b hb)
    · rw [List.mem_singleton.mp hb, hs.rung]
      exact Nat.lt_succ_self idx
  · rw [hlog] at hr
    rcases List.mem_append.mp hr with hr | hr
    · have hold : .answer r result ∈ s.log := by simpa using hr
      exact Nat.lt_succ_of_lt (h.answers r result hold)
    · rcases hevents with rfl | ⟨r', rfl⟩
      · cases hr
      · obtain ⟨rfl, -⟩ : r = idx ∧ result = r' := by simpa using hr
        exact Nat.lt_succ_self r
  · rw [hs.attempts] at hb
    rw [hlog, answered_append, answered_append]
    rcases List.mem_append.mp hb with hb | hb
    · exact (h.billed b hb).imp_right fun hans => by simp [hans]
    · obtain rfl := List.mem_singleton.mp hb
      refine hpaid.imp_right fun hne => ?_
      obtain ⟨r, rfl⟩ := hevents.resolve_left hne
      simp [answered, hs.rung]
  · rw [hlog, List.append_assoc] at hsplit
    rw [hs.attempts]
    exact h.spentAt_lt hspent hs.rung hevents hsplit
  · rw [hs.attempts, billTotal_concat]
    obtain ⟨hzero, hsame⟩ := hs.best.resolve_right (not_not_intro hbest)
    rw [hzero, add_zero]
    exact h.best (hsame ▸ hbest)
  · rw [hs.attempts] at hb
    rcases List.mem_append.mp hb with hb | hb
    · exact h.gated b hb
    · rw [List.mem_singleton.mp hb, hs.rung]
      exact hs.gated

theorem Capped.next {a : Attempt ℚ} (hcap : ctx.budgetPerRequestUsd = some cap)
    (hspent : s.spent < cap) (hs : Spend ctx idx s t .next a) (hidx : idx + 1 < rungEnd ctx) :
    t.spent < cap := by
  rcases hs.next rfl hidx with hsame | hover
  · rwa [hsame]
  · simpa [overBudget, hcap] using hover

theorem rungsFrom_ne_nil (h : rungsFrom ctx idx ≠ []) : idx < rungEnd ctx := by
  obtain ⟨model, rest, hcons⟩ := List.exists_cons_of_ne_nil h
  exact (rungsFrom_cons hcons).2.1

theorem serialLoop_capped (elapsed : Nat → Nat) (hcap : ctx.budgetPerRequestUsd = some cap)
    (h : Capped ctx cap idx s) (hspent : rest ≠ [] → s.spent < cap)
    (hrest : rest = rungsFrom ctx idx) :
    ∃ n, Capped ctx cap n (serialLoop ctx elapsed rest idx s) := by
  induction rest generalizing idx s with
  | nil => exact ⟨idx, h⟩
  | cons model rest ih =>
    obtain ⟨-, -, hnext⟩ := rungsFrom_cons hrest.symm
    obtain ⟨a, hspend⟩ := serialRung_spend ctx elapsed idx model s
    have hunder : s.spent < cap := hspent (List.cons_ne_nil model rest)
    have hcapped := h.rung hunder hspend
    simp only [serialLoop]
    split
    · rename_i u heq
      rw [heq] at hspend hcapped
      refine ih hcapped (fun hne => ?_) hnext
      exact Capped.next hcap hunder hspend (rungsFrom_ne_nil (hnext ▸ hne))
    · rename_i u heq
      rw [heq] at hcapped
      exact ⟨idx + 1, hcapped⟩

theorem specLoop_capped (sched : Schedule) (elapsed : Nat → Nat)
    (hcap : ctx.budgetPerRequestUsd = some cap) {s : SpecState ℚ}
    (h : Capped ctx cap idx s.toLoopState) (hin : Inflight ctx idx s)
    (hspent : rest ≠ [] → s.spent < cap) (hrest : rest = rungsFrom ctx idx) :
    ∃ n, Capped ctx cap n (specLoop ctx sched elapsed rest idx s).toLoopState := by
  induction rest generalizing idx s with
  | nil => exact ⟨idx, h⟩
  | cons model rest ih =>
    obtain ⟨hm, hlt, hnext⟩ := rungsFrom_cons hrest.symm
    obtain ⟨a, hspend⟩ := specRung_spend sched elapsed hin hlt hm
    have hin' := specRung_inflight sched elapsed hin hlt hm
    have hunder : s.spent < cap := hspent (List.cons_ne_nil model rest)
    have hcapped := h.rung hunder hspend
    simp only [specLoop]
    split
    · rename_i u heq
      rw [heq] at hspend hcapped hin'
      refine ih hcapped hin' (fun hne => ?_) hnext
      exact Capped.next hcap hunder hspend (rungsFrom_ne_nil (hnext ▸ hne))
    · rename_i u heq
      rw [heq] at hcapped
      exact ⟨idx + 1, hcapped⟩

/-- The attempts of a pass, its calls and its best answer are those of a state under the cap. -/
theorem runEngine_capped (hcap : ctx.budgetPerRequestUsd = some cap) (hpos : 0 < cap)
    (env : Surroundings) (health : GateHealthRegistry ℚ) :
    ∃ n s, Capped ctx cap n s ∧ (runEngine ctx env health).attempts = s.attempts ∧
      (runEngine ctx env health).log = s.log ∧ (runEngine ctx env health).best = s.best ∧
      (ctx.speculation = 0 → (runEngine ctx env health).spent = s.spent) := by
  unfold runEngine
  split
  · obtain ⟨n, hcapped⟩ := serialLoop_capped env.elapsed hcap (.init health (startOf ctx))
      (fun _ => hpos) rfl
    exact ⟨n, _, hcapped, rfl, rfl, rfl, fun _ => rfl⟩
  · rename_i hspec
    have hinit : Inflight ctx (startOf ctx) ⟨.init health, []⟩ := .init health _
    obtain ⟨n, hcapped⟩ := specLoop_capped env.sched env.elapsed hcap
      (.init health (startOf ctx)) hinit (fun _ => hpos) rfl
    exact ⟨n, _, hcapped, rfl, rfl, rfl, fun h => absurd h hspec⟩

-- ---------------------------------------------------------------------------
-- A pass that is retried
-- ---------------------------------------------------------------------------

/-- No gate says of an answer that the prompt was too long. -/
def QuietGates (ctx : EnforceCtx ℚ) : Prop :=
  ∀ g ∈ ctx.gates, ∀ rung req resp, (g.evaluate rung req resp).reason ≠ some Reason.contextOverflow

theorem Judged.quiet {results : List (GateResult ℚ)} {decision : Option (ElasticDecision ℚ)}
    (hq : QuietGates ctx) (h : Judged ctx idx results decision) :
    ∀ r ∈ results, r.reason ≠ some Reason.contextOverflow := by
  rintro r hr
  cases h with
  | serial model resp health =>
    obtain ⟨g, hg, rfl⟩ := Lockstep.mem_gateSerial hr
    exact hq g hg _ _ _
  | speculative model resp health =>
    obtain ⟨g, hg, rfl⟩ := Lockstep.mem_gateSpeculative hr
    exact hq g hg _ _ _

def Overflowed (a : Attempt ℚ) : Prop := ∃ g ∈ a.gates, g.reason = some Reason.contextOverflow

theorem Capped.unpaid {n : Nat} (h : Capped ctx cap n s) (hq : QuietGates ctx)
    (hover : ∀ a ∈ s.attempts, Overflowed a) : billTotal s.attempts = 0 := by
  have hzero : ∀ a ∈ s.attempts, a.billUsd = 0 := by
    rintro a ha
    refine (h.gated a ha).resolve_right ?_
    rintro ⟨decision, hjudged⟩
    obtain ⟨g, hg, hreason⟩ := hover a ha
    exact hjudged.quiet hq g hg hreason
  rw [billTotal, List.map_congr_left hzero]
  simp

theorem settle_stop (hq : QuietGates ctx) {result : Except ProviderError ModelResponse}
    (h : (settle ctx idx model provider result ms s).2 = .stop) :
    ∃ a, (settle ctx idx model provider result ms s).1.attempts = s.attempts ++ [a] ∧
      ¬Overflowed a := by
  cases result with
  | error err =>
    unfold settle at h ⊢
    simp only at h ⊢
    split_ifs at h ⊢
    refine ⟨_, rfl, ?_⟩
    rintro ⟨g, hg, hreason⟩
    have hhard : (hardReason err).1 = Reason.providerError := by cases err <;> rfl
    rw [hhard] at hg
    exact quiet_providerError _ _ _ _ g hg hreason
  | ok resp =>
    refine ⟨_, conclude_attempts _ _, ?_⟩
    rintro ⟨g, hg, hreason⟩
    have hjudged : Judged ctx idx _ none := .speculative model resp s.health
    exact hjudged.quiet hq g hg hreason

theorem specRung_stop (sched : Schedule) (elapsed : Nat → Nat) {s : SpecState ℚ}
    (hq : QuietGates ctx) (hin : Inflight ctx idx s) (hidx : idx < rungEnd ctx)
    (hm : ctx.ladder[idx]? = some model)
    (h : (specRung ctx sched elapsed idx model s).2 = .stop) :
    ∃ earlier a, (specRung ctx sched elapsed idx model s).1.attempts = earlier ++ [a] ∧
      ¬Overflowed a := by
  cases hp : resolveProvider ctx model with
  | none =>
    rw [specRung_unknown hp] at h
    cases h
  | some provider =>
    cases hpanic : sched.panicked idx with
    | true =>
      rw [specRung_panicked hin hidx hm hp hpanic] at h
      cases h
    | false =>
      rw [specRung_eq hin hidx hm hp hpanic] at h ⊢
      exact ⟨_, settle_stop hq h⟩

theorem rungsFrom_nil (h : rungsFrom ctx idx = []) : rungEnd ctx ≤ idx := by
  have hlength := congrArg List.length h
  simp only [rungsFrom, List.length_take, List.length_drop, List.length_nil] at hlength
  have hend : rungEnd ctx ≤ ctx.ladder.length := by
    simp only [rungEnd, startOf]
    omega
  omega

/-- A loop that is not stopped has waited for all it has called. -/
theorem specLoop_ends (sched : Schedule) (elapsed : Nat → Nat) {s : SpecState ℚ}
    (hq : QuietGates ctx) (hin : Inflight ctx idx s) (hrest : rest = rungsFrom ctx idx) :
    (specLoop ctx sched elapsed rest idx s).inflight = [] ∨
      ∃ earlier a, (specLoop ctx sched elapsed rest idx s).attempts = earlier ++ [a] ∧
        ¬Overflowed a := by
  induction rest generalizing idx s with
  | nil =>
    refine .inl (List.eq_nil_iff_forall_not_mem.mpr fun task htask => ?_)
    obtain ⟨hle, hlt⟩ := hin.ahead task htask
    have hend := rungsFrom_nil hrest.symm
    omega
  | cons model rest ih =>
    obtain ⟨hm, hlt, hnext⟩ := rungsFrom_cons hrest.symm
    have hin' := specRung_inflight sched elapsed hin hlt hm
    have hstop := specRung_stop sched elapsed hq hin hlt hm
    simp only [specLoop]
    split
    · rename_i u heq
      rw [heq] at hin'
      exact ih hin' hnext
    · rename_i u heq
      rw [heq] at hstop
      exact .inr (hstop rfl)

theorem harvest_nil (sched : Schedule) {s : SpecState ℚ} (h : s.inflight = []) :
    harvest ctx sched s = s.spent := by
  have hdrain : sched.drainOrder [] = [] := (sched.drainOrder_perm []).eq_nil
  rw [harvest, h, List.map_nil, hdrain, List.foldl_nil]

/-- A pass that is retried has cost nothing: no answer has come of it, nor of its prefetches. -/
theorem runEngine_unpaid (hcap : ctx.budgetPerRequestUsd = some cap) (hpos : 0 < cap)
    (hq : QuietGates ctx) (env : Surroundings) (health : GateHealthRegistry ℚ)
    (hover : overflowedEverywhere (runEngine ctx env health).toLadderRun = true) :
    (runEngine ctx env health).spent = 0 := by
  have hall := overflowed_attempts hover
  unfold runEngine at hall ⊢
  split_ifs at hall ⊢
  · obtain ⟨n, hcapped⟩ := serialLoop_capped env.elapsed hcap (.init health (startOf ctx))
      (fun _ => hpos) rfl
    exact hcapped.spent.trans (hcapped.unpaid hq hall)
  · have hinit : Inflight ctx (startOf ctx) ⟨.init health, []⟩ := .init health _
    obtain ⟨n, hcapped⟩ := specLoop_capped env.sched env.elapsed hcap
      (.init health (startOf ctx)) hinit (fun _ => hpos) rfl
    rcases specLoop_ends env.sched env.elapsed hq hinit rfl with hnil | ⟨earlier, a, hat, hnot⟩
    · have hspent : (runSpeculative ctx env.sched env.elapsed health).spent = _ :=
        harvest_nil env.sched hnil
      rw [hspent]
      exact hcapped.spent.trans (hcapped.unpaid hq hall)
    · refine absurd (hall a ?_) hnot
      have hmem : a ∈ (specLoop ctx env.sched env.elapsed (rungsFrom ctx (startOf ctx))
          (startOf ctx) ⟨.init health, []⟩).attempts := by
        rw [hat]
        exact List.mem_append_right _ List.mem_cons_self
      exact hmem

end Firstpass
