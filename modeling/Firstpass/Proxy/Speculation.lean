import Firstpass.Proxy.VerifyToServe

/-!
# The speculative engine serves what the serial one serves

The two loops are run side by side: `Agrees` is kept rung by rung, whatever is
prefetched. Only the measured times differ, and the spend of the prefetched
rungs that were never gated.
-/

namespace Firstpass

variable {F : Type} [F64 F] {ctx : EnforceCtx F}

-- ---------------------------------------------------------------------------
-- Agreement up to the measured times
-- ---------------------------------------------------------------------------

/-- The attempt without its latency, and without the timing of an abstain. -/
def Attempt.untimed (a : Attempt F) : Attempt F :=
  { a with
    latencyMs := 0
    gates := if a.verdict = .abstain then a.gates.map fun g => { g with ms := 0 } else a.gates }

theorem untimed_abstainAttempt (rung : Nat) (model provider reason : String) (ms ms' : Nat) :
    (abstainAttempt rung model provider reason ms : Attempt F).untimed =
      (abstainAttempt rung model provider reason ms').untimed := rfl

/-- The same decision: everything but the spend, up to the measured times. -/
structure SameDecision (s t : LoopState F) : Prop where
  attempts : s.attempts.map Attempt.untimed = t.attempts.map Attempt.untimed
  gateCostTotal : s.gateCostTotal = t.gateCostTotal
  best : s.best = t.best
  servedRung : s.servedRung = t.servedRung
  hardError : s.hardError = t.hardError
  health : s.health = t.health

structure Agrees (s t : LoopState F) : Prop extends SameDecision s t where
  spent : s.spent = t.spent

variable {s t : LoopState F}

theorem Agrees.refl (s : LoopState F) : Agrees s s := ⟨⟨rfl, rfl, rfl, rfl, rfl, rfl⟩, rfl⟩

theorem Agrees.logged (h : Agrees s t) (es es' : List ProviderEvent) :
    Agrees (s.logged es) (t.logged es') :=
  ⟨⟨h.attempts, h.gateCostTotal, h.best, h.servedRung, h.hardError, h.health⟩, h.spent⟩

theorem Agrees.logged_left (h : Agrees s t) (es : List ProviderEvent) : Agrees (s.logged es) t :=
  ⟨⟨h.attempts, h.gateCostTotal, h.best, h.servedRung, h.hardError, h.health⟩, h.spent⟩

theorem Agrees.abstain (h : Agrees s t) (rung : Nat) (model provider reason : String)
    (ms ms' : Nat) :
    Agrees (s.abstain rung model provider reason ms)
      (t.abstain rung model provider reason ms') where
  attempts := by
    simp only [LoopState.abstain, List.map_append, List.map_singleton, h.attempts]
    rw [untimed_abstainAttempt _ _ _ _ ms ms']
  spent := h.spent
  gateCostTotal := h.gateCostTotal
  best := h.best
  servedRung := h.servedRung
  hardError := h.hardError
  health := h.health

theorem Agrees.gated (h : Agrees s t) (rung : Nat) (model provider : String) (resp : ModelResponse)
    (ms ms' : Nat) (cost : F) (gates : List (GateResult F)) (hv : verdict ≠ .abstain)
    (health : GateHealthRegistry F) :
    Agrees { s.gated rung model provider resp ms cost gates verdict with health }
      { t.gated rung model provider resp ms' cost gates verdict with health } where
  attempts := by simp [LoopState.gated, h.attempts, Attempt.untimed, hv]
  spent := by simp [LoopState.gated, h.spent]
  gateCostTotal := by simp [LoopState.gated, h.gateCostTotal]
  best := rfl
  servedRung := h.servedRung
  hardError := h.hardError
  health := rfl

theorem Agrees.conclude (h : Agrees s t) (ctx : EnforceCtx F) (idx : Nat) (serve : Bool) :
    Agrees (s.conclude ctx idx serve).1 (t.conclude ctx idx serve).1 ∧
      (s.conclude ctx idx serve).2 = (t.conclude ctx idx serve).2 := by
  have hbudget : overBudget ctx s.spent = overBudget ctx t.spent := by rw [h.spent]
  unfold LoopState.conclude
  rw [hbudget]
  split
  · exact ⟨⟨⟨h.attempts, h.gateCostTotal, h.best, rfl, h.hardError, h.health⟩, h.spent⟩, rfl⟩
  · split <;> exact ⟨h, rfl⟩

theorem Agrees.settle (h : Agrees s t) (ctx : EnforceCtx F) (idx : Nat) (model provider : String)
    (result : Except ProviderError ModelResponse) (ms ms' : Nat) :
    Agrees (settle ctx idx model provider result ms s).1
        (settle ctx idx model provider result ms' t).1 ∧
      (settle ctx idx model provider result ms s).2 =
        (settle ctx idx model provider result ms' t).2 := by
  unfold Firstpass.settle
  cases result with
  | error err =>
    simp only
    split
    · exact ⟨h.abstain _ _ _ _ _ _, rfl⟩
    · split
      · exact ⟨h.abstain _ _ _ _ _ _, rfl⟩
      · have ha := h.abstain idx model provider (hardReason err).1 ms ms'
        exact ⟨⟨⟨ha.attempts, h.gateCostTotal, h.best, h.servedRung, rfl, h.health⟩, h.spent⟩, rfl⟩
  | ok resp =>
    simp only [h.health]
    refine Agrees.conclude (h.gated _ _ _ _ _ _ _ _ ?_ _) ctx idx _
    unfold aggregateWithPolicy
    split <;> simp

-- ---------------------------------------------------------------------------
-- The loops side by side
-- ---------------------------------------------------------------------------

def NoPanic (sched : Schedule) : Prop := ∀ j, sched.panicked j = false

theorem fireWindow_agrees (ctx : EnforceCtx F) (idx : Nat) {s : SpecState F}
    (h : Agrees s.toLoopState t) :
    Agrees (fireWindow ctx idx s).toLoopState t := by
  obtain ⟨js, hjs⟩ := fireWindow_eq ctx idx s
  rw [hjs]
  exact h.logged_left (js.map .call)

theorem rung_agrees (elapsed elapsed' : Nat → Nat) {s : SpecState F}
    (h : Agrees s.toLoopState t) (he : ctx.elastic = none)
    (hel : t.elastic = none) (hpanic : NoPanic sched) (hin : Inflight ctx idx s)
    (hm : ctx.ladder[idx]? = some model) (hidx : idx < rungEnd ctx) :
    Agrees (specRung ctx sched elapsed idx model s).1.toLoopState
        (serialRung ctx elapsed' idx model t).1 ∧
      (specRung ctx sched elapsed idx model s).2 = (serialRung ctx elapsed' idx model t).2 ∧
      (serialRung ctx elapsed' idx model t).1.elastic = none := by
  have hfire := fireWindow_agrees ctx idx h
  cases hp : resolveProvider ctx model with
  | none =>
    rw [specRung_unknown hp, serialRung_unknown hp]
    exact ⟨hfire.abstain _ _ _ _ _ _, rfl, hel⟩
  | some provider =>
    rw [specRung_eq hin hidx hm hp (hpanic idx), serialRung_eq he hel hp]
    have hlogged := hfire.logged [.answer idx (answerOf ctx idx model provider)]
      [.call idx, .answer idx (answerOf ctx idx model provider)]
    obtain ⟨hagree, hflow⟩ := hlogged.settle ctx idx model provider.id
      (answerOf ctx idx model provider) (elapsed idx) (elapsed' idx)
    exact ⟨hagree, hflow, (settle_frame _ _ _ _ _ _ _).2.1.trans hel⟩

def Below (as : List (Attempt F)) (idx : Nat) : Prop := ∀ a ∈ as, a.rung < idx

theorem Below.append {as : List (Attempt F)} (h : Below as idx) (ha : a.rung = idx) :
    Below (as ++ [a]) (idx + 1) := by
  intro b hb
  cases List.mem_append.mp hb with
  | inl hb =>
    exact Nat.lt_succ_of_lt (h b hb)
  | inr hb =>
    obtain rfl := List.mem_singleton.mp hb
    omega

theorem serialRung_below (elapsed : Nat → Nat) (model : String) (h : Below t.attempts idx)
    (he : ctx.elastic = none)
    (hel : t.elastic = none) :
    Below (serialRung ctx elapsed idx model t).1.attempts (idx + 1) := by
  cases hp : resolveProvider ctx model with
  | none =>
    rw [serialRung_unknown hp]
    exact h.append rfl
  | some provider =>
    rw [serialRung_eq he hel hp]
    obtain ⟨_, _, a, ha, hat⟩ := settle_frame ctx idx model provider.id
      (answerOf ctx idx model provider) (elapsed idx)
      (t.logged [.call idx, .answer idx (answerOf ctx idx model provider)])
    rw [hat]
    exact h.append ha

theorem loops_agree (elapsed elapsed' : Nat → Nat) {s : SpecState F}
    (h : Agrees s.toLoopState t) (he : ctx.elastic = none)
    (hel : t.elastic = none) (hpanic : NoPanic sched) (hin : Inflight ctx idx s)
    (hbelow : Below t.attempts idx) (hrest : rest = rungsFrom ctx idx) :
    Agrees (specLoop ctx sched elapsed rest idx s).toLoopState
        (serialLoop ctx elapsed' rest idx t) ∧
      ∃ next, Inflight ctx next (specLoop ctx sched elapsed rest idx s) ∧
        Below (serialLoop ctx elapsed' rest idx t).attempts next := by
  induction rest generalizing idx s t with
  | nil => exact ⟨h, idx, hin, hbelow⟩
  | cons model rest ih =>
    obtain ⟨hm, hidx, hnext⟩ := rungsFrom_cons hrest.symm
    obtain ⟨hagree, hflow, hel'⟩ := rung_agrees elapsed elapsed' h he hel hpanic hin hm hidx
    have hin' := specRung_inflight sched elapsed hin hidx hm
    have hbelow' := serialRung_below elapsed' model hbelow he hel
    simp only [specLoop, serialLoop]
    generalize specRung ctx sched elapsed idx model s = out at *
    generalize serialRung ctx elapsed' idx model t = out' at *
    obtain ⟨u, flow⟩ := out
    obtain ⟨v, flow'⟩ := out'
    obtain rfl : flow = flow' := hflow
    cases flow with
    | next => exact ih hagree hel' hin' hbelow' hnext
    | stop => exact ⟨hagree, idx + 1, hin', hbelow'⟩

-- ---------------------------------------------------------------------------
-- The harvest
-- ---------------------------------------------------------------------------

def prefetchCost (ctx : EnforceCtx F) (j : Nat) : Option F :=
  match spawnRung ctx j with
  | some (.ok resp) => some (modelCost ctx (ctx.ladder.getD j "") resp)
  | _ => none

def billed (ctx : EnforceCtx F) (sched : Schedule) (js : List Nat) : List Nat :=
  js.filter fun j => sched.isFinished j && (prefetchCost ctx j).isSome

theorem harvestOne_eq {s : SpecState F} (h : Inflight ctx idx s) (hpanic : NoPanic sched)
    (hj : j ∈ s.inflight.map Prod.fst) :
    harvestOne ctx sched s.inflight spent j =
      if sched.isFinished j && (prefetchCost ctx j).isSome then
        spent + (prefetchCost ctx j).getD 0
      else spent := by
  obtain ⟨⟨_, result⟩, ht, rfl⟩ := List.mem_map.mp hj
  have hspawn := h.answers _ ht
  have hlookup := h.lookup hspawn hj
  simp only [harvestOne, hlookup, hpanic _, prefetchCost, hspawn]
  cases sched.isFinished _ <;> cases result <;> simp

theorem foldl_harvestOne {s : SpecState F} (h : Inflight ctx idx s) (hpanic : NoPanic sched)
    (hjs : ∀ j ∈ js, j ∈ s.inflight.map Prod.fst) :
    js.foldl (harvestOne ctx sched s.inflight) spent =
      (billed ctx sched js).foldl (fun spent j => spent + (prefetchCost ctx j).getD 0) spent := by
  induction js generalizing spent with
  | nil => rfl
  | cons j js ih =>
    obtain ⟨hj, hrest⟩ := List.forall_mem_cons.mp hjs
    rw [List.foldl_cons, harvestOne_eq h hpanic hj, ih hrest]
    unfold billed
    rw [List.filter_cons]
    split
    · rfl
    · rfl

/-- A rung whose prefetch is billed: called, answered, after every attempt and
before the end of the ladder run. -/
structure Prefetched (ctx : EnforceCtx F) (sp se : LoopState F) (j : Nat) : Prop where
  called : .call j ∈ sp.log
  answered : ∃ cost, prefetchCost ctx j = some cost
  after : ∀ a ∈ se.attempts, a.rung < j
  before : j < rungEnd ctx

theorem harvest_eq {s : SpecState F} (h : Inflight ctx next s) (hpanic : NoPanic sched)
    (hbelow : Below t.attempts next) :
    ∃ js : List Nat, js.Nodup ∧
      (∀ j ∈ js, Prefetched ctx { s.toLoopState with spent := harvest ctx sched s } t j) ∧
      harvest ctx sched s =
        js.foldl (fun spent j => spent + (prefetchCost ctx j).getD 0) s.spent := by
  have hperm := sched.drainOrder_perm (s.inflight.map Prod.fst)
  refine ⟨billed ctx sched (sched.drainOrder (s.inflight.map Prod.fst)), ?_, ?_, ?_⟩
  · exact (hperm.nodup_iff.mpr h.nodup).filter _
  · intro j hj
    obtain ⟨hmem, hbill⟩ := List.mem_filter.mp hj
    obtain ⟨u, hu, rfl⟩ := List.mem_map.mp (hperm.mem_iff.mp hmem)
    simp only [Bool.and_eq_true, Option.isSome_iff_exists] at hbill
    obtain ⟨hle, hlt⟩ := h.ahead u hu
    exact ⟨h.called u hu, hbill.2, fun a ha => (hbelow a ha).trans_le hle, hlt⟩
  · exact foldl_harvestOne h hpanic fun j hj => hperm.mem_iff.mp hj

/-- Speculation changes the times, and the spend by the cost of prefetches. -/
theorem speculative_agrees (ctx : EnforceCtx F) (he : ctx.elastic = none) (sched : Schedule)
    (hpanic : NoPanic sched) (elapsed elapsed' : Nat → Nat) (health : GateHealthRegistry F) :
    SameDecision (runSpeculative ctx sched elapsed health) (runSerial ctx elapsed' health) ∧
      ∃ js : List Nat, js.Nodup ∧
        (∀ j ∈ js, Prefetched ctx (runSpeculative ctx sched elapsed health)
          (runSerial ctx elapsed' health) j) ∧
        (runSpeculative ctx sched elapsed health).spent =
          js.foldl (fun spent j => spent + (prefetchCost ctx j).getD 0)
            (runSerial ctx elapsed' health).spent := by
  obtain ⟨hagree, next, hin, hbelow⟩ := loops_agree elapsed elapsed'
    (Agrees.refl (.init health)) he rfl hpanic (.init health (startOf ctx))
    (by simp [Below, LoopState.init]) rfl
  obtain ⟨js, hnodup, hpre, hspent⟩ := harvest_eq hin hpanic hbelow
  rw [hagree.spent] at hspent
  refine ⟨?_, js, hnodup, hpre, hspent⟩
  exact ⟨hagree.attempts, hagree.gateCostTotal, hagree.best, hagree.servedRung, hagree.hardError,
    hagree.health⟩

theorem speculative_agrees_sample :
    SameDecision (runSpeculative sampleCtx sampleSchedule (fun _ => 3) sampleHealth)
      (runSerial sampleCtx (fun _ => 7) sampleHealth) :=
  (speculative_agrees sampleCtx rfl sampleSchedule (fun _ => rfl) (fun _ => 3) (fun _ => 7)
    sampleHealth).1

end Firstpass
