import Firstpass.Proxy.Router

/-!
# The two engines, one rung at a time

`settle` is what both engines make of a provider's answer where elastic is off;
`serialRung_eq` and `specRung_eq` read each loop body as it. `Inflight` is the
invariant of the map of prefetched tasks.
-/

namespace Firstpass

variable {F : Type} [F64 F] {ctx : EnforceCtx F}

-- ---------------------------------------------------------------------------
-- One rung, in either engine
-- ---------------------------------------------------------------------------

/-- What an engine makes of the answer at rung `idx`. -/
def settle (ctx : EnforceCtx F) (idx : Nat) (model provider : String)
    (result : Except ProviderError ModelResponse) (ms : Nat) (s : LoopState F) :
    LoopState F × Flow :=
  match result with
  | .error err =>
    if err.isFailoverEligible then
      (s.abstain idx model provider Reason.providerError ms, .next)
    else if isContextOverflow err then
      (s.abstain idx model provider Reason.contextOverflow ms, .next)
    else
      ({ s.abstain idx model provider (hardReason err).1 ms with
        hardError := some (hardReason err).2 }, .stop)
  | .ok resp =>
    let out := gateSpeculative ctx idx (requestFor ctx model) resp ctx.gates s.health
    let verdict := aggregateWithPolicy out.1 (failClosedIds ctx.gates)
    let t := { s.gated idx model provider resp ms (modelCost ctx model resp) out.1 verdict with
      health := out.2 }
    t.conclude ctx idx (shouldServe ctx.serveThreshold out.1 verdict)

theorem conclude_cases (s : LoopState F) (ctx : EnforceCtx F) (idx : Nat) (serve : Bool) :
    (s.conclude ctx idx serve).1 = s ∨
      (s.conclude ctx idx serve).1 = { s with servedRung := some idx } := by
  unfold LoopState.conclude
  split
  · exact .inr rfl
  · split <;> exact .inl rfl

theorem settle_frame (ctx : EnforceCtx F) (idx : Nat) (model provider : String)
    (result : Except ProviderError ModelResponse) (ms : Nat) (s : LoopState F) :
    (settle ctx idx model provider result ms s).1.log = s.log ∧
      (settle ctx idx model provider result ms s).1.elastic = s.elastic ∧
      ∃ a, a.rung = idx ∧
        (settle ctx idx model provider result ms s).1.attempts = s.attempts ++ [a] := by
  unfold settle
  cases result with
  | error err =>
    simp only
    split
    · exact ⟨rfl, rfl, _, rfl, rfl⟩
    · split <;> exact ⟨rfl, rfl, _, rfl, rfl⟩
  | ok resp =>
    simp only
    rcases conclude_cases _ ctx idx _ with h | h <;> rw [h] <;> exact ⟨rfl, rfl, _, rfl, rfl⟩

/-- The speculative gate loop is the serial one with every gate included. -/
theorem evalGates_all {included : String → Bool} (h : ∀ id, included id = true)
    (gates : List (Gate F)) (health : GateHealthRegistry F) :
    evalGates ctx rung req resp included gates health =
      gateSpeculative ctx rung req resp gates health := by
  induction gates generalizing health with
  | nil => rfl
  | cons g gates ih => simp [evalGates, gateSpeculative, h, ih]

theorem gateSerial_of_elastic_none (he : ctx.elastic = none) :
    gateSerial ctx rung req resp health =
      ((gateSpeculative ctx rung req resp ctx.gates health).1, none,
        (gateSpeculative ctx rung req resp ctx.gates health).2) := by
  simp [gateSerial, he, evalGates_all]

theorem serialRung_unknown (hp : resolveProvider ctx model = none) :
    serialRung ctx elapsed idx model s =
      (s.abstain idx model "unknown" Reason.providerError (elapsed idx), .next) := by
  simp [serialRung, hp]

def LoopState.logged (s : LoopState F) (events : List ProviderEvent) : LoopState F :=
  { s with log := s.log ++ events }

def answerOf (ctx : EnforceCtx F) (idx : Nat) (model : String) (provider : Provider) :
    Except ProviderError ModelResponse :=
  provider.complete idx (requestFor ctx model) ctx.auth

theorem serialRung_eq (he : ctx.elastic = none) (hs : s.elastic = none)
    (hp : resolveProvider ctx model = some provider) :
    serialRung ctx elapsed idx model s =
      settle ctx idx model provider.id (answerOf ctx idx model provider) (elapsed idx)
        (s.logged [.call idx, .answer idx (answerOf ctx idx model provider)]) := by
  unfold serialRung answerOf
  simp only [hp, gateSerial_of_elastic_none he]
  cases provider.complete idx (requestFor ctx model) ctx.auth with
  | error err => rfl
  | ok resp =>
    generalize hout : gateSpeculative ctx idx (requestFor ctx model) resp ctx.gates s.health = out
    simp only [settle, LoopState.gated, LoopState.logged, hs, hout, Option.map_none]

theorem serialRung_failed (hp : resolveProvider ctx model = some provider)
    (hans : answerOf ctx idx model provider = .error err) :
    serialRung ctx elapsed idx model s =
      settle ctx idx model provider.id (.error err) (elapsed idx)
        (s.logged [.call idx, .answer idx (.error err)]) := by
  rw [answerOf] at hans
  unfold serialRung
  simp only [hp, hans, settle, LoopState.logged]

-- ---------------------------------------------------------------------------
-- The tasks in flight
-- ---------------------------------------------------------------------------

/-- The map of tasks at rung `idx`: each key once, no rung behind `idx` or
beyond the end, and each task with the answer its rung's provider gives. -/
structure Inflight (ctx : EnforceCtx F) (idx : Nat) (s : SpecState F) : Prop where
  nodup : (s.inflight.map Prod.fst).Nodup
  answers : ∀ t ∈ s.inflight, spawnRung ctx t.1 = some t.2
  ahead : ∀ t ∈ s.inflight, idx ≤ t.1 ∧ t.1 < rungEnd ctx
  called : ∀ t ∈ s.inflight, .call t.1 ∈ s.log

theorem Inflight.init (health : GateHealthRegistry F) (idx : Nat) :
    Inflight ctx idx ⟨.init health, []⟩ where
  nodup := .nil
  answers := by simp
  ahead := by simp
  called := by simp

theorem fireRung_eq (ctx : EnforceCtx F) (idx : Nat) (s : SpecState F) (j : Nat) : ∃ js : List Nat,
    (fireRung ctx idx s j).toLoopState = s.logged (js.map .call) := by
  unfold fireRung
  split
  · exact ⟨[], by simp [LoopState.logged]⟩
  · split
    · exact ⟨[], by simp [LoopState.logged]⟩
    · split
      · exact ⟨[], by simp [LoopState.logged]⟩
      · exact ⟨[j], rfl⟩

theorem lookup_isSome_iff {ts : List (Nat × α)} :
    (ts.lookup j).isSome = true ↔ j ∈ ts.map Prod.fst := by
  induction ts with
  | nil => simp
  | cons t ts ih =>
    obtain ⟨k, r⟩ := t
    by_cases h : j = k
    · simp [h]
    · simp [List.lookup_cons, beq_eq_false_iff_ne.mpr h, ih, h]

theorem fireRung_inflight (h : Inflight ctx idx s) (hj : idx ≤ j ∧ j < rungEnd ctx) :
    Inflight ctx idx (fireRung ctx idx s j) := by
  unfold fireRung
  split
  · exact h
  · rename_i hfree
    split
    · exact h
    · split
      · exact h
      · rename_i result hspawn
        have hnew : j ∉ s.inflight.map Prod.fst := fun hm => hfree (lookup_isSome_iff.mpr hm)
        constructor
        · exact List.nodup_cons.mpr ⟨hnew, h.nodup⟩
        · exact List.forall_mem_cons.mpr ⟨hspawn, h.answers⟩
        · exact List.forall_mem_cons.mpr ⟨hj, h.ahead⟩
        · refine List.forall_mem_cons.mpr ⟨by simp, fun t ht => ?_⟩
          exact List.mem_append_left _ (h.called t ht)

theorem fireRung_keeps (h : k ∈ s.inflight.map Prod.fst) :
    k ∈ (fireRung ctx idx s j).inflight.map Prod.fst := by
  unfold fireRung
  split
  · exact h
  · split
    · exact h
    · split
      · exact h
      · exact List.mem_cons_of_mem _ h

theorem fireRung_fires (hs : spawnRung ctx idx = some result) :
    idx ∈ (fireRung ctx idx s idx).inflight.map Prod.fst := by
  unfold fireRung
  split
  · rename_i h; exact lookup_isSome_iff.mp h
  · simp [hs]

theorem fireRungs_eq (ctx : EnforceCtx F) (idx : Nat) (js : List Nat) (s : SpecState F) :
    ∃ ks : List Nat,
    (js.foldl (fireRung ctx idx) s).toLoopState = s.logged (ks.map .call) := by
  induction js generalizing s with
  | nil => exact ⟨[], by simp [LoopState.logged]⟩
  | cons j js ih =>
    obtain ⟨ks, hks⟩ := fireRung_eq ctx idx s j
    obtain ⟨ks', hks'⟩ := ih (fireRung ctx idx s j)
    refine ⟨ks ++ ks', ?_⟩
    rw [List.foldl_cons, hks', hks]
    simp [LoopState.logged]

theorem fireRungs_inflight {js : List Nat} (h : Inflight ctx idx s)
    (hjs : ∀ j ∈ js, idx ≤ j ∧ j < rungEnd ctx) :
    Inflight ctx idx (js.foldl (fireRung ctx idx) s) := by
  induction js generalizing s with
  | nil => exact h
  | cons j js ih =>
    obtain ⟨hj, hrest⟩ := List.forall_mem_cons.mp hjs
    exact ih (fireRung_inflight h hj) hrest

theorem fireRungs_keeps (js : List Nat) (h : k ∈ s.inflight.map Prod.fst) :
    k ∈ (js.foldl (fireRung ctx idx) s).inflight.map Prod.fst := by
  induction js generalizing s with
  | nil => exact h
  | cons j js ih => exact ih (fireRung_keeps h)

theorem fireWindow_eq (ctx : EnforceCtx F) (idx : Nat) (s : SpecState F) : ∃ js : List Nat,
    (fireWindow ctx idx s).toLoopState = s.logged (js.map .call) := fireRungs_eq ctx idx _ s

theorem fireWindow_inflight (h : Inflight ctx idx s) (hidx : idx < rungEnd ctx) :
    Inflight ctx idx (fireWindow ctx idx s) := by
  refine fireRungs_inflight h fun j hj => ?_
  simp only [List.mem_range'_1] at hj
  omega

theorem Inflight.lookup (h : Inflight ctx idx s) (hs : spawnRung ctx j = some result)
    (hj : j ∈ s.inflight.map Prod.fst) : s.inflight.lookup j = some result := by
  obtain ⟨r, hr⟩ := Option.isSome_iff_exists.mp (lookup_isSome_iff.mpr hj)
  obtain ⟨front, back, hl, _⟩ := List.lookup_eq_some_iff.mp hr
  have hmem : (j, r) ∈ s.inflight := by rw [hl]; simp
  rw [hr, ← h.answers _ hmem, hs]

theorem fireWindow_lookup (h : Inflight ctx idx s) (hidx : idx < rungEnd ctx)
    (hs : spawnRung ctx idx = some result) :
    (fireWindow ctx idx s).inflight.lookup idx = some result := by
  refine (fireWindow_inflight h hidx).lookup hs ?_
  obtain ⟨n, hn⟩ : ∃ n, min (idx + ctx.speculation) (rungEnd ctx - 1) + 1 - idx = n + 1 :=
    ⟨min (idx + ctx.speculation) (rungEnd ctx - 1) - idx, by omega⟩
  simp only [fireWindow, hn, List.range'_succ, List.foldl_cons]
  exact fireRungs_keeps _ (fireRung_fires hs)

theorem Inflight.remove (h : Inflight ctx idx s) : Inflight ctx (idx + 1)
    { s with inflight := s.inflight.filter (·.1 ≠ idx) } where
  nodup := (List.filter_sublist.map Prod.fst).nodup h.nodup
  answers := fun t ht => h.answers t (List.mem_filter.mp ht).1
  ahead := fun t ht => by
    obtain ⟨hmem, hne⟩ := List.mem_filter.mp ht
    have hahead := h.ahead t hmem
    have hne' : t.1 ≠ idx := by simpa using hne
    omega
  called := fun t ht => h.called t (List.mem_filter.mp ht).1

-- ---------------------------------------------------------------------------
-- The body of the speculative loop
-- ---------------------------------------------------------------------------

theorem spawnRung_eq (hm : ctx.ladder[idx]? = some model)
    (hp : resolveProvider ctx model = some provider) :
    spawnRung ctx idx = some (answerOf ctx idx model provider) := by
  simp [spawnRung, hm, hp, answerOf]

theorem specRung_unknown (hp : resolveProvider ctx model = none) :
    specRung ctx sched elapsed idx model s =
      ((fireWindow ctx idx s).update
        ((fireWindow ctx idx s).abstain idx model "unknown" Reason.providerError 0), .next) := by
  simp [specRung, hp]

def takeTask (ctx : EnforceCtx F) (idx : Nat) (s : SpecState F) : SpecState F :=
  { fireWindow ctx idx s with
    inflight := (fireWindow ctx idx s).inflight.filter (·.1 ≠ idx) }

theorem specRung_panicked (h : Inflight ctx idx s) (hidx : idx < rungEnd ctx)
    (hm : ctx.ladder[idx]? = some model) (hp : resolveProvider ctx model = some provider)
    (hpanic : sched.panicked idx = true) :
    specRung ctx sched elapsed idx model s =
      ((takeTask ctx idx s).update
        ((takeTask ctx idx s).abstain idx model provider.id Reason.providerError (elapsed idx)),
        .next) := by
  simp [specRung, hp, fireWindow_lookup h hidx (spawnRung_eq hm hp), hpanic, takeTask]

theorem specRung_eq (h : Inflight ctx idx s) (hidx : idx < rungEnd ctx)
    (hm : ctx.ladder[idx]? = some model) (hp : resolveProvider ctx model = some provider)
    (hpanic : sched.panicked idx = false) :
    specRung ctx sched elapsed idx model s =
      let out := settle ctx idx model provider.id (answerOf ctx idx model provider) (elapsed idx)
        ((takeTask ctx idx s).logged [.answer idx (answerOf ctx idx model provider)])
      ((takeTask ctx idx s).update out.1, out.2) := by
  unfold specRung
  simp only [hp, fireWindow_lookup h hidx (spawnRung_eq hm hp), hpanic, Bool.false_eq_true,
    if_false]
  cases answerOf ctx idx model provider <;> rfl

theorem Inflight.update (h : Inflight ctx idx s) (hlog : ∀ e ∈ s.log, e ∈ t.log) :
    Inflight ctx idx (s.update t) where
  nodup := h.nodup
  answers := h.answers
  ahead := h.ahead
  called := fun u hu => hlog _ (h.called u hu)

theorem Inflight.skip (h : Inflight ctx idx s) (hs : spawnRung ctx idx = none) :
    Inflight ctx (idx + 1) s where
  nodup := h.nodup
  answers := h.answers
  ahead := fun t ht => by
    have hahead := h.ahead t ht
    have hne : t.1 ≠ idx := by
      intro heq
      have hspawn := h.answers t ht
      rw [heq, hs] at hspawn
      cases hspawn
    omega
  called := h.called

theorem specRung_inflight (sched : Schedule) (elapsed : Nat → Nat) (h : Inflight ctx idx s)
    (hidx : idx < rungEnd ctx)
    (hm : ctx.ladder[idx]? = some model) :
    Inflight ctx (idx + 1) (specRung ctx sched elapsed idx model s).1 := by
  have hfire := fireWindow_inflight h hidx
  cases hp : resolveProvider ctx model with
  | none =>
    rw [specRung_unknown hp]
    have hspawn : spawnRung ctx idx = none := by simp [spawnRung, hm, hp]
    exact (hfire.skip hspawn).update fun _ he => he
  | some provider =>
    cases hpanic : sched.panicked idx with
    | true =>
      rw [specRung_panicked h hidx hm hp hpanic]
      exact hfire.remove.update fun _ he => he
    | false =>
      rw [specRung_eq h hidx hm hp hpanic]
      refine hfire.remove.update fun e he => ?_
      rw [(settle_frame _ _ _ _ _ _ _).1]
      exact List.mem_append_left _ he

end Firstpass
