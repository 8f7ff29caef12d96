import Firstpass.Proxy.Feedback

/-!
# The evidence of the guardrail

Feedback records each clear outcome under a route read back from the trace. That is the
route whose ladder produced the decision exactly where there was one, and its route could
be read.
-/

namespace Firstpass.Feedback

open Guard

variable {G : Type}

-- ---------------------------------------------------------------------------
-- Receipts and their routes
-- ---------------------------------------------------------------------------

/-- What a ladder produced carries the index of its route. -/
def Receipt.Labelled (r : Receipt) : Prop :=
  ∀ ix, r.ladderRoute = some ix → r.trace.routeIx = some (stampRoute ix)

structure State.Labelled (s : State G) : Prop where
  channel : ∀ r ∈ s.channel, r.Labelled
  store : ∀ r ∈ s.store.traces, r.Labelled

theorem Arrival.receipt_labelled (a : Arrival) (served : Dispatch.Served ℚ)
    (h : a.receipt served = some r) : r.Labelled := by
  intro ix hix
  cases served with
  | relayed => cases h
  | passthrough session shadowed => cases h; cases hix
  | enforced m =>
    simp only [Arrival.receipt] at h
    cases hpath : a.path with
    | refused => rw [hpath] at h; cases h
    | cacheHit => rw [hpath] at h; cases h; cases hix
    | ladder => rw [hpath] at h; cases h; cases hix; rfl

theorem State.Fresh.labelled {s : State G} (h : s.Fresh) : s.Labelled := by
  constructor <;> simp [h.1, h.2]

theorem State.Labelled.request {s : State G} (h : s.Labelled) (a : Arrival) (kept : Bool) :
    (s.request a kept).Labelled := by
  refine ⟨fun r hr => ?_, by rw [store_request]; exact h.store⟩
  rcases mem_channel_request hr with hold | hnew
  · exact h.channel r hold
  · exact a.receipt_labelled _ hnew

theorem State.Labelled.write {s : State G} (h : s.Labelled) (landed : Bool) :
    (s.write landed).Labelled := by
  refine ⟨fun r hr => h.channel r (List.mem_of_mem_tail hr), fun r hr => ?_⟩
  rcases mem_traces_write hr with hold | hnew
  · exact h.store r hold
  · exact h.channel r hnew

section
variable [Field G] [LinearOrder G] [Analytic G]

theorem State.Labelled.feedback {s : State G} (h : s.Labelled) (rep : Report) :
    (s.feedback rep).1.Labelled := by
  have hfed := feedback_fed s rep
  generalize (s.feedback rep).1 = s' at hfed
  cases hfed with
  | refused _ => exact h
  | unclear receipt dv hcheck hsignal => exact ⟨h.channel, h.store⟩
  | clear receipt dv correct hcheck hsignal => exact ⟨h.channel, h.store⟩

theorem State.Labelled.step {s : State G} (h : s.Labelled) (e : Event) : (s.step e).Labelled := by
  cases e with
  | request a kept => exact h.request a kept
  | write landed => exact h.write landed
  | feedback rep => exact h.feedback rep

end

-- ---------------------------------------------------------------------------
-- Outcomes
-- ---------------------------------------------------------------------------

/-- A clear verdict that feedback accepted, with the key it is recorded under. -/
structure Outcome (G : Type) where
  receipt : Receipt
  key : Key
  resolved : Resolved G
  routeRead : Bool

/-- The tenant and the route of the ladder that produced the decision. -/
def Outcome.decision (o : Outcome G) : Option Key :=
  o.receipt.ladderRoute.map fun ix => (o.receipt.trace.tenantId, ix)

/-- A ladder produced the decision, and its route was read back or is the first one. -/
def Outcome.OnLadder (o : Outcome G) : Prop :=
  ∃ ix, o.receipt.ladderRoute = some ix ∧ (ix = 0 ∨ (o.routeRead ∧ ix ≤ Inbound.u32Max))

def State.accepted (s : State G) : Event → Option (Outcome G)
  | .feedback rep =>
    match rep.check s.store with
    | .error _ => none
    | .ok (receipt, dv) => (signal dv.verdict).map fun correct => {
        receipt
        key := (rep.tenant, rep.route s.store receipt.trace.traceId)
        resolved := ⟨s.guardrail, correct, rep.now, s.cooldownSecs⟩
        routeRead := rep.routeRead }
  | _ => none

/-- The route of a ladder decision is what was stamped, or the first where it is not read. -/
structure Outcome.Attributed (o : Outcome G) : Prop where
  tenant : o.key.1 = o.receipt.trace.tenantId
  route : ∀ ix, o.receipt.ladderRoute = some ix →
    o.key.2 = if o.routeRead then stampRoute ix else 0

theorem accepted_attributed {s : State G} (h : s.Labelled) (ho : s.accepted e = some o) :
    o.Attributed := by
  cases e with
  | request a kept => cases ho
  | write landed => cases ho
  | feedback rep =>
    simp only [State.accepted] at ho
    cases hcheck : rep.check s.store with
    | error reply => rw [hcheck] at ho; cases ho
    | ok found =>
      obtain ⟨receipt, dv⟩ := found
      rw [hcheck] at ho
      obtain ⟨correct, _, rfl⟩ := Option.map_eq_some_iff.mp ho
      have hrow := check_row hcheck
      have hfound := List.find?_some hrow
      simp only [decide_eq_true_eq] at hfound
      refine ⟨hfound.2.symm, fun ix hix => ?_⟩
      have hlabel := h.store receipt (List.mem_of_find?_eq_some hrow) ix hix
      cases hread : rep.routeRead <;>
        simp [Report.route, Store.traceRoute, hread, hrow, hlabel]

section
variable [Field G] [LinearOrder G] [Analytic G]

/-- The clear verdicts that a run accepts. -/
def outcomes (s : State G) : List Event → List (Outcome G)
  | [] => []
  | e :: events => (s.accepted e).toList ++ outcomes (s.step e) events

/-- The outcomes a run records under a key. -/
def recorded (s : State G) (events : List Event) (key : Key) : List Bool :=
  ((outcomes s events).filter fun o => o.key = key).map fun o => o.resolved.wasCorrect

/-- The clear verdicts a run accepts on the decisions of a tenant's route. -/
def reported (s : State G) (events : List Event) (key : Key) : List Bool :=
  ((outcomes s events).filter fun o => o.decision = some key).map fun o => o.resolved.wasCorrect

theorem step_guardrails (s : State G) (e : Event) :
    (s.step e).app.guardrails =
      (s.accepted e).elim s.app.guardrails
        (fun o => (s.app.guardrails.record o.key o.resolved).1) := by
  cases e with
  | request a kept => exact congrArg Dispatch.AppState.guardrails (app_request s a kept)
  | write landed => rfl
  | feedback rep =>
    have hfed := feedback_fed s rep
    simp only [State.step, State.accepted]
    generalize (s.feedback rep).1 = s' at hfed
    cases hfed with
    | refused h => obtain ⟨reply, hreply⟩ := h; simp [hreply]
    | unclear receipt dv hcheck hsignal => simp [hcheck, hsignal]
    | clear receipt dv correct hcheck hsignal =>
      simp only [hcheck, hsignal, Option.map_some, Option.elim_some]
      rfl

/-- The registry of a run is the one that has recorded its outcomes. -/
theorem run_guardrails (s : State G) (events : List Event) :
    (s.run events).app.guardrails =
      (outcomes s events).foldl (fun g o => (g.record o.key o.resolved).1) s.app.guardrails := by
  induction events generalizing s with
  | nil => rfl
  | cons e events ih =>
    have hrun : s.run (e :: events) = (s.step e).run events := rfl
    rw [hrun, ih, step_guardrails, outcomes, List.foldl_append]
    cases s.accepted e <;> rfl

theorem run_guardrails_new (s : State G) (events : List Event)
    (hnew : s.app.guardrails = .new) :
    (s.run events).app.guardrails =
      after ((outcomes s events).map fun o => .record o.key o.resolved) := by
  rw [run_guardrails, hnew, after, List.foldl_map]
  rfl

theorem outcomes_attributed {s : State G} (h : s.Labelled) (events : List Event) :
    ∀ o ∈ outcomes s events, o.Attributed := by
  induction events generalizing s with
  | nil => simp [outcomes]
  | cons e events ih =>
    intro o ho
    rw [outcomes, List.mem_append, Option.mem_toList] at ho
    cases ho with
    | inl hfirst => exact accepted_attributed h hfirst
    | inr hrest => exact ih (h.step e) o hrest

end

-- ---------------------------------------------------------------------------
-- Keys and decisions
-- ---------------------------------------------------------------------------

/-- A smaller selection that is as long is the whole selection. -/
theorem forall_of_length_filter_eq {xs : List α} {p q : α → Bool} (hle : ∀ x ∈ xs, p x → q x)
    (hlen : (xs.filter p).length = (xs.filter q).length) : ∀ x ∈ xs, q x → p x := by
  have hsub : (xs.filter p).Sublist (xs.filter q) := by
    have hfilter : xs.filter p = (xs.filter q).filter p := by
      rw [List.filter_filter]
      refine List.filter_congr fun x hx => ?_
      have hpq := hle x hx
      cases hp : p x <;> simp [hp] at hpq ⊢
      exact hpq
    rw [hfilter]
    exact List.filter_sublist
  intro x hx hq
  have hmem : x ∈ xs.filter p := hsub.eq_of_length hlen ▸ List.mem_filter.mpr ⟨hx, hq⟩
  exact (List.mem_filter.mp hmem).2

theorem Outcome.Attributed.key_of_decision {o : Outcome G} {key : Key} (h : o.Attributed)
    (hd : o.decision = some key) : o.key = key ∨ o.key = (key.1, 0) := by
  obtain ⟨ix, hix, rfl⟩ := Option.map_eq_some_iff.mp hd
  have hroute := h.route ix hix
  have hkey : o.key = (o.receipt.trace.tenantId, o.key.2) := by
    rw [← h.tenant]
  rw [hkey, hroute]
  unfold stampRoute
  split_ifs
  · exact .inl rfl
  · exact .inr rfl
  · exact .inr rfl

theorem Outcome.Attributed.onLadder_iff {o : Outcome G} (h : o.Attributed) :
    o.OnLadder ↔ o.decision = some o.key := by
  have hkey : o.key = (o.receipt.trace.tenantId, o.key.2) := by
    rw [← h.tenant]
  constructor
  · rintro ⟨ix, hix, hread⟩
    have hroute : o.key.2 = ix := by
      rw [h.route ix hix]
      rcases hread with rfl | ⟨hread, hle⟩
      · simp [stampRoute]
      · simp [stampRoute, hread, hle]
    rw [Outcome.decision, hix, Option.map_some, hkey, hroute]
  · intro hd
    obtain ⟨ix, hix, heq⟩ := Option.map_eq_some_iff.mp hd
    have hroute := h.route ix hix
    rw [← heq] at hroute
    refine ⟨ix, hix, ?_⟩
    unfold stampRoute at hroute
    split_ifs at hroute with hread hle
    · exact .inr ⟨hread, hle⟩
    · exact .inl hroute
    · exact .inl hroute

variable [Field G] [LinearOrder G] [Analytic G]

/-- What is recorded under each key is what was reported on the decisions of its ladder,
exactly where every outcome is on a ladder's decision with a route that is read back. -/
theorem guard_evidence_iff (s : State G) (events : List Event) (hlabelled : s.Labelled) :
    (∀ key, recorded s events key = reported s events key) ↔
      ∀ o ∈ outcomes s events, o.OnLadder := by
  have hattributed := outcomes_attributed hlabelled events
  constructor
  · intro heq o ho
    have hlen : ∀ key, ((outcomes s events).filter fun o => o.decision = some key).length =
        ((outcomes s events).filter fun o => o.key = key).length := fun key => by
      simpa [recorded, reported] using congrArg List.length (heq key).symm
    -- Every decision of the first route is recorded there, so nothing else is.
    have hzero : ∀ tenant, ∀ o ∈ outcomes s events, o.key = (tenant, 0) →
        o.decision = some (tenant, 0) := by
      intro tenant o ho hkey
      refine of_decide_eq_true (forall_of_length_filter_eq (fun o ho hd => ?_) (hlen (tenant, 0))
        o ho (decide_eq_true hkey))
      rcases (hattributed o ho).key_of_decision (of_decide_eq_true hd) with hsame | hsame
      · exact decide_eq_true hsame
      · exact decide_eq_true hsame
    -- So every decision is recorded under its own route, and nothing else there either.
    refine (hattributed o ho).onLadder_iff.mpr ?_
    refine of_decide_eq_true (forall_of_length_filter_eq (fun o' ho' hd => ?_) (hlen o.key)
      o ho (decide_eq_true rfl))
    have hd := of_decide_eq_true hd
    rcases (hattributed o' ho').key_of_decision hd with hsame | hfirst
    · exact decide_eq_true hsame
    · have hkey := (hzero _ o' ho' hfirst).symm.trans hd
      rw [← Option.some.inj hkey] at hd ⊢
      exact decide_eq_true hfirst
  · intro hladder key
    unfold recorded reported
    congr 1
    refine List.filter_congr fun o ho => decide_eq_decide.mpr ?_
    rw [(hattributed o ho).onLadder_iff.mp (hladder o ho), Option.some_inj]

/-- A demoted route passes a request through, and its outcome is a failure. -/
def sampleRun : List Event :=
  [.request ⟨.messages, Dispatch.sampleRequest, 50, .ladder, sampleSeed "trace-1"⟩ true,
    .write true, .feedback (sampleReport "trace-1" "fail")]

noncomputable def sampleDeployment : State ℝ where
  app := Dispatch.sampleState
  guardrail := sampleCfg
  cooldownSecs := 3600
  adaptive := none
  eprocess := none
  channel := []
  store := ⟨[], []⟩

theorem guard_evidence_iff_sample :
    (∀ key, recorded sampleDeployment sampleRun key = reported sampleDeployment sampleRun key) ↔
      ∀ o ∈ outcomes sampleDeployment sampleRun, o.OnLadder :=
  guard_evidence_iff sampleDeployment sampleRun (State.Fresh.labelled ⟨rfl, rfl⟩)

/-- The failure of a passed through request is recorded against the first route. -/
theorem evidence_of_passthrough :
    ¬ ∀ key, recorded sampleDeployment sampleRun key = reported sampleDeployment sampleRun key := by
  intro h
  have hrecorded : recorded sampleDeployment sampleRun ("t", 0) = [false] := rfl
  have hreported : reported sampleDeployment sampleRun ("t", 0) = [] := rfl
  have heq := h ("t", 0)
  rw [hrecorded, hreported] at heq
  cases heq

end Firstpass.Feedback
