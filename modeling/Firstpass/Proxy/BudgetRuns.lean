import Firstpass.Proxy.FailClosed

/-!
# Error budgets over whole runs

Any interleaving of lookups and records, for any tenants and gates. A gate is disabled for a
tenant exactly when its own outcomes for that tenant have spent the budget.
-/

namespace Firstpass

variable {F : Type} [F64 F]

/-- What is asked of a registry. -/
inductive HealthCall
  | record (tenant gateId : String) (errored : Bool)
  | enabled (tenant gateId : String)

namespace HealthCall

variable (tenant gateId : String)

/-- The call is one for this tenant and gate. -/
def concerns : HealthCall → Bool
  | .record t g _ => t = tenant ∧ g = gateId
  | .enabled t g => t = tenant ∧ g = gateId

/-- The outcome that a call records for this tenant and gate. -/
def outcome : HealthCall → Option Bool
  | .record t g errored => if t = tenant ∧ g = gateId then some errored else none
  | .enabled .. => none

/-- The outcomes of this tenant and gate, in the order of the calls. -/
def outcomes (calls : List HealthCall) : List Bool := calls.filterMap (outcome tenant gateId)

@[simp] theorem outcomes_nil : outcomes tenant gateId [] = [] := rfl

theorem outcomes_concat (calls : List HealthCall) (c : HealthCall) :
    outcomes tenant gateId (calls ++ [c]) =
      outcomes tenant gateId calls ++ (c.outcome tenant gateId).toList := by
  rw [outcomes, List.filterMap_append]
  cases h : c.outcome tenant gateId <;> simp [h, outcomes]

theorem outcomes_append (calls later : List HealthCall) :
    outcomes tenant gateId (calls ++ later) =
      outcomes tenant gateId calls ++ outcomes tenant gateId later :=
  List.filterMap_append

theorem outcome_of_not_concerns {c : HealthCall} (h : c.concerns tenant gateId = false) :
    c.outcome tenant gateId = none := by
  cases c with
  | record t g errored =>
    have hne : ¬(t = tenant ∧ g = gateId) := of_decide_eq_false h
    simp [outcome, hne]
  | enabled t g => rfl

/-- The calls for other tenants and gates have no part in it. -/
theorem outcomes_filter (calls : List HealthCall) :
    outcomes tenant gateId (calls.filter (concerns tenant gateId)) =
      outcomes tenant gateId calls := by
  induction calls with
  | nil => rfl
  | cons c calls ih =>
    cases hc : c.concerns tenant gateId with
    | true =>
      rw [List.filter_cons_of_pos hc]
      simp only [outcomes, List.filterMap_cons] at ih ⊢
      rw [ih]
    | false =>
      rw [List.filter_cons_of_neg (by simp [hc]), ih]
      simp [outcomes, outcome_of_not_concerns tenant gateId hc]

end HealthCall

namespace GateHealthRegistry

def call (reg : GateHealthRegistry F) : HealthCall → GateHealthRegistry F
  | .record tenant gateId errored => reg.record tenant gateId errored
  | .enabled tenant gateId => (reg.enabled tenant gateId).2

def run (reg : GateHealthRegistry F) (calls : List HealthCall) : GateHealthRegistry F :=
  calls.foldl call reg

theorem run_append (reg : GateHealthRegistry F) (calls later : List HealthCall) :
    reg.run (calls ++ later) = (reg.run calls).run later := List.foldl_append

end GateHealthRegistry

namespace GateBudget

open HealthCall

variable (reg : GateHealthRegistry F) (tenant gateId : String)

omit [F64 F] in
/-- A lookup leaves every account as it is. -/
theorem account_lookup (t g : String) :
    account (reg.enabled t g).2 tenant gateId = account reg tenant gateId := by
  rw [GateHealthRegistry.enabled]
  cases hbudget : reg.budgets g with
  | none => rfl
  | some budget =>
    by_cases h : tenant = t ∧ gateId = g
    · obtain ⟨rfl, rfl⟩ := h
      simp [account, GateHealthRegistry.setState, GateHealthRegistry.entry, hbudget]
    · simp [account, GateHealthRegistry.setState, GateHealthRegistry.entry, h]

theorem account_record_other {t g : String} (h : ¬(t = tenant ∧ g = gateId)) (errored : Bool) :
    account (reg.record t g errored) tenant gateId = account reg tenant gateId := by
  have h : ¬(tenant = t ∧ gateId = g) := fun heq => h ⟨heq.1.symm, heq.2.symm⟩
  rw [GateHealthRegistry.record]
  cases reg.budgets g with
  | none => rfl
  | some budget => simp [account, GateHealthRegistry.setState, GateHealthRegistry.entry, h]

/-- One call records its outcome in the account it concerns, if it has one. -/
theorem account_call (c : HealthCall) :
    account (reg.call c) tenant gateId =
      after (account reg tenant gateId) (c.outcome tenant gateId).toList := by
  cases c with
  | enabled t g => exact (account_lookup reg tenant gateId t g).trans (after_nil _).symm
  | record t g errored =>
    by_cases h : t = tenant ∧ g = gateId
    · obtain ⟨rfl, rfl⟩ := h
      simp [GateHealthRegistry.call, outcome, account_record_self, after_cons]
    · simp [GateHealthRegistry.call, outcome, h, account_record_other]

theorem account_run (calls : List HealthCall) :
    account (reg.run calls) tenant gateId =
      after (account reg tenant gateId) (outcomes tenant gateId calls) := by
  induction calls using List.reverseRecOn with
  | nil => simp [GateHealthRegistry.run]
  | append_singleton calls c ih =>
    rw [GateHealthRegistry.run_append, outcomes_concat, after_append, ← ih]
    exact account_call _ tenant gateId c

/-- What an enabled call answers after a run is read off the outcomes of its own key. -/
theorem enabled_run (calls : List HealthCall) :
    ((reg.run calls).enabled tenant gateId).1 =
      runs (after (account reg tenant gateId) (outcomes tenant gateId calls)) := by
  rw [enabled_fst, account_run]

variable {window : Nat} {maxErrorRate : F} {outcomes : List Bool}

/-- The run that trips a budget stands somewhere among the outcomes. -/
theorem tripped_iff_infix : Tripped window maxErrorRate outcomes ↔
    ∃ streak, streak <:+: outcomes ∧ streak.length = window ∧
      maxErrorRate < (streak.count true : F) / (window : F) := by
  constructor
  · rintro ⟨n, hle, hn, hrate⟩
    refine ⟨(outcomes.take n).rtake window, ?_, ?_, hrate⟩
    · exact (List.drop_suffix _ _).isInfix.trans (List.take_prefix n outcomes).isInfix
    · rw [length_rtake, List.length_take, Nat.min_eq_left hn, Nat.min_eq_left hle]
  · rintro ⟨streak, ⟨front, back, rfl⟩, rfl, hrate⟩
    refine ⟨(front ++ streak).length, by simp, by simp, ?_⟩
    have hlast : (front ++ streak).rtake streak.length = streak := by
      simp [List.rtake]
    rwa [List.take_left, hlast]

end GateBudget

open GateBudget

variable {reg : GateHealthRegistry F} {window : Nat} {maxErrorRate : F} {tenant gateId : String}

/-- From a registry without calls, a gate with a budget is disabled for a tenant if and only if
some `window` of their own outcomes in a row spent more than the budget. It stays disabled, and
the calls for other keys can be left out. -/
theorem disabled_iff_overspent (hnew : ∀ t g, reg.state t g = none)
    (hbudget : reg.budgets gateId = some (window, maxErrorRate)) (hw : 1 ≤ window)
    (calls : List HealthCall) :
    (((reg.run calls).enabled tenant gateId).1 = false ↔
      ∃ streak, streak <:+: HealthCall.outcomes tenant gateId calls ∧ streak.length = window ∧
        maxErrorRate < (streak.count true : F) / (window : F)) ∧
    (((reg.run calls).enabled tenant gateId).1 = false →
      ∀ later, ((reg.run (calls ++ later)).enabled tenant gateId).1 = false) ∧
    ((reg.run calls).enabled tenant gateId).1 =
      ((reg.run (calls.filter (·.concerns tenant gateId))).enabled tenant gateId).1 := by
  have haccount : account reg tenant gateId = some (.new window maxErrorRate) := by
    simp [account, hbudget, GateHealthRegistry.entry, hnew]
  refine ⟨?_, fun hoff later => ?_, ?_⟩
  · rw [enabled_run, haccount, ← Bool.not_eq_true, runs_budget hw, not_not, tripped_iff_infix]
  · rw [enabled_run] at hoff ⊢
    rw [HealthCall.outcomes_append, after_append]
    exact runs_after hoff _
  · rw [enabled_run, enabled_run, HealthCall.outcomes_filter]

/-- Two tenants, one gate: half of the last two outcomes may be errors. -/
def halfOfTwo : GateHealthRegistry ℚ := GateHealthRegistry.new.withBudget "judge" 2 0.5

def judgedCalls : List HealthCall :=
  [.enabled "t" "judge", .record "t" "judge" true, .record "u" "judge" false,
    .record "t" "judge" true, .record "t" "judge" false]

theorem disabled_iff_overspent_judged :
    (((halfOfTwo.run judgedCalls).enabled "t" "judge").1 = false ∧
      ((halfOfTwo.run (judgedCalls ++ [.record "t" "judge" false])).enabled "t" "judge").1 =
        false) ∧
    ((halfOfTwo.run judgedCalls).enabled "u" "judge").1 =
      ((halfOfTwo.run [.record "u" "judge" false]).enabled "u" "judge").1 := by
  have hnew : ∀ t g, halfOfTwo.state t g = none := fun _ _ => rfl
  have hbudget : halfOfTwo.budgets "judge" = some (2, 0.5) := rfl
  obtain ⟨hiff, hstays, -⟩ := disabled_iff_overspent hnew hbudget (by decide) judgedCalls
  have hoff : ((halfOfTwo.run judgedCalls).enabled "t" "judge").1 = false :=
    hiff.mpr ⟨[true, true], ⟨[], [false], rfl⟩, rfl, by decide +kernel⟩
  obtain ⟨-, -, hown⟩ := disabled_iff_overspent hnew hbudget (by decide) judgedCalls
  exact ⟨⟨hoff, hstays hoff _⟩, hown⟩

end Firstpass
