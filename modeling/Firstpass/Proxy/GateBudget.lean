import Firstpass.Proxy.Gate

/-!
# The error budget of one gate

What a registry holds on a gate is read through `account`: a lookup changes no account, and
an outcome is recorded in the one of its gate.
-/

namespace Firstpass.GateBudget

variable {F : Type} [F64 F]

-- ---------------------------------------------------------------------------
-- One account
-- ---------------------------------------------------------------------------

/-- A gate runs unless its account has disabled it. -/
def runs (account : Option (GateHealth F)) : Bool := account.all GateHealth.isEnabled

def after (account : Option (GateHealth F)) (outcomes : List Bool) : Option (GateHealth F) :=
  account.map fun h => outcomes.foldl GateHealth.record h

@[simp] theorem after_nil (account : Option (GateHealth F)) : after account [] = account := by
  cases account <;> rfl

theorem after_cons (account : Option (GateHealth F)) (errored : Bool) (outcomes : List Bool) :
    after account (errored :: outcomes) = after (account.map (·.record errored)) outcomes := by
  cases account <;> rfl

theorem after_concat (account : Option (GateHealth F)) (errored : Bool) (outcomes : List Bool) :
    after account (outcomes ++ [errored]) = (after account outcomes).map (·.record errored) := by
  cases account <;> simp [after]

theorem after_append (account : Option (GateHealth F)) (xs ys : List Bool) :
    after account (xs ++ ys) = after (after account xs) ys := by
  cases account <;> simp [after]

/-- A gate that is disabled stays disabled. -/
theorem runs_record {account : Option (GateHealth F)} (h : runs account = false)
    (errored : Bool) : runs (account.map (·.record errored)) = false := by
  cases account with
  | none => cases h
  | some health =>
    have hdisabled : health.disabled = true := by
      simpa [runs, GateHealth.isEnabled] using h
    simp only [runs, Option.map_some, Option.all_some, GateHealth.isEnabled, GateHealth.record]
    split <;> simp [hdisabled]

theorem runs_after {account : Option (GateHealth F)} (h : runs account = false)
    (outcomes : List Bool) : runs (after account outcomes) = false := by
  induction outcomes generalizing account with
  | nil => rwa [after_nil]
  | cons errored outcomes ih =>
    rw [after_cons]
    exact ih (runs_record h errored)

/-- For a number of lookups a gate runs on both sides or on neither, whatever it reports. -/
def SameUpTo (n : Nat) (a b : Option (GateHealth F)) : Prop :=
  ∀ outcomes : List Bool, outcomes.length < n → runs (after a outcomes) = runs (after b outcomes)

variable {a b : Option (GateHealth F)}

theorem SameUpTo.mono (h : SameUpTo n a b) (hle : m ≤ n) : SameUpTo m a b :=
  fun outcomes hlength => h outcomes (by omega)

theorem SameUpTo.now (h : SameUpTo (n + 1) a b) : runs a = runs b := by
  have hnow := h [] (Nat.succ_pos n)
  rwa [after_nil, after_nil] at hnow

theorem SameUpTo.record (h : SameUpTo (n + 1) a b) (errored : Bool) :
    SameUpTo n (a.map (·.record errored)) (b.map (·.record errored)) := by
  rintro outcomes hlength
  rw [← after_cons, ← after_cons]
  exact h _ (Nat.succ_lt_succ hlength)

/-- Only outcomes need to be looked at before which both gates run. -/
theorem SameUpTo.of_running (h : ∀ outcomes : List Bool, outcomes.length < n →
    (∀ i < outcomes.length, runs (after a (outcomes.take i)) = true ∧
      runs (after b (outcomes.take i)) = true) →
    runs (after a outcomes) = runs (after b outcomes)) : SameUpTo n a b := by
  rintro outcomes hlength
  induction hl : outcomes.length using Nat.strong_induction_on generalizing outcomes with
  | _ l ih =>
    subst hl
    by_cases hall : ∀ i < outcomes.length, runs (after a (outcomes.take i)) = true ∧
      runs (after b (outcomes.take i)) = true
    · exact h outcomes hlength hall
    · simp only [not_forall] at hall
      obtain ⟨i, hi, hstops⟩ := hall
      have htake : (outcomes.take i).length = i := List.length_take_of_le (Nat.le_of_lt hi)
      have hsame := ih i hi (outcomes.take i) (by omega) htake
      have hoff : runs (after a (outcomes.take i)) = false := by
        rw [← hsame, and_self, Bool.not_eq_true] at hstops
        exact hstops
      rw [← List.take_append_drop i outcomes, after_append, after_append, runs_after hoff,
        runs_after (hsame ▸ hoff)]

-- ---------------------------------------------------------------------------
-- The accounts of a registry
-- ---------------------------------------------------------------------------

section registry

variable (reg : GateHealthRegistry F) (tenant gateId : String)

/-- What is held on a gate that has an error budget. -/
def account : Option (GateHealth F) :=
  (reg.budgets gateId).map fun (window, maxErrorRate) =>
    reg.entry tenant gateId window maxErrorRate

omit [F64 F] in
theorem enabled_fst : (reg.enabled tenant gateId).1 = runs (account reg tenant gateId) := by
  rw [GateHealthRegistry.enabled, account]
  cases reg.budgets gateId <;> rfl

omit [F64 F] in
theorem account_enabled (other : String) :
    account (reg.enabled tenant gateId).2 tenant other = account reg tenant other := by
  rw [GateHealthRegistry.enabled]
  cases hbudget : reg.budgets gateId with
  | none => rfl
  | some budget =>
    by_cases h : other = gateId
    · subst h
      simp [account, GateHealthRegistry.setState, GateHealthRegistry.entry, hbudget]
    · simp [account, GateHealthRegistry.setState, GateHealthRegistry.entry, h]

theorem account_record_self (errored : Bool) :
    account (reg.record tenant gateId errored) tenant gateId =
      (account reg tenant gateId).map (·.record errored) := by
  rw [GateHealthRegistry.record]
  cases hbudget : reg.budgets gateId with
  | none => simp [account, hbudget]
  | some budget => simp [account, GateHealthRegistry.setState, GateHealthRegistry.entry, hbudget]

theorem account_record_ne {other : String} (h : other ≠ gateId) (errored : Bool) :
    account (reg.record tenant gateId errored) tenant other = account reg tenant other := by
  rw [GateHealthRegistry.record]
  cases reg.budgets gateId with
  | none => rfl
  | some budget => simp [account, GateHealthRegistry.setState, GateHealthRegistry.entry, h]

end registry

end Firstpass.GateBudget
