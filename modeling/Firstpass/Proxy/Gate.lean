import Firstpass.Core.Verdict
import Firstpass.Proxy.Provider

/-!
# Gates, their aggregate and their error budgets

The budgets are shared state behind locks; here the registry is passed in and
handed back.
-/

namespace Firstpass

variable {F : Type} [F64 F]

/-- A gate. Its verdict is arbitrary, but every gate reports under its own id. -/
structure Gate (F : Type) [F64 F] where
  id : String
  evaluate : Nat → ModelRequest → ModelResponse → GateResult F
  abstainFailsClosed : Bool
  evaluate_gateId : ∀ rung req resp, (evaluate rung req resp).gateId = id

-- ---------------------------------------------------------------------------
-- Error budgets
-- ---------------------------------------------------------------------------

/-- The last `window` outcomes of a gate, `true` for an error. -/
structure GateHealth (F : Type) where
  window : Nat
  maxErrorRate : F
  outcomes : List Bool
  disabled : Bool

def GateHealth.new (window : Nat) (maxErrorRate : F) : GateHealth F :=
  ⟨max window 1, maxErrorRate, [], false⟩

def GateHealth.isEnabled (h : GateHealth F) : Bool := !h.disabled

def GateHealth.record (h : GateHealth F) (errored : Bool) : GateHealth F :=
  let q := h.outcomes ++ [errored]
  let q := q.drop (q.length - h.window)
  if q.length = h.window then
    let errors := q.count true
    let rate := (errors : F) / (h.window : F)
    { h with outcomes := q, disabled := h.disabled || decide (h.maxErrorRate < rate) }
  else { h with outcomes := q }

structure GateHealthRegistry (F : Type) where
  budgets : String → Option (Nat × F)
  state : String → String → Option (GateHealth F)

namespace GateHealthRegistry

def setState (reg : GateHealthRegistry F) (tenant gateId : String) (h : GateHealth F) :
    GateHealthRegistry F :=
  { reg with state := fun t g => if t = tenant ∧ g = gateId then some h else reg.state t g }

def entry (reg : GateHealthRegistry F) (tenant gateId : String) (window : Nat)
    (maxErrorRate : F) : GateHealth F :=
  (reg.state tenant gateId).getD (.new window maxErrorRate)

/-- Looking a gate up creates its accounting. -/
def enabled (reg : GateHealthRegistry F) (tenant gateId : String) :
    Bool × GateHealthRegistry F :=
  match reg.budgets gateId with
  | none => (true, reg)
  | some (window, maxErrorRate) =>
    let h := reg.entry tenant gateId window maxErrorRate
    (h.isEnabled, reg.setState tenant gateId h)

def record (reg : GateHealthRegistry F) (tenant gateId : String) (errored : Bool) :
    GateHealthRegistry F :=
  match reg.budgets gateId with
  | none => reg
  | some (window, maxErrorRate) =>
    reg.setState tenant gateId ((reg.entry tenant gateId window maxErrorRate).record errored)

end GateHealthRegistry

-- ---------------------------------------------------------------------------
-- The verdict of an attempt
-- ---------------------------------------------------------------------------

def failClosedIds (gates : List (Gate F)) : List String :=
  (gates.filter Gate.abstainFailsClosed).map Gate.id

def blocking (failClosed : List String) (r : GateResult F) : Bool :=
  r.verdict = .fail || (r.verdict = .abstain && failClosed.contains r.gateId)

def aggregateWithPolicy (results : List (GateResult F)) (failClosed : List String) : Verdict :=
  if results.any (blocking failClosed) then .fail else .pass

/-- The mean of the numeric gate scores, or the verdict itself when there is
none. -/
def gateScore (gates : List (GateResult F)) (verdict : Verdict) : F :=
  let numeric := gates.filterMap fun g => g.score.map Score.value
  if numeric = [] then (if verdict = .pass then 1 else 0)
  else F64.sum numeric / (numeric.length : F)

-- ---------------------------------------------------------------------------
-- What the aggregate says of the results
-- ---------------------------------------------------------------------------

/-- The result blocks nothing: it is no failure, and no abstain of a gate that
fails closed. -/
def Clears (gates : List (Gate F)) (r : GateResult F) : Prop :=
  r.verdict ≠ .fail ∧
    (r.verdict = .abstain → ∀ g ∈ gates, g.id = r.gateId → g.abstainFailsClosed = false)

theorem mem_failClosedIds {gates : List (Gate F)} :
    gateId ∈ failClosedIds gates ↔ ∃ g ∈ gates, g.id = gateId ∧ g.abstainFailsClosed = true := by
  simp only [failClosedIds, List.mem_map, List.mem_filter]
  constructor
  · rintro ⟨g, ⟨hg, hc⟩, hid⟩; exact ⟨g, hg, hid, hc⟩
  · rintro ⟨g, hg, hid, hc⟩; exact ⟨g, ⟨hg, hc⟩, hid⟩

theorem blocking_eq_false {gates : List (Gate F)} {r : GateResult F} :
    blocking (failClosedIds gates) r = false ↔ Clears gates r := by
  simp only [blocking, Bool.or_eq_false_iff, decide_eq_false_iff_not, Bool.and_eq_false_imp,
    decide_eq_true_eq, Clears, List.contains_eq_mem, mem_failClosedIds, not_exists, not_and,
    Bool.not_eq_true, ne_eq]

theorem aggregateWithPolicy_eq_pass {gates : List (Gate F)} {results : List (GateResult F)} :
    aggregateWithPolicy results (failClosedIds gates) = .pass ↔
      ∀ r ∈ results, Clears gates r := by
  unfold aggregateWithPolicy
  split
  · rename_i h
    obtain ⟨r, hr, hb⟩ := List.any_eq_true.mp h
    simp only [reduceCtorEq, false_iff, not_forall]
    exact ⟨r, hr, fun hc => by simp [blocking_eq_false.mpr hc] at hb⟩
  · rename_i h
    simp only [true_iff]
    intro r hr
    refine blocking_eq_false.mp (Bool.not_eq_true _ ▸ fun hb => h ?_)
    exact List.any_eq_true.mpr ⟨r, hr, hb⟩

theorem aggregateWithPolicy_ne_pass {results : List (GateResult F)} :
    aggregateWithPolicy results failClosed ≠ .pass ↔
      aggregateWithPolicy results failClosed = .fail := by
  unfold aggregateWithPolicy
  split <;> simp

end Firstpass
