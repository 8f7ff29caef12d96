import Mathlib.Data.List.Basic
import Mathlib.Logic.Function.Basic
import Mathlib.Tactic.TypeStar

/-!
# Machines that run side by side

Machines of one kind take steps in any order, each on a state of its own, and a step may put
something out. Whatever the order, a machine does what it would do alone on its own steps.
-/

namespace Interleave

variable {ι σ ε ω : Type*}

section machine

variable (step : σ → ε → σ × List ω)

/-- The state after some steps, and what they have put out. -/
def run : σ → List ε → σ × List ω
  | s, [] => (s, [])
  | s, e :: es =>
    let now := step s e
    let later := run now.1 es
    (later.1, now.2 ++ later.2)

variable {step}

theorem run_append (s : σ) (es es' : List ε) :
    run step s (es ++ es') =
      ((run step (run step s es).1 es').1,
        (run step s es).2 ++ (run step (run step s es).1 es').2) := by
  induction es generalizing s with
  | nil => simp [run]
  | cons e es ih =>
    rw [List.cons_append, run, ih, run]
    simp [List.append_assoc]

/-- What each step keeps holds after any run, and of all that has been put out. -/
theorem run_induct {P : σ → Prop} {Q : ω → Prop}
    (hstep : ∀ s e, P s → P (step s e).1 ∧ ∀ o ∈ (step s e).2, Q o) {s : σ} (hs : P s)
    (es : List ε) : P (run step s es).1 ∧ ∀ o ∈ (run step s es).2, Q o := by
  induction es generalizing s with
  | nil => exact ⟨hs, by simp [run]⟩
  | cons e es ih =>
    obtain ⟨hnow, hout⟩ := hstep s e hs
    obtain ⟨hlater, houts⟩ := ih hnow
    refine ⟨hlater, fun o ho => ?_⟩
    rcases List.mem_append.mp ho with ho | ho
    · exact hout o ho
    · exact houts o ho

end machine

section family

variable [DecidableEq ι] {α : Type*}

/-- What belongs to one machine. -/
def own (id : ι) (es : List (ι × α)) : List α :=
  es.filterMap fun e => if e.1 = id then some e.2 else none

@[simp] theorem own_nil (id : ι) : own id ([] : List (ι × α)) = [] := rfl

@[simp] theorem own_append (id : ι) (es es' : List (ι × α)) :
    own id (es ++ es') = own id es ++ own id es' := List.filterMap_append

@[simp] theorem own_self (id : ι) (a : α) (es : List (ι × α)) :
    own id ((id, a) :: es) = a :: own id es := by simp [own]

theorem own_other {id k : ι} (h : k ≠ id) (a : α) (es : List (ι × α)) :
    own id ((k, a) :: es) = own id es := by simp [own, h]

theorem own_map_self (id : ι) (as : List α) : own id (as.map (id, ·)) = as := by
  induction as with
  | nil => rfl
  | cons a as ih => rw [List.map_cons, own_self, ih]

theorem own_map_other {id k : ι} (h : k ≠ id) (as : List α) : own id (as.map (k, ·)) = [] := by
  induction as with
  | nil => rfl
  | cons a as ih => rw [List.map_cons, own_other h, ih]

variable (step : σ → ε → σ × List ω)

/-- The step of one machine of many. -/
def stepAt (machines : ι → σ) (e : ι × ε) : (ι → σ) × List (ι × ω) :=
  let now := step (machines e.1) e.2
  (Function.update machines e.1 now.1, now.2.map (e.1, ·))

variable {step}

theorem run_own (machines : ι → σ) (es : List (ι × ε)) (id : ι) :
    (run (stepAt step) machines es).1 id = (run step (machines id) (own id es)).1 ∧
      own id (run (stepAt step) machines es).2 = (run step (machines id) (own id es)).2 := by
  induction es generalizing machines with
  | nil => exact ⟨rfl, rfl⟩
  | cons e es ih =>
    obtain ⟨k, e⟩ := e
    obtain ⟨hstate, hout⟩ := ih (stepAt step machines (k, e)).1
    by_cases hk : k = id
    · subst hk
      rw [own_self]
      simp only [run, own_append, hstate, hout]
      simp [stepAt, own_map_self]
    · have hsame : (stepAt step machines (k, e)).1 id = machines id := by
        simp [stepAt, Function.update_of_ne (Ne.symm hk)]
      rw [own_other hk]
      simp only [run, own_append, hstate, hout, hsame]
      simp [stepAt, own_map_other hk]

end family

end Interleave
