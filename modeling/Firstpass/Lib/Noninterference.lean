import Mathlib.Data.List.Basic

/-!
# Noninterference

A machine that several agents act on, one action after the other. `Apart`: an agent's own answers
and the effects of its own actions depend on what it sees of the state alone, and what it sees is
left as it is by the others. It is then told in a run what it would be told had nobody else acted.
-/

namespace Firstpass.Noninterference

variable {σ α δ ω : Type}

structure Machine (σ α δ ω : Type) where
  step : σ → α → σ
  answer : σ → α → Option ω
  agent : α → δ

namespace Machine

variable (m : Machine σ α δ ω)

def run (s : σ) (actions : List α) : σ := actions.foldl m.step s

/-- The states are alike to the agent `d`. The actions of a run are `legal`, and its states
`sound`. -/
structure Apart (d : δ) (legal : α → Prop) (sound : σ → Prop) (alike : σ → σ → Prop) : Prop where
  sound_step : ∀ s a, sound s → legal a → sound (m.step s a)
  answer : ∀ s t a, sound s → sound t → alike s t → legal a → m.agent a = d →
    m.answer s a = m.answer t a
  own : ∀ s t a, sound s → sound t → alike s t → legal a → m.agent a = d →
    alike (m.step s a) (m.step t a)
  other : ∀ s t a, sound s → alike s t → legal a → m.agent a ≠ d → alike (m.step s a) t

variable [DecidableEq δ]

/-- What the agent is told, in order. -/
def told (d : δ) (s : σ) : List α → List ω
  | [] => []
  | a :: actions =>
    (if m.agent a = d then (m.answer s a).toList else []) ++ told d (m.step s a) actions

/-- The agent's own actions. -/
def own (d : δ) (actions : List α) : List α := actions.filter fun a => m.agent a = d

variable {m} {d : δ} {legal : α → Prop} {sound : σ → Prop} {alike : σ → σ → Prop}

/-- The others might as well not have acted. -/
theorem Apart.told_own (h : m.Apart d legal sound alike) {s t : σ} (hs : sound s) (ht : sound t)
    (hst : alike s t) {actions : List α} (hlegal : ∀ a ∈ actions, legal a) :
    m.told d s actions = m.told d t (m.own d actions) ∧
      alike (m.run s actions) (m.run t (m.own d actions)) := by
  induction actions generalizing s t with
  | nil => exact ⟨rfl, hst⟩
  | cons a actions ih =>
    obtain ⟨ha, hrest⟩ := List.forall_mem_cons.mp hlegal
    have hs' := h.sound_step s a hs ha
    by_cases hd : m.agent a = d
    · have hown : m.own d (a :: actions) = a :: m.own d actions :=
        List.filter_cons_of_pos (by simpa using hd)
      obtain ⟨htold, halike⟩ := ih hs' (h.sound_step t a ht ha) (h.own s t a hs ht hst ha hd) hrest
      refine ⟨?_, by rw [hown]; exact halike⟩
      rw [hown, told, told, h.answer s t a hs ht hst ha hd, htold]
    · have hown : m.own d (a :: actions) = m.own d actions :=
        List.filter_cons_of_neg (by simpa using hd)
      obtain ⟨htold, halike⟩ := ih hs' ht (h.other s t a hs hst ha hd) hrest
      refine ⟨?_, by rw [hown]; exact halike⟩
      rw [hown, told, if_neg hd, htold]
      rfl

end Machine

end Firstpass.Noninterference
