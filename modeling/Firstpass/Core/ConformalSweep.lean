import Firstpass.Core.Conformal
import Firstpass.Core.Served
import Mathlib.Algebra.Order.Field.Basic

/-!
# The calibration sweep

The sweep keeps the last of the prefixes it judges that meets the target.
-/

namespace Firstpass.Conformal

open Descending

theorem failures_take_succ {s : List (α × Bool)} (hp : s[k]? = some (score, correct)) :
    failures (s.take (k + 1)) =
      if correct then failures (s.take k) else failures (s.take k) + 1 := by
  rw [List.take_add_one, hp, failures_append]
  cases correct <;> rfl

theorem hoeffding_nonneg (delta : ℝ) : 0 ≤ hoeffding delta := Real.sqrt_nonneg _

variable {F : Type} [Field F] [LinearOrder F] [Analytic F]

def Meets (slack alpha : F) (minN : Nat) (s : List (F × Bool)) (n : Nat) : Prop :=
  minN ≤ n ∧ ucb slack (failures (s.take n)) n ≤ alpha

/-- The last of the first `k` prefixes that meets the target. -/
inductive LastMeets (slack alpha : F) (minN : Nat) (s : List (F × Bool)) (k : Nat) :
    Option (F × Nat × Nat) → Prop
  | nothing : (∀ n, 0 < n → n ≤ k → ¬ Meets slack alpha minN s n) →
      LastMeets slack alpha minN s k none
  | last : i < k → s[i]? = some p → Meets slack alpha minN s (i + 1) →
      (∀ n, i + 1 < n → n ≤ k → ¬ Meets slack alpha minN s n) →
      LastMeets slack alpha minN s k (some (p.1, i + 1, failures (s.take (i + 1))))

variable {slack alpha : F} {minN : Nat} {s : List (F × Bool)}

theorem LastMeets.next {best : Option (F × Nat × Nat)} (h : LastMeets slack alpha minN s k best)
    (hp : s[k]? = some p) :
    (Meets slack alpha minN s (k + 1) →
      LastMeets slack alpha minN s (k + 1) (some (p.1, k + 1, failures (s.take (k + 1))))) ∧
    (¬ Meets slack alpha minN s (k + 1) → LastMeets slack alpha minN s (k + 1) best) := by
  constructor
  · intro hmeets
    exact .last k.lt_succ_self hp hmeets fun n hn hn' => absurd hn' (not_le.mpr hn)
  · intro hmiss
    have hextend : ∀ n, n ≤ k + 1 → (n ≤ k → ¬ Meets slack alpha minN s n) →
        ¬ Meets slack alpha minN s n := by
      intro n hn hle
      rcases Nat.le_succ_iff.mp hn with hn | rfl
      · exact hle hn
      · exact hmiss
    cases h with
    | nothing hnone => exact .nothing fun n h0 hn => hextend n hn (hnone n h0)
    | last hi hpi hmeets hlast =>
      exact .last (hi.trans k.lt_succ_self) hpi hmeets fun n h0 hn => hextend n hn (hlast n h0)

theorem sweep_lastMeets {rest : List (F × Bool)} {best : Option (F × Nat × Nat)}
    (hk : k ≤ s.length) (hrest : s.drop k = rest) (h : LastMeets slack alpha minN s k best) :
    LastMeets slack alpha minN s s.length
      (sweep slack alpha minN rest k (failures (s.take k)) best) := by
  induction rest generalizing k best with
  | nil =>
    have hlen : k = s.length := le_antisymm hk (List.drop_eq_nil_iff.mp hrest)
    exact hlen ▸ h
  | cons p rest ih =>
    obtain ⟨score, correct⟩ := p
    have hp : s[k]? = some (score, correct) := by
      rw [← Nat.add_zero k, ← List.getElem?_drop, hrest]
      rfl
    have hk' : k + 1 ≤ s.length := (List.getElem?_eq_some_iff.mp hp).1
    have hrest' : s.drop (k + 1) = rest := by
      rw [← List.tail_drop, hrest, List.tail_cons]
    obtain ⟨htake, hkeep⟩ := h.next hp
    rw [sweep, ← failures_take_succ hp]
    split_ifs with hsmall hok
    · exact ih hk' hrest' (hkeep fun hm => absurd hsmall (not_lt.mpr hm.1))
    · exact ih hk' hrest' (htake ⟨not_lt.mp hsmall, hok⟩)
    · exact ih hk' hrest' (hkeep fun hm => hok hm.2)

theorem sweep_sorted (slack alpha : F) (minN : Nat) (s : List (F × Bool)) :
    LastMeets slack alpha minN s s.length (sweep slack alpha minN s 0 0 none) :=
  sweep_lastMeets (Nat.zero_le _) rfl
    (.nothing fun _ h0 hn => absurd hn (not_le.mpr h0))

theorem feasible_sweep {pairs : List (F × Bool)} {delta t : F}
    (hf : (calibrateWith slack pairs alpha delta minN).feasible = true)
    (ht : (calibrateWith slack pairs alpha delta minN).threshold = t) :
    ∃ n f, sweep slack alpha minN (sortDesc Prod.fst pairs) 0 0 none = some (t, n, f) ∧
      calibrateWith slack pairs alpha delta minN =
        { alpha, delta
          threshold := t
          servedFrac := n / (max pairs.length 1 : Nat)
          calibRisk := f / n
          feasible := true } := by
  unfold calibrateWith at hf ht ⊢
  cases hsweep : sweep slack alpha minN (sortDesc Prod.fst pairs) 0 0 none with
  | none =>
    rw [hsweep] at hf
    cases hf
  | some r =>
    obtain ⟨t', n, f⟩ := r
    rw [hsweep] at ht
    obtain rfl : t' = t := WithTop.coe_injective ht
    exact ⟨n, f, rfl, rfl⟩

end Firstpass.Conformal
