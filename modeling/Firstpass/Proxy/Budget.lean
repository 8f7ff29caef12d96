import Firstpass.Proxy.LadderTurn
import Mathlib.Algebra.BigOperators.Group.List.Basic
import Mathlib.Algebra.Order.Ring.Rat
import Mathlib.Tactic.Linarith

/-!
# The budget of a serial run

The cap is compared after each gated attempt that is not served. The other ways on
to the next rung add nothing to what is spent, so no call is made at the cap.

Amounts are exact.
-/

namespace Firstpass

variable {ctx : EnforceCtx ℚ}

/-- What an attempt costs, with its gates. -/
def Attempt.billUsd (a : Attempt ℚ) : ℚ := a.costUsd + F64.sum (a.gates.map GateResult.costUsd)

def billTotal (attempts : List (Attempt ℚ)) : ℚ := (attempts.map Attempt.billUsd).sum

/-- What had been spent before the call of a rung. -/
def spentBefore (attempts : List (Attempt ℚ)) (rung : Nat) : ℚ :=
  billTotal (attempts.filter fun a => a.rung < rung)

def lastBill (attempts : List (Attempt ℚ)) : ℚ := (attempts.getLast?.map Attempt.billUsd).getD 0

theorem billTotal_concat (attempts : List (Attempt ℚ)) (a : Attempt ℚ) :
    billTotal (attempts ++ [a]) = billTotal attempts + a.billUsd := by
  simp [billTotal]

theorem lastBill_concat (attempts : List (Attempt ℚ)) (a : Attempt ℚ) :
    lastBill (attempts ++ [a]) = a.billUsd := by
  simp [lastBill]

theorem billUsd_abstain (rung : Nat) (model provider reason : String) (ms : Nat) :
    (abstainAttempt (F := ℚ) rung model provider reason ms).billUsd = 0 := by
  simp [Attempt.billUsd, abstainAttempt, GateResult.abstain, F64.sum]

-- ---------------------------------------------------------------------------
-- One rung
-- ---------------------------------------------------------------------------

/-- What one rung adds to a run: an attempt with its bill, and no call but its own. Where
it goes on to another rung, it has added nothing or is under budget. -/
structure Bill (ctx : EnforceCtx ℚ) (idx : Nat) (s t : LoopState ℚ) (flow : Flow) (a : Attempt ℚ) :
    Prop where
  rung : a.rung = idx
  attempts : t.attempts = s.attempts ++ [a]
  spent : t.spent = s.spent + a.billUsd
  calls : ∀ j, .call j ∈ t.log → .call j ∈ s.log ∨ j = idx
  next : flow = .next → idx + 1 < rungEnd ctx →
    t.spent = s.spent ∨ overBudget ctx t.spent = false

theorem bill_abstain (model provider reason : String) (ms : Nat) {s t : LoopState ℚ}
    (hat : t.attempts = s.attempts ++ [abstainAttempt idx model provider reason ms])
    (hspent : t.spent = s.spent) (hcalls : ∀ j, .call j ∈ t.log → .call j ∈ s.log ∨ j = idx) :
    ∃ a, Bill ctx idx s t flow a := by
  refine ⟨_, rfl, hat, ?_, hcalls, fun _ _ => .inl hspent⟩
  rw [billUsd_abstain, add_zero]
  exact hspent

section conclude
variable (s : LoopState ℚ) (serve : Bool)

theorem conclude_attempts : (s.conclude ctx idx serve).1.attempts = s.attempts := by
  rcases conclude_cases s ctx idx serve with h | h <;> rw [h]

theorem conclude_spent : (s.conclude ctx idx serve).1.spent = s.spent := by
  rcases conclude_cases s ctx idx serve with h | h <;> rw [h]

theorem conclude_log : (s.conclude ctx idx serve).1.log = s.log := by
  rcases conclude_cases s ctx idx serve with h | h <;> rw [h]

end conclude

theorem conclude_next (s : LoopState ℚ) (serve : Bool)
    (hnext : (s.conclude ctx idx serve).2 = .next) (hidx : idx + 1 < rungEnd ctx) :
    overBudget ctx (s.conclude ctx idx serve).1.spent = false := by
  unfold LoopState.conclude at hnext ⊢
  split at hnext
  · cases hnext
  · rename_i hserve
    split at hnext
    · cases hnext
    · rename_i hover
      rw [if_neg hserve, if_neg hover]
      simpa [hidx] using hover

theorem serialRung_bill (ctx : EnforceCtx ℚ) (elapsed : Nat → Nat) (idx : Nat) (model : String)
    (s : LoopState ℚ) :
    ∃ a, Bill ctx idx s (serialRung ctx elapsed idx model s).1
      (serialRung ctx elapsed idx model s).2 a := by
  cases hp : resolveProvider ctx model with
  | none =>
    rw [serialRung_unknown hp]
    exact bill_abstain _ _ _ _ rfl rfl fun j hj => .inl hj
  | some provider =>
    have hlog (result : Except ProviderError ModelResponse) (j : Nat)
        (hj : .call j ∈ s.log ++ [.call idx, .answer idx result]) : .call j ∈ s.log ∨ j = idx := by
      simpa using hj
    cases hans : answerOf ctx idx model provider with
    | error err =>
      rw [serialRung_failed hp hans, settle]
      split
      · exact bill_abstain _ _ _ _ rfl rfl (hlog _)
      · split
        · exact bill_abstain _ _ _ _ rfl rfl (hlog _)
        · exact bill_abstain _ _ _ _ rfl rfl (hlog _)
    | ok resp =>
      rw [serialRung_answered hp hans]
      refine ⟨_, rfl, conclude_attempts _ _, ?_, fun j hj => ?_, fun hnext hidx => ?_⟩
      · rw [conclude_spent]
        exact add_assoc _ _ _
      · rw [conclude_log] at hj
        exact hlog _ j hj
      · exact .inr (conclude_next _ _ hnext hidx)

-- ---------------------------------------------------------------------------
-- The run
-- ---------------------------------------------------------------------------

/-- What holds of a run under the cap that has attempted rungs before `idx`. -/
structure Within (cap : ℚ) (idx : Nat) (s : LoopState ℚ) : Prop where
  spent : s.spent = billTotal s.attempts
  behind : ∀ a ∈ s.attempts, a.rung < idx
  calls : ∀ j, .call j ∈ s.log → j < idx ∧ spentBefore s.attempts j < cap
  bounded : s.spent < cap + lastBill s.attempts

theorem Within.init (hpos : 0 < cap) (health : GateHealthRegistry ℚ) (idx : Nat) :
    Within cap idx (.init health) where
  spent := rfl
  behind := by simp [LoopState.init]
  calls := by simp [LoopState.init]
  bounded := by simpa [LoopState.init, lastBill] using hpos

/-- An attempt counts for the calls of later rungs only. -/
theorem spentBefore_concat (attempts : List (Attempt ℚ)) (h : j ≤ a.rung) :
    spentBefore (attempts ++ [a]) j = spentBefore attempts j := by
  simp [spentBefore, List.filter_append, Nat.not_lt.mpr h]

theorem spentBefore_behind (h : ∀ a ∈ attempts, a.rung < idx) :
    spentBefore attempts idx = billTotal attempts := by
  rw [spentBefore, List.filter_eq_self.mpr fun a ha => decide_eq_true (h a ha)]

theorem Within.rung (h : Within cap idx s) (hspent : s.spent < cap)
    (hbill : Bill ctx idx s t flow a) : Within cap (idx + 1) t where
  spent := by rw [hbill.spent, hbill.attempts, billTotal_concat, h.spent]
  behind b hb := by
    rw [hbill.attempts] at hb
    rcases List.mem_append.mp hb with hb | hb
    · exact Nat.lt_succ_of_lt (h.behind b hb)
    · rw [List.mem_singleton.mp hb, hbill.rung]
      exact Nat.lt_succ_self idx
  calls j hj := by
    rw [hbill.attempts]
    rcases hbill.calls j hj with hold | rfl
    · obtain ⟨hlt, hbefore⟩ := h.calls j hold
      rw [spentBefore_concat _ (hbill.rung ▸ hlt.le)]
      exact ⟨Nat.lt_succ_of_lt hlt, hbefore⟩
    · rw [spentBefore_concat _ hbill.rung.ge, spentBefore_behind h.behind, ← h.spent]
      exact ⟨Nat.lt_succ_self j, hspent⟩
  bounded := by
    rw [hbill.attempts, lastBill_concat, hbill.spent]
    exact add_lt_add_left hspent _

theorem serialLoop_within (elapsed : Nat → Nat) (hcap : ctx.budgetPerRequestUsd = some cap)
    (h : Within cap idx s) (hspent : rest ≠ [] → s.spent < cap) (hrest : rest = rungsFrom ctx idx) :
    ∃ n, Within cap n (serialLoop ctx elapsed rest idx s) := by
  induction rest generalizing idx s with
  | nil => exact ⟨idx, h⟩
  | cons model rest ih =>
    obtain ⟨_, _, hnext⟩ := rungsFrom_cons hrest.symm
    obtain ⟨a, hbill⟩ := serialRung_bill ctx elapsed idx model s
    have hunder : s.spent < cap := hspent (List.cons_ne_nil model rest)
    have hwithin := h.rung hunder hbill
    simp only [serialLoop]
    split
    · rename_i t heq
      rw [heq] at hbill hwithin
      refine ih hwithin (fun hne => ?_) hnext
      have hidx : idx + 1 < rungEnd ctx := by
        obtain ⟨other, others, hcons⟩ := List.exists_cons_of_ne_nil hne
        exact (rungsFrom_cons (hnext.symm.trans hcons)).2.1
      rcases hbill.next rfl hidx with hsame | hover
      · rw [hsame]
        exact hunder
      · simpa [overBudget, hcap] using hover
    · rename_i t heq
      rw [heq] at hwithin
      exact ⟨idx + 1, hwithin⟩

def budgetCtx : EnforceCtx ℚ := { sampleCtx with budgetPerRequestUsd := some 1, speculation := 0 }

end Firstpass
