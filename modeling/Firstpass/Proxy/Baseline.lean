import Firstpass.Proxy.Budget
import Firstpass.Proxy.Ceiling
import Mathlib.Tactic.LinearCombination

/-!
# The counterfactual baseline

An attempt is billed with its prompt-cache traffic, the baseline without it. So
where the served answer reports such traffic, the savings are wrong by its price.

Amounts are exact.
-/

namespace Firstpass

variable {ctx : EnforceCtx ℚ} {s t : LoopState ℚ} {idx : Nat} {model : String}

/-- The price of the tallest rung, if the table has one. -/
def topPrice (ctx : EnforceCtx ℚ) : Option (ModelPrice ℚ) :=
  ctx.prices.get (ctx.ladder.getLast?.getD "")

/-- What the tokens of an answer cost, the cached ones among them. -/
def ModelPrice.answerCost (p : ModelPrice ℚ) (resp : ModelResponse) : ℚ :=
  p.costWithCache resp.inTokens resp.cacheWriteTokens resp.cacheReadTokens resp.outTokens

/-- The price of the cached tokens alone comes to nothing. -/
def ModelPrice.CacheFree (p : ModelPrice ℚ) (resp : ModelResponse) : Prop :=
  p.inputPerMtok = 0 ∨ resp.cacheWriteTokens = 0 ∧ resp.cacheReadTokens = 0

theorem costWithCache_uncached (p : ModelPrice ℚ) (input output : Nat) :
    p.costWithCache input 0 0 output = p.cost input output := by
  simp [ModelPrice.costWithCache]

theorem cost_eq_answerCost_iff (p : ModelPrice ℚ) (resp : ModelResponse) :
    p.cost resp.inTokens resp.outTokens = p.answerCost resp ↔ p.CacheFree resp := by
  have hsurcharge : p.answerCost resp = p.cost resp.inTokens resp.outTokens +
      p.inputPerMtok * (1.25 * resp.cacheWriteTokens + 0.1 * resp.cacheReadTokens) / 1e6 := by
    simp only [ModelPrice.answerCost, ModelPrice.costWithCache, cacheWriteMultiplier,
      cacheReadMultiplier]
    ring
  have hcached : (1.25 * resp.cacheWriteTokens + 0.1 * resp.cacheReadTokens : ℚ) = 0 ↔
      resp.cacheWriteTokens = 0 ∧ resp.cacheReadTokens = 0 := by
    have hw : (0 : ℚ) ≤ resp.cacheWriteTokens := Nat.cast_nonneg _
    have hr : (0 : ℚ) ≤ resp.cacheReadTokens := Nat.cast_nonneg _
    constructor
    · intro hzero
      have hw0 : (resp.cacheWriteTokens : ℚ) = 0 := by linarith
      have hr0 : (resp.cacheReadTokens : ℚ) = 0 := by linarith
      exact ⟨Nat.cast_eq_zero.mp hw0, Nat.cast_eq_zero.mp hr0⟩
    · rintro ⟨hw0, hr0⟩
      simp [hw0, hr0]
  rw [hsurcharge, left_eq_add, div_eq_zero_iff, or_iff_left (by norm_num), mul_eq_zero, hcached]
  rfl

-- ---------------------------------------------------------------------------
-- A run with one attempt
-- ---------------------------------------------------------------------------

/-- What one rung of the serial engine adds to the bill: nothing, or an answer
with the gates it went through. -/
structure Charge (ctx : EnforceCtx ℚ) (idx : Nat) (model : String) (s t : LoopState ℚ)
    (a : Attempt ℚ) : Prop where
  rung : a.rung = idx
  attempts : t.attempts = s.attempts ++ [a]
  charged : (t.spent = s.spent ∧ t.gateCostTotal = s.gateCostTotal ∧ t.best = s.best) ∨
    ∃ resp gc, t.spent = s.spent + modelCost ctx model resp + gc ∧
      t.gateCostTotal = s.gateCostTotal + gc ∧ t.best = some (idx, resp)

theorem serialRung_charge (ctx : EnforceCtx ℚ) (elapsed : Nat → Nat) (idx : Nat) (model : String)
    (s : LoopState ℚ) : ∃ a, Charge ctx idx model s (serialRung ctx elapsed idx model s).1 a := by
  cases hp : resolveProvider ctx model with
  | none =>
    rw [serialRung_unknown hp]
    exact ⟨_, rfl, rfl, .inl ⟨rfl, rfl, rfl⟩⟩
  | some provider =>
    cases hans : answerOf ctx idx model provider with
    | error err =>
      rw [serialRung_failed hp hans, settle]
      split
      · exact ⟨_, rfl, rfl, .inl ⟨rfl, rfl, rfl⟩⟩
      · split
        · exact ⟨_, rfl, rfl, .inl ⟨rfl, rfl, rfl⟩⟩
        · exact ⟨_, rfl, rfl, .inl ⟨rfl, rfl, rfl⟩⟩
    | ok resp =>
      rw [serialRung_answered hp hans]
      rcases conclude_cases _ ctx idx _ with h | h <;> rw [h]
      · exact ⟨_, rfl, rfl, .inr ⟨resp, _, rfl, rfl, rfl⟩⟩
      · exact ⟨_, rfl, rfl, .inr ⟨resp, _, rfl, rfl, rfl⟩⟩

/-- What is known of a serial run as long as it has no more than one attempt. -/
inductive Lone (ctx : EnforceCtx ℚ) (s : LoopState ℚ) : Prop
  | fresh (attempts : s.attempts = []) (spent : s.spent = 0) (gates : s.gateCostTotal = 0)
    (best : s.best = none)
  | abstained (a : Attempt ℚ) (attempts : s.attempts = [a]) (spent : s.spent = 0)
    (best : s.best = none)
  | answered (a : Attempt ℚ) (model : String) (resp : ModelResponse) (attempts : s.attempts = [a])
    (rung : ctx.ladder[a.rung]? = some model)
    (spent : s.spent = modelCost ctx model resp + s.gateCostTotal)
    (best : s.best = some (a.rung, resp))
  | several (attempts : 1 < s.attempts.length)

theorem Lone.charge {a : Attempt ℚ} (h : Lone ctx s) (hm : ctx.ladder[idx]? = some model)
    (hcharge : Charge ctx idx model s t a) : Lone ctx t := by
  cases h with
  | fresh attempts spent gates best =>
    have hat : t.attempts = [a] := by rw [hcharge.attempts, attempts, List.nil_append]
    rcases hcharge.charged with ⟨hspent, -, hbest⟩ | ⟨resp, gc, hspent, hgates, hbest⟩
    · exact .abstained a hat (hspent.trans spent) (hbest.trans best)
    · refine .answered a model resp hat (hcharge.rung ▸ hm) ?_ (hcharge.rung ▸ hbest)
      rw [hspent, hgates, spent, gates, zero_add, zero_add]
  | abstained b attempts spent best =>
    exact .several (by simp [hcharge.attempts, attempts])
  | answered b model' resp attempts rung spent best =>
    exact .several (by simp [hcharge.attempts, attempts])
  | several attempts =>
    exact .several (by simp [hcharge.attempts]; omega)

theorem serialLoop_lone (elapsed : Nat → Nat) {rest : List String} (h : Lone ctx s)
    (hrest : rest = rungsFrom ctx idx) : Lone ctx (serialLoop ctx elapsed rest idx s) := by
  induction rest generalizing idx s with
  | nil => exact h
  | cons model rest ih =>
    obtain ⟨hm, -, hnext⟩ := rungsFrom_cons hrest.symm
    obtain ⟨a, hcharge⟩ := serialRung_charge ctx elapsed idx model s
    have hlone := h.charge hm hcharge
    simp only [serialLoop]
    split
    next t heq =>
      rw [heq] at hlone
      exact ih hlone hnext
    next t heq =>
      rw [heq] at hlone
      exact hlone

theorem runEngine_lone (hserial : ctx.speculation = 0) (env : Surroundings)
    (health : GateHealthRegistry ℚ) : Lone ctx (runEngine ctx env health) := by
  rw [runEngine, if_pos hserial]
  exact serialLoop_lone env.elapsed (.fresh rfl rfl rfl rfl) rfl

/-- A second pass comes after an attempt and makes another. -/
theorem runLadder_lone (hserial : ctx.speculation = 0) (first second : Surroundings)
    (health : GateHealthRegistry ℚ) : Lone ctx (runLadder ctx first second health) := by
  cases hretry : retried ctx (runEngine ctx first health).toLadderRun with
  | none =>
    rw [runLadder_once hretry]
    exact runEngine_lone hserial first health
  | some c =>
    obtain ⟨hover, htwice⟩ := runLadder_twice second hretry
    have hsome := List.length_pos_iff.mpr (overflowed_ne_nil hover)
    obtain ⟨⟨idx, hend, -, hran⟩, -⟩ := runEngine_ran ctx first health
    have hwindow : 0 < ctx.maxRungs ∧ 0 < ctx.ladder.length := by
      have hlength := hran.length
      unfold rungEnd at hend
      omega
    have hagain := retry_length hwindow.1 hwindow.2 (runEngine_ran (retryCtx ctx c.request) second
      (runEngine ctx first health).health).1
    rw [htwice]
    exact .several (by simp only [LoopState.append, List.length_append]; omega)

-- ---------------------------------------------------------------------------
-- The receipt
-- ---------------------------------------------------------------------------

/-- Savings are what routing changed: nothing where the only attempt was the
tallest rung, and always measured against the price of the answer there. -/
structure HonestSavings (ctx : EnforceCtx ℚ) (run : Routed ℚ) : Prop where
  unchanged : ∀ a, run.trace.attempts = [a] → a.rung = ctx.ladder.length - 1 →
    run.trace.final.gateCostUsd = 0 → ctx.speculation = 0 →
    run.trace.final.totalCostUsd = run.trace.final.counterfactualBaselineUsd ∧
      run.trace.final.savingsUsd = 0
  baseline : ∀ resp p, run.outcome = .served resp → topPrice ctx = some p →
    run.trace.final.counterfactualBaselineUsd = p.answerCost resp

variable (first second : Surroundings) (health : GateHealthRegistry ℚ) (traceId ts : String)

theorem baseline_unpriced (h : topPrice ctx = none) :
    (routeEnforce ctx first second health traceId ts).trace.final.counterfactualBaselineUsd =
      (runLadder ctx first second health).spent := by
  unfold topPrice at h
  simp [routeEnforce, Trace.recomputeSavings, PriceTable.costUsd, PriceTable.costUsdWithCache, h]

theorem baseline_served {p : ModelPrice ℚ} {rung : Nat} {resp : ModelResponse}
    (h : topPrice ctx = some p) (hbest : (runLadder ctx first second health).best = some (rung, resp)) :
    (routeEnforce ctx first second health traceId ts).trace.final.counterfactualBaselineUsd =
      p.cost resp.inTokens resp.outTokens := by
  have hserve : (serveDecision (runLadder ctx first second health).toLadderRun).2.2.2 =
      (resp.inTokens, resp.outTokens) := by
    rw [serveDecision, hbest]
    cases (runLadder ctx first second health).servedRung <;> rfl
  unfold topPrice at h
  simp [routeEnforce, Trace.recomputeSavings, PriceTable.costUsd, PriceTable.costUsdWithCache, h,
    hserve, costWithCache_uncached]

theorem baseline_failed {p : ModelPrice ℚ} (h : topPrice ctx = some p)
    (hbest : (runLadder ctx first second health).best = none) :
    (routeEnforce ctx first second health traceId ts).trace.final.counterfactualBaselineUsd = 0 := by
  have hserve : (serveDecision (runLadder ctx first second health).toLadderRun).2.2.2 = (0, 0) := by
    rw [serveDecision, hbest]
    cases (runLadder ctx first second health).servedRung <;> rfl
  unfold topPrice at h
  simp [routeEnforce, Trace.recomputeSavings, PriceTable.costUsd, PriceTable.costUsdWithCache, h,
    hserve, costWithCache_uncached, ModelPrice.cost]

theorem served_iff_best (resp : ModelResponse) :
    (routeEnforce ctx first second health traceId ts).outcome = .served resp ↔
      ∃ rung, (runLadder ctx first second health).best = some (rung, resp) := by
  change (serveDecision (runLadder ctx first second health).toLadderRun).1 = _ ↔ _
  rw [serveDecision]
  rcases (runLadder ctx first second health).best with _ | ⟨rung, resp'⟩ <;>
    cases (runLadder ctx first second health).servedRung <;> simp

/-- Of a lone attempt at the tallest rung the total is the baseline, but for the
cached tokens. -/
theorem lone_total {a : Attempt ℚ} (hserial : ctx.speculation = 0)
    (hat : (runLadder ctx first second health).attempts = [a])
    (hrung : a.rung = ctx.ladder.length - 1)
    (hgates : (runLadder ctx first second health).gateCostTotal = 0)
    (hfree : ∀ rung resp p, (runLadder ctx first second health).best = some (rung, resp) →
      topPrice ctx = some p → p.CacheFree resp) :
    (runLadder ctx first second health).spent =
      (routeEnforce ctx first second health traceId ts).trace.final.counterfactualBaselineUsd := by
  cases hprice : topPrice ctx with
  | none => exact (baseline_unpriced first second health traceId ts hprice).symm
  | some p =>
    cases runLadder_lone hserial first second health with
    | fresh attempts => simp [attempts] at hat
    | abstained b attempts spent best =>
      rw [baseline_failed first second health traceId ts hprice best, spent]
    | answered b model resp attempts rung spent best =>
      obtain rfl : b = a := by simpa using attempts.symm.trans hat
      have htop : ctx.ladder.getLast? = some model := by
        rw [List.getLast?_eq_getElem?, ← hrung, rung]
      have hcost : modelCost ctx model resp = p.answerCost resp := by
        unfold topPrice at hprice
        rw [htop, Option.getD_some] at hprice
        simp [modelCost, PriceTable.costUsdWithCache, hprice, ModelPrice.answerCost]
      rw [baseline_served first second health traceId ts hprice best, spent, hgates, add_zero, hcost]
      exact ((cost_eq_answerCost_iff p resp).mpr (hfree _ resp p best hprice)).symm
    | several attempts => simp [hat] at attempts

/-- The savings are right exactly if the answer that is served has no cached
tokens, or they would cost nothing at the tallest rung. -/
theorem honest_savings_iff (ctx : EnforceCtx ℚ) :
    HonestSavings ctx (routeEnforce ctx first second health traceId ts) ↔
      ∀ rung resp p, (runLadder ctx first second health).best = some (rung, resp) →
        topPrice ctx = some p → p.CacheFree resp := by
  constructor
  · intro h rung resp p hbest hprice
    have hserved := (served_iff_best first second health traceId ts resp).mpr ⟨rung, hbest⟩
    have hbaseline := h.baseline resp p hserved hprice
    rw [baseline_served first second health traceId ts hprice hbest] at hbaseline
    exact (cost_eq_answerCost_iff p resp).mp hbaseline
  · intro hfree
    refine ⟨fun a hat hrung hgates hserial => ?_, fun resp p hserved hprice => ?_⟩
    · have htotal := lone_total first second health traceId ts hserial hat hrung hgates hfree
      exact ⟨htotal, sub_eq_zero.mpr htotal.symm⟩
    · obtain ⟨rung, hbest⟩ := (served_iff_best first second health traceId ts resp).mp hserved
      rw [baseline_served first second health traceId ts hprice hbest]
      exact (cost_eq_answerCost_iff p resp).mpr (hfree rung resp p hbest hprice)

/-- An answer to a prompt that is in the provider's cache. -/
def cachedProvider : Provider where
  id := "acme"
  complete _ _ _ := .ok { sampleAnswer "done" with cacheWriteTokens := 190000 }

def cachedCtx : EnforceCtx ℚ :=
  { sampleCtx with
    ladder := ["acme/large"]
    providers := ⟨fun id => if id = "acme" then some cachedProvider else none⟩
    speculation := 0 }

/-- The one attempt of a ladder of one rung loses what its cached tokens cost. -/
theorem cached_attempt_loses :
    ¬ ∀ (ctx : EnforceCtx ℚ) (first second : Surroundings) (health : GateHealthRegistry ℚ)
      (traceId ts : String),
      HonestSavings ctx (routeEnforce ctx first second health traceId ts) := by
  intro h
  have hhonest := h cachedCtx ⟨fun _ => 7, sampleSchedule⟩ ⟨fun _ => 7, sampleSchedule⟩
    sampleHealth "t" "now"
  have hzero := (hhonest.unchanged _ rfl rfl (by decide +kernel) rfl).2
  have hsavings : (routeEnforce cachedCtx ⟨fun _ => 7, sampleSchedule⟩
      ⟨fun _ => 7, sampleSchedule⟩ sampleHealth "t" "now").trace.final.savingsUsd ≠ 0 := by
    decide +kernel
  exact hsavings hzero

end Firstpass
