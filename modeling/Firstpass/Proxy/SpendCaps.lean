import Firstpass.Proxy.ConfigRuns
import Firstpass.Proxy.PassSpend

/-!
# The spend caps of a configuration

A configuration can cap what a request, a session and a day may spend. The proxy compares the
first alone, so the others hold only where the first leaves them no work to do.

Amounts are exact.
-/

namespace Firstpass.SpendCaps

open ConfigFile (Config)

-- ---------------------------------------------------------------------------
-- Requests and what they leave
-- ---------------------------------------------------------------------------

/-- The engine runs of one call of `route_enforce`: a pass, and its condensed retry. -/
def passes (ctx : EnforceCtx ℚ) (first second : Surroundings) (health : GateHealthRegistry ℚ) :
    List (LoopState ℚ) :=
  let run := runEngine ctx first health
  match retried ctx run.toLadderRun with
  | none => [run]
  | some c => [run, runEngine (retryCtx ctx c.request) second run.health]

/-- A request that is enforced. The run of a paired challenger is one of its own, and leaves
no receipt in the ledger. -/
structure Ask where
  ctx : EnforceCtx ℚ
  first : Surroundings
  second : Surroundings
  traceId : String
  ts : String
  recorded : Bool
  /-- The samples that a probe takes once the run is over. -/
  probeCalls : Nat

structure Ledger where
  receipts : List (Trace ℚ)
  health : GateHealthRegistry ℚ

def Ask.routed (ask : Ask) (l : Ledger) : Routed ℚ :=
  routeEnforce ask.ctx ask.first ask.second l.health ask.traceId ask.ts

def Ask.passes (ask : Ask) (l : Ledger) : List (LoopState ℚ) :=
  SpendCaps.passes ask.ctx ask.first ask.second l.health

def Ledger.serve (l : Ledger) (ask : Ask) : Ledger where
  receipts := if ask.recorded then l.receipts ++ [(ask.routed l).trace] else l.receipts
  health := (ask.routed l).health

def Ledger.serveAll (l : Ledger) (asks : List Ask) : Ledger := asks.foldl Ledger.serve l

def spentBy (receipts : List (Trace ℚ)) (p : Trace ℚ → Bool) : ℚ :=
  ((receipts.filter p).map fun t => t.final.totalCostUsd).sum

/-- The recorded spend of the session of a request, before it. -/
def Ledger.sessionSpent (l : Ledger) (ask : Ask) : ℚ :=
  spentBy l.receipts fun t => t.sessionId = ask.ctx.sessionId

/-- The recorded spend of its day. -/
def Ledger.daySpent (day : String → String) (l : Ledger) (ask : Ask) : ℚ :=
  spentBy l.receipts fun t => day t.ts = day ask.ts

-- ---------------------------------------------------------------------------
-- What the caps are for
-- ---------------------------------------------------------------------------

def Under (cap : Option ℚ) (spent : ℚ) : Prop := ∀ c, cap = some c → spent < c

variable (day : String → String) (c : Config ℚ) (l : Ledger) (ask : Ask)

/-- No cap has been reached once `inside` is spent of the request. -/
def AllUnder (inside : ℚ) : Prop :=
  Under c.budget.perRequestUsd inside ∧
    Under c.budget.perSessionUsd (l.sessionSpent ask + inside) ∧
    Under c.budget.perDayUsd (l.daySpent day ask + inside)

/-- A request makes no call at a cap, and where the cap ends its run it returns what the
configuration says. -/
structure Kept : Prop where
  calls : ∀ earlier pass later front j back, ask.passes l = earlier ++ pass :: later →
    pass.log = front ++ .call j :: back →
    AllUnder day c l ask ((earlier.map fun p => p.spent).sum + spentAt pass.attempts front)
  probes : ask.probeCalls ≠ 0 → AllUnder day c l ask (ask.routed l).trace.final.totalCostUsd
  stopped : ∀ p, c.budget.perRequestUsd = some p → p ≤ billTotal (ask.routed l).trace.attempts →
    (ask.routed l).trace.final.servedFrom ≠ .attempt →
    (ask.routed l).trace.final.servedFrom =
      match c.budget.onExhausted with
      | .serveBestAttempt => .bestAttempt
      | .error => .error

/-- A cap that is set has room for one more request at its own cap. -/
def Room (cap : Option ℚ) (spent : ℚ) (perRequest : Option ℚ) : Prop :=
  ∀ c, cap = some c → ∃ p, perRequest = some p ∧ spent + p ≤ c

/-- What has to hold before a request for the caps to be kept in it. -/
structure Meets : Prop where
  positive : ∀ p, c.budget.perRequestUsd = some p → 0 < p
  session : Room c.budget.perSessionUsd (l.sessionSpent ask) c.budget.perRequestUsd
  day : Room c.budget.perDayUsd (l.daySpent day ask) c.budget.perRequestUsd
  policy : c.budget.perRequestUsd ≠ none → c.budget.onExhausted = .serveBestAttempt
  probe : ask.probeCalls ≠ 0 → c.budget.perRequestUsd = none ∧ c.budget.perSessionUsd = none ∧
    c.budget.perDayUsd = none
  quiet : c.budget.perRequestUsd ≠ none → ask.ctx.condense ≠ none → QuietGates ask.ctx

-- ---------------------------------------------------------------------------
-- One request
-- ---------------------------------------------------------------------------

variable {day c l ask}

theorem Room.under {cap : Option ℚ} {spent inside : ℚ} {perRequest : Option ℚ}
    (h : Room cap spent perRequest) (hinside : Under perRequest inside) :
    Under cap (spent + inside) := by
  rintro limit hlimit
  obtain ⟨p, hp, hroom⟩ := h limit hlimit
  have hlt := hinside p hp
  linarith

/-- The cap of a request is compared on every way to a call. -/
theorem passes_under {ctx : EnforceCtx ℚ} {cap : ℚ} (hcap : ctx.budgetPerRequestUsd = some cap)
    (hpos : 0 < cap) (hq : ctx.condense ≠ none → QuietGates ctx) {first second : Surroundings}
    {health : GateHealthRegistry ℚ} {earlier later : List (LoopState ℚ)} {pass : LoopState ℚ}
    (hpass : passes ctx first second health = earlier ++ pass :: later)
    {front back : List ProviderEvent} (hcall : pass.log = front ++ .call j :: back) :
    (earlier.map fun p => p.spent).sum + spentAt pass.attempts front < cap := by
  have hunder (ctx' : EnforceCtx ℚ) (env : Surroundings) (reg : GateHealthRegistry ℚ)
      (hcap' : ctx'.budgetPerRequestUsd = some cap) (heq : pass = runEngine ctx' env reg) :
      spentAt pass.attempts front < cap := by
    obtain ⟨n, s, hcapped, hat, hlog, -⟩ := runEngine_capped hcap' hpos env reg
    rw [heq, hat]
    exact hcapped.calls front j back (by rw [← hlog, ← heq, hcall])
  unfold passes at hpass
  cases hretry : retried ctx (runEngine ctx first health).toLadderRun with
  | none =>
    simp only [hretry] at hpass
    cases earlier with
    | nil =>
      obtain ⟨rfl, -⟩ := List.cons.inj hpass
      simpa using hunder ctx first health hcap rfl
    | cons p earlier => cases earlier <;> cases hpass
  | some cond =>
    simp only [hretry] at hpass
    cases earlier with
    | nil =>
      obtain ⟨rfl, -⟩ := List.cons.inj hpass
      simpa using hunder ctx first health hcap rfl
    | cons p earlier =>
      obtain ⟨rfl, hrest⟩ := List.cons.inj hpass
      cases earlier with
      | nil =>
        -- the retry starts at zero, and the pass before it has cost nothing
        obtain ⟨rfl, -⟩ := List.cons.inj hrest
        have hcondense : ctx.condense ≠ none := by
          rintro hnone
          rw [retried, hnone] at hretry
          cases hretry
        have hover := (runLadder_twice second hretry).1
        have hzero := runEngine_unpaid hcap hpos (hq hcondense) first health hover
        simpa [hzero] using hunder (retryCtx ctx cond.request) second _ hcap rfl
      | cons q earlier => cases earlier <;> cases hrest

theorem billTotal_append (xs ys : List (Attempt ℚ)) :
    billTotal (xs ++ ys) = billTotal xs + billTotal ys := by
  simp [billTotal]

/-- A run without an answer to fall back on has cost nothing. -/
theorem runLadder_unpaid {ctx : EnforceCtx ℚ} {cap : ℚ}
    (hcap : ctx.budgetPerRequestUsd = some cap) (hpos : 0 < cap)
    (hq : ctx.condense ≠ none → QuietGates ctx) {first second : Surroundings}
    {health : GateHealthRegistry ℚ} (hbest : (runLadder ctx first second health).best = none) :
    billTotal (runLadder ctx first second health).attempts = 0 := by
  obtain ⟨n, s, hcapped, hat, -, hsbest, -⟩ := runEngine_capped hcap hpos first health
  cases hretry : retried ctx (runEngine ctx first health).toLadderRun with
  | none =>
    rw [runLadder_once hretry] at hbest ⊢
    rw [hat]
    exact hcapped.best (hsbest ▸ hbest)
  | some cond =>
    obtain ⟨hover, heq⟩ := runLadder_twice second hretry
    have hcondense : ctx.condense ≠ none := by
      rintro hnone
      rw [retried, hnone] at hretry
      cases hretry
    have hcap' : (retryCtx ctx cond.request).budgetPerRequestUsd = some cap := hcap
    obtain ⟨n', s', hcapped', hat', -, hsbest', -⟩ := runEngine_capped hcap' hpos second
      (runEngine ctx first health).health
    have hoverflowed := overflowed_attempts hover
    rw [heq] at hbest ⊢
    have hfirst : billTotal s.attempts = 0 := by
      refine hcapped.unpaid (hq hcondense) ?_
      rwa [← hat]
    have hsecond : billTotal s'.attempts = 0 := hcapped'.best (hsbest' ▸ hbest)
    have happend : ((runEngine ctx first health).append (runEngine (retryCtx ctx cond.request)
        second (runEngine ctx first health).health)).attempts = s.attempts ++ s'.attempts := by
      rw [← hat, ← hat']
      rfl
    rw [happend, billTotal_append, hfirst, hsecond, add_zero]

theorem serveDecision_best {run : LadderRun ℚ} (hbest : run.best ≠ none)
    (h : (serveDecision run).2.1 ≠ .attempt) : (serveDecision run).2.1 = .bestAttempt := by
  obtain ⟨best, hb⟩ := Option.ne_none_iff_exists'.mp hbest
  unfold serveDecision at h ⊢
  rw [hb] at h ⊢
  cases hs : run.servedRung with
  | none => rfl
  | some rung =>
    rw [hs] at h
    exact absurd rfl h

theorem Meets.kept (hm : Meets day c l ask)
    (hctx : ask.ctx.budgetPerRequestUsd = c.budget.perRequestUsd) : Kept day c l ask where
  calls earlier pass later front j back hpass hcall := by
    have hrequest : Under c.budget.perRequestUsd
        ((earlier.map fun p => p.spent).sum + spentAt pass.attempts front) := by
      rintro p hp
      have hset : c.budget.perRequestUsd ≠ none := by
        rw [hp]
        exact Option.some_ne_none p
      exact passes_under (hctx.trans hp) (hm.positive p hp) (hm.quiet hset) hpass hcall
    exact ⟨hrequest, hm.session.under hrequest, hm.day.under hrequest⟩
  probes hprobe := by
    obtain ⟨hrequest, hsession, hday⟩ := hm.probe hprobe
    simp [AllUnder, Under, hrequest, hsession, hday]
  stopped p hp hover hserved := by
    have hset : c.budget.perRequestUsd ≠ none := by
      rw [hp]
      exact Option.some_ne_none p
    rw [hm.policy hset]
    refine serveDecision_best (fun hbest => ?_) hserved
    have hzero := runLadder_unpaid (hctx.trans hp) (hm.positive p hp) (hm.quiet hset) hbest
    have hpos := hm.positive p hp
    have hle : p ≤ 0 := hzero ▸ hover
    exact absurd hpos (not_lt.mpr hle)

-- ---------------------------------------------------------------------------
-- A request that finds no room
-- ---------------------------------------------------------------------------

/-- Two rungs that serve nothing, each at the price of `r` a call. -/
def spendingCtx (budget : Option ℚ) (sessionId : String) (r : ℚ) : EnforceCtx ℚ :=
  { sampleCtx with
    gates := []
    speculation := 0
    serveThreshold := some 2
    budgetPerRequestUsd := budget
    sessionId
    prices := ⟨fun _ => some ⟨r * 50000, 0⟩⟩ }

section spending

variable {budget : Option ℚ} {sessionId : String} {r : ℚ}

theorem spendingCtx_cost (model text : String) :
    modelCost (spendingCtx budget sessionId r) model (sampleAnswer text) = r := by
  simp only [modelCost, spendingCtx, sampleAnswer, PriceTable.costUsdWithCache,
    ModelPrice.costWithCache, ModelPrice.cost]
  norm_num
  ring

theorem conclude_goes_on {s : LoopState ℚ} {ctx : EnforceCtx ℚ} {serve : Bool}
    (hserve : serve = false) (hover : overBudget ctx s.spent = false) :
    s.conclude ctx idx serve = (s, .next) := by
  simp [LoopState.conclude, hserve, hover]

theorem spendingCtx_provider (name : String)
    (hparse : ModelRef.parse model = .ok ⟨"acme", name⟩) :
    resolveProvider (spendingCtx budget sessionId r) model = some sampleProvider := by
  simp [resolveProvider, hparse, spendingCtx, sampleCtx]

theorem spendingCtx_rung (hunder : Under budget r) (elapsed : Nat → Nat)
    (health : GateHealthRegistry ℚ) :
    ∃ s : LoopState ℚ,
      serialRung (spendingCtx budget sessionId r) elapsed 0 "acme/small" (.init health) =
        (s, .next) ∧
      s.elastic = none ∧ s.log = [.call 0, .answer 0 (.ok (sampleAnswer ""))] ∧
      ∃ a, s.attempts = [a] ∧ a.rung = 0 ∧ a.billUsd = r := by
  have hp : resolveProvider (spendingCtx budget sessionId r) "acme/small" = some sampleProvider :=
    spendingCtx_provider "small" (by decide +kernel)
  have hans : answerOf (spendingCtx budget sessionId r) 0 "acme/small" sampleProvider =
      .ok (sampleAnswer "") := rfl
  have hcost : modelCost (spendingCtx budget sessionId r) "acme/small" (sampleAnswer "") = r :=
    spendingCtx_cost _ _
  have hserve : shouldServe (F := ℚ) (some 2) [] .pass = false := by decide +kernel
  have hover : overBudget (spendingCtx budget sessionId r) (0 + r + 0) = false := by
    cases budget with
    | none => rfl
    | some p =>
      have hlt := hunder p rfl
      simpa [overBudget, spendingCtx] using hlt
  rw [serialRung_eq rfl rfl hp, hans]
  let t : LoopState ℚ :=
    { ((LoopState.init health).logged [.call 0, .answer 0 (.ok (sampleAnswer ""))]).gated 0
        "acme/small" sampleProvider.id (sampleAnswer "") (elapsed 0)
        (modelCost (spendingCtx budget sessionId r) "acme/small" (sampleAnswer "")) [] .pass with
      health }
  have hspent : t.spent = 0 + r + 0 := by
    rw [← hcost]
    rfl
  refine ⟨t, conclude_goes_on hserve (hspent ▸ hover), rfl, rfl, _, rfl, rfl, ?_⟩
  exact (congrArg (· + 0) hcost).trans (add_zero r)

/-- Under its own cap, the request goes on to the second rung when it has spent `r`. -/
theorem spendingCtx_calls (hunder : Under budget r) (env : Surroundings)
    (health : GateHealthRegistry ℚ) :
    ∃ back, (runEngine (spendingCtx budget sessionId r) env health).log =
        [.call 0, .answer 0 (.ok (sampleAnswer ""))] ++ .call 1 :: back ∧
      spentAt (runEngine (spendingCtx budget sessionId r) env health).attempts
        [.call 0, .answer 0 (.ok (sampleAnswer ""))] = r := by
  obtain ⟨s, hrung, hel, hlog, a, hat, ha, hbill⟩ :
      ∃ s : LoopState ℚ, serialRung (spendingCtx budget sessionId r) env.elapsed 0 "acme/small"
        (.init health) = (s, .next) ∧ _ := spendingCtx_rung hunder env.elapsed health
  have hp : resolveProvider (spendingCtx budget sessionId r) "acme/large" = some sampleProvider :=
    spendingCtx_provider "large" (by decide +kernel)
  have hrun : runEngine (spendingCtx budget sessionId r) env health =
      serialLoop (spendingCtx budget sessionId r) env.elapsed ["acme/small", "acme/large"] 0
        (.init health) := rfl
  have hlast : serialLoop (spendingCtx budget sessionId r) env.elapsed ["acme/large"] 1 s =
      (serialRung (spendingCtx budget sessionId r) env.elapsed 1 "acme/large" s).1 := by
    rw [serialLoop]
    split <;> simp_all [serialLoop]
  rw [hrun, serialLoop, hrung]
  dsimp only
  rw [hlast, serialRung_eq rfl hel hp]
  generalize answerOf (spendingCtx budget sessionId r) 1 "acme/large" sampleProvider = answer
  obtain ⟨hframe, -, b, hb, hattempts⟩ := settle_frame (spendingCtx budget sessionId r) 1
    "acme/large" sampleProvider.id answer (env.elapsed 1)
    (s.logged [.call 1, .answer 1 answer])
  refine ⟨[.answer 1 answer], ?_, ?_⟩
  · rw [hframe]
    simp [LoopState.logged, hlog]
  · rw [hattempts]
    simp [LoopState.logged, hat, spentAt, answered, ha, hb, billTotal, hbill]

end spending

/-- Where there is no room, a request may spend what is left and be under its own cap still. -/
theorem exists_spend {cap perRequest : Option ℚ} {spent : ℚ}
    (hpos : ∀ p, perRequest = some p → 0 < p) (h : ¬Room cap spent perRequest) :
    ∃ r, Under perRequest r ∧ ¬Under cap (spent + r) := by
  simp only [Room, not_forall] at h
  obtain ⟨limit, hlimit, hno⟩ := h
  refine ⟨max 0 (limit - spent), fun p hp => max_lt (hpos p hp) ?_, fun hunder => ?_⟩
  · have hfull : ¬spent + p ≤ limit := fun hle => hno ⟨p, hp, hle⟩
    linarith
  · have hlt := hunder limit hlimit
    have hle := le_max_right 0 (limit - spent)
    linarith

def spendingAsk (c : Config ℚ) (sessionId ts : String) (r : ℚ) : Ask where
  ctx := spendingCtx c.budget.perRequestUsd sessionId r
  first := ⟨fun _ => 7, sampleSchedule⟩
  second := ⟨fun _ => 7, sampleSchedule⟩
  traceId := ""
  ts := ts
  recorded := true
  probeCalls := 0

theorem spendingAsk_calls {sessionId ts : String} {r : ℚ} (hunder : Under c.budget.perRequestUsd r)
    (hkept : Kept day c l (spendingAsk c sessionId ts r)) :
    AllUnder day c l (spendingAsk c sessionId ts r) r := by
  have hpasses : (spendingAsk c sessionId ts r).passes l =
      [runEngine (spendingCtx c.budget.perRequestUsd sessionId r)
        (spendingAsk c sessionId ts r).first l.health] := rfl
  obtain ⟨back, hlog, hspent⟩ : ∃ back, (runEngine (spendingCtx c.budget.perRequestUsd sessionId r)
      (spendingAsk c sessionId ts r).first l.health).log = _ ++ .call 1 :: back ∧ _ :=
    spendingCtx_calls hunder (spendingAsk c sessionId ts r).first l.health
  generalize runEngine (spendingCtx c.budget.perRequestUsd sessionId r)
    (spendingAsk c sessionId ts r).first l.health = pass at hpasses hlog hspent
  have hcalls := hkept.calls [] pass [] _ 1 back hpasses hlog
  rwa [hspent, List.map_nil, List.sum_nil, zero_add] at hcalls

/-- Room is what has to be asked for: if every request of a session and a day keeps the caps,
they have room for one at its own cap. -/
theorem room_of_kept (hpos : ∀ p, c.budget.perRequestUsd = some p → 0 < p)
    (h : ∀ ask' : Ask, ask'.ctx.sessionId = ask.ctx.sessionId → ask'.ts = ask.ts →
      ask'.ctx.budgetPerRequestUsd = c.budget.perRequestUsd → ask'.probeCalls = 0 →
      ask'.ctx.condense = none → Kept day c l ask') :
    Room c.budget.perSessionUsd (l.sessionSpent ask) c.budget.perRequestUsd ∧
      Room c.budget.perDayUsd (l.daySpent day ask) c.budget.perRequestUsd := by
  constructor
  · by_contra hno
    obtain ⟨r, hunder, hover⟩ := exists_spend hpos hno
    exact hover (spendingAsk_calls hunder
      (h (spendingAsk c ask.ctx.sessionId ask.ts r) rfl rfl rfl rfl rfl)).2.1
  · by_contra hno
    obtain ⟨r, hunder, hover⟩ := exists_spend hpos hno
    exact hover (spendingAsk_calls hunder
      (h (spendingAsk c ask.ctx.sessionId ask.ts r) rfl rfl rfl rfl rfl)).2.2

-- ---------------------------------------------------------------------------
-- A run of requests
-- ---------------------------------------------------------------------------

/-- The caps are kept throughout a run whose requests each find room for themselves, and
without the room some request would break them. -/
theorem caps_kept (asks : List Ask)
    (hctx : ∀ ask ∈ asks, ask.ctx.budgetPerRequestUsd = c.budget.perRequestUsd)
    (hmeets : ∀ earlier ask later, asks = earlier ++ ask :: later →
      Meets day c (l.serveAll earlier) ask) :
    (∀ earlier ask later, asks = earlier ++ ask :: later →
      Kept day c (l.serveAll earlier) ask) ∧
    ∀ reached ask, (∀ p, c.budget.perRequestUsd = some p → 0 < p) →
      (∀ ask' : Ask, ask'.ctx.sessionId = ask.ctx.sessionId → ask'.ts = ask.ts →
        ask'.ctx.budgetPerRequestUsd = c.budget.perRequestUsd → ask'.probeCalls = 0 →
        ask'.ctx.condense = none → Kept day c reached ask') →
      Room c.budget.perSessionUsd (reached.sessionSpent ask) c.budget.perRequestUsd ∧
        Room c.budget.perDayUsd (reached.daySpent day ask) c.budget.perRequestUsd := by
  refine ⟨?_, fun reached ask hpos hkept => room_of_kept hpos hkept⟩
  rintro earlier ask later rfl
  refine (hmeets earlier ask later rfl).kept (hctx ask ?_)
  exact List.mem_append_right _ List.mem_cons_self

-- ---------------------------------------------------------------------------
-- A session at its cap, and a policy that is not read
-- ---------------------------------------------------------------------------

def cappedConfig (budget : ConfigFile.Budget ℚ) : Config ℚ :=
  { ConfigFile.ladderConfig ["openai/gpt-4.1-mini", "openai/gpt-5.5"] with budget }

def sampleAsk (budget : ConfigFile.Budget ℚ) : Ask where
  ctx := { sampleCtx with budgetPerRequestUsd := budget.perRequestUsd, speculation := 0 }
  first := ⟨fun _ => 7, sampleSchedule⟩
  second := ⟨fun _ => 7, sampleSchedule⟩
  traceId := "t"
  ts := "2026-01-01T00:00:00Z"
  recorded := true
  probeCalls := 0

def noReceipts : Ledger := ⟨[], sampleHealth⟩

def date (ts : String) : String := String.ofList (ts.toList.take 10)

def sessionCap : ConfigFile.Budget ℚ := ⟨none, some 0.0001, none, .serveBestAttempt⟩

def errorPolicy : ConfigFile.Budget ℚ := ⟨some 0.0001, none, none, .error⟩

/-- The log begins with a call of the first rung. -/
def beginsWithCall (log : List ProviderEvent) : Bool :=
  match log with
  | .call 0 :: _ => true
  | _ => false

theorem beginsWithCall_iff {log : List ProviderEvent} (h : beginsWithCall log = true) :
    log = [] ++ .call 0 :: log.tail := by
  unfold beginsWithCall at h
  split at h
  · rfl
  · cases h

/-- A second request of a session is called for at the cap of the session, and a request that
its own cap ends is answered where the configuration asks for an error. -/
theorem caps_not_kept :
    (Config.parse ConfigFile.sampleStd (fun _ => .ok (cappedConfig sessionCap)) "" =
        .ok (cappedConfig sessionCap) ∧
      ¬Kept date (cappedConfig sessionCap) (noReceipts.serve (sampleAsk sessionCap))
        (sampleAsk sessionCap)) ∧
    (Config.parse ConfigFile.sampleStd (fun _ => .ok (cappedConfig errorPolicy)) "" =
        .ok (cappedConfig errorPolicy) ∧
      ¬Kept date (cappedConfig errorPolicy) noReceipts (sampleAsk errorPolicy)) := by
  refine ⟨⟨ConfigFile.parse_of_validate rfl (by decide +kernel), fun h => ?_⟩,
    ConfigFile.parse_of_validate rfl (by decide +kernel), fun h => ?_⟩
  · have hbegins : beginsWithCall (runEngine (sampleAsk sessionCap).ctx (sampleAsk sessionCap).first
        (noReceipts.serve (sampleAsk sessionCap)).health).log = true := by decide +kernel
    obtain ⟨-, hsession, -⟩ := h.calls [] _ [] [] 0 _ rfl (beginsWithCall_iff hbegins)
    have hreached : ¬(noReceipts.serve (sampleAsk sessionCap)).sessionSpent (sampleAsk sessionCap) +
        (([] : List ℚ).sum + 0) < 0.0001 := by decide +kernel
    exact hreached (hsession 0.0001 rfl)
  · have hstopped := h.stopped 0.0001 rfl (by decide +kernel) (by decide +kernel)
    have hbest : ((sampleAsk errorPolicy).routed noReceipts).trace.final.servedFrom =
        .bestAttempt := by decide +kernel
    rw [hbest] at hstopped
    cases hstopped

/-- A session cap that leaves room for a request at its cap is kept. -/
def roomyCaps : ConfigFile.Budget ℚ := ⟨some 0.0001, some 1, none, .serveBestAttempt⟩

theorem roomyCaps_meets {l : Ledger} (h : l.sessionSpent (sampleAsk roomyCaps) + 0.0001 ≤ 1) :
    Meets date (cappedConfig roomyCaps) l (sampleAsk roomyCaps) where
  positive p hp := by
    cases hp
    norm_num
  session limit hlimit := by
    cases hlimit
    exact ⟨0.0001, rfl, h⟩
  day limit hlimit := by cases hlimit
  policy _ := rfl
  probe h := absurd rfl h
  quiet _ h := absurd rfl h

theorem caps_kept_sample :
    Kept date (cappedConfig roomyCaps) (noReceipts.serveAll [sampleAsk roomyCaps])
      (sampleAsk roomyCaps) := by
  refine (caps_kept [sampleAsk roomyCaps, sampleAsk roomyCaps]
    (by simp [sampleAsk, cappedConfig]) (fun earlier ask later h => ?_)).1
    [sampleAsk roomyCaps] _ [] rfl
  cases earlier with
  | nil =>
    obtain ⟨rfl, -⟩ := List.cons.inj h
    exact roomyCaps_meets (by decide +kernel)
  | cons first earlier =>
    obtain ⟨rfl, hrest⟩ := List.cons.inj h
    cases earlier with
    | nil =>
      obtain ⟨rfl, -⟩ := List.cons.inj hrest
      exact roomyCaps_meets (by decide +kernel)
    | cons second earlier => cases earlier <;> cases hrest

end Firstpass.SpendCaps
