import Firstpass.Proxy.CacheSystem
import Firstpass.Proxy.Learning
import Firstpass.Proxy.Passthrough
import Firstpass.Proxy.ReceiptExport

/-!
# The warm start

A live process learns from the ladders it runs, on the incumbent arm. A process that starts
learns from every stored receipt that is not of the challenger arm, and so also from the
requests that were passed through, whose one attempt is marked as a pass although no gate
ran.
-/

namespace Firstpass.WarmStart

open Bandit DiscountedCount ResponseCache
open Passthrough (Forwarded Settings Upstream relayed)
open Store (Row StoreEnv loadAllTraces)

variable {F : Type} [F64 F] {G : Type} [Field G] [LinearOrder G] [Analytic G]

-- ---------------------------------------------------------------------------
-- A history of requests
-- ---------------------------------------------------------------------------

/-- A request that was handled: its ladder ran, its answer was replayed from the cache, or it
was passed through. -/
inductive Call (F : Type) [F64 F]
  | ladder (ctx : EnforceCtx F) (first second : Surroundings) (health : GateHealthRegistry F)
      (traceId ts : String) (stamps : Stamps F)
  | replay (ctx : EnforceCtx F) (entry : Entry F) (traceId ts : String)
      (experiment : Option (Nat × ExperimentRecord F))
  | passthrough (r : Forwarded) (upstream : Upstream)

def Call.receipt (s : Settings F) : Call F → Trace F
  | .ladder ctx first second health traceId ts stamps =>
    stamps.apply (routeEnforce ctx first second health traceId ts).trace
  | .replay ctx entry traceId ts experiment =>
    stampReplay experiment (cacheHitTrace ctx entry traceId ts)
  | .passthrough r upstream => Passthrough.receipt s r upstream

def onChallenger (experiment : Option (ExperimentRecord F)) : Bool :=
  experiment.any fun rec => rec.arm = .challenger

-- ---------------------------------------------------------------------------
-- The live process and the one that starts
-- ---------------------------------------------------------------------------

/-- What a live process learns from a request. -/
def Learners.handle (s : Learners G) : Call F → Learners G
  | .ladder ctx first second health traceId ts stamps =>
    let trace := stamps.apply (routeEnforce ctx first second health traceId ts).trace
    if onChallenger stamps.experiment then s
    else s.learn (.fromFeatures ctx.features) trace.request.features trace.attempts
  | .replay .. => s
  | .passthrough .. => s

def live (cfg : Config G) (history : List (Call F)) : Learners G :=
  history.foldl Learners.handle (.fresh cfg)

/-- What a process that starts learns from a stored receipt. -/
def Learners.feed (s : Learners G) (t : Trace F) : Learners G :=
  if onChallenger t.experiment then s
  else s.learn (.fromFeatures t.request.features) t.request.features t.attempts

/-- A store that cannot be read is as good as an empty one. -/
def warmStart (env : StoreEnv F) (cfg : Config G) (rows : List Row) : Learners G :=
  match loadAllTraces env rows with
  | .ok traces => traces.foldl Learners.feed (.fresh cfg)
  | .error _ => .fresh cfg

/-- The rows hold the receipts, whatever link the writer has given them. -/
def Stored (env : StoreEnv F) (rows : List Row) (receipts : List (Trace F)) : Prop :=
  ∃ links : List String, links.length = receipts.length ∧
    List.Forall₂ (Row.Holds env) rows (List.zipWith Trace.withPrevHash receipts links)

theorem Stored.nil (env : StoreEnv F) : Stored env [] [] := ⟨[], rfl, .nil⟩

/-- The writer makes it so, one receipt at a time. -/
theorem Stored.write {env : StoreEnv F} {rows rows' : List Row} {receipts : List (Trace F)}
    {t : Trace F} {head head' : String} (h : Stored env rows receipts) (ht : env.offered t)
    (hw : Store.writeTrace env .none rows head t = some (rows', head')) :
    Stored env rows' (receipts ++ [t]) := by
  obtain ⟨links, hlength, hrows⟩ := h
  obtain ⟨hhash, rfl⟩ := Store.writeTrace_some hw
  refine ⟨links ++ [head], by simp [hlength], ?_⟩
  rw [List.zipWith_append hlength.symm]
  exact List.rel_append hrows (.cons ⟨rfl, env.roundTrip t ht head, hhash⟩ .nil)

/-- The counts of the two bandits and the examples of the two predictors are the same. -/
structure Agree (s s' : Learners G) : Prop where
  counts : (s.bandit.map fun b => b.counts) = s'.bandit.map fun b => b.counts
  given : s.predictor.map Predictor.given = s'.predictor.map Predictor.given

-- ---------------------------------------------------------------------------
-- Examples of a history
-- ---------------------------------------------------------------------------

/-- The examples that a receipt is read as. -/
def stored (t : Trace F) : List Example :=
  if onChallenger t.experiment then [] else examples t.request.features t.attempts

/-- The examples of a call that a live process does not learn. -/
def extra (s : Settings F) : Call F → List Example
  | .passthrough r upstream =>
    if relayed s upstream then
      [⟨(Passthrough.receipt s r upstream).request.features, 0, true⟩]
    else []
  | _ => []

/-- The examples of a call that it does learn. -/
def learnt (s : Settings F) : Call F → List Example
  | .passthrough .. => []
  | call => stored (call.receipt s)

theorem stored_passthrough (s : Settings F) (r : Forwarded) (upstream : Upstream) :
    stored (Passthrough.receipt s r upstream) = extra s (.passthrough r upstream) := by
  cases upstream with
  | unreachable => rfl
  | buffered success resp => cases success <;> rfl
  | streamed success chunks reason =>
    cases success with
    | false => rfl
    | true =>
      simp only [extra, relayed, Passthrough.receipt, Bool.true_and]
      cases Passthrough.streamOutcome (TokenUsage.sseUsage s.fromSlice chunks) reason <;> rfl

/-- A receipt is read as what was learnt and the rest. -/
theorem stored_receipt (s : Settings F) (call : Call F) :
    stored (call.receipt s) = learnt s call ++ extra s call := by
  cases call with
  | ladder => exact (List.append_nil _).symm
  | replay => exact (List.append_nil _).symm
  | passthrough r upstream => exact stored_passthrough s r upstream

theorem handle_eq (s : Settings F) (ls : Learners G) (call : Call F) :
    ls.handle call = ls.teach (learnt s call) := by
  cases call with
  | ladder ctx first second health traceId ts stamps =>
    simp only [Learners.handle, learnt, stored, Call.receipt]
    split
    next h => simp [Stamps.apply, h]
    next h =>
      have hfeatures : ctx.features =
        (stamps.apply (routeEnforce ctx first second health traceId ts).trace).request.features := rfl
      rw [hfeatures, learn_eq]
      simp [Stamps.apply, h]
  | replay ctx entry traceId ts experiment =>
    have hnone : stored (Call.receipt s (.replay ctx entry traceId ts experiment)) = [] := by
      cases experiment <;> exact ite_self []
    show ls = ls.teach (stored (Call.receipt s (.replay ctx entry traceId ts experiment)))
    rw [hnone, teach_nil]
  | passthrough => simp [Learners.handle, learnt]

theorem feed_eq (ls : Learners G) (t : Trace F) : ls.feed t = ls.teach (stored t) := by
  unfold Learners.feed stored
  split
  · simp
  · exact learn_eq ls _ _

theorem live_eq (s : Settings F) (cfg : Config G) (history : List (Call F)) :
    live cfg history = (Learners.fresh cfg).teach (history.flatMap (learnt s)) := by
  unfold live
  generalize Learners.fresh cfg = ls
  induction history generalizing ls with
  | nil => simp
  | cons call history ih =>
    rw [List.foldl_cons, ih, handle_eq s, List.flatMap_cons, teach_append]

theorem warmStart_eq {env : StoreEnv F} {rows : List Row} {receipts : List (Trace F)}
    (h : Stored env rows receipts) (cfg : Config G) :
    warmStart env cfg rows = (Learners.fresh cfg).teach (receipts.flatMap stored) := by
  obtain ⟨links, hlength, hrows⟩ := h
  rw [warmStart, Store.loadAllTraces_ok hrows]
  show (List.zipWith Trace.withPrevHash receipts links).foldl Learners.feed (.fresh cfg) = _
  clear hrows
  generalize Learners.fresh cfg = ls
  induction receipts generalizing links ls with
  | nil => simp
  | cons t receipts ih =>
    cases links with
    | nil => cases hlength
    | cons link links =>
      have hlink : stored (t.withPrevHash link) = stored t := rfl
      rw [List.zipWith_cons_cons, List.foldl_cons, ih links (Nat.succ.inj hlength), feed_eq, hlink,
        List.flatMap_cons, teach_append]

-- ---------------------------------------------------------------------------
-- One more pass
-- ---------------------------------------------------------------------------

theorem hits_append (ctx : ContextBucket) (rung : Nat) (es es' : List Example) :
    hits ctx rung (es ++ es') = hits ctx rung es ++ hits ctx rung es' := by
  simp [hits]

theorem hits_flatMap {α : Type} (ctx : ContextBucket) (rung : Nat) (f : α → List Example)
    (xs : List α) : hits ctx rung (xs.flatMap f) = xs.flatMap fun x => hits ctx rung (f x) := by
  simp [hits, List.filter_flatMap, List.map_flatMap]

/-- What is read but not learnt is a pass of rung 0. -/
theorem padded_extra (s : Settings F) (ctx : ContextBucket) (call : Call F) :
    Padded [] (hits ctx 0 (extra s call)) := by
  cases call with
  | ladder => exact .nil
  | replay => exact .nil
  | passthrough r upstream =>
    simp only [extra, hits]
    split
    · rw [List.filter_cons]
      split
      · exact .extra .nil
      · exact .nil
    · exact .nil

theorem padded_hits (s : Settings F) (ctx : ContextBucket) (history : List (Call F)) :
    Padded (hits ctx 0 (history.flatMap (learnt s)))
      (hits ctx 0 (history.flatMap fun call => stored (call.receipt s))) := by
  rw [hits_flatMap, hits_flatMap]
  refine Padded.flatMap history fun call _ => ?_
  rw [stored_receipt, hits_append]
  simpa using (Padded.refl (hits ctx 0 (learnt s call))).append (padded_extra s ctx call)

theorem length_flatMap_lt {α β : Type} {f g : α → List β} {xs : List α}
    (hle : ∀ x ∈ xs, (f x).length ≤ (g x).length) (hlt : ∃ x ∈ xs, (f x).length < (g x).length) :
    (xs.flatMap f).length < (xs.flatMap g).length := by
  simp only [List.length_flatMap]
  exact List.sum_lt_sum _ _ hle hlt

/-- A request that was passed through to its end is read as a pass of its context. -/
theorem length_hits_lt {s : Settings F} {r : Forwarded} {upstream : Upstream}
    {history : List (Call F)} (hmem : .passthrough r upstream ∈ history)
    (hrelayed : relayed s upstream = true) :
    ∃ ctx, (hits ctx 0 (history.flatMap (learnt s))).length <
      (hits ctx 0 (history.flatMap fun call => stored (call.receipt s))).length := by
  let features := (Passthrough.receipt s r upstream).request.features
  refine ⟨.fromFeatures features, ?_⟩
  rw [hits_flatMap, hits_flatMap]
  refine length_flatMap_lt (fun call _ => ?_) ⟨_, hmem, ?_⟩
  · simp [stored_receipt, hits_append]
  · simp [stored_receipt, learnt, extra, hrelayed, hits, inContext, features]

theorem length_examples_lt {s : Settings F} {r : Forwarded} {upstream : Upstream}
    {history : List (Call F)} (hmem : .passthrough r upstream ∈ history)
    (hrelayed : relayed s upstream = true) :
    (history.flatMap (learnt s)).length <
      (history.flatMap fun call => stored (call.receipt s)).length := by
  refine length_flatMap_lt (fun call _ => ?_) ⟨_, hmem, ?_⟩
  · simp [stored_receipt]
  · simp [stored_receipt, learnt, extra, hrelayed]

theorem flatMap_stored {s : Settings F} {history : List (Call F)}
    (h : ∀ r upstream, .passthrough r upstream ∈ history → relayed s upstream = false) :
    (history.flatMap fun call => stored (call.receipt s)) = history.flatMap (learnt s) := by
  refine List.flatMap_congr fun call hmem => ?_
  rw [stored_receipt]
  cases call with
  | ladder => exact List.append_nil _
  | replay => exact List.append_nil _
  | passthrough r upstream => simp [learnt, extra, h r upstream hmem]

variable [IsStrictOrderedRing G]

/-- A configured learner tells the two apart. -/
theorem not_agree {s : Settings F} {cfg : Config G} {r : Forwarded} {upstream : Upstream}
    {history : List (Call F)} (hcfg : ¬ (cfg.bandit = none ∧ cfg.predictor = none))
    (hmem : .passthrough r upstream ∈ history) (hrelayed : relayed s upstream = true) :
    ¬ Agree ((Learners.fresh cfg).teach (history.flatMap (learnt s)))
      ((Learners.fresh cfg).teach (history.flatMap fun call => stored (call.receipt s))) := by
  rintro ⟨hcounts, hgiven⟩
  cases hbandit : cfg.bandit with
  | some settings =>
    obtain ⟨minObservations, exploration, discount⟩ := settings
    obtain ⟨hpos, hle⟩ := discount_new minObservations exploration discount
    obtain ⟨ctx, hlength⟩ := length_hits_lt hmem hrelayed
    have hlt := count_lt hpos hle (padded_hits s ctx history) hlength (p := 0) (by simp)
    simp only [Learners.teach, Learners.fresh, hbandit, Option.map_some, Option.some.injEq]
      at hcounts
    have hpass := congrArg (fun counts => (counts ctx 0).1) hcounts
    simp only [pass_teach hle] at hpass
    exact hlt.ne hpass
  | none =>
    cases hpredictor : cfg.predictor with
    | none => exact hcfg ⟨hbandit, hpredictor⟩
    | some settings =>
      have hlength := length_examples_lt hmem hrelayed
      simp only [Learners.teach, Learners.fresh, hpredictor, Option.map_some, given_teach,
        Option.some.injEq, List.nil_append] at hgiven
      exact hlength.ne (congrArg List.length hgiven)

/-- A process that starts knows what the one before it has learnt, unless a request was passed
through to its end. -/
theorem warm_start_iff (s : Settings F) (env : StoreEnv F) (cfg : Config G)
    (history : List (Call F)) (rows : List Row)
    (hstored : Stored env rows (history.map (Call.receipt s))) :
    Agree (live cfg history) (warmStart env cfg rows) ↔
      (cfg.bandit = none ∧ cfg.predictor = none) ∨
        ∀ r upstream, .passthrough r upstream ∈ history → relayed s upstream = false := by
  rw [live_eq s, warmStart_eq hstored, List.flatMap_map]
  constructor
  · intro hagree
    by_contra hneither
    obtain ⟨hcfg, hrelayed⟩ := not_or.mp hneither
    refine hrelayed fun r upstream hmem => ?_
    by_contra hended
    exact not_agree hcfg hmem (by simpa using hended) hagree
  · rintro (⟨hbandit, hpredictor⟩ | hnone)
    · constructor <;> simp [Learners.teach, Learners.fresh, hbandit, hpredictor]
    · rw [flatMap_stored hnone]
      exact ⟨rfl, rfl⟩

-- ---------------------------------------------------------------------------
-- A store with one receipt
-- ---------------------------------------------------------------------------

def sampleSettings : Settings ℚ where
  tenantId := "tenant-a"
  promptSalt := "salt"
  prices := ⟨fun _ => none⟩
  sha256 := id
  fromSlice _ := none

def sampleForwarded : Forwarded where
  body := ⟨[], none⟩
  latencyMs := 12
  sessionHeader := none
  tenant := "tenant-a"
  provider := "anthropic"
  api := "anthropic.messages"
  modelHint := none
  traceId := Store.sampleId
  ts := "2026-01-01T00:00:00Z"
  hourBucket := 0

noncomputable def sampleConfig : Config ℝ := ⟨some (20, 1, 1), some (0.1, 0)⟩

def sampleReader : StoreEnv ℚ :=
  ReceiptExport.readerEnv ReceiptExport.integralTexts_floatsReadBack .bestEffort id id

def sampleHistory (upstream : Upstream) : List (Call ℚ) := [.passthrough sampleForwarded upstream]

def sampleReceipt (upstream : Upstream) : Trace ℚ :=
  (Passthrough.receipt sampleSettings sampleForwarded upstream).withPrevHash HashChain.genesisHash

def sampleRows (upstream : Upstream) : List Row :=
  Store.insert [] (sampleReceipt upstream) (Json.canonicalJson (sampleReceipt upstream).toValue)

theorem stored_sample {upstream : Upstream}
    (h : (Passthrough.receipt sampleSettings sampleForwarded upstream).Fits
      ReceiptExport.integralTexts) :
    Stored sampleReader (sampleRows upstream)
      ((sampleHistory upstream).map (Call.receipt sampleSettings)) :=
  (Stored.nil sampleReader).write h (Store.writeTrace_none sampleReader [] HashChain.genesisHash _)

/-- A model without a price costs nothing. -/
def sampleCost : ℚ :=
  Passthrough.observedCost sampleSettings.prices "anthropic" "unknown" none .zero

theorem finite_sampleCost : Finite sampleCost := by
  have hcost : sampleCost = 0 := by
    simp [sampleCost, sampleSettings, Passthrough.observedCost, Passthrough.priceOf,
      PriceTable.costUsdWithCache, Except.toOption]
  exact hcost ▸ ReceiptExport.finite_zero

theorem finite_sub_self (x : ℚ) : Finite (x - x) := by
  simp [ReceiptExport.finite_zero]

theorem unreachable_fits : (Passthrough.receipt sampleSettings sampleForwarded .unreachable).Fits
    ReceiptExport.integralTexts where
  traceId := rfl
  ts := rfl
  policy := ⟨by rintro _ ⟨⟩⟩
  features := by constructor <;> decide
  attempts := by rintro _ ⟨⟩
  deferred := by rintro _ ⟨⟩
  final :=
    { servedRung := by rintro _ ⟨⟩
      totalCostUsd := ReceiptExport.finite_zero
      gateCostUsd := ReceiptExport.finite_zero
      totalLatencyMs := by decide
      escalations := by decide
      counterfactualBaselineUsd := ReceiptExport.finite_zero
      cacheSource := by rintro _ ⟨⟩
      savingsUsd := finite_sub_self 0 }
  probe := by rintro _ ⟨⟩
  rollout := by rintro _ ⟨⟩
  shadow := by rintro _ ⟨⟩
  routeIx := by rintro _ ⟨⟩
  predictedPass := by rintro _ ⟨⟩
  decisionPrior := by rintro _ ⟨⟩
  elastic := by rintro _ ⟨⟩
  risk := by rintro _ ⟨⟩
  experiment := by rintro _ ⟨⟩

/-- A reply without usage. -/
def emptyReply : Upstream := .buffered true ⟨[], none⟩

theorem attempts_emptyReply :
    (Passthrough.receipt sampleSettings sampleForwarded emptyReply).attempts =
      [⟨0, "unknown", "anthropic", 0, 0, 0, 0, sampleCost, 12, [], .pass, false⟩] := rfl

theorem final_emptyReply :
    (Passthrough.receipt sampleSettings sampleForwarded emptyReply).final =
      ⟨some 0, .attempt, sampleCost, 0, 12, 0, sampleCost, none, sampleCost - sampleCost⟩ := rfl

theorem emptyReply_fits : (Passthrough.receipt sampleSettings sampleForwarded emptyReply).Fits
    ReceiptExport.integralTexts :=
  { unreachable_fits with
    attempts := by
      rw [attempts_emptyReply]
      rintro a ha
      obtain rfl := List.mem_singleton.mp ha
      exact ⟨by decide, by decide, by decide, by decide, by decide, finite_sampleCost, by decide,
        by rintro _ ⟨⟩⟩
    final := by
      rw [final_emptyReply]
      exact
        { servedRung := by rintro _ ⟨⟩; decide
          totalCostUsd := finite_sampleCost
          gateCostUsd := ReceiptExport.finite_zero
          totalLatencyMs := by decide
          escalations := by decide
          counterfactualBaselineUsd := finite_sampleCost
          cacheSource := by rintro _ ⟨⟩
          savingsUsd := finite_sub_self _ } }

theorem warm_start_iff_sample :
    Agree (live sampleConfig (sampleHistory .unreachable))
      (warmStart sampleReader sampleConfig (sampleRows .unreachable)) := by
  refine (warm_start_iff sampleSettings sampleReader sampleConfig _ _
    (stored_sample unreachable_fits)).mpr (.inr ?_)
  rintro r upstream hmem
  cases List.mem_singleton.mp hmem
  rfl

/-- The counts and the examples of a process that was stopped and started differ after a single
reply that was passed through. -/
theorem passthrough_taught :
    Stored sampleReader (sampleRows emptyReply)
      ((sampleHistory emptyReply).map (Call.receipt sampleSettings)) ∧
    ¬ Agree (live sampleConfig (sampleHistory emptyReply))
      (warmStart sampleReader sampleConfig (sampleRows emptyReply)) := by
  have hstored := stored_sample emptyReply_fits
  refine ⟨hstored, ?_⟩
  rw [live_eq sampleSettings, warmStart_eq hstored, List.flatMap_map]
  exact not_agree (by simp [sampleConfig]) List.mem_cons_self rfl

end Firstpass.WarmStart
