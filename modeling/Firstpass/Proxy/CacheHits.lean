import Firstpass.Lib.Separator
import Firstpass.Proxy.CacheSystem

/-!
# What a replay was verified by

Every entry of the store was put by a decision, under the key of that decision's request.
What a hit says of its own route is what two requests with one key have in common.
-/

namespace Firstpass.ResponseCache

open ConfigFile

variable {F : Type} [F64 F] {env : Env F}

theorem tenantId_decision {d : Decision F} (h : env.Decides d) :
    d.trace.tenantId = d.req.tenant := by
  obtain ⟨first, second, health, traceId, ts, stamps, htrace, -⟩ := h
  rw [htrace]
  rfl

theorem promptHash_decision {d : Decision F} (h : env.Decides d) :
    d.trace.request.promptHash = env.hash d.req := by
  obtain ⟨first, second, health, traceId, ts, stamps, htrace, -⟩ := h
  rw [htrace]
  rfl

/-- The key a decision is put under is the one its request was looked up with. -/
theorem key_decision {d : Decision F} (h : env.Decides d) :
    composeKey d.trace.tenantId d.trace.request.promptHash d.ladder = env.key d.req d.route := by
  rw [tenantId_decision h, promptHash_decision h]
  rfl

theorem answer_decision {d : Decision F} (h : d.answer = some resp) :
    d.outcome = .served resp ∧ isCacheable d.trace = true := by
  unfold Decision.answer at h
  split at h
  · rename_i served houtcome
    split_ifs at h with hcache
    cases h
    exact ⟨houtcome, hcache⟩
  · cases h

/-- The receipt shows a pass on the rung that was served. -/
def ShowsPass (t : Trace F) : Prop :=
  ∃ a ∈ t.attempts, t.final.servedRung = some a.rung ∧ a.verdict = .pass

theorem showsPass_of_cacheable {t : Trace F} (h : isCacheable t = true) : ShowsPass t := by
  unfold isCacheable at h
  split_ifs at h with hfrom hsource
  split at h
  · cases h
  · rename_i served hserved
    split_ifs at h with hnone
    obtain ⟨a, ha, hpass⟩ : ∃ a ∈ t.attempts, a.rung = served ∧ a.verdict = .pass := by
      simpa using hnone
    exact ⟨a, ha, by rw [hserved, hpass.1], hpass.2⟩

-- ---------------------------------------------------------------------------
-- The entries of a run
-- ---------------------------------------------------------------------------

/-- The decision proved the entry, and its request has the key. -/
structure Proves (env : Env F) (d : Decision F) (item : Item F) : Prop where
  decides : env.Decides d
  key : env.key d.req d.route = item.1
  outcome : d.outcome = .served item.2.response
  source : d.trace.traceId = item.2.source
  pass : ShowsPass d.trace

theorem Proves.put {d : Decision F} (hd : env.Decides d) (ha : d.answer = some resp)
    (now : Instant) :
    Proves env d ⟨composeKey d.trace.tenantId d.trace.request.promptHash d.ladder,
      .new resp d.trace now⟩ where
  decides := hd
  key := (key_decision hd).symm
  outcome := (answer_decision ha).1
  source := rfl
  pass := showsPass_of_cacheable (answer_decision ha).2

/-- The threads that put and the entries go back to decisions of the run. -/
structure Provenance (env : Env F) (events : List (Event F)) (s : State F) : Prop where
  putting : ∀ d, .putting d ∈ s.threads → .decide d ∈ events ∧ env.Decides d
  entries : ∀ item ∈ s.cache.entries, ∃ d, .decide d ∈ events ∧ Proves env d item

theorem Provenance.start {s : State F} (h : s.Fresh env) : Provenance env [] s where
  putting d hd := by simp [h.threads] at hd
  entries item hitem := by simp [h.cache] at hitem

/-- More events leave what is known of threads and entries that were there. -/
theorem Provenance.keep {s s' : State F} (h : Provenance env events s) (e : Event F)
    (hthreads : ∀ d, .putting d ∈ s'.threads → .putting d ∈ s.threads)
    (hcache : ∀ item ∈ s'.cache.entries, item ∈ s.cache.entries) :
    Provenance env (events ++ [e]) s' where
  putting d hd := (h.putting d (hthreads d hd)).imp_left (List.mem_append_left _)
  entries item hitem := by
    obtain ⟨d, hd, hproves⟩ := h.entries item (hcache item hitem)
    exact ⟨d, List.mem_append_left _ hd, hproves⟩

/-- A thread that moves on leaves the others as they were. -/
theorem mem_moved {t x y : α} {front back : List α} (h : t ∈ front ++ y :: back) :
    t = y ∨ t ∈ front ++ x :: back := by
  simp only [List.mem_append, List.mem_cons] at h ⊢
  tauto

theorem mem_done {t x : α} {front back : List α} (h : t ∈ front ++ back) :
    t ∈ front ++ x :: back := by
  simp only [List.mem_append, List.mem_cons] at h ⊢
  tauto

theorem Provenance.step {s s' : State F} (h : Provenance env events s) (hs : Step env s e s') :
    Provenance env (events ++ [e]) s' := by
  cases hs with
  | miss | hit =>
    refine h.keep _ (fun d hd => ?_) fun item hitem => hitem
    simpa using hd
  | decide d hthreads hdecides hmints =>
    refine ⟨fun d' hd' => ?_, (h.keep _ (fun d hd => hd) fun item hitem => hitem).entries⟩
    rcases mem_moved hd' with hnew | hold
    · cases hnew
      exact ⟨by simp, hdecides⟩
    · exact (h.putting d' (hthreads ▸ hold)).imp_left (List.mem_append_left _)
  | put d resp now o hthreads hanswer =>
    refine ⟨fun d' hd' => ?_, fun item hitem => ?_⟩
    · have hold : .putting d' ∈ s.threads := by
        rw [hthreads]
        exact (mem_moved hd').resolve_left (by simp)
      exact (h.putting d' hold).imp_left (List.mem_append_left _)
    · rcases mem_putByKey hitem with rfl | hold
      · obtain ⟨hmem, hdecides⟩ := h.putting d (by simp [hthreads])
        exact ⟨d, List.mem_append_left _ hmem, .put hdecides hanswer now⟩
      · obtain ⟨d', hd', hproves⟩ := h.entries item hold
        exact ⟨d', List.mem_append_left _ hd', hproves⟩
  | skip d hthreads hanswer =>
    refine h.keep _ (fun d hd => ?_) fun item hitem => hitem
    rw [hthreads]
    exact (mem_moved hd).resolve_left (by simp)
  | offer t hthreads =>
    refine h.keep _ (fun d hd => ?_) fun item hitem => hitem
    exact hthreads ▸ mem_done hd
  | write | check | reviewFail | review | retracted | accept =>
    exact h.keep _ (fun d hd => hd) fun item hitem => hitem
  | retract =>
    exact h.keep _ (fun d hd => hd) fun item hitem => (mem_retract.mp hitem).1

theorem Run.provenance {s : State F} (h : Run env events s) : Provenance env events s := by
  induction h with
  | start hfresh => exact .start hfresh
  | step _ hs ih => exact ih.step hs

/-- A run, cut before one of its events. -/
theorem Run.cut {s : State F} (h : Run env events s) (hevents : events = earlier ++ e :: later) :
    ∃ before after, Run env earlier before ∧ Step env before e after := by
  induction h generalizing later with
  | start hfresh => simp at hevents
  | @step events s e' s' hrun hs ih =>
    rcases later.eq_nil_or_concat with rfl | ⟨later, last, rfl⟩
    · obtain ⟨rfl, hlast⟩ := List.append_inj' hevents rfl
      cases hlast
      exact ⟨s, s', hrun, hs⟩
    · rw [List.concat_eq_append, ← List.cons_append, ← List.append_assoc] at hevents
      exact ih (List.append_inj' hevents rfl).1

/-- A hit is on the answer of an earlier decision whose request has the same key. -/
theorem hit_proves {s : State F} (h : Run env (earlier ++ .hit req route entry :: later) s) :
    env.route req = some route ∧
      ∃ d, .decide d ∈ earlier ∧ Proves env d ⟨env.key req route, entry⟩ := by
  obtain ⟨before, after, hrun, hs⟩ := h.cut rfl
  cases hs with
  | hit now ts experiment hroute hget hmints ht =>
    exact ⟨hroute, hrun.provenance.entries _ (mem_of_getByKey hget)⟩

-- ---------------------------------------------------------------------------
-- The route that serves it
-- ---------------------------------------------------------------------------

/-- The requests of a run that were decided or replayed, with their routes. -/
def asked : List (Event F) → List (Request F × Route F)
  | [] => []
  | .hit req route _ :: events => (req, route) :: asked events
  | .decide d :: events => (d.req, d.route) :: asked events
  | _ :: events => asked events

/-- Two requests that a verification may be shared by. -/
structure Alike (p q : Request F × Route F) : Prop where
  tenant : p.1.tenant = q.1.tenant
  body : p.1.body = q.1.body
  ladder : armLadder p.2 p.1.onChallenger = armLadder q.2 q.1.onChallenger
  gates : ∀ name, name ∈ p.2.gates ↔ name ∈ q.2.gates

/-- The answer of the hit was verified for its route: by an earlier decision of the tenant
for the same prompt, ladder and gates, whose receipt shows a pass. -/
def VerifiedHit (earlier : List (Event F)) (req : Request F) (route : Route F)
    (entry : Entry F) : Prop :=
  ∃ d, .decide d ∈ earlier ∧ Alike (d.req, d.route) (req, route) ∧
    d.outcome = .served entry.response ∧ d.trace.traceId = entry.source ∧ ShowsPass d.trace

/-- The keys of these requests tell apart what their verification depends on. -/
def KeysSeparate (env : Env F) (requests : List (Request F × Route F)) : Prop :=
  ∀ p ∈ requests, ∀ q ∈ requests, env.key p.1 p.2 = env.key q.1 q.2 → Alike p q

theorem asked_append (events events' : List (Event F)) :
    asked (events ++ events') = asked events ++ asked events' := by
  induction events with
  | nil => rfl
  | cons e events ih => cases e <;> simp [asked, ih]

theorem mem_asked {d : Decision F} (h : .decide d ∈ events) : (d.req, d.route) ∈ asked events := by
  obtain ⟨front, back, rfl⟩ := List.append_of_mem h
  simp [asked_append, asked]

/-- A hit is verified for the route that serves it, where equal keys come from requests with
one tenant, prompt and ladder and from routes with the same gates. -/
theorem cache_hit_verified {s : State F}
    (hrun : Run env (earlier ++ .hit req route entry :: later) s)
    (hkeys : KeysSeparate env (asked (earlier ++ [.hit req route entry]))) :
    VerifiedHit earlier req route entry := by
  obtain ⟨-, d, hd, hproves⟩ := hit_proves hrun
  refine ⟨d, hd, ?_, hproves.outcome, hproves.source, hproves.pass⟩
  refine hkeys _ ?_ _ ?_ hproves.key
  · exact mem_asked (List.mem_append_left _ hd)
  · simp [asked_append, asked]

-- ---------------------------------------------------------------------------
-- When the keys separate
-- ---------------------------------------------------------------------------

/-- The ladders that the enforce routes run, by the text that the key has of them. -/
structure SeparateLadders (c : Config F) : Prop where
  bar : ∀ r ∈ c.routes, ∀ arm, '|' ∉ (">".intercalate (armLadder r arm)).toList
  arms : ∀ r ∈ c.routes, ∀ r' ∈ c.routes, ∀ arm arm',
    ">".intercalate (armLadder r arm) = ">".intercalate (armLadder r' arm') →
      armLadder r arm = armLadder r' arm' ∧ ∀ name, name ∈ r.gates ↔ name ∈ r'.gates

theorem bar_notMem_hexEncode (bytes : Routing.Bytes) :
    '|' ∉ (Routing.hexEncode bytes).toList := by
  have hdigit : ∀ n < 16, '|' ≠ Nat.digitChar n := by decide
  intro h
  obtain ⟨b, -, hb⟩ : ∃ b ∈ bytes, '|' ∈ Routing.hexDigits b := by
    simpa [Routing.hexEncode] using h
  have hbyte : b.toNat < 256 := b.toNat_lt
  rcases List.mem_cons.mp hb with hhigh | hlow
  · exact hdigit _ (Nat.div_lt_of_lt_mul hbyte) hhigh
  · exact hdigit _ (Nat.mod_lt _ (by decide)) (List.mem_singleton.mp hlow)

theorem mem_routes {req : Request F} {r : Route F} (h : env.route req = some r) :
    r ∈ env.config.routes := by
  obtain ⟨hfor, -⟩ := Option.filter_eq_some_iff.mp h
  exact List.mem_of_find?_eq_some hfor

/-- The keys separate where the texts of two ladders are equal only for one ladder behind
one set of gates, no such text has a bar, and no two of the prompts have one hash. -/
theorem keysSeparate_of_config {requests : List (Request F × Route F)}
    (hladders : SeparateLadders env.config)
    (hroutes : ∀ p ∈ requests, env.route p.1 = some p.2)
    (hhash : ∀ p ∈ requests, ∀ q ∈ requests, env.hash p.1 = env.hash q.1 → p.1.body = q.1.body) :
    KeysSeparate env requests := by
  intro p hp q hq hkey
  have hpr := mem_routes (hroutes p hp)
  have hqr := mem_routes (hroutes q hq)
  have htext := congrArg String.toList hkey
  simp only [Env.key, composeKey, String.toList_append, String.reduceToList, List.append_assoc,
    List.cons_append, List.nil_append] at htext
  rw [← List.cons_append, ← List.append_assoc, ← List.cons_append, ← List.append_assoc] at htext
  obtain ⟨hfront, hladder⟩ :=
    Separator.append_cons_inj_right (hladders.bar _ hpr _) (hladders.bar _ hqr _) htext
  obtain ⟨htenant, hhashes⟩ :=
    Separator.append_cons_inj_right (bar_notMem_hexEncode _) (bar_notMem_hexEncode _) hfront
  obtain ⟨harm, hgates⟩ := hladders.arms _ hpr _ hqr _ _ (String.toList_inj.mp hladder)
  exact ⟨String.toList_inj.mp htenant, hhash p hp q hq (String.toList_inj.mp hhashes), harm, hgates⟩

-- ---------------------------------------------------------------------------
-- Two routes with one ladder
-- ---------------------------------------------------------------------------

def sampleRoute (agent : Option String) (gates : List String) : Route ℚ where
  match_ := { Routing.Match.any with agent }
  mode := .enforce
  ladder := ["acme/large", "acme/large"]
  gates := gates
  deferredGates := []
  routingMode := none
  rollout := none
  shadow := none
  challenger := none

/-- The first gate checks that there is an answer, any other one that it is JSON. -/
def sampleRunner : GateRunner ℚ where
  evaluate spec _ _ resp :=
    { GateResult.abstain spec.id "" 0 with
      verdict := match spec with
        | .nonEmpty => if resp.text = "" then .fail else .pass
        | _ => if resp.text = "null" then .pass else .fail
      reason := none }
  evaluate_gateId _ _ _ _ := rfl

/-- The requests of one agent are checked for an answer, all others for JSON. -/
def sampleEnv : Env ℚ where
  config := {
    routes := [sampleRoute (some "chat") ["non-empty"], sampleRoute none ["json-valid"]]
    budget := ⟨none, none, none, .serveBestAttempt⟩
    escalation := .default
    guardrail := none
    gateDefs := []
    priceDefs := []
    providers := ["acme"] }
  cache := ⟨900, 10000⟩
  salt := "salt"
  sha256 := id
  providers := sampleCtx.providers
  prices := sampleCtx.prices
  run := sampleRunner
  var := fun _ => none
  parseUuid := some

def sampleRequest (agent : String) : Request ℚ where
  tenant := "t"
  body := [123, 125]
  features := { sampleCtx.features with agent := some agent }
  auth := sampleCtx.auth
  onChallenger := false
  settings := sampleCtx

def sampleRouted : Routed ℚ :=
  routeEnforce (sampleEnv.ctx (sampleRequest "chat") (sampleRoute (some "chat") ["non-empty"]))
    ⟨fun _ => 7, sampleSchedule⟩ ⟨fun _ => 7, sampleSchedule⟩ sampleHealth "a" "now"

def sampleStamps : Stamps ℚ := ⟨some 0, false, none, none, none, none, none, none, none⟩

def sampleDecision : Decision ℚ where
  req := sampleRequest "chat"
  route := sampleRoute (some "chat") ["non-empty"]
  trace := sampleStamps.apply sampleRouted.trace
  outcome := sampleRouted.outcome

def asStored : Iteration ℚ := ⟨id, fun _ => .refl _⟩

def sampleState : State ℚ := ⟨∅, [], [], [], [], [], []⟩

theorem sample_fresh : sampleState.Fresh sampleEnv where
  cache := rfl
  threads := rfl
  reviews := rfl
  offered := rfl
  receipts := rfl
  nodup := List.nodup_nil
  ids t ht := by cases ht
  sources t ht := by cases ht
  canonical t ht := by cases ht

/-- The first request has missed and run its ladder. -/
def decidedState : State ℚ :=
  { sampleState with
    threads := [.putting sampleDecision]
    used := [sampleDecision.trace.traceId]
    receipts := [sampleDecision.trace] }

def putState (resp : ModelResponse) : State ℚ :=
  { decidedState with
    cache := sampleEnv.cache.putByKey asStored ∅
      (composeKey sampleDecision.trace.tenantId sampleDecision.trace.request.promptHash
        sampleDecision.ladder)
      (.new resp sampleDecision.trace 0)
    threads := [.offering sampleDecision.trace] }

def putEvents : List (Event ℚ) := [.miss (sampleRequest "chat"), .decide sampleDecision, .put]

theorem sample_decides : sampleEnv.Decides sampleDecision :=
  ⟨_, _, _, _, _, sampleStamps, rfl, rfl⟩

theorem sample_put (h : sampleDecision.answer = some resp) :
    Run sampleEnv putEvents (putState resp) := by
  let routing : State ℚ :=
    { sampleState with threads := [.routing sampleDecision.req sampleDecision.route] }
  have hmiss : Run sampleEnv [.miss (sampleRequest "chat")] routing :=
    .step (.start sample_fresh) (.miss 0 rfl rfl)
  have hmints : routing.Mints sampleEnv sampleDecision.trace.traceId := ⟨List.not_mem_nil, rfl⟩
  have hthreads : routing.threads = [] ++ .routing sampleDecision.req sampleDecision.route :: [] :=
    rfl
  have hdecide : Run sampleEnv [.miss (sampleRequest "chat"), .decide sampleDecision]
      decidedState := .step hmiss (.decide sampleDecision hthreads sample_decides hmints)
  have hputting : decidedState.threads = [] ++ .putting sampleDecision :: [] := rfl
  exact .step hdecide (.put sampleDecision resp 0 asStored hputting h)

/-- The answer is replayed to a request that looks up the same key. -/
theorem sample_replay {req : Request ℚ} {route : Route ℚ}
    (hroute : sampleEnv.route req = some route)
    (hkey : sampleEnv.key req route = sampleEnv.key sampleDecision.req sampleDecision.route) :
    ∃ entry s, Run sampleEnv (putEvents ++ .hit req route entry :: []) s := by
  obtain ⟨resp, hresp⟩ : ∃ resp, sampleDecision.answer = some resp :=
    Option.isSome_iff_exists.mp (by decide +kernel)
  have hlive : sampleEnv.cache.live 0 (Entry.new resp sampleDecision.trace 0) = true := rfl
  have hget : sampleEnv.cache.getByKey (putState resp).cache (sampleEnv.key req route) 0 =
      some (.new resp sampleDecision.trace 0) := by
    rw [hkey, ← key_decision sample_decides]
    exact getByKey_putByKey hlive
  have hmints : (putState resp).Mints sampleEnv "b" := ⟨show "b" ∉ ["a"] by decide, rfl⟩
  exact ⟨_, _, .step (sample_put hresp) (.hit 0 "now" none hroute hget hmints rfl)⟩

/-- An answer that was checked for one route is replayed on another, which has another gate. -/
theorem hit_of_other_gates :
    ¬∀ (env : Env ℚ) (earlier later : List (Event ℚ)) (req : Request ℚ) (route : Route ℚ)
      (entry : Entry ℚ) (s : State ℚ), Run env (earlier ++ .hit req route entry :: later) s →
        VerifiedHit earlier req route entry := by
  intro h
  have hroute : sampleEnv.route (sampleRequest "tool") =
      some (sampleRoute none ["json-valid"]) := rfl
  obtain ⟨entry, s, hrun⟩ := sample_replay hroute rfl
  obtain ⟨d, hd, halike, -⟩ := h _ _ _ _ _ _ _ hrun
  obtain rfl : d = sampleDecision := by simpa [putEvents] using hd
  have hgate := (halike.gates "json-valid").mpr (by decide)
  exact absurd hgate (by decide)

/-- A second request of the first route is served the verified answer. -/
theorem cache_hit_verified_sample :
    ∃ entry, VerifiedHit putEvents (sampleRequest "chat")
      (sampleRoute (some "chat") ["non-empty"]) entry := by
  have hroute : sampleEnv.route (sampleRequest "chat") =
      some (sampleRoute (some "chat") ["non-empty"]) := rfl
  obtain ⟨entry, s, hrun⟩ := sample_replay hroute rfl
  refine ⟨entry, cache_hit_verified hrun ?_⟩
  intro p hp q hq _
  have hone : ∀ p ∈ asked (putEvents ++ [.hit (sampleRequest "chat")
      (sampleRoute (some "chat") ["non-empty"]) entry]),
      p = (sampleRequest "chat", sampleRoute (some "chat") ["non-empty"]) := by
    simp [asked, putEvents, sampleDecision]
  rw [hone p hp, hone q hq]
  exact ⟨rfl, rfl, rfl, fun _ => Iff.rfl⟩

end Firstpass.ResponseCache
