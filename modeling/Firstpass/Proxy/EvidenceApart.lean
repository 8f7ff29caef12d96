import Firstpass.Proxy.EvidencePool

/-!
# Evidence of different configurations

Over any history of configurations, the evidence of one experiment comes from routes with the
same ladders, margin and alpha. The mode of the challenger and the gates of the route have no
part in the fingerprint: an experiment keeps its evidence when these change.
-/

namespace Firstpass.ConfigHistory

open Select Monitor
open ConfigFile (Route Challenger ChallengerMode Digest Covered)

variable {F : Type} [Field F] [LinearOrder F] {ι : Type} [DecidableEq ι]

-- ---------------------------------------------------------------------------
-- What processes and log hold
-- ---------------------------------------------------------------------------

structure Process.Sound (dg : Digest F) (S : List (Route F) → Prop) (p : Process F) : Prop where
  routes : p.routes = [] ∨ S p.routes
  state : p.state.Sound dg S
  offered : ∀ t ∈ p.offered, GenuineTrace dg S t
  traces : ∀ t ∈ p.traces, GenuineTrace dg S t
  pairs : ∀ row ∈ p.pairs, Genuine dg S row.value.routeIx row.value.fingerprint row.origin true

structure World.Sound (dg : Digest F) (S : List (Route F) → Prop) (w : World ι F) : Prop where
  process : ∀ i, (w.process i).Sound dg S
  evaluated : ∀ e ∈ w.evaluated, Genuine dg S e.routeIx e.fingerprint e.pair.origin true
  log : ∀ tenant routeIx fingerprint g, some g ∈ w.log tenant routeIx fingerprint →
    Genuine dg S routeIx fingerprint g.origin (isPair g.value.item)

/-- A restart is under a configuration of `S`. -/
def Within (S : List (Route F) → Prop) : Step ι F → Prop
  | .restart _ routes _ _ _ => S routes
  | _ => True

namespace World

variable {dg : Digest F} {S : List (Route F) → Prop} {w : World ι F}

theorem Sound.set (h : w.Sound dg S) (i : ι) {p : Process F} (hp : p.Sound dg S) :
    (w.set i p).Sound dg S where
  process j := by
    obtain rfl | hj := eq_or_ne j i
    · simpa only [World.set, Function.update_self] using hp
    · simpa only [World.set, Function.update_of_ne hj] using h.process j
  evaluated := h.evaluated
  log := h.log

omit [DecidableEq ι] in
theorem Sound.append (h : w.Sound dg S) (tenant : String) (routeIx : Nat) (fingerprint : String)
    {record : Option (Gathered F (LogRecord F))}
    (hrecord : ∀ g, record = some g →
      Genuine dg S routeIx fingerprint g.origin (isPair g.value.item)) :
    (w.append tenant routeIx fingerprint record).Sound dg S where
  process := h.process
  evaluated := h.evaluated
  log t r fp g hg := by
    simp only [World.append] at hg
    split at hg
    · next hkey =>
      obtain ⟨rfl, rfl, rfl⟩ := hkey
      obtain hold | hnew := List.mem_append.mp hg
      · exact h.log t r fp g hold
      · exact hrecord g (List.mem_singleton.mp hnew).symm
    · exact h.log t r fp g hg

omit [Field F] [LinearOrder F] in
/-- What a route stamps on a receipt is its own fingerprint. -/
theorem genuine_stampOf {routes : List (Route F)} (hroutes : S routes) {routeIx : Nat} {r : Route F}
    (hr : routes[routeIx]? = some r) {stamp : Option (Arm × Nat)} {rec : ExperimentRecord F}
    (hrec : stampOf dg r stamp = some rec) :
    Genuine dg S routeIx rec.fingerprint r false := by
  obtain ⟨ch, hch, hstamp⟩ := Option.bind_eq_some_iff.mp hrec
  obtain ⟨armBucket, -, rfl⟩ := Option.map_eq_some_iff.mp hstamp
  exact ⟨⟨routes, hroutes, hr⟩, ch, hch, rfl, nofun⟩

theorem Process.Sound.current {p : Process F} (h : p.Sound dg S) {routeIx : Nat} {r : Route F}
    (hr : p.routes[routeIx]? = some r) : S p.routes := by
  obtain hnone | hS := h.routes
  · simp [hnone] at hr
  · exact hS

theorem Sound.recordOutcome (h : w.Sound dg S) (sessionHash : String → UInt64) (i : ι)
    {t : Gathered F (Receipt F)} (ht : GenuineTrace dg S t) {rec : ExperimentRecord F}
    (hrec : t.value.experiment = some rec) (verdict : Verdict) (how : Delivery) :
    (w.recordOutcome sessionHash i t rec verdict how).Sound dg S := by
  cases how with
  | observe =>
    have hp := h.process i
    exact h.set i { hp with state := hp.state.observeOutcome sessionHash ht verdict }
  | append =>
    simp only [World.recordOutcome]
    split
    · exact h
    · refine h.append _ _ _ fun g hg => ?_
      cases hg
      exact ht rec hrec
  | claimed => exact h

theorem forall_mem_concat {α : Type} {P : α → Prop} {xs : List α} {x : α} (h : ∀ y ∈ xs, P y)
    (hx : P x) : ∀ y ∈ xs ++ [x], P y :=
  List.forall_mem_append.mpr ⟨h, List.forall_mem_singleton.mpr hx⟩

section

variable (sessionHash : String → UInt64)

theorem Sound.restart (h : w.Sound dg S) (i : ι) {routes : List (Route F)} (hroutes : S routes)
    (replicaId : Uuid) (readable sharedLog : Bool) :
    (w.step dg sessionHash (.restart i routes replicaId readable sharedLog)).Sound dg S := by
  have hp := h.process i
  refine h.set i { hp with routes := .inr hroutes, state := ?_ }
  split
  · exact Pooled.sound_buildMonitorWith sessionHash _ replicaId _ sharedLog hp.traces hp.pairs
  · exact Pooled.sound_fromConfig _ replicaId

theorem Sound.serve (h : w.Sound dg S) (i : ι) (routeIx : Nat) (t : Receipt F)
    (stamp : Option (Arm × Nat)) :
    (w.step dg sessionHash (.serve i routeIx t stamp)).Sound dg S := by
  have hp := h.process i
  simp only [World.step]
  split
  · exact h
  · next r hr =>
    refine h.set i { hp with state := hp.state.quiet ?_, offered := forall_mem_concat hp.offered ?_ }
    · split
      · exact .refl _
      · next rec hrec => exact tallyTrace_quiet _ hrec
    · exact fun rec hrec => genuine_stampOf (Process.Sound.current hp hr) hr hrec

theorem Sound.save (h : w.Sound dg S) (i : ι) (k : Nat) :
    (w.step dg sessionHash (.save i k)).Sound dg S := by
  have hp := h.process i
  simp only [World.step]
  split
  · exact h
  · next t ht =>
    have htrace := hp.offered t (List.mem_of_getElem? ht)
    exact h.set i { hp with traces := forall_mem_concat hp.traces htrace }

theorem Sound.feedback (h : w.Sound dg S) (i : ι) (tenant : String) (traceId : Uuid)
    (verdict : Verdict) (how : Delivery) :
    (w.step dg sessionHash (.feedback i tenant traceId verdict how)).Sound dg S := by
  have hp := h.process i
  simp only [World.step]
  split
  · exact h
  · next t ht =>
    have hstored : (w.set i { w.process i with
        deferred := (w.process i).deferred ++ [(traceId, verdict)] }).Sound dg S :=
      h.set i { hp with }
    split
    · exact hstored
    · split
      · exact hstored
      · next rec hrec =>
        have htrace := hp.traces t (List.mem_of_find?_eq_some ht)
        exact hstored.recordOutcome sessionHash i htrace hrec verdict how

theorem Sound.evaluate (h : w.Sound dg S) (i : ι) (tenant : String) (routeIx : Nat)
    (r : PairRecord F) : (w.step dg sessionHash (.evaluate i tenant routeIx r)).Sound dg S := by
  simp only [World.step]
  split
  · exact h
  · next route hroute =>
    split
    · exact h
    · next ch hch =>
      split
      · next hpaired =>
        have hcurrent := Process.Sound.current (h.process i) hroute
        refine { h with evaluated := forall_mem_concat h.evaluated ?_ }
        exact ⟨⟨_, hcurrent, hroute⟩, ch, hch, rfl, fun _ => hpaired⟩
      · exact h

theorem Sound.land (h : w.Sound dg S) (k : Nat) :
    (w.step dg sessionHash (.land k)).Sound dg S := by
  simp only [World.step]
  split
  · exact h
  · next e he =>
    refine h.append _ _ _ fun g hg => ?_
    cases hg
    exact h.evaluated e (List.mem_of_getElem? he)

theorem Sound.write (h : w.Sound dg S) (i : ι) (k : Nat) (status : InLogStatus) :
    (w.step dg sessionHash (.write i k status)).Sound dg S := by
  have hp := h.process i
  simp only [World.step]
  split
  · exact h
  · next e he =>
    have hpair := h.evaluated e (List.mem_of_getElem? he)
    exact h.set i { hp with pairs := forall_mem_concat hp.pairs hpair }

theorem Sound.applyLocally (h : w.Sound dg S) (i : ι) (k : Nat) :
    (w.step dg sessionHash (.applyLocally i k)).Sound dg S := by
  have hp := h.process i
  simp only [World.step]
  split
  · exact h
  · next e he =>
    have hpair := h.evaluated e (List.mem_of_getElem? he)
    exact h.set i { hp with state := hp.state.applyPairLocally e.tenant hpair }

theorem Sound.sync (h : w.Sound dg S) (i : ι) (tenant : String) (routeIx : Nat)
    (fingerprint : String) (absIx count : Nat) :
    (w.step dg sessionHash (.sync i tenant routeIx fingerprint absIx count)).Sound dg S := by
  have hp := h.process i
  have hquiet : Quiet (w.process i).state.monitor
      ((w.process i).state.monitor.withEntry tenant routeIx id) := .withEntry fun _ => rfl
  refine h.set i { hp with
    state := (hp.state.quiet hquiet).applyBatch tenant routeIx fingerprint absIx ?_ }
  exact fun g hg => h.log tenant routeIx fingerprint g
    (List.mem_of_mem_drop (List.mem_of_mem_take hg))

theorem Sound.step (h : w.Sound dg S) {a : Step ι F} (ha : Within S a) :
    (w.step dg sessionHash a).Sound dg S := by
  cases a with
  | restart i routes replicaId readable sharedLog =>
    exact h.restart sessionHash i ha replicaId readable sharedLog
  | serve i routeIx t stamp => exact h.serve sessionHash i routeIx t stamp
  | save i k => exact h.save sessionHash i k
  | feedback i tenant traceId verdict how =>
    exact h.feedback sessionHash i tenant traceId verdict how
  | evaluate i tenant routeIx r => exact h.evaluate sessionHash i tenant routeIx r
  | land k => exact h.land sessionHash k
  | malformed tenant routeIx fingerprint =>
    exact h.append tenant routeIx fingerprint fun g hg => by cases hg
  | write i k status => exact h.write sessionHash i k status
  | applyLocally i k => exact h.applyLocally sessionHash i k
  | sync i tenant routeIx fingerprint absIx count =>
    exact h.sync sessionHash i tenant routeIx fingerprint absIx count

end

theorem sound_run (dg : Digest F) (sessionHash : String → UInt64) (steps : List (Step ι F)) :
    (run dg sessionHash steps).Sound dg fun routes => routes ∈ configs steps := by
  have hwithin : ∀ a ∈ steps, Within (fun routes => routes ∈ configs steps) a := by
    intro a ha
    cases a with
    | restart i routes replicaId readable sharedLog =>
      exact List.mem_filterMap.mpr ⟨_, ha, rfl⟩
    | _ => trivial
  refine List.foldlRecOn steps _ ?_ fun w hw a ha => hw.step sessionHash (hwithin a ha)
  exact
    { process := fun _ =>
        { routes := .inl rfl
          state := Pooled.sound_fromConfig [] Uuid.nil
          offered := fun t ht => by cases ht
          traces := fun t ht => by cases ht
          pairs := fun row hrow => by cases hrow }
      evaluated := fun e he => by cases he
      log := fun tenant routeIx fingerprint g hg => by cases hg }

end World

-- ---------------------------------------------------------------------------
-- Evidence is kept apart as far as the fingerprint reaches
-- ---------------------------------------------------------------------------

/-- No two configurations have at the same place challengers that a fingerprint does not tell
apart and that differ in their mode or, as pairs, in the gates of their routes. -/
def Settled (history : List (List (Route F))) : Prop :=
  ∀ first ∈ history, ∀ second ∈ history, ∀ (k : Nat) (r r' : Route F) (ch ch' : Challenger F),
    first[k]? = some r → second[k]? = some r' →
    r.challenger = some ch → r'.challenger = some ch' → Covered r r' ch ch' →
    ch.mode = ch'.mode ∧ (ch.mode = .paired → r.gates = r'.gates)

def SameExperiment (r r' : Route F) : Prop :=
  ∃ ch ch', r.challenger = some ch ∧ r'.challenger = some ch' ∧ Covered r r' ch ch' ∧
    ch.mode = ch'.mode

/-- Any two pieces of the pool were gathered under the same ladders, margin, alpha and mode,
and two pairs through the same gates. -/
def Apart (pool : List (Piece F)) : Prop :=
  ∀ a ∈ pool, ∀ b ∈ pool, SameExperiment a.origin b.origin ∧
    (isPair a.value = true → isPair b.value = true → a.origin.gates = b.origin.gates)

omit [Field F] [LinearOrder F] in
/-- Whatever the history, the ladders, the margin and alpha are the same. -/
theorem covered_of_genuine {dg : Digest F} {S : List (Route F) → Prop}
    (hdg : dg.Separates fun r => ∃ routes, S routes ∧ r ∈ routes) {routeIx : Nat}
    {fingerprint : String} {r r' : Route F} {pair pair' : Bool}
    (h : Genuine dg S routeIx fingerprint r pair) (h' : Genuine dg S routeIx fingerprint r' pair') :
    ∃ ch ch', r.challenger = some ch ∧ r'.challenger = some ch' ∧ Covered r r' ch ch' ∧
      (pair = true → ch.isPaired = true) := by
  obtain ⟨⟨routes, hroutes, hr⟩, ch, hch, hfp, hpair⟩ := h
  obtain ⟨⟨routes', hroutes', hr'⟩, ch', hch', hfp', -⟩ := h'
  exact ⟨ch, ch', hch, hch', ConfigFile.covered_of_fingerprint hdg
    ⟨routes, hroutes, List.mem_of_getElem? hr⟩ ⟨routes', hroutes', List.mem_of_getElem? hr'⟩ hch hch'
    (hfp.trans hfp'.symm), hpair⟩

/-- In a history that changes neither the mode nor the gates of an experiment, an experiment is
what its pieces make of a fresh one, and these were gathered under one configuration of it. -/
theorem evidence_apart (dg : Digest F) (sessionHash : String → UInt64) (steps : List (Step ι F))
    (hdg : dg.Separates fun r => ∃ routes ∈ configs steps, r ∈ routes)
    (hsettled : Settled (configs steps)) (i : ι) (site : Site F)
    (hruns : site.RunsIn ((World.run dg sessionHash steps).process i).state.monitor) :
    let s := ((World.run dg sessionHash steps).process i).state
    let pool := s.pool site.tenant site.routeIx
    (s.monitor.at site).experiment.uncosted =
        (pool.map Gathered.value).foldl feed site.params.fresh.uncosted ∧
      Apart pool := by
  have hsound := ((World.sound_run dg sessionHash steps).process i).state
  refine ⟨hsound.counted site hruns, fun a ha b hb => ?_⟩
  have hga := hsound.genuine site hruns a ha
  have hgb := hsound.genuine site hruns b hb
  obtain ⟨ch, ch', hch, hch', hcovered, hpair⟩ := covered_of_genuine hdg hga hgb
  obtain ⟨⟨first, hfirst, hr⟩, -⟩ := hga
  obtain ⟨⟨second, hsecond, hr'⟩, -⟩ := hgb
  obtain ⟨hmode, hgates⟩ := hsettled first hfirst second hsecond site.routeIx a.origin b.origin
    ch ch' hr hr' hch hch' hcovered
  refine ⟨⟨ch, ch', hch, hch', hcovered, hmode⟩, fun hpaired _ => hgates ?_⟩
  simpa [Challenger.isPaired] using hpair hpaired

-- ---------------------------------------------------------------------------
-- Histories
-- ---------------------------------------------------------------------------

def sampleText (x : ℚ) : Json.FloatText :=
  if x = 0.1 then ⟨['0', '.', '1'], by simp [Json.isNumberChar], by simp⟩
  else ⟨['0', '.', '0', '5'], by simp [Json.isNumberChar], by simp⟩

def sampleRoute (margin : ℚ) (mode : ChallengerMode) (gates : List String) : Route ℚ where
  match_ := .any
  mode := .enforce
  ladder := ["anthropic/claude-haiku-4-5"]
  gates := gates
  deferredGates := []
  routingMode := none
  rollout := none
  shadow := none
  challenger := some
    { ladder := ["openai/gpt-5-mini"]
      percent := 50
      margin := margin
      alpha := 0.05
      mode := mode
      sampleRate := 1
      maxUsdPerDay := some 5 }

/-- The digests of the two texts that the routes below hash, with the margins 0.05 and 0.1. -/
def sampleSha256 (bytes : Routing.Bytes) : Routing.Bytes :=
  if Routing.utf8 "0.1,0.05]" <:+ bytes then
    [200, 108, 185, 120, 204, 23, 104, 101, 46, 192, 208, 95, 69, 168, 137, 251, 69, 248, 4, 153, 103,
      183, 121, 166, 41, 44, 27, 44, 64, 19, 99, 174]
  else
    [20, 218, 159, 49, 25, 250, 132, 0, 152, 161, 139, 54, 66, 187, 151, 65, 166, 46, 91, 225, 139,
      191, 252, 192, 176, 94, 216, 49, 219, 18, 69, 111]

def sampleDigest : Digest ℚ := ⟨sampleText, sampleSha256⟩

/-- What the fingerprint of a sample route hashes. -/
def sampleHashed (margin : ℚ) : Routing.Bytes :=
  ((sampleRoute margin .live []).challenger.map fun ch =>
    ch.hashed sampleDigest ["anthropic/claude-haiku-4-5"]).getD []

def IsSample (r : Route ℚ) : Prop :=
  ∃ margin mode gates, (margin = 0.05 ∨ margin = 0.1) ∧ r = sampleRoute margin mode gates

theorem sample_separates {S : Route ℚ → Prop} (hS : ∀ r, S r → IsSample r) :
    sampleDigest.Separates S := by
  have htext : sampleText 0.05 ≠ sampleText 0.1 := by decide +kernel
  have hdigest : (sampleSha256 (sampleHashed 0.05)).take 8 ≠
      (sampleSha256 (sampleHashed 0.1)).take 8 := by decide +kernel
  constructor
  · intro r r' ch ch' hr hr' hch hch' h
    obtain ⟨margin, mode, gates, hmargin, rfl⟩ := hS r hr
    obtain ⟨margin', mode', gates', hmargin', rfl⟩ := hS r' hr'
    cases hch
    cases hch'
    obtain rfl | rfl := hmargin <;> obtain rfl | rfl := hmargin'
    · rfl
    · exact absurd h htext
    · exact absurd h htext.symm
    · rfl
  · intro r r' ch ch' hr hr' hch hch' _
    obtain ⟨margin, mode, gates, -, rfl⟩ := hS r hr
    obtain ⟨margin', mode', gates', -, rfl⟩ := hS r' hr'
    cases hch
    cases hch'
    rfl
  · intro r r' ch ch' hr hr' hch hch' h
    obtain ⟨margin, mode, gates, hmargin, rfl⟩ := hS r hr
    obtain ⟨margin', mode', gates', hmargin', rfl⟩ := hS r' hr'
    cases hch
    cases hch'
    obtain rfl | rfl := hmargin <;> obtain rfl | rfl := hmargin'
    · rfl
    · exact absurd h hdigest
    · exact absurd h hdigest.symm
    · rfl

def sampleSession (id : String) : UInt64 := if id = "a" then 1 else 2

def samplePair (traceId : Uuid) : PairRecord ℚ :=
  { xInc := 1
    xCh := 1
    incumbentCostUsd := 0.1
    challengerCostUsd := 0.1
    chError := false
    chTruncated := 0
    replicaId := 1
    traceId := traceId
    incumbentTraceId := 1 }

/-- A live experiment with the margin 0.05: one session in each arm, and a pass for both. -/
def liveSteps : List (Step Unit ℚ) :=
  [.restart () [sampleRoute 0.05 .live ["json-valid"]] 1 true false,
    .serve () 0 (sampleReceipt 1 "a" .incumbent) (some (.incumbent, 9000)), .save () 0,
    .serve () 0 (sampleReceipt 2 "b" .challenger) (some (.challenger, 10)), .save () 1,
    .feedback () "t" 1 .pass .observe, .feedback () "t" 2 .pass .observe]

/-- A restart with the margin, the mode and the gate given, and then the `k`-th evaluated pair. -/
def pairedSteps (margin : ℚ) (gate : String) (k : Nat) : List (Step Unit ℚ) :=
  [.restart () [sampleRoute margin .paired [gate]] 1 true false,
    .evaluate () "t" 0 (samplePair (k + 3)), .write () k .notInLog, .applyLocally () k]

/-- A new margin starts the experiment afresh. -/
theorem evidence_apart_sample : ∃ p : Params ℚ,
    let s := ((World.run sampleDigest sampleSession
      (liveSteps ++ pairedSteps 0.1 "tool-args-valid" 0)).process ()).state
    (s.pool "t" 0).map (isPair ·.value) = [true] ∧
      (s.monitor.at ⟨"t", 0, p⟩).experiment.uncosted =
        ((s.pool "t" 0).map Gathered.value).foldl feed p.fresh.uncosted ∧
      Apart (s.pool "t" 0) := by
  obtain ⟨p, hp⟩ : ∃ p, ((World.run sampleDigest sampleSession
      (liveSteps ++ pairedSteps 0.1 "tool-args-valid" 0)).process ()).state.monitor.params.lookup 0 =
        some p := Option.isSome_iff_exists.mp (by decide +kernel)
  have hconfigs : configs (liveSteps ++ pairedSteps 0.1 "tool-args-valid" 0) =
      [[sampleRoute 0.05 .live ["json-valid"]], [sampleRoute 0.1 .paired ["tool-args-valid"]]] := rfl
  have hdg : sampleDigest.Separates fun r => ∃ routes ∈ configs
      (liveSteps ++ pairedSteps 0.1 "tool-args-valid" 0), r ∈ routes := by
    refine sample_separates ?_
    rintro r ⟨routes, hroutes, hr⟩
    simp only [hconfigs, List.mem_cons, List.not_mem_nil, or_false] at hroutes
    obtain rfl | rfl := hroutes
    · exact ⟨0.05, .live, _, .inl rfl, List.mem_singleton.mp hr⟩
    · exact ⟨0.1, .paired, _, .inr rfl, List.mem_singleton.mp hr⟩
  have hsettled : Settled (configs (liveSteps ++ pairedSteps 0.1 "tool-args-valid" 0)) := by
    intro first hfirst second hsecond k r r' ch ch' hr hr' hch hch' hcovered
    have hr := List.mem_of_getElem? hr
    have hr' := List.mem_of_getElem? hr'
    simp only [hconfigs, List.mem_cons, List.not_mem_nil, or_false] at hfirst hsecond
    obtain rfl | rfl := hfirst <;> obtain rfl | rfl := hsecond <;>
      cases List.mem_singleton.mp hr <;> cases List.mem_singleton.mp hr' <;>
      cases hch <;> cases hch'
    · exact ⟨rfl, fun _ => rfl⟩
    · exact absurd hcovered.2.2.1 (by norm_num)
    · exact absurd hcovered.2.2.1 (by norm_num)
    · exact ⟨rfl, fun _ => rfl⟩
  exact ⟨p, by decide +kernel, evidence_apart sampleDigest sampleSession _ hdg hsettled ()
    ⟨"t", 0, p⟩ hp⟩

/-- A new mode, and then a new gate, under the same margin. -/
def mixedSteps : List (Step Unit ℚ) :=
  liveSteps ++ pairedSteps 0.05 "json-valid" 0 ++ pairedSteps 0.05 "tool-args-valid" 1

def mixedState : Pooled ℚ := ((World.run sampleDigest sampleSession mixedSteps).process ()).state

/-- A new mode does not, nor does a new gate: one experiment counts a live pair of outcomes, a
pair that one gate decided, and a pair that another gate decided. -/
theorem evidence_mixed :
    ¬∀ (steps : List (Step Unit ℚ)) (site : Site ℚ),
      (sampleDigest.Separates fun r => ∃ routes ∈ configs steps, r ∈ routes) →
      site.RunsIn ((World.run sampleDigest sampleSession steps).process ()).state.monitor →
      Apart (((World.run sampleDigest sampleSession steps).process ()).state.pool site.tenant
        site.routeIx) := by
  intro h
  have hconfigs : configs mixedSteps = [[sampleRoute 0.05 .live ["json-valid"]],
    [sampleRoute 0.05 .paired ["json-valid"]], [sampleRoute 0.05 .paired ["tool-args-valid"]]] := rfl
  have hdg : sampleDigest.Separates fun r => ∃ routes ∈ configs mixedSteps, r ∈ routes := by
    refine sample_separates ?_
    rintro r ⟨routes, hroutes, hr⟩
    simp only [hconfigs, List.mem_cons, List.not_mem_nil, or_false] at hroutes
    obtain rfl | rfl | rfl := hroutes
    all_goals exact ⟨0.05, _, _, .inl rfl, List.mem_singleton.mp hr⟩
  obtain ⟨p, hp⟩ : ∃ p, mixedState.monitor.params.lookup 0 = some p :=
    Option.isSome_iff_exists.mp (by decide +kernel)
  have hpool : (mixedState.pool "t" 0).map (fun a => (a.origin.gates, isPair a.value)) =
      [(["json-valid"], false), (["json-valid"], false), (["json-valid"], true),
        (["tool-args-valid"], true)] := by decide +kernel
  have hapart : Apart (mixedState.pool "t" 0) := h mixedSteps ⟨"t", 0, p⟩ hdg hp
  have hfirst : (["json-valid"], true) ∈ (mixedState.pool "t" 0).map fun a =>
      (a.origin.gates, isPair a.value) := by simp only [hpool, List.mem_cons, true_or, or_true]
  have hsecond : (["tool-args-valid"], true) ∈ (mixedState.pool "t" 0).map fun a =>
      (a.origin.gates, isPair a.value) := by simp only [hpool, List.mem_cons, true_or, or_true]
  obtain ⟨a, ha, hfa⟩ := List.mem_map.mp hfirst
  obtain ⟨b, hb, hfb⟩ := List.mem_map.mp hsecond
  simp only [Prod.mk.injEq] at hfa hfb
  have hgates := (hapart a ha b hb).2 hfa.2 hfb.2
  rw [hfa.1, hfb.1] at hgates
  exact absurd hgates (by decide)

end Firstpass.ConfigHistory
