import Firstpass.Proxy.ConfigHistory

/-!
# The pool of an experiment

Without the origins that are kept for the proofs, the steps of `ConfigHistory` are those of
the monitor. An experiment is what its pool makes of a fresh one, and a piece is in the pool
only if it came with the fingerprint of the experiment.
-/

namespace Firstpass.ConfigHistory

open Select Monitor
open ConfigFile (Route Digest)

variable {F : Type} [Field F] [LinearOrder F]

-- ---------------------------------------------------------------------------
-- Without the origins, the steps are the monitor's
-- ---------------------------------------------------------------------------

namespace Pooled

theorem monitor_observeOutcome (s : Pooled F) (sessionHash : String → UInt64)
    {t : Gathered F (Receipt F)} {rec : ExperimentRecord F} (ht : t.value.experiment = some rec)
    (verdict : Verdict) : (s.observeOutcome sessionHash t verdict).monitor =
      (s.monitor.observeOutcome sessionHash t.value.tenantId t.value.route rec.fingerprint rec.arm
        t.value.sessionId verdict).1 := by
  cases houtcome : (ExperimentMonitor.outcomeOf verdict : Option F) with
  | none =>
    simp only [observeOutcome, ht, ExperimentMonitor.observeOutcome, houtcome]
    split <;> rfl
  | some outcome => simp only [observeOutcome, ht, houtcome, offer]

theorem monitor_applyBatch (s : Pooled F) (tenant : String) (routeIx : Nat) (fingerprint : String)
    (absIx : Nat) (records : List (Option (Gathered F (LogRecord F)))) :
    (s.applyBatch tenant routeIx fingerprint absIx records).monitor =
      s.monitor.applyBatch tenant routeIx fingerprint absIx
        (records.map (Option.map Gathered.value)) := by
  induction records generalizing s absIx with
  | nil => rfl
  | cons record records ih =>
    simp only [applyBatch, List.map_cons, ExperimentMonitor.applyBatch, ih]
    split
    · rfl
    · cases record <;> rfl

omit [Field F] [LinearOrder F] in
theorem byId_value (traces : List (Gathered F (Receipt F))) (id : Uuid) :
    (byId traces id).map Gathered.value =
      ExperimentMonitor.byId (traces.map Gathered.value) id := by
  simp only [byId, ExperimentMonitor.byId, List.filter_map, ← List.map_reverse, List.find?_map]
  rfl

theorem monitor_replayOutcome (s : Pooled F) (sessionHash : String → UInt64)
    (traces : List (Gathered F (Receipt F))) (d : Uuid × Verdict) :
    (s.replayOutcome sessionHash traces d).monitor =
      s.monitor.replayOutcome sessionHash (traces.map Gathered.value) d := by
  simp only [replayOutcome, ExperimentMonitor.replayOutcome, ← byId_value]
  cases byId traces d.1 with
  | none => rfl
  | some t =>
    cases ht : t.value.experiment with
    | none => simp only [Option.map_some, ht, observeOutcome]
    | some rec => simp only [Option.map_some, ht, monitor_observeOutcome s sessionHash ht]

theorem monitor_foldl {α β : Type} {f : Pooled F → α → Pooled F} (erase : α → β)
    {g : ExperimentMonitor F → β → ExperimentMonitor F}
    (h : ∀ s a, (f s a).monitor = g s.monitor (erase a)) (as : List α) (s : Pooled F) :
    (as.foldl f s).monitor = (as.map erase).foldl g s.monitor := by
  rw [List.foldl_map]
  exact (List.foldl_hom Pooled.monitor fun s a => (h s a).symm).symm

theorem monitor_monitorFromTraces (sessionHash : String → UInt64) (params : List (Nat × Params F))
    (replicaId : Uuid) (traces : List (Gathered F (Receipt F))) (deferred : List (Uuid × Verdict))
    (pairs : List (Gathered F (ExperimentPairRow F))) :
    (monitorFromTraces sessionHash params replicaId traces deferred pairs).monitor =
      .monitorFromTraces sessionHash params replicaId (traces.map Gathered.value) deferred
        (pairs.map Gathered.value) := by
  have hpairs := monitor_foldl Gathered.value (g := ExperimentMonitor.replayPair)
    (fun (s : Pooled F) row => (rfl : (s.replayPair row).monitor = _)) pairs
  have hdeferred := monitor_foldl id
    (fun s d => monitor_replayOutcome s sessionHash traces d) deferred
  have htraces := monitor_foldl Gathered.value (g := ExperimentMonitor.replayTrace)
    (fun (s : Pooled F) t => (rfl : (s.replayTrace t).monitor = _)) traces
  cases hidle : (ExperimentMonitor.fromConfig params replicaId).isActive with
  | false =>
    simp only [monitorFromTraces, ExperimentMonitor.monitorFromTraces, fromConfig, hidle, if_true]
  | true =>
    simp only [monitorFromTraces, ExperimentMonitor.monitorFromTraces, fromConfig, hidle,
      Bool.true_eq_false, if_false, hpairs, hdeferred, htraces, List.map_id]

/-- Startup builds the monitor of `build_monitor_with`. -/
theorem monitor_buildMonitorWith (sessionHash : String → UInt64) (params : List (Nat × Params F))
    (replicaId : Uuid) (traces : List (Gathered F (Receipt F))) (deferred : List (Uuid × Verdict))
    (pairs : List (Gathered F (ExperimentPairRow F))) (sharedLog : Bool) :
    (buildMonitorWith sessionHash params replicaId traces deferred pairs sharedLog).monitor =
      .buildMonitorWith sessionHash params replicaId (traces.map Gathered.value) deferred
        (pairs.map Gathered.value) sharedLog := by
  cases sharedLog with
  | false => exact monitor_monitorFromTraces ..
  | true =>
    simp only [buildMonitorWith, ExperimentMonitor.buildMonitorWith, if_true,
      monitor_monitorFromTraces, List.filter_map, List.foldl_map]
    rfl

end Pooled

-- ---------------------------------------------------------------------------
-- What an experiment has counted
-- ---------------------------------------------------------------------------

/-- What a piece of evidence makes of an experiment. -/
def feed (e : Experiment F) : Item F → Experiment F
  | .outcome arm x _ => (e.observeOutcome arm x).1
  | .pair x y _ => (e.observePair x y).1

theorem pairs_closePair (e : Experiment F) (x y : F) : (e.closePair x y).pairs = e.pairs + 1 := by
  simp only [Experiment.closePair]
  repeat' split
  all_goals rfl

theorem observed_closePairs (e : Experiment F) (incs chs : List F) :
    observed (e.closePairs incs chs) = 2 * e.pairs + incs.length + chs.length := by
  induction incs generalizing e chs with
  | nil => cases chs <;> rfl
  | cons x incs ih =>
    cases chs with
    | nil => rfl
    | cons y chs =>
      simp only [Experiment.closePairs, ih, pairs_closePair, List.length_cons]
      omega

/-- A piece that an experiment does not count leaves it as it was. -/
theorem feed_eq_of_observed {e : Experiment F} {item : Item F}
    (h : observed (feed e item) = observed e) : feed e item = e := by
  cases item with
  | outcome arm x key =>
    simp only [feed, Experiment.observeOutcome] at h ⊢
    split
    · next hx =>
      rw [if_pos hx] at h
      exfalso
      cases arm with
      | incumbent =>
        rw [observed_closePairs] at h
        simp only [observed, List.length_append, List.length_singleton] at h
        omega
      | challenger =>
        rw [observed_closePairs] at h
        simp only [observed, List.length_append, List.length_singleton] at h
        omega
    · rfl
  | pair x y traceId =>
    simp only [feed, Experiment.observePair] at h ⊢
    split
    · next hxy =>
      rw [if_pos hxy] at h
      have hpending : ∀ e : Experiment F, (e.closePair x y).pendingIncumbent = e.pendingIncumbent ∧
          (e.closePair x y).pendingChallenger = e.pendingChallenger := by
        intro e
        simp only [Experiment.closePair]
        repeat' split
        all_goals exact ⟨rfl, rfl⟩
      simp only [observed, pairs_closePair, (hpending _).1, (hpending _).2] at h
      omega
    · rfl

theorem observed_fresh (p : Params F) : observed p.fresh = 0 := by
  have hnew := p.new_ok
  simp only [Experiment.new] at hnew
  split_ifs at hnew
  rw [← Except.ok.inj hnew]
  rfl

theorem accept_experiment (v : Evidence F) (item : Item F) :
    (v.accept item).experiment = v.experiment ∨
      (v.accept item).experiment = feed v.experiment item := by
  cases item with
  | outcome arm x key =>
    simp only [Evidence.accept]
    split_ifs
    · exact .inl rfl
    · exact .inr rfl
    · exact .inl rfl
  | pair x y traceId =>
    simp only [Evidence.accept]
    split_ifs
    · exact .inl rfl
    · exact .inr rfl

-- ---------------------------------------------------------------------------
-- What a step does to the experiments of a monitor
-- ---------------------------------------------------------------------------

/-- The experiment of a site, without its costs. -/
def testAt (m : ExperimentMonitor F) (site : Site F) : Experiment F := (m.at site).evidence.experiment

theorem observedAt_eq (m : ExperimentMonitor F) (site : Site F) :
    observedAt m site.tenant site.routeIx = observed (testAt m site) := by
  simp only [observedAt, testAt, ExperimentMonitor.at]
  cases m.entries site.tenant site.routeIx with
  | none => exact (observed_fresh site.params).symm
  | some e => rfl

/-- A step that counts no evidence. -/
structure Quiet (m next : ExperimentMonitor F) : Prop where
  params : next.params = m.params
  same : ∀ site : Site F, site.RunsIn m → testAt next site = testAt m site

/-- A step that counts the piece, if any, and only for the fingerprint it came with. -/
structure Offers (m next : ExperimentMonitor F) (tenant : String) (routeIx : Nat)
    (fingerprint : String) (item : Item F) : Prop where
  params : next.params = m.params
  frame : ∀ t r, (t = tenant ∧ r = routeIx → m.params.lookup r = none) →
    next.entries t r = m.entries t r
  counts : ∀ site : Site F, site.RunsIn m → site.IsAt tenant routeIx →
    testAt next site = testAt m site ∨
      site.fingerprint = fingerprint ∧ testAt next site = feed (testAt m site) item

variable {m : ExperimentMonitor F} {tenant : String} {routeIx : Nat} {fingerprint : String}
  {item : Item F}

theorem Quiet.refl (m : ExperimentMonitor F) : Quiet m m := ⟨rfl, fun _ _ => rfl⟩

theorem Quiet.trans {next next' : ExperimentMonitor F} (h : Quiet m next) (h' : Quiet next next') :
    Quiet m next' where
  params := h'.params.trans h.params
  same site hm := (h'.same site (by rwa [Site.RunsIn, h.params])).trans (h.same site hm)

theorem Quiet.withEntry {f : Entry F → Entry F} (hf : ∀ e, (f e).evidence = e.evidence) :
    Quiet m (m.withEntry tenant routeIx f) where
  params := ExperimentMonitor.withEntry_params ..
  same site hm := by
    simp only [testAt, ExperimentMonitor.withEntry_at hm]
    split
    · rw [hf]
    · rfl

theorem Offers.refl (m : ExperimentMonitor F) : Offers m m tenant routeIx fingerprint item :=
  ⟨rfl, fun _ _ _ => rfl, fun _ _ _ => .inl rfl⟩

theorem Offers.withEntry {f : Entry F → Entry F}
    (hf : ∀ site : Site F, site.RunsIn m → site.IsAt tenant routeIx → ∀ e,
      (f e).evidence.experiment = e.evidence.experiment ∨
        site.fingerprint = fingerprint ∧
          (f e).evidence.experiment = feed e.evidence.experiment item) :
    Offers m (m.withEntry tenant routeIx f) tenant routeIx fingerprint item where
  params := ExperimentMonitor.withEntry_params ..
  frame t r h := by
    simp only [ExperimentMonitor.withEntry, ExperimentMonitor.entry]
    cases hp : m.params.lookup routeIx with
    | none => rfl
    | some p =>
      refine if_neg fun hat => ?_
      have hnone := h hat
      rw [hat.2, hp] at hnone
      cases hnone
  counts site hm hat := by
    simp only [testAt, ExperimentMonitor.withEntry_at hm, if_pos hat]
    exact hf site hm hat _

/-- Where the fingerprint is the current one, a step that accepts the piece as evidence. -/
theorem Offers.accepting {f : Entry F → Entry F}
    (hcurrent : m.fingerprint routeIx = some fingerprint)
    (hf : ∀ e, (f e).evidence = e.evidence.accept item) :
    Offers m (m.withEntry tenant routeIx f) tenant routeIx fingerprint item := by
  refine .withEntry fun site hm hat e => ?_
  have hfp := (ExperimentMonitor.fingerprint_eq_iff hm hat fingerprint).mp hcurrent
  rw [hf]
  obtain hsame | hfed := accept_experiment e.evidence item
  · exact .inl hsame
  · exact .inr ⟨hfp.symm, hfed⟩

-- ---------------------------------------------------------------------------
-- The steps
-- ---------------------------------------------------------------------------

section operations

variable (m)

theorem observeOutcome_offers (sessionHash : String → UInt64) (arm : Arm) (sessionId : String)
    {verdict : Verdict} {outcome : F}
    (houtcome : (ExperimentMonitor.outcomeOf verdict : Option F) = some outcome) :
    Offers m (m.observeOutcome sessionHash tenant routeIx fingerprint arm sessionId verdict).1
      tenant routeIx fingerprint (.outcome arm outcome (sessionHash sessionId)) := by
  rw [ExperimentMonitor.observeOutcome_eq, houtcome]
  dsimp only
  split
  · exact .refl m
  · next hcurrent =>
    exact .accepting (not_not.mp hcurrent)
      fun e => evidence_observeOutcome e arm (sessionHash sessionId) outcome

theorem applyPairLocally_offers (xInc xCh usd : F) (traceId : Uuid) :
    Offers m (m.applyPairLocally tenant routeIx fingerprint xInc xCh usd traceId).1
      tenant routeIx fingerprint (.pair xInc xCh traceId) := by
  rw [ExperimentMonitor.applyPairLocally_eq]
  split
  · exact .refl m
  · next hcurrent =>
    exact .accepting (not_not.mp hcurrent)
      fun e => evidence_applyPairLocally e xInc xCh usd traceId

theorem applyLogRecord_offers (record : LogRecord F) :
    Offers m (m.applyLogRecord tenant routeIx fingerprint record) tenant routeIx fingerprint
      record.item := by
  simp only [ExperimentMonitor.applyLogRecord]
  split
  · exact .withEntry fun _ _ _ _ => .inl rfl
  · next hcurrent =>
    exact .accepting (not_not.mp hcurrent) fun e => evidence_applyLogRecord e m.replicaId record

/-- A row is offered to the experiment of its own tenant, route and fingerprint. -/
theorem replayPair_offers (row : ExperimentPairRow F) :
    Offers m (m.replayPair row) row.tenant row.routeIx row.fingerprint row.item := by
  refine .withEntry fun site hm hat e => ?_
  simp only [ExperimentMonitor.fingerprint_eq_iff hm hat]
  by_cases hfp : row.fingerprint = site.fingerprint
  · simp only [hfp, if_true, Entry.replayPair]
    split
    · exact .inl rfl
    · refine .inr ⟨trivial, ?_⟩
      rw [evidence_tallyHealth, evidence_countPair]
      rfl
  · simp only [hfp, if_false]
    exact .inl rfl

theorem tallyTrace_quiet {t : Receipt F} {rec : ExperimentRecord F}
    (ht : t.experiment = some rec) : Quiet m (m.tallyTrace t rec) where
  params := by
    have hcost : (m.observeCost t.tenantId t.route rec.fingerprint rec.arm
        t.final.totalCostUsd).params = m.params := ExperimentMonitor.withEntry_params ..
    simp only [ExperimentMonitor.tallyTrace, ExperimentMonitor.observeHealth]
    split
    · exact hcost
    · exact (ExperimentMonitor.withEntry_params ..).trans hcost
  same site hm := by
    rw [testAt, (ExperimentMonitor.tallyTrace_tracks ht m hm).2, evidence_serve, testAt]

theorem replayTrace_quiet (t : Receipt F) : Quiet m (m.replayTrace t) where
  params := by
    cases ht : t.experiment with
    | none => simp only [ExperimentMonitor.replayTrace, ht]
    | some rec =>
      simp only [ExperimentMonitor.replayTrace, ht]
      split
      · exact (ExperimentMonitor.withEntry_params ..).trans (tallyTrace_quiet m ht).params
      · exact (tallyTrace_quiet m ht).params
  same site hm := by
    rw [testAt, (ExperimentMonitor.replayTrace_tracks t m hm).2, evidence_remember, evidence_serve,
      testAt]

theorem advance_quiet (absIx : Nat) : Quiet m (m.advance tenant routeIx absIx) := by
  simp only [ExperimentMonitor.advance]
  cases he : m.entries tenant routeIx with
  | none => exact .refl m
  | some e =>
    refine ⟨rfl, fun site hm => ?_⟩
    simp only [testAt, ExperimentMonitor.setEntry_at]
    split
    · next hat =>
      obtain ⟨rfl, rfl⟩ := hat
      simp only [ExperimentMonitor.at, he]
      rfl
    · rfl

end operations

-- ---------------------------------------------------------------------------
-- What a pool holds
-- ---------------------------------------------------------------------------

def isPair : Item F → Bool
  | .outcome .. => false
  | .pair .. => true

/-- Under a configuration of `S`, the route at `routeIx` gathers evidence with the fingerprint,
and pairs only in paired mode. -/
def Genuine (dg : Digest F) (S : List (Route F) → Prop) (routeIx : Nat) (fingerprint : String)
    (origin : Route F) (pair : Bool) : Prop :=
  (∃ routes, S routes ∧ routes[routeIx]? = some origin) ∧
    ∃ ch, origin.challenger = some ch ∧ ch.fingerprint dg origin.ladder = fingerprint ∧
      (pair = true → ch.isPaired = true)

def GenuineTrace (dg : Digest F) (S : List (Route F) → Prop) (t : Gathered F (Receipt F)) : Prop :=
  ∀ rec, t.value.experiment = some rec →
    Genuine dg S t.value.route rec.fingerprint t.origin false

namespace Pooled

variable {dg : Digest F} {S : List (Route F) → Prop} {s : Pooled F}

/-- The pool of an experiment holds all that the experiment counted, and nothing but evidence
that came with its fingerprint. -/
structure Sound (dg : Digest F) (S : List (Route F) → Prop) (s : Pooled F) : Prop where
  genuine : ∀ site : Site F, site.RunsIn s.monitor → ∀ piece ∈ s.pool site.tenant site.routeIx,
    Genuine dg S site.routeIx site.fingerprint piece.origin (isPair piece.value)
  counted : ∀ site : Site F, site.RunsIn s.monitor → testAt s.monitor site =
    ((s.pool site.tenant site.routeIx).map Gathered.value).foldl feed site.params.fresh.uncosted

theorem sound_fromConfig (params : List (Nat × Params F)) (replicaId : Uuid) :
    (fromConfig params replicaId).Sound dg S where
  genuine _ _ piece hpiece := by cases hpiece
  counted _ _ := rfl

theorem Sound.quiet (h : s.Sound dg S) {next : ExperimentMonitor F} (hq : Quiet s.monitor next) :
    Sound dg S { s with monitor := next } where
  genuine site hm := h.genuine site (by rwa [Site.RunsIn, ← hq.params])
  counted site hm := by
    have hm : site.RunsIn s.monitor := by rwa [Site.RunsIn, ← hq.params]
    exact (hq.same site hm).trans (h.counted site hm)

theorem Sound.offer (h : s.Sound dg S) {tenant : String} {routeIx : Nat} {fingerprint : String}
    {piece : Piece F} {next : ExperimentMonitor F}
    (ho : Offers s.monitor next tenant routeIx fingerprint piece.value)
    (hg : Genuine dg S routeIx fingerprint piece.origin (isPair piece.value)) :
    (s.offer tenant routeIx piece next).Sound dg S := by
  have hslot : ∀ site : Site F, site.RunsIn s.monitor →
      testAt next site = testAt s.monitor site ∧
        (s.offer tenant routeIx piece next).pool site.tenant site.routeIx =
          s.pool site.tenant site.routeIx ∨
      (site.routeIx = routeIx ∧ site.fingerprint = fingerprint ∧
        testAt next site = feed (testAt s.monitor site) piece.value) ∧
        (s.offer tenant routeIx piece next).pool site.tenant site.routeIx =
          s.pool site.tenant site.routeIx ++ [piece] := by
    intro site hm
    simp only [Pooled.offer, observedAt_eq]
    by_cases hat : site.IsAt tenant routeIx
    · have hat' : site.tenant = tenant ∧ site.routeIx = routeIx := ⟨hat.1.symm, hat.2.symm⟩
      obtain hsame | ⟨hfp, hfed⟩ := ho.counts site hm hat
      · exact .inl ⟨hsame, by rw [hsame, if_neg fun hmore => hmore.2 rfl]⟩
      · by_cases hmore : observed (testAt next site) = observed (testAt s.monitor site)
        · rw [if_neg fun hmore' => hmore'.2 hmore]
          rw [hfed] at hmore ⊢
          exact .inl ⟨feed_eq_of_observed hmore, rfl⟩
        · exact .inr ⟨⟨hat'.2, hfp, hfed⟩, if_pos ⟨hat', hmore⟩⟩
    · have hat' : ¬(site.tenant = tenant ∧ site.routeIx = routeIx) := fun hat' =>
        hat ⟨hat'.1.symm, hat'.2.symm⟩
      refine .inl ⟨?_, if_neg fun hmore => hat' hmore.1⟩
      simp only [testAt, ExperimentMonitor.at, ho.frame _ _ fun hhere => absurd hhere hat']
  have hruns : ∀ site : Site F, site.RunsIn next → site.RunsIn s.monitor := fun site hm => by
    rwa [Site.RunsIn, ← ho.params]
  constructor
  · intro site hm q hq
    obtain ⟨-, hpool⟩ | ⟨⟨rfl, rfl, -⟩, hpool⟩ := hslot site (hruns site hm)
    · exact h.genuine site (hruns site hm) q (hpool ▸ hq)
    · rw [hpool] at hq
      obtain hold | hnew := List.mem_append.mp hq
      · exact h.genuine site (hruns site hm) q hold
      · rwa [List.mem_singleton.mp hnew]
  · intro site hm
    have hbefore := h.counted site (hruns site hm)
    obtain ⟨hsame, hpool⟩ | ⟨⟨-, -, hfed⟩, hpool⟩ := hslot site (hruns site hm)
    · rw [hpool]
      exact hsame.trans hbefore
    · rw [hpool, List.map_append, List.foldl_append, ← hbefore]
      exact hfed

theorem Sound.observeOutcome (h : s.Sound dg S) (sessionHash : String → UInt64)
    {t : Gathered F (Receipt F)} (ht : GenuineTrace dg S t) (verdict : Verdict) :
    (s.observeOutcome sessionHash t verdict).Sound dg S := by
  simp only [Pooled.observeOutcome]
  split
  · next rec outcome hrec houtcome =>
    exact h.offer (observeOutcome_offers s.monitor sessionHash rec.arm t.value.sessionId houtcome)
      (ht rec hrec)
  · exact h

theorem Sound.applyPairLocally (h : s.Sound dg S) (tenant : String) {routeIx : Nat}
    {fingerprint : String} {r : Gathered F (PairRecord F)}
    (hr : Genuine dg S routeIx fingerprint r.origin true) :
    (s.applyPairLocally tenant routeIx fingerprint r).Sound dg S :=
  h.offer (applyPairLocally_offers s.monitor r.value.xInc r.value.xCh r.value.challengerCostUsd
    r.value.traceId) hr

theorem Sound.applyBatch (h : s.Sound dg S) (tenant : String) (routeIx : Nat)
    (fingerprint : String) (absIx : Nat) {records : List (Option (Gathered F (LogRecord F)))}
    (hrecords : ∀ g, some g ∈ records →
      Genuine dg S routeIx fingerprint g.origin (isPair g.value.item)) :
    (s.applyBatch tenant routeIx fingerprint absIx records).Sound dg S := by
  induction records generalizing s absIx with
  | nil => exact h
  | cons record records ih =>
    refine ih ?_ (absIx + 1) fun g hg => hrecords g (List.mem_cons_of_mem record hg)
    split
    · exact h
    · cases record with
      | none => exact h.quiet (advance_quiet _ absIx)
      | some g =>
        have hoffered : (s.applyLogRecord tenant routeIx fingerprint g).Sound dg S :=
          h.offer (applyLogRecord_offers s.monitor g.value) (hrecords g List.mem_cons_self)
        exact hoffered.quiet (advance_quiet _ absIx)

theorem sound_foldl {α : Type} {f : Pooled F → α → Pooled F} {as : List α}
    (hf : ∀ s : Pooled F, s.Sound dg S → ∀ a ∈ as, (f s a).Sound dg S) (h : s.Sound dg S) :
    (as.foldl f s).Sound dg S := by
  induction as generalizing s with
  | nil => exact h
  | cons a as ih =>
    exact ih (fun s hs a ha => hf s hs a (List.mem_cons_of_mem _ ha))
      (hf s h a List.mem_cons_self)

theorem sound_buildMonitorWith (sessionHash : String → UInt64) (params : List (Nat × Params F))
    (replicaId : Uuid) {traces : List (Gathered F (Receipt F))} (deferred : List (Uuid × Verdict))
    {pairs : List (Gathered F (ExperimentPairRow F))} (sharedLog : Bool)
    (htraces : ∀ t ∈ traces, GenuineTrace dg S t)
    (hpairs : ∀ row ∈ pairs,
      Genuine dg S row.value.routeIx row.value.fingerprint row.origin true) :
    (buildMonitorWith sessionHash params replicaId traces deferred pairs sharedLog).Sound dg S := by
  have hfrom : ∀ rows ⊆ pairs,
      (monitorFromTraces sessionHash params replicaId traces deferred rows).Sound dg S := by
    intro rows hrows
    simp only [monitorFromTraces]
    split
    · exact sound_fromConfig params replicaId
    · refine sound_foldl (fun s hs row hrow => ?_) (sound_foldl (fun s hs d _ => ?_)
        (sound_foldl (fun s hs t _ => hs.quiet (replayTrace_quiet s.monitor t.value))
          (sound_fromConfig params replicaId)))
      · exact hs.offer (replayPair_offers s.monitor row.value) (hpairs row (hrows hrow))
      · simp only [replayOutcome]
        cases hbyId : byId traces d.1 with
        | none => exact hs
        | some t =>
          have ht : t ∈ traces := by
            have hmem := List.mem_of_find?_eq_some hbyId
            exact List.mem_of_mem_filter (List.mem_reverse.mp hmem)
          exact hs.observeOutcome sessionHash (htraces t ht) d.2
  cases sharedLog with
  | false => exact hfrom pairs (List.Subset.refl pairs)
  | true =>
    refine (hfrom (pairs.filter _) (List.filter_subset_self _)).quiet ?_
    refine List.foldlRecOn pairs _ (Quiet.refl _) fun m hm row _ => hm.trans (.withEntry fun _ => rfl)

end Pooled

end Firstpass.ConfigHistory
