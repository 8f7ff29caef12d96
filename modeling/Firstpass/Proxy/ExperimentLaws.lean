import Firstpass.Core.SelectStats
import Firstpass.Proxy.Experiment

/-!
# The monitor seen from one experiment

What each operation of the monitor does to the entry of one tenant and route, and
what of an entry is evidence.
-/

namespace Firstpass.Monitor

open Select

variable {F : Type} [Field F] [LinearOrder F]

/-- A tenant and a route, with the parameters of the route's challenger. -/
structure Site (F : Type) [Field F] [LinearOrder F] where
  tenant : String
  routeIx : Nat
  params : Params F

namespace Site

variable (site : Site F)

def fingerprint : String := site.params.fingerprint

def IsAt (tenant : String) (routeIx : Nat) : Prop := tenant = site.tenant ∧ routeIx = site.routeIx

instance (tenant : String) (routeIx : Nat) : Decidable (site.IsAt tenant routeIx) :=
  inferInstanceAs (Decidable (_ ∧ _))

/-- The monitor runs the experiment of the site. -/
def RunsIn (m : ExperimentMonitor F) : Prop := m.params.lookup site.routeIx = some site.params

end Site

def ExperimentMonitor.at (m : ExperimentMonitor F) (site : Site F) : Entry F :=
  (m.entries site.tenant site.routeIx).getD (.new site.params)

-- ---------------------------------------------------------------------------
-- The operations at a site
-- ---------------------------------------------------------------------------

/-- The two tallies of a served request. -/
def Entry.serve (site : Site F) (e : Entry F) (t : Receipt F) : Entry F :=
  match t.experiment with
  | none => e
  | some rec =>
    if site.IsAt t.tenantId t.route then
      if rec.fingerprint = site.fingerprint then
        (e.observeCost rec.arm t.final.totalCostUsd).tallyHealth rec.arm
          (t.final.servedFrom = .error) (truncatedAttempts t)
      else e.stale
    else e

def Entry.remember (site : Site F) (e : Entry F) (t : Receipt F) : Entry F :=
  match t.experiment with
  | none => e
  | some rec =>
    if rec.arm = .incumbent ∧ site.IsAt t.tenantId t.route then e.rememberCosted t.traceId else e

/-- The outcome of a trace, as the experiment of the site counts it. -/
def Entry.feedback (sessionHash : String → UInt64) (site : Site F) (e : Entry F) (t : Receipt F)
    (verdict : Verdict) : Entry F :=
  match t.experiment, ExperimentMonitor.outcomeOf verdict with
  | some rec, some outcome =>
    if site.IsAt t.tenantId t.route ∧ rec.fingerprint = site.fingerprint then
      (e.observeOutcome rec.arm (sessionHash t.sessionId) outcome).1
    else e
  | _, _ => e

def Entry.replayOutcome (sessionHash : String → UInt64) (site : Site F) (traces : List (Receipt F))
    (e : Entry F) (d : Uuid × Verdict) : Entry F :=
  match ExperimentMonitor.byId traces d.1 with
  | none => e
  | some t => e.feedback sessionHash site t d.2

def Entry.replayRow (site : Site F) (e : Entry F) (row : ExperimentPairRow F) : Entry F :=
  if site.IsAt row.tenant row.routeIx then
    if row.fingerprint = site.fingerprint then e.replayPair row else e.stale
  else e

namespace ExperimentMonitor

variable {m : ExperimentMonitor F} {site : Site F}

@[simp] theorem setEntry_params (tenant : String) (routeIx : Nat) (e : Entry F) :
    (m.setEntry tenant routeIx e).params = m.params := rfl

@[simp] theorem setEntry_replicaId (tenant : String) (routeIx : Nat) (e : Entry F) :
    (m.setEntry tenant routeIx e).replicaId = m.replicaId := rfl

@[simp] theorem setEntry_at (tenant : String) (routeIx : Nat) (e : Entry F) :
    (m.setEntry tenant routeIx e).at site = if site.IsAt tenant routeIx then e else m.at site := by
  simp only [setEntry, ExperimentMonitor.at]
  by_cases h : site.IsAt tenant routeIx
  · obtain ⟨rfl, rfl⟩ := h
    simp [Site.IsAt]
  · have h' : ¬(site.tenant = tenant ∧ site.routeIx = routeIx) := fun h' => h ⟨h'.1.symm, h'.2.symm⟩
    simp [h, h']

theorem entry_eq (hm : site.RunsIn m) : m.entry site.tenant site.routeIx = some (m.at site) := by
  rw [entry, show m.params.lookup site.routeIx = _ from hm]
  rfl

@[simp] theorem withEntry_params (tenant : String) (routeIx : Nat) (f : Entry F → Entry F) :
    (m.withEntry tenant routeIx f).params = m.params := by
  simp only [withEntry]
  split <;> rfl

@[simp] theorem withEntry_replicaId (tenant : String) (routeIx : Nat) (f : Entry F → Entry F) :
    (m.withEntry tenant routeIx f).replicaId = m.replicaId := by
  simp only [withEntry]
  split <;> rfl

theorem withEntry_at (hm : site.RunsIn m) (tenant : String) (routeIx : Nat)
    (f : Entry F → Entry F) : (m.withEntry tenant routeIx f).at site =
      if site.IsAt tenant routeIx then f (m.at site) else m.at site := by
  by_cases h : site.IsAt tenant routeIx
  · obtain ⟨rfl, rfl⟩ := h
    simp [withEntry, entry_eq hm, Site.IsAt]
  · simp only [withEntry, h, if_false]
    split
    · rw [setEntry_at, if_neg h]
    · rfl

theorem fingerprint_at (hm : site.RunsIn m) : m.fingerprint site.routeIx = some site.fingerprint := by
  rw [fingerprint, show m.params.lookup site.routeIx = _ from hm]
  rfl

theorem fingerprint_eq_iff (hm : site.RunsIn m) {tenant : String} {routeIx : Nat}
    (h : site.IsAt tenant routeIx) (fp : String) :
    m.fingerprint routeIx = some fp ↔ fp = site.fingerprint := by
  rw [h.2, fingerprint_at hm, Option.some_inj, eq_comm]

/-- The operation `f` of the monitor is the operation `g` of the site's entry. -/
def Tracks (site : Site F) (f : ExperimentMonitor F → ExperimentMonitor F)
    (g : Entry F → Entry F) : Prop :=
  ∀ m, site.RunsIn m → site.RunsIn (f m) ∧ (f m).at site = g (m.at site)

theorem Tracks.foldl {α : Type} {f : ExperimentMonitor F → α → ExperimentMonitor F}
    {g : Entry F → α → Entry F} (h : ∀ a, Tracks site (f · a) (g · a)) (as : List α) :
    Tracks site (as.foldl f) (as.foldl g) := by
  induction as with
  | nil => exact fun m hm => ⟨hm, rfl⟩
  | cons a as ih =>
    intro m hm
    obtain ⟨hrun, hat⟩ := h a m hm
    obtain ⟨hrun', hat'⟩ := ih (f m a) hrun
    exact ⟨hrun', hat'.trans (congrArg (as.foldl g ·) hat)⟩

theorem Tracks.withEntry (tenant : String) (routeIx : Nat) (f : Entry F → Entry F) :
    Tracks site (·.withEntry tenant routeIx f)
      fun e => if site.IsAt tenant routeIx then f e else e := by
  intro m hm
  refine ⟨?_, withEntry_at hm tenant routeIx f⟩
  rwa [Site.RunsIn, withEntry_params]

theorem observeCost_tracks (tenant : String) (routeIx : Nat) (fp : String) (arm : Arm) (usd : F) :
    Tracks site (·.observeCost tenant routeIx fp arm usd) fun e =>
      if site.IsAt tenant routeIx then
        if fp = site.fingerprint then e.observeCost arm usd else e.stale
      else e := by
  intro m hm
  obtain ⟨hrun, hat⟩ := Tracks.withEntry tenant routeIx
    (fun e => if m.fingerprint routeIx = some fp then e.observeCost arm usd else e.stale) m hm
  refine ⟨hrun, hat.trans ?_⟩
  by_cases h : site.IsAt tenant routeIx
  · simp only [h, if_true, fingerprint_eq_iff hm h]
  · simp only [h, if_false]

/-- An operation that a monitor refuses under another fingerprint. -/
theorem Tracks.current (tenant : String) (routeIx : Nat) (fp : String) (f : Entry F → Entry F) :
    Tracks site
      (fun m => if m.fingerprint routeIx ≠ some fp then m else m.withEntry tenant routeIx f)
      fun e => if site.IsAt tenant routeIx ∧ fp = site.fingerprint then f e else e := by
  intro m hm
  dsimp only
  split
  · next hstale =>
    refine ⟨hm, ?_⟩
    rw [if_neg]
    rintro ⟨hsite, hfp⟩
    exact hstale ((fingerprint_eq_iff hm hsite fp).mpr hfp)
  · next hstale =>
    have hfp : m.fingerprint routeIx = some fp := not_not.mp hstale
    obtain ⟨hrun, hat⟩ := Tracks.withEntry tenant routeIx f m hm
    refine ⟨hrun, hat.trans ?_⟩
    by_cases h : site.IsAt tenant routeIx
    · simp only [h, if_true, (fingerprint_eq_iff hm h fp).mp hfp, and_self]
    · simp only [h, if_false, false_and]

theorem observeHealth_tracks (tenant : String) (routeIx : Nat) (fp : String) (arm : Arm)
    (errored : Bool) (truncated : Nat) :
    Tracks site (·.observeHealth tenant routeIx fp arm errored truncated) fun e =>
      if site.IsAt tenant routeIx ∧ fp = site.fingerprint then
        e.tallyHealth arm errored truncated
      else e := by
  by_cases hquiet : errored = false ∧ truncated = 0
  · simp only [observeHealth, Entry.tallyHealth, hquiet, and_self, true_or, if_true, ite_self]
    exact fun m hm => ⟨hm, rfl⟩
  · simp only [observeHealth, hquiet, false_or]
    exact Tracks.current tenant routeIx fp _

theorem tallyTrace_tracks {t : Receipt F} {rec : ExperimentRecord F}
    (ht : t.experiment = some rec) : Tracks site (·.tallyTrace t rec) (·.serve site t) := by
  intro m hm
  obtain ⟨hcost, hcostAt⟩ := observeCost_tracks t.tenantId t.route rec.fingerprint rec.arm
    t.final.totalCostUsd m hm
  obtain ⟨hrun, hat⟩ := observeHealth_tracks t.tenantId t.route rec.fingerprint rec.arm
    (t.final.servedFrom = .error) (truncatedAttempts t) _ hcost
  refine ⟨hrun, hat.trans ?_⟩
  simp only [hcostAt, Entry.serve, ht]
  by_cases h : site.IsAt t.tenantId t.route
  · by_cases hfp : rec.fingerprint = site.fingerprint
    · simp only [h, hfp, and_self, if_true]
    · simp only [h, hfp, and_false, if_true, if_false]
  · simp only [h, false_and, if_false]

theorem replayTrace_tracks (t : Receipt F) :
    Tracks site (·.replayTrace t) fun e => (e.serve site t).remember site t := by
  intro m hm
  cases ht : t.experiment with
  | none =>
    simp only [replayTrace, ht]
    refine ⟨hm, ?_⟩
    simp only [Entry.serve, Entry.remember, ht]
  | some rec =>
    obtain ⟨htally, htallyAt⟩ := tallyTrace_tracks ht m hm
    simp only [replayTrace, ht]
    split
    · next harm =>
      obtain ⟨hrun, hat⟩ := Tracks.withEntry t.tenantId t.route
        (fun e => e.rememberCosted t.traceId) _ htally
      refine ⟨hrun, hat.trans ?_⟩
      simp only [htallyAt, Entry.remember, ht, harm, true_and]
    · next harm =>
      refine ⟨htally, htallyAt.trans ?_⟩
      simp only [Entry.remember, ht, harm, false_and, if_false]

theorem observeOutcome_eq (sessionHash : String → UInt64) (m : ExperimentMonitor F)
    (tenant : String) (routeIx : Nat) (fp : String) (arm : Arm) (sessionId : String)
    (verdict : Verdict) :
    (m.observeOutcome sessionHash tenant routeIx fp arm sessionId verdict).1 =
      match outcomeOf verdict with
      | none => m
      | some outcome =>
        if m.fingerprint routeIx ≠ some fp then m
        else m.withEntry tenant routeIx fun e =>
          (e.observeOutcome arm (sessionHash sessionId) outcome).1 := by
  simp only [observeOutcome, withEntry]
  cases (outcomeOf verdict : Option F) with
  | none => simp
  | some outcome =>
    dsimp only
    cases m.entry tenant routeIx <;> split <;> rfl

theorem outcome_tracks (sessionHash : String → UInt64) (tenant : String) (routeIx : Nat)
    (fp : String) (arm : Arm) (sessionId : String) (verdict : Verdict) :
    Tracks site
      (fun m => (m.observeOutcome sessionHash tenant routeIx fp arm sessionId verdict).1)
      fun e =>
        match outcomeOf verdict with
        | none => e
        | some outcome =>
          if site.IsAt tenant routeIx ∧ fp = site.fingerprint then
            (e.observeOutcome arm (sessionHash sessionId) outcome).1
          else e := by
  simp only [observeOutcome_eq]
  cases (outcomeOf verdict : Option F) with
  | none => exact fun m hm => ⟨hm, rfl⟩
  | some outcome => exact Tracks.current tenant routeIx fp _

theorem observeOutcome_tracks (sessionHash : String → UInt64) {t : Receipt F}
    {rec : ExperimentRecord F} (ht : t.experiment = some rec) (verdict : Verdict) :
    Tracks site
      (fun m => (m.observeOutcome sessionHash t.tenantId t.route rec.fingerprint rec.arm
        t.sessionId verdict).1)
      (·.feedback sessionHash site t verdict) := by
  have htracks : Tracks site _ _ :=
    outcome_tracks sessionHash t.tenantId t.route rec.fingerprint rec.arm t.sessionId verdict
  simp only [Entry.feedback, ht]
  cases houtcome : (outcomeOf verdict : Option F) with
  | none => simpa only [houtcome] using htracks
  | some outcome => simpa only [houtcome] using htracks

theorem applyPairLocally_eq (m : ExperimentMonitor F) (tenant : String) (routeIx : Nat)
    (fp : String) (x y usd : F) (traceId : Uuid) :
    (m.applyPairLocally tenant routeIx fp x y usd traceId).1 =
      if m.fingerprint routeIx ≠ some fp then m
      else m.withEntry tenant routeIx fun e => (e.applyPairLocally x y usd traceId).1 := by
  simp only [applyPairLocally, withEntry]
  cases m.entry tenant routeIx <;> split <;> rfl

theorem applyPairLocally_tracks (tenant : String) (routeIx : Nat) (fp : String)
    (x y usd : F) (traceId : Uuid) :
    Tracks site (fun m => (m.applyPairLocally tenant routeIx fp x y usd traceId).1) fun e =>
      if site.IsAt tenant routeIx ∧ fp = site.fingerprint then
        (e.applyPairLocally x y usd traceId).1
      else e := by
  simp only [applyPairLocally_eq]
  exact Tracks.current tenant routeIx fp _

theorem replayOutcome_tracks (sessionHash : String → UInt64) (traces : List (Receipt F))
    (d : Uuid × Verdict) :
    Tracks site (·.replayOutcome sessionHash traces d)
      (Entry.replayOutcome sessionHash site traces · d) := by
  intro m hm
  cases hbyId : byId traces d.1 with
  | none =>
    simp only [replayOutcome, Entry.replayOutcome, hbyId]
    exact ⟨hm, trivial⟩
  | some t =>
    cases ht : t.experiment with
    | none =>
      simp only [replayOutcome, Entry.replayOutcome, hbyId, ht, Entry.feedback]
      exact ⟨hm, trivial⟩
    | some rec =>
      simp only [replayOutcome, Entry.replayOutcome, hbyId, ht]
      exact observeOutcome_tracks sessionHash ht d.2 m hm

theorem replayPair_tracks (row : ExperimentPairRow F) :
    Tracks site (·.replayPair row) (·.replayRow site row) := by
  intro m hm
  obtain ⟨hrun, hat⟩ := Tracks.withEntry row.tenant row.routeIx
    (fun e => if m.fingerprint row.routeIx = some row.fingerprint then e.replayPair row
      else e.stale) m hm
  refine ⟨hrun, hat.trans ?_⟩
  simp only [Entry.replayRow]
  by_cases h : site.IsAt row.tenant row.routeIx
  · simp only [h, if_true, fingerprint_eq_iff hm h]
  · simp only [h, if_false]

theorem fromConfig_at (params : List (Nat × Params F)) (replicaId : Uuid) :
    (fromConfig params replicaId).at site = .new site.params := rfl

end ExperimentMonitor

/-- The startup replay of the site's entry. -/
def Entry.replay (sessionHash : String → UInt64) (site : Site F) (traces : List (Receipt F))
    (deferred : List (Uuid × Verdict)) (pairs : List (ExperimentPairRow F)) : Entry F :=
  pairs.foldl (Entry.replayRow site)
    (deferred.foldl (Entry.replayOutcome sessionHash site traces)
      (traces.foldl (fun e t => (e.serve site t).remember site t) (.new site.params)))

namespace ExperimentMonitor

variable {site : Site F} (sessionHash : String → UInt64) {params : List (Nat × Params F)}
  (hparams : params.lookup site.routeIx = some site.params)
include hparams

theorem monitorFromTraces_at (replicaId : Uuid) (traces : List (Receipt F))
    (deferred : List (Uuid × Verdict)) (pairs : List (ExperimentPairRow F)) :
    site.RunsIn (monitorFromTraces sessionHash params replicaId traces deferred pairs) ∧
    (monitorFromTraces sessionHash params replicaId traces deferred pairs).at site =
      .replay sessionHash site traces deferred pairs := by
  have hactive : (fromConfig params replicaId).isActive ≠ false := by
    cases params with
    | nil => cases hparams
    | cons p params => simp [fromConfig, isActive]
  rw [monitorFromTraces, if_neg hactive]
  obtain ⟨htraces, htracesAt⟩ :=
    Tracks.foldl replayTrace_tracks traces (fromConfig params replicaId) hparams
  obtain ⟨hdeferred, hdeferredAt⟩ :=
    Tracks.foldl (replayOutcome_tracks sessionHash traces) deferred _ htraces
  obtain ⟨hpairs, hpairsAt⟩ := Tracks.foldl replayPair_tracks pairs _ hdeferred
  refine ⟨hpairs, ?_⟩
  rw [hpairsAt, hdeferredAt, htracesAt, fromConfig_at, Entry.replay]

/-- The rows that a restart with a shared log replays. -/
theorem buildMonitorWith_at (replicaId : Uuid) (traces : List (Receipt F))
    (deferred : List (Uuid × Verdict)) (pairs : List (ExperimentPairRow F)) (sharedLog : Bool) :
    site.RunsIn (buildMonitorWith sessionHash params replicaId traces deferred pairs sharedLog) ∧
    (buildMonitorWith sessionHash params replicaId traces deferred pairs sharedLog).at site =
      .replay sessionHash site traces deferred
        (if sharedLog then pairs.filter (·.inLog = .notInLog) else pairs) := by
  cases sharedLog with
  | false => exact monitorFromTraces_at sessionHash hparams replicaId traces deferred pairs
  | true =>
    obtain ⟨hrun, hat⟩ := monitorFromTraces_at sessionHash hparams replicaId traces deferred
      (pairs.filter (·.inLog = .notInLog))
    obtain ⟨hrun', hat'⟩ := Tracks.foldl (fun row : ExperimentPairRow F =>
      Tracks.withEntry row.tenant row.routeIx id) pairs _ hrun
    refine ⟨hrun', hat'.trans (Eq.trans ?_ hat)⟩
    simp

end ExperimentMonitor

end Firstpass.Monitor
