import Firstpass.Proxy.MonitorRuns

/-!
# The syncs of a replica

The challenger arm may serve only while `ensure_synced` answers that the replica's state is fresh.
A sync reads the log between two locked steps, and other syncs, appends and observations come in
between. A call that times out fails. Clock readings are in nanoseconds.

Left out: the warning that is logged once an outage, and the order in which a gate lets waiting
calls in.
-/

namespace Firstpass.ClusterSync

open Select Monitor

variable {F : Type} [Field F] [LinearOrder F]

/-- `SYNC_FAILURE_COOLDOWN` -/
def syncFailureCooldown : Nat := 5 * 10 ^ 9

/-- `SYNC_STALENESS_BOUND` -/
def syncStalenessBound : Nat := 30 * 10 ^ 9

/-- Who syncs: a request through a gate, the timer, or who has recorded an outcome or a pair. -/
inductive Caller
  | request (gate : Nat)
  | background
  | record

/-- How far a call is. What has been loaded may be on its way still. -/
inductive Phase (F : Type)
  | queued
  | admitted
  | begun (offset : Nat)
  | loaded (offset : Nat) (records : List (Option (LogRecord F)))

structure SyncCall (F : Type) where
  caller : Caller
  tenant : String
  routeIx : Nat
  fingerprint : String
  phase : Phase F

structure Live (F : Type) [Field F] [LinearOrder F] where
  running : Running F
  unavailable : Bool
  lastSyncedAt : String → Nat → Option Nat
  syncFailedAt : String → Nat → Option Nat
  syncGates : String → Nat → Option Nat
  nextGate : Nat
  locked : Nat → Bool
  calls : Nat → Option (SyncCall F)

/-- Each call has a number of its own as long as it runs. -/
inductive Step (F : Type)
  | observe (tenant : String) (routeIx : Nat) (fingerprint : String) (input : Input F)
  | append (tenant : String) (routeIx : Nat) (fingerprint : String)
    (record : Option (LogRecord F))
  | ensure (call : Nat) (tenant : String) (routeIx : Nat) (fingerprint : String)
  | enter (call : Nat)
  | spawn (call : Nat) (background : Bool) (tenant : String) (routeIx : Nat) (fingerprint : String)
  | begin (call : Nat)
  | load (call : Nat)
  | finish (call : Nat)
  | fail (call : Nat)

structure Event (F : Type) where
  now : Nat
  step : Step F

/-- What `ensure_synced` returns. -/
structure Answer where
  tenant : String
  routeIx : Nat
  synced : Bool
  deriving DecidableEq

/-- One place of a table by tenant and route is set. -/
def setAt {α : Type} (table : String → Nat → Option α) (tenant : String) (routeIx : Nat)
    (value : Option α) : String → Nat → Option α :=
  fun t r => if t = tenant ∧ r = routeIx then value else table t r

namespace Live

variable (s : Live F)

def setMonitor (m : ExperimentMonitor F) : Live F :=
  { s with running := { s.running with monitor := m } }

def setCall (call : Nat) (c : Option (SyncCall F)) : Live F :=
  { s with calls := fun k => if k = call then c else s.calls k }

def setLocked (gate : Nat) (isLocked : Bool) : Live F :=
  { s with locked := fun g => if g = gate then isLocked else s.locked g }

/-- The call is over, and so is its hold on a gate. -/
def release (call : Nat) : Caller → Live F
  | .request gate => (s.setLocked gate false).setCall call none
  | _ => s.setCall call none

def hasEntry (tenant : String) (routeIx : Nat) : Bool :=
  (s.running.monitor.entries tenant routeIx).isSome

def stampSynced (tenant : String) (routeIx now : Nat) : Live F :=
  if s.hasEntry tenant routeIx then
    { s with
      lastSyncedAt := setAt s.lastSyncedAt tenant routeIx (some now)
      syncFailedAt := setAt s.syncFailedAt tenant routeIx none }
  else s

def stampFailed (tenant : String) (routeIx now : Nat) : Live F :=
  if s.hasEntry tenant routeIx then
    { s with syncFailedAt := setAt s.syncFailedAt tenant routeIx (some now) }
  else s

/-- What the stamps of an entry say, if anything. A time elapsed is never negative. -/
def look (tenant : String) (routeIx now : Nat) : Option Bool :=
  if (s.lastSyncedAt tenant routeIx).any fun t => now - t ≤ syncStalenessBound then some true
  else if (s.syncFailedAt tenant routeIx).any fun t => now - t < syncFailureCooldown then
    some false
  else none

/-- The gate of a tenant and route, made at its first use. -/
def gate (tenant : String) (routeIx : Nat) : Live F × Nat :=
  match s.syncGates tenant routeIx with
  | some gate => (s, gate)
  | none =>
    ({ s with
        syncGates := setAt s.syncGates tenant routeIx (some s.nextGate)
        nextGate := s.nextGate + 1 }, s.nextGate)

-- ---------------------------------------------------------------------------
-- `ensure_synced`, up to its sync
-- ---------------------------------------------------------------------------

/-- The quick path. A call that it does not answer goes on to its gate. -/
def ensure (now call : Nat) (tenant : String) (routeIx : Nat) (fingerprint : String) :
    Live F × Option Answer :=
  if (s.calls call).isSome then (s, none)
  else if s.running.sharedLog = false then (s, some ⟨tenant, routeIx, true⟩)
  else
    match s.running.monitor.entry tenant routeIx with
    | none => (s, some ⟨tenant, routeIx, true⟩)
    | some _ =>
      let s := s.setMonitor (s.running.monitor.withEntry tenant routeIx id)
      match s.look tenant routeIx now with
      | some synced => (s, some ⟨tenant, routeIx, synced⟩)
      | none =>
        let (s, gate) := s.gate tenant routeIx
        (s.setCall call (some ⟨.request gate, tenant, routeIx, fingerprint, .queued⟩), none)

/-- A call that its gate lets in looks again. -/
def enter (now call : Nat) : Live F × Option Answer :=
  match s.calls call with
  | some ⟨.request gate, tenant, routeIx, fingerprint, .queued⟩ =>
    if s.locked gate then (s, none)
    else
      match s.look tenant routeIx now with
      | some synced => (s.setCall call none, some ⟨tenant, routeIx, synced⟩)
      | none =>
        ((s.setLocked gate true).setCall call
          (some ⟨.request gate, tenant, routeIx, fingerprint, .admitted⟩), none)
  | _ => (s, none)

-- ---------------------------------------------------------------------------
-- `sync_from_backend`, and what its callers make of it
-- ---------------------------------------------------------------------------

/-- A sync off the request path. -/
def spawn (call : Nat) (background : Bool) (tenant : String) (routeIx : Nat)
    (fingerprint : String) : Live F :=
  if (s.calls call).isSome ∨ s.running.sharedLog = false then s
  else
    s.setCall call
      (some ⟨if background then .background else .record, tenant, routeIx, fingerprint, .admitted⟩)

/-- The entry is made and its offset read. -/
def begin (call : Nat) : Live F :=
  match s.calls call with
  | some ⟨caller, tenant, routeIx, fingerprint, .admitted⟩ =>
    let m := s.running.monitor.withEntry tenant routeIx id
    (s.setMonitor m).setCall call
      (some ⟨caller, tenant, routeIx, fingerprint, .begun (m.syncOffset tenant routeIx)⟩)
  | _ => s

/-- `load_since`, as the backend answers it. -/
def load (call : Nat) : Live F :=
  match s.calls call with
  | some ⟨caller, tenant, routeIx, fingerprint, .begun offset⟩ =>
    let records := (s.running.logs tenant routeIx fingerprint).drop offset
    s.setCall call (some ⟨caller, tenant, routeIx, fingerprint, .loaded offset records⟩)
  | _ => s

/-- What has been loaded is applied, and the entry is stamped. -/
def finish (now call : Nat) : Live F × Option Answer :=
  match s.calls call with
  | some ⟨caller, tenant, routeIx, fingerprint, .loaded offset records⟩ =>
    let m := s.running.monitor.applyBatch tenant routeIx fingerprint offset records
    let s := (s.setMonitor m).stampSynced tenant routeIx now
    let s := s.release call caller
    match caller with
    | .request _ =>
      ({ s with syncGates := setAt s.syncGates tenant routeIx none },
        some ⟨tenant, routeIx, true⟩)
    | _ => (s, none)
  | _ => (s, none)

/-- The log cannot be read, or the call times out. -/
def fail (now call : Nat) : Live F × Option Answer :=
  match s.calls call with
  | some ⟨_, _, _, _, .queued⟩ | some ⟨_, _, _, _, .admitted⟩ | none => (s, none)
  | some ⟨.request gate, tenant, routeIx, _, _⟩ =>
    let s := s.setMonitor (s.running.monitor.withEntry tenant routeIx id)
    ((s.stampFailed tenant routeIx now).release call (.request gate),
      some ⟨tenant, routeIx, false⟩)
  | some ⟨.background, tenant, routeIx, _, _⟩ =>
    ((s.stampFailed tenant routeIx now).release call .background, none)
  | some ⟨.record, _, _, _, _⟩ => (s.release call .record, none)

-- ---------------------------------------------------------------------------
-- Runs
-- ---------------------------------------------------------------------------

def occur (sessionHash : String → UInt64) (stamped : Stamped F) : Live F :=
  { s with running := s.running.occur sessionHash stamped }

def step (sessionHash : String → UInt64) (e : Event F) : Live F × Option Answer :=
  match e.step with
  | .observe tenant routeIx fingerprint input =>
    (s.occur sessionHash ⟨tenant, routeIx, fingerprint, .observe input⟩, none)
  | .append tenant routeIx fingerprint record =>
    (s.occur sessionHash ⟨tenant, routeIx, fingerprint, .append record⟩, none)
  | .ensure call tenant routeIx fingerprint => s.ensure e.now call tenant routeIx fingerprint
  | .enter call => s.enter e.now call
  | .spawn call background tenant routeIx fingerprint =>
    (s.spawn call background tenant routeIx fingerprint, none)
  | .begin call => (s.begin call, none)
  | .load call => (s.load call, none)
  | .finish call => s.finish e.now call
  | .fail call => s.fail e.now call

/-- `challenger_blocked` -/
def challengerBlocked (tenant : String) (routeIx : Nat) : Bool :=
  s.unavailable || s.running.monitor.status tenant routeIx = .halted

end Live

/-- The start of a replica. What its log holds by then is appended first. -/
def start (d : Deployment F) (b : Boot F) (unavailable : Bool) : Live F where
  running := b.running d true
  unavailable := unavailable
  lastSyncedAt := fun _ _ => none
  syncFailedAt := fun _ _ => none
  syncGates := fun _ _ => none
  nextGate := 0
  locked := fun _ => false
  calls := fun _ => none

def run (d : Deployment F) (b : Boot F) (unavailable : Bool) (history : List (Event F)) : Live F :=
  history.foldl (fun s e => (s.step d.sessionHash e).1) (start d b unavailable)

theorem run_concat (d : Deployment F) (b : Boot F) (unavailable : Bool) (history : List (Event F))
    (e : Event F) : run d b unavailable (history ++ [e]) =
      ((run d b unavailable history).step d.sessionHash e).1 := by
  rw [run, List.foldl_append]
  rfl

/-- The arm of a session, from the arm it is assigned to. -/
def servedArm (paired : Bool) (assigned : Arm) (synced blocked : Bool) : Arm :=
  if paired ∨ (synced = false ∧ paired = false ∧ assigned = .challenger) ∨
      (assigned = .challenger ∧ blocked) then .incumbent
  else assigned

-- ---------------------------------------------------------------------------
-- What a step can do
-- ---------------------------------------------------------------------------

/-- The call is between the two locked steps of its sync. -/
def SyncCall.Syncing (c : SyncCall F) : Prop :=
  match c.phase with
  | .queued | .admitted => False
  | .begun _ | .loaded .. => True

def SyncCall.log (c : SyncCall F) : String × Nat × String := (c.tenant, c.routeIx, c.fingerprint)

/-- The log that a new call is to read. -/
def Step.opens : Step F → Option (String × Nat × String)
  | .ensure _ tenant routeIx fingerprint => some (tenant, routeIx, fingerprint)
  | .spawn _ _ tenant routeIx fingerprint => some (tenant, routeIx, fingerprint)
  | _ => none

/-- What a step does, but for the gates and the stamps of failures. -/
inductive Moves (sessionHash : String → UInt64) (s : Live F) (e : Event F) (s' : Live F) : Prop
  | observe (tenant : String) (routeIx : Nat) (fingerprint : String) (input : Input F)
    (hstep : e.step = .observe tenant routeIx fingerprint input)
    (hs : s' = s.occur sessionHash ⟨tenant, routeIx, fingerprint, .observe input⟩)
  | append (tenant : String) (routeIx : Nat) (fingerprint : String)
    (record : Option (LogRecord F))
    (hs : s' = s.occur sessionHash ⟨tenant, routeIx, fingerprint, .append record⟩)
  | idle (hrunning : s'.running = s.running ∨ ∃ tenant routeIx,
      s'.running = (s.setMonitor (s.running.monitor.withEntry tenant routeIx id)).running)
    (hstamps : s'.lastSyncedAt = s.lastSyncedAt)
    (hcalls : ∀ call c, s'.calls call = some c → s.calls call = some c ∨ ¬ c.Syncing ∧
      (e.step.opens = some c.log ∨ ∃ c', s.calls call = some c' ∧ c'.log = c.log))
  | begin (call : Nat) (caller : Caller) (tenant : String) (routeIx : Nat) (fingerprint : String)
    (hcall : s.calls call = some ⟨caller, tenant, routeIx, fingerprint, .admitted⟩)
    (hs : let m := s.running.monitor.withEntry tenant routeIx id
      s' = (s.setMonitor m).setCall call
        (some ⟨caller, tenant, routeIx, fingerprint, .begun (m.syncOffset tenant routeIx)⟩))
  | load (call : Nat) (caller : Caller) (tenant : String) (routeIx : Nat) (fingerprint : String)
    (offset : Nat)
    (hcall : s.calls call = some ⟨caller, tenant, routeIx, fingerprint, .begun offset⟩)
    (hs : s' = s.setCall call (some ⟨caller, tenant, routeIx, fingerprint,
      .loaded offset ((s.running.logs tenant routeIx fingerprint).drop offset)⟩))
  | finish (call : Nat) (caller : Caller) (tenant : String) (routeIx : Nat) (fingerprint : String)
    (offset : Nat) (records : List (Option (LogRecord F))) (hstep : e.step = .finish call)
    (hcall : s.calls call = some ⟨caller, tenant, routeIx, fingerprint, .loaded offset records⟩)
    (hrunning : s'.running = (s.setMonitor
      (s.running.monitor.applyBatch tenant routeIx fingerprint offset records)).running)
    (hstamps : s'.lastSyncedAt = if s'.hasEntry tenant routeIx then
      setAt s.lastSyncedAt tenant routeIx (some e.now) else s.lastSyncedAt)
    (hcalls : ∀ call c, s'.calls call = some c → s.calls call = some c)

section moves
variable (sessionHash : String → UInt64) (s : Live F)

theorem calls_setCall {call k : Nat} {c : Option (SyncCall F)} {c' : SyncCall F}
    (h : (s.setCall call c).calls k = some c') : k = call ∧ c = some c' ∨ s.calls k = some c' := by
  simp only [Live.setCall] at h
  split at h
  · next hk => exact .inl ⟨hk, h⟩
  · exact .inr h

theorem calls_release {call k : Nat} {caller : Caller} {c : SyncCall F}
    (h : (s.release call caller).calls k = some c) : s.calls k = some c := by
  cases caller with
  | request gate => exact (calls_setCall _ h).resolve_left nofun
  | background => exact (calls_setCall _ h).resolve_left nofun
  | record => exact (calls_setCall _ h).resolve_left nofun

@[simp] theorem running_release (call : Nat) (caller : Caller) :
    (s.release call caller).running = s.running := by cases caller <;> rfl

@[simp] theorem lastSyncedAt_release (call : Nat) (caller : Caller) :
    (s.release call caller).lastSyncedAt = s.lastSyncedAt := by cases caller <;> rfl

@[simp] theorem running_stampFailed (tenant : String) (routeIx now : Nat) :
    (s.stampFailed tenant routeIx now).running = s.running := by
  rw [Live.stampFailed]
  split <;> rfl

@[simp] theorem lastSyncedAt_stampFailed (tenant : String) (routeIx now : Nat) :
    (s.stampFailed tenant routeIx now).lastSyncedAt = s.lastSyncedAt := by
  rw [Live.stampFailed]
  split <;> rfl

@[simp] theorem calls_stampFailed (tenant : String) (routeIx now : Nat) :
    (s.stampFailed tenant routeIx now).calls = s.calls := by
  rw [Live.stampFailed]
  split <;> rfl

@[simp] theorem running_stampSynced (tenant : String) (routeIx now : Nat) :
    (s.stampSynced tenant routeIx now).running = s.running := by
  rw [Live.stampSynced]
  split <;> rfl

@[simp] theorem calls_stampSynced (tenant : String) (routeIx now : Nat) :
    (s.stampSynced tenant routeIx now).calls = s.calls := by
  rw [Live.stampSynced]
  split <;> rfl

theorem lastSyncedAt_stampSynced (tenant : String) (routeIx now : Nat) :
    (s.stampSynced tenant routeIx now).lastSyncedAt = if s.hasEntry tenant routeIx then
      setAt s.lastSyncedAt tenant routeIx (some now) else s.lastSyncedAt := by
  rw [Live.stampSynced]
  split <;> rfl

/-- Nothing happens. -/
theorem Moves.refl (e : Event F) : Moves sessionHash s e s :=
  .idle (.inl rfl) rfl fun _ _ h => .inl h

section
variable {sessionHash s} {e : Event F}

/-- A call is set that is not reading yet. -/
theorem setCall_moves {s' : Live F} {call : Nat} {c : Option (SyncCall F)}
    (hrunning : s'.running = s.running ∨ ∃ tenant routeIx,
      s'.running = (s.setMonitor (s.running.monitor.withEntry tenant routeIx id)).running)
    (hstamps : s'.lastSyncedAt = s.lastSyncedAt) (hcalls : s'.calls = s.calls)
    (hnew : ∀ c' ∈ c, ¬ c'.Syncing ∧
      (e.step.opens = some c'.log ∨ ∃ old, s.calls call = some old ∧ old.log = c'.log)) :
    Moves sessionHash s e (s'.setCall call c) := by
  refine .idle hrunning hstamps fun k c' h => ?_
  rcases calls_setCall _ h with ⟨rfl, hc⟩ | h
  · exact .inr (hnew c' hc)
  · exact .inl (hcalls ▸ h)

/-- A call is over that has not been applied. -/
theorem release_moves {s' : Live F} {call : Nat} {caller : Caller}
    (hrunning : s'.running = s.running ∨ ∃ tenant routeIx,
      s'.running = (s.setMonitor (s.running.monitor.withEntry tenant routeIx id)).running)
    (hstamps : s'.lastSyncedAt = s.lastSyncedAt) (hcalls : s'.calls = s.calls) :
    Moves sessionHash s e (s'.release call caller) := by
  refine .idle ?_ ?_ fun k c h => .inl (hcalls ▸ calls_release s' h)
  · rwa [running_release]
  · rwa [lastSyncedAt_release]

theorem ensure_moves {call : Nat} {tenant : String} {routeIx : Nat} {fingerprint : String}
    (hstep : e.step = .ensure call tenant routeIx fingerprint) :
    Moves sessionHash s e (s.ensure e.now call tenant routeIx fingerprint).1 := by
  simp only [Live.ensure]
  split_ifs
  · exact .refl sessionHash s e
  · exact .refl sessionHash s e
  · cases s.running.monitor.entry tenant routeIx with
    | none => exact .refl sessionHash s e
    | some _ =>
      dsimp only
      split
      · exact .idle (.inr ⟨tenant, routeIx, rfl⟩) rfl fun _ _ h => .inl h
      · simp only [Live.gate]
        split
        all_goals
          refine setCall_moves (.inr ⟨tenant, routeIx, rfl⟩) rfl rfl ?_
          rintro c ⟨⟩
          exact ⟨id, .inl (congrArg Step.opens hstep)⟩

theorem enter_moves (call : Nat) : Moves sessionHash s e (s.enter e.now call).1 := by
  simp only [Live.enter]
  split
  · next gate tenant routeIx fingerprint hcall =>
    split
    · exact .refl sessionHash s e
    · split
      · exact setCall_moves (.inl rfl) rfl rfl nofun
      · refine setCall_moves (.inl rfl) rfl rfl ?_
        rintro c ⟨⟩
        exact ⟨id, .inr ⟨_, hcall, rfl⟩⟩
  · exact .refl sessionHash s e

theorem spawn_moves {call : Nat} {background : Bool} {tenant : String} {routeIx : Nat}
    {fingerprint : String} (hstep : e.step = .spawn call background tenant routeIx fingerprint) :
    Moves sessionHash s e (s.spawn call background tenant routeIx fingerprint) := by
  simp only [Live.spawn]
  split
  · exact .refl sessionHash s e
  · refine setCall_moves (.inl rfl) rfl rfl ?_
    rintro c ⟨⟩
    exact ⟨id, .inl (congrArg Step.opens hstep)⟩

theorem fail_moves (call : Nat) : Moves sessionHash s e (s.fail e.now call).1 := by
  simp only [Live.fail]
  split
  · exact .refl sessionHash s e
  · exact .refl sessionHash s e
  · exact .refl sessionHash s e
  · next gate tenant routeIx _ _ _ _ _ =>
    dsimp only
    refine release_moves (.inr ⟨tenant, routeIx, ?_⟩) ?_ ?_ <;> simp [Live.setMonitor]
  · dsimp only
    refine release_moves (.inl ?_) ?_ ?_ <;> simp
  · dsimp only
    exact release_moves (.inl rfl) rfl rfl

theorem finish_moves {call : Nat} (hstep : e.step = .finish call) :
    Moves sessionHash s e (s.finish e.now call).1 := by
  simp only [Live.finish]
  split
  · next caller tenant routeIx fingerprint offset records hcall =>
    generalize hm : s.running.monitor.applyBatch tenant routeIx fingerprint offset records = m
    generalize hs' : ((s.setMonitor m).stampSynced tenant routeIx e.now).release call caller = s'
    have hrunning : s'.running = (s.setMonitor m).running := by simp [← hs']
    have hcalls : ∀ k c, s'.calls k = some c → s.calls k = some c := by
      rintro k c h
      rw [← hs'] at h
      simpa [Live.setMonitor] using calls_release _ h
    have hstamps : s'.lastSyncedAt = if s'.hasEntry tenant routeIx then
        setAt s.lastSyncedAt tenant routeIx (some e.now) else s.lastSyncedAt := by
      rw [Live.hasEntry, hrunning, ← hs', lastSyncedAt_release, lastSyncedAt_stampSynced]
      rfl
    cases caller <;>
      exact .finish call _ tenant routeIx fingerprint offset records hstep hcall
        (hm ▸ hrunning) hstamps hcalls
  · exact .refl sessionHash s e

end

theorem moves (e : Event F) : Moves sessionHash s e (s.step sessionHash e).1 := by
  rw [Live.step]
  cases hstep : e.step with
  | observe tenant routeIx fingerprint input =>
    exact .observe tenant routeIx fingerprint input hstep rfl
  | append tenant routeIx fingerprint record =>
    exact .append tenant routeIx fingerprint record rfl
  | ensure call tenant routeIx fingerprint => exact ensure_moves hstep
  | enter call => exact enter_moves call
  | spawn call background tenant routeIx fingerprint => exact spawn_moves hstep
  | begin call =>
    simp only [Live.begin]
    split
    · next hcall => exact .begin call _ _ _ _ hcall rfl
    · exact .refl sessionHash s e
  | load call =>
    simp only [Live.load]
    split
    · next hcall => exact .load call _ _ _ _ _ hcall rfl
    · exact .refl sessionHash s e
  | finish call => exact finish_moves hstep
  | fail call => exact fail_moves call

variable {sessionHash s} {s' : Live F} {e : Event F}

/-- Where a call comes from. -/
theorem Moves.call (h : Moves sessionHash s e s') {call : Nat} {c : SyncCall F}
    (hc : s'.calls call = some c) : s.calls call = some c ∨
      (¬ c.Syncing ∧ (e.step.opens = some c.log ∨ ∃ c', s.calls call = some c' ∧ c'.log = c.log)) ∨
      (∃ caller tenant routeIx fingerprint,
        s.calls call = some ⟨caller, tenant, routeIx, fingerprint, .admitted⟩ ∧
        s'.running = (s.setMonitor (s.running.monitor.withEntry tenant routeIx id)).running ∧
        c = ⟨caller, tenant, routeIx, fingerprint,
          .begun (s'.running.monitor.syncOffset tenant routeIx)⟩) ∨
      ∃ caller tenant routeIx fingerprint offset,
        s.calls call = some ⟨caller, tenant, routeIx, fingerprint, .begun offset⟩ ∧
        s'.running = s.running ∧
        c = ⟨caller, tenant, routeIx, fingerprint,
          .loaded offset ((s'.running.logs tenant routeIx fingerprint).drop offset)⟩ := by
  cases h with
  | observe tenant routeIx fingerprint input hstep hs => exact .inl (by rwa [hs] at hc)
  | append tenant routeIx fingerprint record hs => exact .inl (by rwa [hs] at hc)
  | idle hrunning hstamps hcalls => exact (hcalls call c hc).imp id .inl
  | begin k caller tenant routeIx fingerprint hcall hs =>
    subst hs
    rcases calls_setCall _ hc with ⟨rfl, hnew⟩ | hold
    · exact .inr (.inr (.inl ⟨caller, tenant, routeIx, fingerprint, hcall, rfl,
        (Option.some.inj hnew).symm⟩))
    · exact .inl hold
  | load k caller tenant routeIx fingerprint offset hcall hs =>
    subst hs
    rcases calls_setCall _ hc with ⟨rfl, hnew⟩ | hold
    · exact .inr (.inr (.inr ⟨caller, tenant, routeIx, fingerprint, offset, hcall, rfl,
        (Option.some.inj hnew).symm⟩))
    · exact .inl hold
  | finish k caller tenant routeIx fingerprint offset records hstep hcall hrunning hstamps hcalls =>
    exact .inl (hcalls call c hc)

/-- A new stamp is the time at which a sync of its entry ends. -/
theorem Moves.stamp (h : Moves sessionHash s e s') {tenant : String} {routeIx t : Nat}
    (ht : s'.lastSyncedAt tenant routeIx = some t) : s.lastSyncedAt tenant routeIx = some t ∨
      t = e.now ∧ ∃ call caller fingerprint offset records, e.step = .finish call ∧
        s.calls call = some ⟨caller, tenant, routeIx, fingerprint, .loaded offset records⟩ ∧
        s'.running = (s.setMonitor
          (s.running.monitor.applyBatch tenant routeIx fingerprint offset records)).running := by
  cases h with
  | observe _ _ fingerprint input hstep hs => exact .inl (by rwa [hs] at ht)
  | append _ _ fingerprint record hs => exact .inl (by rwa [hs] at ht)
  | idle hrunning hstamps hcalls => exact .inl (hstamps ▸ ht)
  | begin call caller _ _ fingerprint hcall hs => exact .inl (by rwa [hs] at ht)
  | load call caller _ _ fingerprint offset hcall hs => exact .inl (by rwa [hs] at ht)
  | finish call caller t' r' fingerprint offset records hstep hcall hrunning hstamps hcalls =>
    rw [hstamps] at ht
    split at ht
    · simp only [setAt] at ht
      split at ht
      · next hat =>
        obtain ⟨rfl, rfl⟩ := hat
        exact .inr ⟨(Option.some.inj ht).symm, call, caller, fingerprint, offset, records, hstep,
          hcall, hrunning⟩
      · exact .inl ht
    · exact .inl ht

end moves

end Firstpass.ClusterSync
