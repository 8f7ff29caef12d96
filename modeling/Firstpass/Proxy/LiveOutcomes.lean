import Firstpass.Proxy.LogOrder
import Mathlib.Data.List.ReduceOption

/-!
# Live outcomes over a shared log

The processes of one experiment in live mode. Each records the outcomes that are reported to it:
it claims the session, appends the outcome to the log, and counts the outcome itself if that
fails. A failed append may still reach the log, at any time and after its process is gone.

Left out: a deployment without a log, whose only process counts what is reported to it.
-/

namespace Firstpass.LiveOutcomes

open Select Monitor CursorLog

variable {ι F : Type} [Field F] [LinearOrder F]

-- ---------------------------------------------------------------------------
-- The processes
-- ---------------------------------------------------------------------------

/-- A clear outcome of a session. -/
structure Outcome (F : Type) [Field F] [LinearOrder F] where
  arm : Arm
  sessionId : String
  verdict : Verdict
  outcome : F
  costUsd : F
  clear : (ExperimentMonitor.outcomeOf verdict : Option F) = some outcome

section
variable (d : Deployment F) (o : Outcome F)

def Outcome.key : UInt64 := d.sessionHash o.sessionId

def Outcome.record : LogRecord F := .outcome o.arm o.outcome (o.key d) o.costUsd

def Outcome.item : Item F := .outcome o.arm o.outcome (o.key d)

end

/-- A call of `record_outcome` that has claimed its session, with the process that still waits
for the append, and whether the record has reached the log. -/
structure Call (ι F : Type) [Field F] [LinearOrder F] where
  owner : Option ι
  outcome : Outcome F
  landed : Bool

structure Cluster (ι F : Type) [Field F] [LinearOrder F] where
  sys : System ι (Replica F) (Option (LogRecord F))
  claimed : List String
  /-- The calls that claimed a session, the oldest first. -/
  calls : List (Call ι F)

inductive Sync
  | begin
  | load (k : Nat)
  | apply (k : Nat)
  | abort (k : Nat)

def Sync.of (i : ι) : Sync → LogAction ι F
  | .begin => .begin i
  | .load k => .load i k
  | .apply k => .apply i k
  | .abort k => .abort i k

inductive Event (ι F : Type)
  | report (i : ι) (arm : Arm) (sessionId : String) (verdict : Verdict) (costUsd : F)
  -- The record of a call reaches the log.
  | land (k : Nat)
  | appended (k : Nat)
  | failed (k : Nat)
  | sync (i : ι) (move : Sync)
  | tally (i : ι) (t : Tally F)
  | restart (i : ι) (b : Boot F)
  -- The log gets an entry that no process can read.
  | malformed
  -- The shared store forgets a claim.
  | expire (sessionId : String)

/-- What is reported, where it is clear. -/
def clearOutcome (arm : Arm) (sessionId : String) (verdict : Verdict) (costUsd : F) :
    Option (Outcome F) :=
  match h : (ExperimentMonitor.outcomeOf verdict : Option F) with
  | none => none
  | some outcome => some ⟨arm, sessionId, verdict, outcome, costUsd, h⟩

/-- An abstention claims nothing, and a claim is granted once. -/
def Cluster.claimSession (s : Cluster ι F) (i : ι) (o : Outcome F) : Cluster ι F :=
  if o.sessionId ∈ s.claimed then s
  else { s with claimed := s.claimed ++ [o.sessionId], calls := s.calls ++ [⟨some i, o, false⟩] }

/-- Nobody waits any longer. -/
def Call.left (c : Call ι F) : Call ι F := { c with owner := none }

def Call.land (c : Call ι F) : Call ι F := { c with landed := true }

def Call.release [DecidableEq ι] (i : ι) (c : Call ι F) : Call ι F :=
  if c.owner = some i then c.left else c

section
variable [DecidableEq ι] (d : Deployment F)

def Cluster.move (s : Cluster ι F) (a : LogAction ι F) : Cluster ι F :=
  { s with sys := (consumer d).step s.sys a }

def Cluster.step (s : Cluster ι F) : Event ι F → Cluster ι F
  | .report i arm sessionId verdict costUsd =>
    match clearOutcome arm sessionId verdict costUsd with
    | none => s
    | some o => s.claimSession i o
  | .land k =>
    match s.calls[k]? with
    | some ⟨_, o, false⟩ =>
      { s.move d (.append (some (o.record d))) with
        calls := s.calls.modify k Call.land }
    | _ => s
  | .appended k =>
    match s.calls[k]? with
    | some ⟨some _, _, true⟩ => { s with calls := s.calls.modify k Call.left }
    | _ => s
  | .failed k =>
    match s.calls[k]? with
    | some ⟨some i, o, _⟩ =>
      { s.move d (.act i (.outcome o.arm o.sessionId o.verdict)) with
        calls := s.calls.modify k Call.left }
    | _ => s
  | .sync i move => s.move d (move.of i)
  | .tally i t => s.move d (.act i (.tally t))
  | .restart i b => { s.move d (.restart i b) with calls := s.calls.map (Call.release i) }
  | .malformed => s.move d (.append none)
  | .expire sessionId => { s with claimed := s.claimed.filter (· ≠ sessionId) }

def Cluster.run (s : Cluster ι F) (events : List (Event ι F)) : Cluster ι F :=
  events.foldl (Cluster.step d) s

end

/-- A process that starts without outcomes or pairs of its own. -/
def Fresh (b : Boot F) : Prop := b.deferred = [] ∧ b.offline = []

def starting (d : Deployment F) (boot : ι → Boot F) : Cluster ι F := ⟨start d boot [], [], []⟩

def Cluster.outcomes (s : Cluster ι F) : List (Outcome F) := s.calls.map Call.outcome

def Cluster.evidence (s : Cluster ι F) (i : ι) : Evidence F :=
  (s.sys.process i).state.entry.evidence

-- ---------------------------------------------------------------------------
-- What a process has counted
-- ---------------------------------------------------------------------------

/-- The evidence of a process that has counted these outcomes and nothing else. -/
structure Counted (d : Deployment F) (counted : List (Outcome F)) (v : Evidence F) : Prop where
  evidence : v = counted.foldl (fun v o => v.accept (o.item d)) (Entry.new d.site.params).evidence
  sessions : v.sessions = (counted.map (Outcome.key d)).toFinset
  nodup : (counted.map (Outcome.key d)).Nodup

/-- The evidence comes from these outcomes, each of which counts at most once. -/
def CountsOf (d : Deployment F) (outcomes : List (Outcome F)) (v : Evidence F) : Prop :=
  ∃ counted, Counted d counted v ∧ counted ⊆ outcomes

section
variable {d : Deployment F} {outcomes : List (Outcome F)} {v : Evidence F}

theorem CountsOf.mono (h : CountsOf d outcomes v) {outcomes' : List (Outcome F)}
    (hsub : outcomes ⊆ outcomes') : CountsOf d outcomes' v := by
  obtain ⟨counted, hcounted, hmem⟩ := h
  exact ⟨counted, hcounted, List.Subset.trans hmem hsub⟩

theorem countsOf_fresh {b : Boot F} (hb : Fresh b) :
    CountsOf d outcomes (bootEntry d b).evidence := by
  refine ⟨[], ⟨?_, ?_, List.nodup_nil⟩, List.nil_subset _⟩
  · exact evidence_bootEntry d hb.1 hb.2
  · rw [evidence_bootEntry d hb.1 hb.2]
    rfl

theorem inUnit_outcome [IsStrictOrderedRing F] (o : Outcome F) : inUnit o.outcome := by
  have hclear := o.clear
  cases hv : o.verdict <;> simp [hv, ExperimentMonitor.outcomeOf] at hclear <;>
    simp [← hclear, inUnit]

/-- An outcome that is accepted is counted, or its session was, or there is no room for it. -/
theorem CountsOf.accept [IsStrictOrderedRing F] (h : CountsOf d outcomes v) {o : Outcome F}
    (ho : o ∈ outcomes) : CountsOf d outcomes (v.accept (o.item d)) := by
  by_cases hold : o.key d ∈ v.sessions ∨ maxTrackedSessions ≤ v.sessions.card
  · rwa [Outcome.item, Evidence.accept, if_pos hold]
  · obtain ⟨counted, hcounted, hmem⟩ := h
    have hnew : o.key d ∉ counted.map (Outcome.key d) := by
      rw [← List.mem_toFinset, ← hcounted.sessions]
      exact fun hseen => hold (.inl hseen)
    refine ⟨counted ++ [o], ⟨?_, ?_, ?_⟩, ?_⟩
    · rw [List.foldl_append, ← hcounted.evidence]
      rfl
    · rw [Outcome.item, Evidence.accept, if_neg hold, if_pos (inUnit_outcome o), List.map_append,
        List.toFinset_append, ← hcounted.sessions]
      simp
    · rw [List.map_append]
      exact List.nodup_append.mpr ⟨hcounted.nodup, List.nodup_singleton _,
        fun key hkey key' hkey' heq => hnew (by simp_all)⟩
    · exact List.append_subset.mpr ⟨hmem, by simpa using ho⟩

end

-- ---------------------------------------------------------------------------
-- One move of the processes
-- ---------------------------------------------------------------------------

/-- The records of the log are of these outcomes. -/
def LogsOf (d : Deployment F) (outcomes : List (Outcome F))
    (log : List (Option (LogRecord F))) : Prop :=
  ∀ record, some record ∈ log → ∃ o ∈ outcomes, record = o.record d

/-- A move that brings a process no evidence but these outcomes. -/
def Brings (outcomes : List (Outcome F)) : LogAction ι F → Prop
  | .act _ (.pair ..) => False
  | .act _ (.outcome arm sessionId verdict) =>
    ∃ o ∈ outcomes, o.arm = arm ∧ o.sessionId = sessionId ∧ o.verdict = verdict
  | .restart _ b => Fresh b
  | _ => True

section
variable {d : Deployment F} {outcomes : List (Outcome F)}

theorem evidence_outcome (e : Entry F) (o : Outcome F) :
    (e.applyLocal d (.outcome o.arm o.sessionId o.verdict)).evidence =
      e.evidence.accept (o.item d) := by
  simp only [Entry.applyLocal, o.clear]
  exact evidence_observeOutcome e o.arm (o.key d) o.outcome

variable [DecidableEq ι] [IsStrictOrderedRing F]

theorem CountsOf.consume {log : List (Option (LogRecord F))} (hlog : LogsOf d outcomes log)
    {r : Replica F} {record : Option (LogRecord F)}
    (hget : log[(consumer d).cursor r]? = some record)
    (h : CountsOf d outcomes r.entry.evidence) :
    CountsOf d outcomes
      ((consumer d).consume r ((consumer d).cursor r) record).entry.evidence := by
  have hevidence : ((consumer d).consume r ((consumer d).cursor r) record).entry.evidence =
      r.entry.evidence.acceptEntry record := evidence_applyEntry r.entry r.replicaId record
  rw [hevidence]
  cases record with
  | none => exact h
  | some record =>
    obtain ⟨o, ho, rfl⟩ := hlog record (List.mem_of_getElem? hget)
    exact h.accept ho

theorem CountsOf.move {sys : System ι (Replica F) (Option (LogRecord F))}
    (hok : ∀ i, (consumer d).Ok sys.log (sys.process i)) (hlog : LogsOf d outcomes sys.log)
    (a : LogAction ι F) (ha : Brings outcomes a) (i : ι)
    (h : CountsOf d outcomes (sys.process i).state.entry.evidence) :
    CountsOf d outcomes (((consumer d).step sys a).process i).state.entry.evidence := by
  rcases (consumer d).step_moved (hok i) a with ⟨-, hsame⟩ | ⟨howner, hmoved⟩
  · rwa [hsame]
  · generalize (((consumer d).step sys a).process i).state = r at hmoved ⊢
    cases hmoved with
    | same _ _ => exact h
    | read has =>
      exact (consumer d).advance_inductive (fun r record hget => CountsOf.consume hlog hget) has h
    | act =>
      rename_i l
      cases l with
      | tally t =>
        show CountsOf d outcomes (Entry.tally d.site _ t).evidence
        rwa [evidence_tally]
      | outcome arm sessionId verdict =>
        obtain ⟨o, ho, rfl, rfl, rfl⟩ := ha
        show CountsOf d outcomes (Entry.applyLocal d _ _).evidence
        rw [evidence_outcome]
        exact h.accept ho
      | pair x y usd traceId => exact ha.elim
    | restart => exact countsOf_fresh ha

end

-- ---------------------------------------------------------------------------
-- The invariant
-- ---------------------------------------------------------------------------

theorem map_modify_eq {α β : Type} (g : α → β) (f : α → α) (hf : ∀ a, g (f a) = g a)
    (l : List α) (k : Nat) : (l.modify k f).map g = l.map g := by
  induction l generalizing k with
  | nil => simp
  | cons a l ih => cases k <;> simp [hf, ih]

theorem outcome_release [DecidableEq ι] (i : ι) (c : Call ι F) :
    (c.release i).outcome = c.outcome := by
  rw [Call.release]
  split <;> rfl

theorem landed_release [DecidableEq ι] (i : ι) (c : Call ι F) :
    (c.release i).landed = c.landed := by
  rw [Call.release]
  split <;> rfl

/-- Whether each call has reached the log. -/
def Cluster.landings (s : Cluster ι F) : List Bool := s.calls.map Call.landed

/-- The log has the records of these calls, in this order. -/
structure Landed (d : Deployment F) (s : Cluster ι F) (order : List Nat) : Prop where
  records : s.sys.log.reduceOption =
    (order.filterMap fun k => s.outcomes[k]?).map (Outcome.record d)
  nodup : order.Nodup
  landed : ∀ k ∈ order, s.landings[k]? = some true

/-- What holds of every run: who counts what, and what is in the log. -/
structure Sound (d : Deployment F) (s : Cluster ι F) : Prop where
  ok : ∀ i, (consumer d).Ok s.sys.log (s.sys.process i)
  counts : ∀ i, CountsOf d s.outcomes (s.evidence i)
  landed : ∃ order, Landed d s order

section
variable {d : Deployment F} {s s' : Cluster ι F} {order : List Nat}

theorem Landed.logsOf (h : Landed d s order) : LogsOf d s.outcomes s.sys.log := by
  intro record hrecord
  have hmem : record ∈ s.sys.log.reduceOption := List.mem_filterMap.mpr ⟨_, hrecord, rfl⟩
  rw [h.records, List.mem_map] at hmem
  obtain ⟨o, ho, rfl⟩ := hmem
  obtain ⟨k, -, hk⟩ := List.mem_filterMap.mp ho
  exact ⟨o, List.mem_of_getElem? hk, rfl⟩

theorem getElem?_of_more {α : Type} {l l' : List α} (h : l <+: l') {k : Nat}
    (hk : k < l.length) : l'[k]? = l[k]? := by
  obtain ⟨more, rfl⟩ := h
  exact List.getElem?_append_left hk

/-- The same calls, and maybe more. -/
theorem Landed.more (h : Landed d s order)
    (hlog : s'.sys.log.reduceOption = s.sys.log.reduceOption)
    (houtcomes : s.outcomes <+: s'.outcomes) (hlandings : s.landings <+: s'.landings) :
    Landed d s' order := by
  have hlt : ∀ k ∈ order, k < s.landings.length := fun k hk =>
    (List.getElem?_eq_some_iff.mp (h.landed k hk)).1
  have hlen : s.landings.length = s.outcomes.length := by
    rw [Cluster.landings, Cluster.outcomes, List.length_map, List.length_map]
  refine ⟨?_, h.nodup, fun k hk => ?_⟩
  · rw [hlog, h.records, List.filterMap_congr fun k hk =>
      getElem?_of_more houtcomes (hlen ▸ hlt k hk)]
  · exact (getElem?_of_more hlandings (hlt k hk)).trans (h.landed k hk)

theorem Landed.same (h : Landed d s order)
    (hlog : s'.sys.log.reduceOption = s.sys.log.reduceOption) (houtcomes : s'.outcomes = s.outcomes)
    (hlandings : s'.landings = s.landings) : Landed d s' order :=
  h.more hlog (houtcomes ▸ List.prefix_refl _) (hlandings ▸ List.prefix_refl _)

/-- A call reaches the log. -/
theorem Landed.land (h : Landed d s order) {k : Nat} {c : Call ι F} (hget : s.calls[k]? = some c)
    (hnew : c.landed = false)
    (hlog : s'.sys.log = s.sys.log ++ [some (c.outcome.record d)])
    (hcalls : s'.calls = s.calls.modify k Call.land) :
    Landed d s' (order ++ [k]) := by
  have houtcomes : s'.outcomes = s.outcomes := by
    rw [Cluster.outcomes, hcalls]
    exact map_modify_eq Call.outcome Call.land (fun _ => rfl) s.calls k
  have hlanding : s.landings[k]? = some false := by
    rw [Cluster.landings, List.getElem?_map, hget]
    exact congrArg some hnew
  refine ⟨?_, ?_, fun j hj => ?_⟩
  · have hk : s.outcomes[k]? = some c.outcome := by
      rw [Cluster.outcomes, List.getElem?_map, hget]
      rfl
    rw [hlog, houtcomes, List.reduceOption_append, h.records, List.filterMap_append,
      List.map_append]
    simp [hk]
  · refine List.nodup_append.mpr ⟨h.nodup, List.nodup_singleton k, fun j hj j' hj' heq => ?_⟩
    obtain rfl : j = k := heq.trans (List.mem_singleton.mp hj')
    simp [h.landed j hj] at hlanding
  · rw [Cluster.landings, hcalls, List.getElem?_map, List.getElem?_modify]
    rcases List.mem_append.mp hj with hj | hj
    · have hold := h.landed j hj
      rw [Cluster.landings, List.getElem?_map, Option.map_eq_some_iff] at hold
      obtain ⟨c', hc', hlanded⟩ := hold
      rw [hc']
      by_cases hkj : k = j <;> simp [hkj, hlanded, Call.land]
    · rw [List.mem_singleton.mp hj, hget]
      simp [Call.land]

end

/-- The starts of an event bring nothing. -/
def Event.Clean : Event ι F → Prop
  | .restart _ b => Fresh b
  | _ => True

section
variable {d : Deployment F} {s : Cluster ι F}

theorem outcomes_claimSession (i : ι) (o : Outcome F) :
    s.outcomes <+: (s.claimSession i o).outcomes := by
  rw [Cluster.claimSession]
  split
  · exact List.prefix_refl _
  · exact ⟨[o], by simp [Cluster.outcomes]⟩

theorem landings_claimSession (i : ι) (o : Outcome F) :
    s.landings <+: (s.claimSession i o).landings := by
  rw [Cluster.claimSession]
  split
  · exact List.prefix_refl _
  · exact ⟨[false], by simp [Cluster.landings]⟩

theorem sys_claimSession (i : ι) (o : Outcome F) : (s.claimSession i o).sys = s.sys := by
  rw [Cluster.claimSession]
  split <;> rfl

theorem Sound.claimSession (h : Sound d s) (i : ι) (o : Outcome F) :
    Sound d (s.claimSession i o) := by
  obtain ⟨order, horder⟩ := h.landed
  refine ⟨fun j => ?_, fun j => ?_, order, ?_⟩
  · rw [sys_claimSession]
    exact h.ok j
  · rw [Cluster.evidence, sys_claimSession]
    exact (h.counts j).mono (outcomes_claimSession i o).subset
  · exact horder.more (by rw [sys_claimSession]) (outcomes_claimSession i o)
      (landings_claimSession i o)

theorem outcomes_left (k : Nat) : (s.calls.modify k Call.left).map Call.outcome = s.outcomes :=
  map_modify_eq Call.outcome Call.left (fun _ => rfl) s.calls k

theorem landings_left (k : Nat) : (s.calls.modify k Call.left).map Call.landed = s.landings :=
  map_modify_eq Call.landed Call.left (fun _ => rfl) s.calls k

theorem outcomes_map_release [DecidableEq ι] (i : ι) :
    (s.calls.map (Call.release i)).map Call.outcome = s.outcomes := by
  rw [List.map_map]
  exact List.map_congr_left fun c _ => outcome_release i c

theorem landings_map_release [DecidableEq ι] (i : ι) :
    (s.calls.map (Call.release i)).map Call.landed = s.landings := by
  rw [List.map_map]
  exact List.map_congr_left fun c _ => landed_release i c

theorem outcomes_land (k : Nat) : (s.calls.modify k Call.land).map Call.outcome = s.outcomes :=
  map_modify_eq Call.outcome Call.land (fun _ => rfl) s.calls k

variable [DecidableEq ι] [IsStrictOrderedRing F]

/-- A move of the processes after which others may wait for the same calls. -/
theorem Sound.move (h : Sound d s) (a : LogAction ι F) (ha : Brings s.outcomes a)
    (hlog : ((consumer d).step s.sys a).log.reduceOption = s.sys.log.reduceOption)
    {calls : List (Call ι F)} (houtcomes : calls.map Call.outcome = s.outcomes)
    (hlandings : calls.map Call.landed = s.landings) :
    Sound d { s.move d a with calls := calls } := by
  obtain ⟨order, horder⟩ := h.landed
  refine ⟨fun i => (consumer d).step_ok h.ok a i, fun i => ?_, order, horder.same hlog houtcomes
    hlandings⟩
  exact ((h.counts i).move h.ok horder.logsOf a ha i).mono (houtcomes ▸ List.Subset.refl _)

theorem Sound.step (h : Sound d s) {e : Event ι F} (he : e.Clean) : Sound d (s.step d e) := by
  cases e with
  | report i arm sessionId verdict costUsd =>
    simp only [Cluster.step]
    cases clearOutcome arm sessionId verdict costUsd with
    | none => exact h
    | some o => exact h.claimSession i o
  | land k =>
    simp only [Cluster.step]
    split
    · next owner o hget =>
      obtain ⟨order, horder⟩ := h.landed
      refine ⟨fun i => (consumer d).step_ok h.ok _ i, fun i => ?_, order ++ [k],
        horder.land hget rfl rfl rfl⟩
      exact ((h.counts i).move h.ok horder.logsOf (.append (some (o.record d))) trivial i).mono
        (outcomes_land (s := s) k ▸ List.Subset.refl _)
    · exact h
  | appended k =>
    simp only [Cluster.step]
    split
    · obtain ⟨order, horder⟩ := h.landed
      exact ⟨h.ok, fun i => (h.counts i).mono (outcomes_left (s := s) k ▸ List.Subset.refl _), order,
        horder.same rfl (outcomes_left k) (landings_left k)⟩
    · exact h
  | failed k =>
    simp only [Cluster.step]
    split
    · next i o landed hget =>
      have ho : o ∈ s.outcomes := List.mem_map_of_mem (List.mem_of_getElem? hget)
      exact h.move (.act i (.outcome o.arm o.sessionId o.verdict)) ⟨o, ho, rfl, rfl, rfl⟩ rfl
        (outcomes_left k) (landings_left k)
    · exact h
  | sync i move => exact h.move (move.of i) (by cases move <;> trivial) (by cases move <;> rfl) rfl rfl
  | tally i t => exact h.move (.act i (.tally t)) trivial rfl rfl rfl
  | restart i b => exact h.move (.restart i b) he rfl (outcomes_map_release i) (landings_map_release i)
  | malformed =>
    exact h.move (.append none) trivial (by simp [Consumer.step, List.reduceOption_append]) rfl rfl
  | expire sessionId =>
    obtain ⟨order, horder⟩ := h.landed
    exact ⟨h.ok, h.counts, order, horder.same rfl rfl rfl⟩

theorem Sound.run (h : Sound d s) {events : List (Event ι F)} (hevents : ∀ e ∈ events, e.Clean) :
    Sound d (s.run d events) := by
  induction events generalizing s with
  | nil => exact h
  | cons e events ih =>
    obtain ⟨he, hrest⟩ := List.forall_mem_cons.mp hevents
    exact ih (h.step he) hrest

omit [DecidableEq ι] [IsStrictOrderedRing F] in
theorem sound_starting {boot : ι → Boot F} (hboot : ∀ i, Fresh (boot i)) :
    Sound d (starting d boot) :=
  ⟨start_ok d boot [], fun i => countsOf_fresh (hboot i), [], rfl, List.nodup_nil, nofun⟩

end

-- ---------------------------------------------------------------------------
-- The first outcome of a session
-- ---------------------------------------------------------------------------

/-- What an event reports, where it is clear. -/
def Event.reported : Event ι F → Option (Outcome F)
  | .report _ arm sessionId verdict costUsd => clearOutcome arm sessionId verdict costUsd
  | _ => none

def reports (events : List (Event ι F)) : List (Outcome F) := events.filterMap Event.reported

/-- No outcome of the session comes before this one. -/
def First (reported : List (Outcome F)) (o : Outcome F) : Prop :=
  ∃ before after, reported = before ++ o :: after ∧ ∀ b ∈ before, b.sessionId ≠ o.sessionId

/-- The claims of a run in which none is forgotten: one for every session that was reported, for
its first outcome. -/
structure Granted (s : Cluster ι F) (reported : List (Outcome F)) : Prop where
  claimed : s.claimed = s.outcomes.map Outcome.sessionId
  nodup : s.claimed.Nodup
  first : ∀ o ∈ s.outcomes, First reported o
  seen : ∀ o ∈ reported, o.sessionId ∈ s.claimed

section
variable {reported : List (Outcome F)} {o : Outcome F}

theorem First.more (h : First reported o) (o' : Outcome F) : First (reported ++ [o']) o := by
  obtain ⟨before, after, rfl, hbefore⟩ := h
  exact ⟨before, after ++ [o'], by simp, hbefore⟩

theorem first_new (h : ∀ b ∈ reported, b.sessionId ≠ o.sessionId) : First (reported ++ [o]) o :=
  ⟨reported, [], rfl, h⟩

theorem first_cons (a : Outcome F) :
    First (a :: reported) o ↔ o = a ∨ a.sessionId ≠ o.sessionId ∧ First reported o := by
  constructor
  · rintro ⟨before, after, heq, hbefore⟩
    cases before with
    | nil =>
      simp only [List.nil_append, List.cons.injEq] at heq
      exact .inl heq.1.symm
    | cons b before =>
      simp only [List.cons_append, List.cons.injEq] at heq
      obtain ⟨rfl, rfl⟩ := heq
      obtain ⟨hb, hrest⟩ := List.forall_mem_cons.mp hbefore
      exact .inr ⟨hb, before, after, rfl, hrest⟩
  · rintro (rfl | ⟨hne, before, after, rfl, hbefore⟩)
    · exact ⟨[], reported, rfl, nofun⟩
    · exact ⟨a :: before, after, rfl, List.forall_mem_cons.mpr ⟨hne, hbefore⟩⟩

theorem not_first_nil : ¬First [] o := by
  rintro ⟨before, after, heq, -⟩
  simp at heq

variable {s s' : Cluster ι F}

theorem Granted.same (h : Granted s reported) (hclaimed : s'.claimed = s.claimed)
    (houtcomes : s'.outcomes = s.outcomes) : Granted s' reported :=
  ⟨by rw [hclaimed, houtcomes, h.claimed], hclaimed ▸ h.nodup, houtcomes ▸ h.first,
    hclaimed ▸ h.seen⟩

theorem Granted.claimSession (h : Granted s reported) (i : ι) (o : Outcome F) :
    Granted (s.claimSession i o) (reported ++ [o]) := by
  rw [Cluster.claimSession]
  split
  · next hold =>
    refine ⟨h.claimed, h.nodup, fun o' ho' => (h.first o' ho').more o, fun b hb => ?_⟩
    rcases List.mem_append.mp hb with hb | hb
    · exact h.seen b hb
    · rwa [List.mem_singleton.mp hb]
  · next hnew =>
    refine ⟨?_, ?_, fun o' ho' => ?_, fun b hb => ?_⟩
    · simp [Cluster.outcomes, h.claimed]
    · refine List.nodup_append.mpr ⟨h.nodup, List.nodup_singleton _, fun a ha b hb heq => hnew ?_⟩
      rwa [← List.mem_singleton.mp hb, ← heq]
    · simp only [Cluster.outcomes, List.map_append, List.mem_append] at ho'
      rcases ho' with ho' | ho'
      · exact (h.first o' ho').more o
      · obtain rfl : o' = o := by simpa using ho'
        exact first_new fun b hb heq => hnew (heq ▸ h.seen b hb)
    · rcases List.mem_append.mp hb with hb | hb
      · exact List.mem_append_left _ (h.seen b hb)
      · rw [List.mem_singleton.mp hb]
        exact List.mem_append_right _ (List.mem_singleton_self _)

variable [DecidableEq ι] {d : Deployment F}

theorem Granted.step (h : Granted s reported) {e : Event ι F}
    (he : ∀ sessionId, e ≠ .expire sessionId) :
    Granted (s.step d e) (reported ++ (Event.reported e).toList) := by
  cases e with
  | report i arm sessionId verdict costUsd =>
    simp only [Cluster.step, Event.reported]
    cases clearOutcome arm sessionId verdict costUsd with
    | none => simpa using h
    | some o => exact h.claimSession i o
  | land k =>
    simp only [Cluster.step, Event.reported, Option.toList_none, List.append_nil]
    split
    · exact h.same rfl (outcomes_land k)
    · exact h
  | appended k =>
    simp only [Cluster.step, Event.reported, Option.toList_none, List.append_nil]
    split
    · exact h.same rfl (outcomes_left k)
    · exact h
  | failed k =>
    simp only [Cluster.step, Event.reported, Option.toList_none, List.append_nil]
    split
    · exact h.same rfl (outcomes_left k)
    · exact h
  | restart i b =>
    simp only [Cluster.step, Event.reported, Option.toList_none, List.append_nil]
    exact h.same rfl (outcomes_map_release i)
  | expire sessionId => exact (he sessionId rfl).elim
  | _ =>
    simp only [Cluster.step, Event.reported, Option.toList_none, List.append_nil]
    exact h.same rfl rfl

theorem Granted.run (h : Granted s reported) {events : List (Event ι F)}
    (hevents : ∀ e ∈ events, ∀ sessionId, e ≠ .expire sessionId) :
    Granted (s.run d events) (reported ++ reports events) := by
  induction events generalizing s reported with
  | nil => simpa [reports, Cluster.run] using h
  | cons e events ih =>
    obtain ⟨he, hrest⟩ := List.forall_mem_cons.mp hevents
    have hnext := ih (h.step (d := d) he) hrest
    rw [List.append_assoc] at hnext
    have hreports : (Event.reported e).toList ++ reports events = reports (e :: events) := by
      rw [reports, reports, List.filterMap_cons]
      cases Event.reported e <;> rfl
    rwa [hreports] at hnext

end

/-- In whatever order the processes of an experiment are told outcomes, append them, fail to, read
the log and start anew, each counts a session at most once, and no session but for the first
clear outcome that any process was told of it; the log has these outcomes alone, each once. -/
theorem outcomes_once [DecidableEq ι] [IsStrictOrderedRing F] {d : Deployment F}
    {boot : ι → Boot F} (hboot : ∀ i, Fresh (boot i)) {events : List (Event ι F)}
    (hclean : ∀ e ∈ events, e.Clean)
    (hkept : ∀ e ∈ events, ∀ sessionId, e ≠ .expire sessionId) :
    let s := (starting d boot).run d events
    (∀ i, ∃ counted, Counted d counted (s.evidence i) ∧
      ∀ o ∈ counted, First (reports events) o) ∧
    ∃ logged : List (Outcome F), s.sys.log.reduceOption = logged.map (Outcome.record d) ∧
      (logged.map Outcome.sessionId).Nodup ∧ ∀ o ∈ logged, First (reports events) o := by
  intro s
  have hsound : Sound d s := (sound_starting hboot).run hclean
  have hempty : Granted (starting d boot) [] := ⟨rfl, List.nodup_nil, nofun, nofun⟩
  have hgranted : Granted s (reports events) := hempty.run hkept
  refine ⟨fun i => ?_, ?_⟩
  · obtain ⟨counted, hcounted, hmem⟩ := hsound.counts i
    exact ⟨counted, hcounted, fun o ho => hgranted.first o (hmem ho)⟩
  · obtain ⟨order, horder⟩ := hsound.landed
    refine ⟨_, horder.records, ?_, fun o ho => ?_⟩
    · have hsessions : (s.outcomes.map Outcome.sessionId).Nodup := hgranted.claimed ▸ hgranted.nodup
      rw [List.map_filterMap]
      refine horder.nodup.filterMap (fun j k sessionId hj hk => ?_)
      obtain ⟨o, ho, rfl⟩ := Option.map_eq_some_iff.mp hj
      obtain ⟨o', ho', heq⟩ := Option.map_eq_some_iff.mp hk
      obtain ⟨hjlt, -⟩ := List.getElem?_eq_some_iff.mp ho
      refine (List.getElem?_inj (l := s.outcomes.map Outcome.sessionId) (by simpa using hjlt)
        hsessions).mp ?_
      rw [List.getElem?_map, List.getElem?_map, ho, ho', Option.map_some, Option.map_some, heq]
    · obtain ⟨k, -, hk⟩ := List.mem_filterMap.mp ho
      exact hgranted.first o (List.mem_of_getElem? hk)

section sample

def sampleBoot (i : Bool) : Boot ℚ := ⟨if i then 8 else 7, [], [], []⟩

/-- Two processes are told of one session, and the append of the first fails after its record
has reached the log. -/
def sampleEvents : List (Event Bool ℚ) :=
  [.report true .challenger "s" .pass 1, .report false .challenger "s" .fail 1, .land 0, .failed 0,
    .sync false .begin, .sync false (.load 0), .sync false (.apply 0)]

theorem first_sampleEvents {o : Outcome ℚ} (h : First (reports sampleEvents) o) :
    o.verdict = .pass := by
  have hreports : reports sampleEvents =
      [⟨.challenger, "s", .pass, 1, 1, rfl⟩, ⟨.challenger, "s", .fail, 0, 1, rfl⟩] := rfl
  rw [hreports, first_cons, first_cons] at h
  rcases h with rfl | ⟨hne, rfl | ⟨-, hnil⟩⟩
  · rfl
  · exact (hne rfl).elim
  · exact (not_first_nil hnil).elim

theorem sample_once :
    let s := (starting sampleDeployment sampleBoot).run sampleDeployment sampleEvents
    ∀ i, ∃ counted, Counted sampleDeployment counted (s.evidence i) ∧
      ∀ o ∈ counted, o.verdict = .pass := by
  intro s i
  have hboot : ∀ i, Fresh (sampleBoot i) := fun _ => ⟨rfl, rfl⟩
  have hclean : ∀ e ∈ sampleEvents, e.Clean := by simp [sampleEvents, Event.Clean]
  have hkept : ∀ e ∈ sampleEvents, ∀ sessionId, e ≠ .expire sessionId := by simp [sampleEvents]
  have honce := outcomes_once (d := sampleDeployment) hboot hclean hkept
  obtain ⟨counted, hcounted, hfirst⟩ := honce.1 i
  exact ⟨counted, hcounted, fun o ho => first_sampleEvents (hfirst o ho)⟩

end sample

end Firstpass.LiveOutcomes
