import Firstpass.Proxy.LiveOutcomes

/-!
# No live outcome is lost

The converse of what the log keeps away. An outcome whose session was claimed is in the log or
some process has counted it, once nobody waits for it, and who reads the whole log counts
every outcome in it.
-/

namespace Firstpass.LiveOutcomes

open Select Monitor CursorLog

variable {ι F : Type} [Field F] [LinearOrder F]

-- ---------------------------------------------------------------------------
-- What a process has read
-- ---------------------------------------------------------------------------

/-- A process has counted what it has read, where there was room for it. -/
def Heard (d : Deployment F) (log : List (Option (LogRecord F))) (r : Replica F) : Prop :=
  ∀ n (o : Outcome F), n < (consumer d).cursor r → log[n]? = some (some (o.record d)) →
    r.entry.evidence.Settled (o.item d)

theorem mem_modify {α : Type} {f : α → α} {l : List α} {k : Nat} {a : α} (h : a ∈ l.modify k f) :
    a ∈ l ∨ ∃ b, l[k]? = some b ∧ a = f b := by
  obtain ⟨n, hn⟩ := List.mem_iff_getElem?.mp h
  rw [List.getElem?_modify] at hn
  cases hget : l[n]? with
  | none => simp [hget] at hn
  | some b =>
    by_cases hk : k = n
    · exact .inr ⟨b, hk ▸ hget, by simpa [hget, hk] using hn.symm⟩
    · exact .inl (by simp [hget, hk] at hn; exact hn ▸ List.mem_of_getElem? hget)

section
variable {d : Deployment F} {s s' : Cluster ι F} {c : Call ι F}

theorem settled_outcome (v : Evidence F) (arm : Arm) {x : F} (hx : inUnit x) (key : UInt64) :
    (v.accept (.outcome arm x key)).Settled (.outcome arm x key) := by
  by_cases hold : key ∈ v.sessions ∨ maxTrackedSessions ≤ v.sessions.card
  · rw [Evidence.accept, if_pos hold]
    rcases hold with hold | hold
    · exact .inl hold
    · exact .inr (.inl hold)
  · rw [Evidence.accept, if_neg hold, if_pos hx]
    exact .inl (Finset.mem_insert_self key v.sessions)

theorem settled_applyLocal {v : Entry F} {item : Item F} (h : v.evidence.Settled item)
    (l : Local F) : (v.applyLocal d l).evidence.Settled item := by
  cases l with
  | tally t =>
    rw [Entry.applyLocal, evidence_tally]
    exact h
  | pair x y usd traceId =>
    rw [Entry.applyLocal, evidence_applyPairLocally]
    exact settled_accept h _
  | outcome arm sessionId verdict =>
    rw [Entry.applyLocal]
    split
    · exact h
    · rw [evidence_observeOutcome]
      exact settled_accept h _

theorem settled_consume {r : Replica F} {item : Item F} (h : r.entry.evidence.Settled item)
    (n : Nat) (record : Option (LogRecord F)) :
    ((consumer d).consume r n record).entry.evidence.Settled item := by
  have hevidence : ((consumer d).consume r n record).entry.evidence =
      r.entry.evidence.acceptEntry record := evidence_applyEntry r.entry r.replicaId record
  rw [hevidence]
  cases record with
  | none => exact h
  | some record => exact settled_accept h _

/-- Unless the process starts anew, what is counted stays counted. -/
theorem settled_step [DecidableEq ι] {sys : System ι (Replica F) (Option (LogRecord F))}
    (hok : ∀ i, (consumer d).Ok sys.log (sys.process i)) {a : LogAction ι F}
    (hno : ∀ i b, a ≠ .restart i b) {i : ι} {item : Item F}
    (h : (sys.process i).state.entry.evidence.Settled item) :
    (((consumer d).step sys a).process i).state.entry.evidence.Settled item := by
  rcases (consumer d).step_moved (hok i) a with ⟨-, hsame⟩ | ⟨-, hmoved⟩
  · rwa [hsame]
  · generalize (((consumer d).step sys a).process i).state = r at hmoved ⊢
    cases hmoved with
    | same _ _ => exact h
    | read has =>
      exact (consumer d).advance_inductive (P := fun r => r.entry.evidence.Settled item)
        (fun r record _ hr => settled_consume hr _ record) has h
    | act => exact settled_applyLocal h _
    | restart => exact (hno _ _ rfl).elim

variable [IsStrictOrderedRing F]

theorem settled_item (v : Evidence F) (o : Outcome F) :
    (v.accept (o.item d)).Settled (o.item d) :=
  settled_outcome v o.arm (inUnit_outcome o) (o.key d)

theorem Heard.consume {log : List (Option (LogRecord F))} {r : Replica F}
    {record : Option (LogRecord F)} (hget : log[(consumer d).cursor r]? = some record)
    (h : Heard d log r) :
    Heard d log ((consumer d).consume r ((consumer d).cursor r) record) := by
  intro n o hn ho
  rw [(consumer d).cursor_consume] at hn
  rcases Nat.lt_succ_iff_lt_or_eq.mp hn with hlt | rfl
  · exact settled_consume (h n o hlt ho) _ record
  · obtain rfl : record = some (o.record d) := Option.some.inj (hget.symm.trans ho)
    have hevidence := evidence_applyEntry r.entry r.replicaId (some (o.record d))
    exact hevidence ▸ settled_item r.entry.evidence o

omit [IsStrictOrderedRing F] in
theorem sys_step [DecidableEq ι] (e : Event ι F) :
    ∃ actions, (s.step d e).sys = (consumer d).run s.sys actions := by
  cases e with
  | report i arm sessionId verdict costUsd =>
    refine ⟨[], ?_⟩
    simp only [Cluster.step]
    split
    · rfl
    · exact sys_claimSession i _
  | land k =>
    simp only [Cluster.step]
    split
    · next owner o hget => exact ⟨[.append (some (o.record d))], rfl⟩
    · exact ⟨[], rfl⟩
  | appended k =>
    simp only [Cluster.step]
    split <;> exact ⟨[], rfl⟩
  | failed k =>
    simp only [Cluster.step]
    split
    · next i o landed hget => exact ⟨[.act i (.outcome o.arm o.sessionId o.verdict)], rfl⟩
    · exact ⟨[], rfl⟩
  | sync i move => exact ⟨[move.of i], rfl⟩
  | tally i t => exact ⟨[.act i (.tally t)], rfl⟩
  | restart i b => exact ⟨[.restart i b], rfl⟩
  | malformed => exact ⟨[.append none], rfl⟩
  | expire sessionId => exact ⟨[], rfl⟩

omit [IsStrictOrderedRing F] in
theorem sys_run [DecidableEq ι] (events : List (Event ι F)) :
    ∃ actions, (s.run d events).sys = (consumer d).run s.sys actions := by
  induction events generalizing s with
  | nil => exact ⟨[], rfl⟩
  | cons e events ih =>
    obtain ⟨first, hfirst⟩ := sys_step (d := d) (s := s) e
    obtain ⟨rest, hrest⟩ := ih (s := s.step d e)
    refine ⟨first ++ rest, ?_⟩
    rw [(consumer d).run_append, ← hfirst]
    exact hrest

theorem run_heard [DecidableEq ι] (boot : ι → Boot F) (events : List (Event ι F)) (i : ι) :
    let s := (starting d boot).run d events
    Heard d s.sys.log (s.sys.process i).state := by
  intro s
  obtain ⟨actions, hactions⟩ : ∃ actions, s.sys = (consumer d).run (start d boot []) actions :=
    sys_run events
  have hstart : ∀ i, Heard d s.sys.log ((start d boot []).process i).state := fun i n o hn => by
    rw [show (consumer d).cursor ((start d boot []).process i).state = 0 from
      offset_bootEntry d (boot i)] at hn
    exact absurd hn (Nat.not_lt_zero n)
  have halong : (consumer d).Along (fun _ _ => True) (start d boot []) actions :=
    (consumer d).along_of_forall (fun _ _ => trivial) _ actions
  have hlog : ((consumer d).run (start d boot []) actions).log <+: s.sys.log :=
    hactions ▸ List.prefix_refl _
  rw [hactions] at hstart hlog ⊢
  exact (consumer d).run_along (fun r record => Heard.consume)
    (fun sys i l _ h n o hn ho => settled_applyLocal (h n o (by
      rwa [(consumer d).cursor_perform] at hn) ho) l)
    (fun sys i b _ n o hn => by
      rw [(consumer d).cursor_boot] at hn
      exact absurd hn (Nat.not_lt_zero n)) (start_ok d boot []) hlog halong hstart i

end

-- ---------------------------------------------------------------------------
-- The calls
-- ---------------------------------------------------------------------------

/-- No call loses its outcome: it is in the log, or some process has counted it, once nobody
waits for the call. -/
structure Call.Kept (d : Deployment F) (quiet : Prop) (s : Cluster ι F) (c : Call ι F) : Prop where
  logged : c.landed = true → some (c.outcome.record d) ∈ s.sys.log
  answered : quiet → c.owner = none →
    c.landed = true ∨ ∃ i, (s.evidence i).Settled (c.outcome.item d)

structure Keeps (d : Deployment F) (quiet : Prop) (s : Cluster ι F) : Prop where
  ok : ∀ i, (consumer d).Ok s.sys.log (s.sys.process i)
  calls : ∀ c ∈ s.calls, c.Kept d quiet s

section
variable {d : Deployment F} {s s' : Cluster ι F} {c : Call ι F} {quiet : Prop}

theorem Call.Kept.same (h : c.Kept d quiet s) (hsys : s'.sys = s.sys) : c.Kept d quiet s' := by
  refine ⟨hsys ▸ h.logged, fun hquiet howner => ?_⟩
  simp only [Cluster.evidence, hsys]
  exact h.answered hquiet howner

variable [DecidableEq ι]

theorem Call.Kept.move (h : c.Kept d quiet s)
    (hok : ∀ i, (consumer d).Ok s.sys.log (s.sys.process i)) {a : LogAction ι F}
    (ha : quiet → ∀ i b, a ≠ .restart i b) (hsys : s'.sys = (consumer d).step s.sys a) :
    c.Kept d quiet s' := by
  refine ⟨fun hlanded => ?_, fun hquiet howner => ?_⟩
  · rw [hsys]
    exact ((consumer d).step_log s.sys a).subset (h.logged hlanded)
  · refine (h.answered hquiet howner).imp_right fun ⟨i, hi⟩ => ⟨i, ?_⟩
    simp only [Cluster.evidence, hsys]
    exact settled_step hok (ha hquiet) hi

theorem Keeps.move (h : Keeps d quiet s) (a : LogAction ι F) (ha : quiet → ∀ i b, a ≠ .restart i b)
    (hsys : s'.sys = (consumer d).step s.sys a) (hcalls : s'.calls = s.calls) :
    Keeps d quiet s' := by
  refine ⟨fun i => ?_, fun c hc => ?_⟩
  · rw [hsys]
    exact (consumer d).step_ok h.ok a i
  · exact (h.calls c (hcalls ▸ hc)).move h.ok ha hsys

theorem evidence_act (i : ι) (l : Local F) : (s.move d (.act i l)).evidence i =
    ((s.sys.process i).state.entry.applyLocal d l).evidence := by
  simp [Cluster.evidence, Cluster.move, Consumer.step, Action.owner, Consumer.moveOne, consumer]

variable [IsStrictOrderedRing F]

theorem Keeps.step (h : Keeps d quiet s) {e : Event ι F}
    (he : quiet → ∀ i b, e ≠ .restart i b) : Keeps d quiet (s.step d e) := by
  cases e with
  | report i arm sessionId verdict costUsd =>
    simp only [Cluster.step]
    split
    · exact h
    · next o ho =>
      refine ⟨fun j => sys_claimSession (s := s) i o ▸ h.ok j, fun c hc => ?_⟩
      suffices hc' : c ∈ s.calls ∨ c = ⟨some i, o, false⟩ by
        rcases hc' with hc' | rfl
        · exact (h.calls c hc').same (sys_claimSession i o)
        · exact ⟨by simp, by simp⟩
      rw [Cluster.claimSession] at hc
      split at hc
      · exact .inl hc
      · simpa using hc
  | land k =>
    simp only [Cluster.step]
    split
    · next owner o hget =>
      refine ⟨(consumer d).step_ok h.ok _, fun c hc => ?_⟩
      rcases mem_modify hc with hc | ⟨b, hb, rfl⟩
      · exact (h.calls c hc).move h.ok (a := .append (some (o.record d))) (by simp) rfl
      · obtain rfl : b = ⟨owner, o, false⟩ := Option.some.inj (hb.symm.trans hget)
        exact ⟨fun _ => List.mem_append_right _ (List.mem_singleton_self _), fun _ _ => .inl rfl⟩
    · exact h
  | appended k =>
    simp only [Cluster.step]
    split
    · next i o hget =>
      refine ⟨h.ok, fun c hc => ?_⟩
      rcases mem_modify hc with hc | ⟨b, hb, rfl⟩
      · exact (h.calls c hc).same rfl
      · obtain rfl : b = ⟨some i, o, true⟩ := Option.some.inj (hb.symm.trans hget)
        exact ⟨(h.calls _ (List.mem_of_getElem? hb)).logged, fun _ _ => .inl rfl⟩
    · exact h
  | failed k =>
    simp only [Cluster.step]
    split
    · next i o landed hget =>
      refine ⟨(consumer d).step_ok h.ok _, fun c hc => ?_⟩
      rcases mem_modify hc with hc | ⟨b, hb, rfl⟩
      · exact (h.calls c hc).move h.ok (a := .act i (.outcome o.arm o.sessionId o.verdict))
          (by simp) rfl
      · obtain rfl : b = ⟨some i, o, landed⟩ := Option.some.inj (hb.symm.trans hget)
        refine ⟨(h.calls _ (List.mem_of_getElem? hb)).logged, fun _ _ => .inr ⟨i, ?_⟩⟩
        have hevidence := (evidence_act (d := d) (s := s) i (.outcome o.arm o.sessionId o.verdict)).trans
          (evidence_outcome _ o)
        exact hevidence ▸ settled_item (s.evidence i) o
    · exact h
  | sync i move => exact h.move (move.of i) (by cases move <;> simp [Sync.of]) rfl rfl
  | tally i t => exact h.move (.act i (.tally t)) (by simp) rfl rfl
  | malformed => exact h.move (.append none) (by simp) rfl rfl
  | expire sessionId => exact ⟨h.ok, fun c hc => (h.calls c hc).same rfl⟩
  | restart i b =>
    refine ⟨(consumer d).step_ok h.ok _, fun c hc => ?_⟩
    obtain ⟨old, hold, rfl⟩ := List.mem_map.mp hc
    refine ⟨fun hlanded => ?_, fun hquiet => (he hquiet i b rfl).elim⟩
    rw [landed_release] at hlanded
    rw [outcome_release]
    exact (h.calls old hold).logged hlanded

theorem Keeps.run (h : Keeps d quiet s) {events : List (Event ι F)}
    (hevents : quiet → ∀ e ∈ events, ∀ i b, e ≠ .restart i b) : Keeps d quiet (s.run d events) := by
  induction events generalizing s with
  | nil => exact h
  | cons e events ih =>
    exact ih (h.step fun hquiet => hevents hquiet e (List.mem_cons_self ..))
      fun hquiet e he => hevents hquiet e (List.mem_cons_of_mem _ he)

end

/-- A process that has read the whole log has counted every outcome that reached it, if there was
room; and where no process starts anew, an outcome that nobody waits for any longer has reached
the log, or a process has counted it. -/
theorem outcomes_kept [DecidableEq ι] [IsStrictOrderedRing F] (d : Deployment F)
    (boot : ι → Boot F) (events : List (Event ι F)) :
    let s := (starting d boot).run d events
    (∀ i, (s.sys.process i).state.entry.remoteLogOffset = s.sys.log.length →
      ∀ c ∈ s.calls, c.landed = true → (s.evidence i).Settled (c.outcome.item d)) ∧
    ((∀ e ∈ events, ∀ i b, e ≠ .restart i b) → ∀ c ∈ s.calls, c.owner = none →
      c.landed = true ∨ ∃ i, (s.evidence i).Settled (c.outcome.item d)) := by
  intro s
  have hstart : Keeps d (∀ e ∈ events, ∀ i b, e ≠ .restart i b) (starting d boot) :=
    ⟨start_ok d boot [], nofun⟩
  have hkeeps : Keeps d (∀ e ∈ events, ∀ i b, e ≠ .restart i b) s := hstart.run id
  refine ⟨fun i hread c hc hlanded => ?_, fun hquiet c hc => (hkeeps.calls c hc).answered hquiet⟩
  obtain ⟨n, hn⟩ := List.mem_iff_getElem?.mp ((hkeeps.calls c hc).logged hlanded)
  obtain ⟨hlt, -⟩ := List.getElem?_eq_some_iff.mp hn
  exact run_heard boot events i n c.outcome (hlt.trans_eq hread.symm) hn

theorem sample_kept :
    let s := (starting sampleDeployment sampleBoot).run sampleDeployment sampleEvents
    ∀ c ∈ s.calls, c.owner = none →
      c.landed = true ∨ ∃ i, (s.evidence i).Settled (c.outcome.item sampleDeployment) :=
  (outcomes_kept sampleDeployment sampleBoot sampleEvents).2 (by simp [sampleEvents])

end Firstpass.LiveOutcomes
