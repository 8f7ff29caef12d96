import Firstpass.Proxy.StoreChain
import Mathlib.Data.List.Nodup

/-!
# Durable receipts

Every trace that was taken on is in one place: a row, the spill file, the
channel, the writer's hand, or lost where the receipts allow it. `Ledger` is
this account. Four steps break it, and a run without them records every trace
exactly once.
-/

namespace Firstpass.Store

open HashChain (genesisHash)

variable {F : Type} [F64 F] {env : StoreEnv F}

-- ---------------------------------------------------------------------------
-- What is promised
-- ---------------------------------------------------------------------------

/-- The row was written for this trace, under some link. -/
def Row.Records (env : StoreEnv F) (row : Row) (t : Trace F) : Prop :=
  ∃ link, row.Holds env (t.withPrevHash link)

def ExactlyOnce (env : StoreEnv F) (s : State F) (t : Trace F) : Prop :=
  ∃ row, s.rows.filter (·.traceId = t.traceId) = [row] ∧ row.Records env t

/-- Every trace that was appended to the spill file is in the table exactly
once, and so is every trace the channel accepted, unless it is still there, was
there at a crash, or its own insert failed. -/
def Recorded (env : StoreEnv F) (s : State F) : Prop :=
  ((s.appended ++ s.accepted).map Trace.traceId).Nodup →
    ∀ t, t ∈ s.appended ∨
        (t ∈ s.accepted ∧ t ∉ s.channel ∧ t ∉ s.lostAtCrash ∧ t ∉ s.failed) →
      ExactlyOnce env s t

def Pc.inserted : Pc F → List String
  | .draining _ _ inserted _ => inserted
  | .truncating _ inserted _ => inserted
  | _ => []

def Pc.skipped : Pc F → List String
  | .draining _ _ _ skipped => skipped
  | .truncating _ _ skipped => skipped
  | _ => []

/-- A step that ends a drain in which every line was written. -/
def DrainCompleted (env : StoreEnv F) (s s' : State F) : Prop :=
  (s.pc.skipped = [] ∧ Step env s .truncate s') ∨
    (s.spill = [] ∧ ∃ ok, Step env s (.read ok) s')

/-- The step does not strike between two halves of one effect. -/
def Clean (s : State F) : Event F → Prop
  -- A trace taken from the channel, or a line of the spill file, is in the
  -- table and the file is cut.
  | .crash => s.pc.hand = [] ∧ s.pc.inserted = []
  -- The file is cut with no line left out of the table.
  | .truncate => s.pc.skipped = []
  -- The file stays with no line of it in the table.
  | .truncateFailed => s.pc.inserted = []
  -- The writer stops with nothing in the channel.
  | .loadHeadFailed => s.channel = []
  | _ => True

inductive CleanRun (env : StoreEnv F) : List (Event F) → State F → Prop
  | start : CleanRun env [] .init
  | step : CleanRun env events s → Step env s e s' → Clean s e → CleanRun env (events ++ [e]) s'

theorem CleanRun.run (h : CleanRun env events s) : Run env events s := by
  induction h with
  | start => exact .start
  | step _ hs _ ih => exact ih.step hs

-- ---------------------------------------------------------------------------
-- The account
-- ---------------------------------------------------------------------------

/-- The lines of the spill file that are not in the table. -/
def State.pending (s : State F) : List String :=
  match s.pc with
  | .draining _ todo _ skipped => skipped ++ todo
  | .truncating _ _ skipped => skipped
  | _ => s.spill

/-- Where the traces are: `drained` came from the spill file into the table and
`kept` from the channel. -/
structure Ledger (env : StoreEnv F) (s : State F) (drained kept : List (Trace F)) : Prop where
  rows : ∃ stored : List (Trace F), List.Forall₂ (Row.Records env) s.rows stored ∧
    stored.Perm (drained ++ kept)
  channel : (kept ++ s.pc.hand ++ s.channel ++ s.lostAtCrash ++ s.failed).Perm s.accepted
  spill : (s.pc.inserted ++ s.pending).Perm s.spill
  pending : (drained.map toText ++ s.pending).Perm (s.appended.map toText)
  offered : ∀ t ∈ drained ++ s.appended, env.offered t

theorem Ledger.init : Ledger env .init [] [] where
  rows := ⟨[], .nil, .refl _⟩
  channel := .refl _
  spill := .refl _
  pending := .refl _
  offered := by simp [State.init]

@[simp] theorem hand_draining :
    (Pc.draining resume todo inserted skipped : Pc F).hand = [] := rfl

@[simp] theorem hand_truncating :
    (Pc.truncating resume inserted skipped : Pc F).hand = [] := rfl

@[simp] theorem hand_writing (t : Trace F) : (Pc.writing t).hand = [t] := rfl

theorem inserted_of_unlocked {pc : Pc F} (h : pc.locksSpill = false) : pc.inserted = [] := by
  cases pc <;> first | rfl | cases h

theorem pending_of_unlocked {s : State F} (h : s.pc.locksSpill = false) : s.pending = s.spill := by
  unfold State.pending
  split <;> simp_all [Pc.locksSpill]

def Pc.Idle (pc : Pc F) : Prop := pc.locksSpill = false ∧ pc.hand = []

theorem resume_idle (resume : Resume) : (resume.pc : Pc F).Idle := by
  cases resume <;> exact ⟨rfl, rfl⟩

theorem drainPc_idle (resume : Resume) : (drainPc env resume).Idle := by
  unfold drainPc
  split
  · exact ⟨rfl, rfl⟩
  · exact resume_idle resume

theorem idle_of_eq {s : State F} {pc : Pc F} (h : s.pc = pc) (hpc : pc.Idle) : s.pc.Idle := h ▸ hpc

theorem Ledger.abandon {pc : Pc F} (h : Ledger env s drained kept) (hins : s.pc.inserted = [])
    (hhand : s.pc.hand = []) (hpc : pc.Idle) (head : String) :
    Ledger env { s with head, pc } drained kept where
  rows := h.rows
  channel := by simpa only [hpc.2, hhand] using h.channel
  spill := by rw [inserted_of_unlocked hpc.1, pending_of_unlocked hpc.1]; exact .refl _
  pending := by
    have hspill := h.spill
    rw [hins, List.nil_append] at hspill
    rw [pending_of_unlocked hpc.1]
    exact (hspill.symm.append_left _).trans h.pending
  offered := h.offered

theorem Ledger.move {pc : Pc F} (h : Ledger env s drained kept) (hs : s.pc.Idle) (hpc : pc.Idle)
    (head : String) : Ledger env { s with head, pc } drained kept :=
  h.abandon (inserted_of_unlocked hs.1) hs.2 hpc head

-- ---------------------------------------------------------------------------
-- The steps of a drain
-- ---------------------------------------------------------------------------

theorem linesAt_perm (p : Nat → Bool) (spill : List String) :
    (linesAt (!p ·) spill ++ linesAt p spill).Perm spill := by
  unfold linesAt
  rw [← List.map_append]
  have hsplit := (List.filter_append_perm (fun l => !p l.2) spill.zipIdx).map Prod.fst
  simpa using hsplit

theorem print_object (fields : List (String × Json.Value)) :
    ∃ cs, Json.print (.object fields) = '{' :: cs := by
  cases fields with
  | nil => exact ⟨_, rfl⟩
  | cons f fs => exact ⟨_, rfl⟩

theorem isBlank_toText (t : Trace F) : isBlank (toText t) = false := by
  obtain ⟨cs, hcs⟩ := print_object (t.fields.filterMap fun f => f.2.map (f.1, ·))
  have hopen : Char.isWhitespace '{' = false := by decide
  rw [isBlank, toText, Trace.toValue, record, hcs]
  simp [hopen]

theorem filter_not_blank {lines : List String} (h : ∀ line ∈ lines, OfferedLine env line) :
    lines.filter (!isBlank ·) = lines := by
  refine List.filter_eq_self.mpr fun line hm => ?_
  obtain ⟨t, _, rfl⟩ := h line hm
  simp [isBlank_toText]

theorem Ledger.read (h : Ledger env s drained kept) (hinv : ChainInv env s)
    (hpc : s.pc = .seekSpill resume) (ok : Nat → Bool) :
    Ledger env (readSpill ok s resume) drained kept := by
  have hidle : s.pc.Idle := by rw [hpc]; exact ⟨rfl, rfl⟩
  unfold readSpill
  rw [filter_not_blank fun line hm => hinv.spill line (mem_linesAt hm)]
  split
  · exact h.move hidle (resume_idle resume) s.head
  · exact {
      rows := h.rows
      channel := by simpa [hidle.2] using h.channel
      spill := by simpa [Pc.inserted, State.pending] using linesAt_perm ok s.spill
      pending := by
        have hp := h.pending
        rw [pending_of_unlocked hidle.1] at hp
        exact (List.Perm.append_left _ (linesAt_perm ok s.spill)).trans hp
      offered := h.offered }

theorem writeTrace_records {rows : List Row} {head : String} (ht : env.offered t)
    (hw : writeTrace env fault rows head t = some (rows', head')) :
    ∃ row, rows' = rows ++ [row] ∧ row.Records env t := by
  obtain ⟨hhash, rfl⟩ := writeTrace_some hw
  exact ⟨_, rfl, head, rfl, env.roundTrip t ht head, hhash⟩

theorem Ledger.drainLine {todo : List String} (h : Ledger env s drained kept)
    (hinv : ChainInv env s) (hpc : s.pc = .draining resume (line :: todo) inserted skipped)
    (fault : Fault) :
    ∃ drained',
      Ledger env (drainLine env fault s resume line todo inserted skipped) drained' kept := by
  have hhand : s.pc.hand = [] := by rw [hpc]; rfl
  have hspill := h.spill
  have hpending := h.pending
  simp only [State.pending, hpc, Pc.inserted] at hspill hpending
  have htodo := hinv.todo
  rw [hpc] at htodo
  obtain ⟨t, ht, rfl⟩ := htodo line (by simp [Pc.todo])
  have hread : env.fromText (toText t) = .ok t := env.roundTrip t ht t.prevHash
  unfold Store.drainLine
  simp only [hread]
  split
  · refine ⟨drained, { h with
      channel := ?_, spill := ?_, pending := ?_ }⟩
    · simpa [hhand] using h.channel
    · simpa [State.pending, Pc.inserted] using hspill
    · simpa [State.pending] using hpending
  · rename_i rows head hw
    obtain ⟨row, rfl, hrow⟩ := writeTrace_records ht hw
    obtain ⟨stored, hstored, hperm⟩ := h.rows
    refine ⟨drained ++ [t], ⟨stored ++ [t], List.rel_append hstored (.cons hrow .nil), ?_⟩,
      ?_, ?_, ?_, ?_⟩
    · rw [List.append_assoc]
      exact (hperm.append_right [t]).trans <| by
        simpa only [List.append_assoc] using (List.perm_append_comm).append_left drained
    · simpa [hhand] using h.channel
    · have hmove : (inserted ++ toText t :: (skipped ++ todo)).Perm s.spill :=
        (List.perm_middle.symm.append_left inserted).trans hspill
      simpa [State.pending, Pc.inserted] using hmove
    · have hmove : (drained.map toText ++ toText t :: (skipped ++ todo)).Perm
          (s.appended.map toText) := (List.perm_middle.symm.append_left _).trans hpending
      simpa [State.pending] using hmove
    · intro u hu
      simp only [List.mem_append, List.mem_singleton] at hu
      rcases hu with (hu | rfl) | hu
      · exact h.offered u (by simp [hu])
      · exact ht
      · exact h.offered u (by simp [hu])

theorem Ledger.truncate (h : Ledger env s drained kept)
    (hpc : s.pc = .truncating resume inserted []) :
    Ledger env { s with spill := [], pc := resume.pc } drained kept where
  rows := h.rows
  channel := by simpa only [(resume_idle resume).2, hpc, hand_truncating] using h.channel
  spill := by
    rw [inserted_of_unlocked (resume_idle resume).1, pending_of_unlocked (resume_idle resume).1]
    exact .refl _
  pending := by
    rw [pending_of_unlocked (resume_idle resume).1]
    simpa [State.pending, hpc] using h.pending
  offered := h.offered

-- ---------------------------------------------------------------------------
-- The steps of the channel
-- ---------------------------------------------------------------------------

theorem Ledger.offer (h : Ledger env s drained kept) (t : Trace F) :
    Ledger env (offerTrace env s t) drained kept := by
  unfold offerTrace
  split
  · exact h
  · split
    · refine { h with channel := ?_ }
      have hmove : (kept ++ s.pc.hand ++ s.channel ++ ([t] ++ (s.lostAtCrash ++ s.failed))).Perm
          (kept ++ s.pc.hand ++ s.channel ++ ((s.lostAtCrash ++ s.failed) ++ [t])) :=
        List.perm_append_comm.append_left _
      have hold := h.channel.append_right [t]
      simp only [List.append_assoc] at hmove hold ⊢
      exact hmove.trans hold
    · split
      · exact { h with }
      · exact h

theorem Ledger.append (h : Ledger env s drained kept) (hs : s.pc.locksSpill = false)
    (ht : env.offered t) (waiting : List (Trace F)) :
    Ledger env { s with
      waiting, spill := s.spill ++ [toText t], appended := s.appended ++ [t] } drained kept where
  rows := h.rows
  channel := h.channel
  spill := by
    rw [inserted_of_unlocked hs, pending_of_unlocked (by exact hs)]
    exact .refl _
  pending := by
    have hp := h.pending
    rw [pending_of_unlocked hs] at hp
    rw [pending_of_unlocked (by exact hs)]
    simpa using hp.append_right [toText t]
  offered := by
    intro u hu
    simp only [List.mem_append, List.mem_singleton] at hu
    rcases hu with hu | hu | rfl
    · exact h.offered u (by simp [hu])
    · exact h.offered u (by simp [hu])
    · exact ht

theorem Ledger.recv (h : Ledger env s drained kept) (hs : s.pc.Idle) (hch : s.channel = t :: rest) :
    Ledger env { s with channel := rest, pc := .writing t } drained kept where
  rows := h.rows
  channel := by
    simpa only [hs.2, hch, hand_writing, List.append_nil, List.append_assoc, List.cons_append,
      List.nil_append] using h.channel
  spill := .refl _
  pending := by
    rw [pending_of_unlocked rfl]
    simpa [pending_of_unlocked hs.1] using h.pending
  offered := h.offered

theorem Ledger.write (h : Ledger env s drained kept) (hinv : ChainInv env s)
    (hpc : s.pc = .writing t) (fault : Fault) :
    ∃ kept', Ledger env (writeInHand env fault s t) drained kept' := by
  have hp := h.pending
  rw [pending_of_unlocked (by rw [hpc]; rfl)] at hp
  have hchannel := h.channel
  rw [hpc, Pc.hand] at hchannel
  have ht : env.offered t := hinv.hand t (by simp [hpc, Pc.hand])
  unfold writeInHand
  split
  · refine ⟨kept, h.rows, ?_, .refl _, hp, h.offered⟩
    have hmove : (kept ++ (s.channel ++ s.lostAtCrash ++ s.failed ++ [t])).Perm
        (kept ++ ([t] ++ (s.channel ++ s.lostAtCrash ++ s.failed))) :=
      List.perm_append_comm.append_left kept
    simpa [Pc.hand] using hmove.trans (by simpa using hchannel)
  · rename_i rows head hw
    obtain ⟨row, rfl, hrow⟩ := writeTrace_records ht hw
    obtain ⟨stored, hstored, hperm⟩ := h.rows
    refine ⟨kept ++ [t], ⟨stored ++ [t], List.rel_append hstored (.cons hrow .nil), ?_⟩, ?_,
      .refl _, hp, h.offered⟩
    · rw [← List.append_assoc]
      exact hperm.append_right [t]
    · simpa [Pc.hand] using hchannel

theorem Ledger.crash (h : Ledger env s drained kept) (hhand : s.pc.hand = [])
    (hins : s.pc.inserted = []) :
    Ledger env { s with
      channel := [], closed := false, waiting := [], head := "", pc := .down,
      lostAtCrash := s.lostAtCrash ++ s.channel } drained kept := by
  have hdown : Ledger env { s with head := "", pc := .down } drained kept :=
    h.abandon hins hhand ⟨rfl, rfl⟩ ""
  refine { hdown with channel := ?_ }
  have hmove : (kept ++ (s.lostAtCrash ++ s.channel) ++ s.failed).Perm
      (kept ++ (s.channel ++ s.lostAtCrash) ++ s.failed) :=
    (List.perm_append_comm.append_left kept).append_right s.failed
  simpa [Pc.hand] using hmove.trans (by simpa [hhand] using h.channel)

theorem Ledger.step (h : Ledger env s drained kept) (hinv : ChainInv env s) (hc : Clean s e)
    (hs : Step env s e s') : ∃ drained' kept', Ledger env s' drained' kept' := by
  cases hs with
  | offer _ _ => exact ⟨_, _, h.offer _⟩
  | append _ hw hlock => exact ⟨_, _, h.append hlock (hinv.unwait hw).1 _⟩
  | appendFailed _ _ => exact ⟨_, _, { h with }⟩
  | closeSenders _ => exact ⟨_, _, { h with }⟩
  | loadHead hpc => exact ⟨_, _, h.move (idle_of_eq hpc ⟨rfl, rfl⟩) (drainPc_idle _) _⟩
  | loadHeadFailed hpc =>
    have hempty : s.channel = [] := hc
    have hmove : Ledger env { s with pc := .stopped } drained kept :=
      h.move (idle_of_eq hpc ⟨rfl, rfl⟩) ⟨rfl, rfl⟩ s.head
    exact ⟨_, _, { hmove with channel := by simpa only [hempty] using hmove.channel }⟩
  | seekFailed hpc => exact ⟨_, _, h.move (idle_of_eq hpc ⟨rfl, rfl⟩) (resume_idle _) _⟩
  | read ok hpc => exact ⟨_, _, h.read hinv hpc ok⟩
  | drainLine fault hpc =>
    obtain ⟨drained', h'⟩ := h.drainLine hinv hpc fault
    exact ⟨drained', kept, h'⟩
  | drainEnd hpc =>
    refine ⟨drained, kept, { h with channel := ?_, spill := ?_, pending := ?_ }⟩
    · simpa [hpc] using h.channel
    · simpa [hpc, Pc.inserted, State.pending] using h.spill
    · simpa [hpc, State.pending] using h.pending
  | truncate hpc =>
    have hskipped : s.pc.skipped = [] := hc
    rw [hpc] at hskipped
    obtain rfl : _ = [] := hskipped
    exact ⟨_, _, h.truncate hpc⟩
  | truncateFailed hpc =>
    exact ⟨_, _, h.abandon hc (by rw [hpc]; rfl) (resume_idle _) _⟩
  | recv hpc hch => exact ⟨_, _, h.recv (idle_of_eq hpc ⟨rfl, rfl⟩) hch⟩
  | recvClosed hpc _ _ => exact ⟨_, _, h.move (idle_of_eq hpc ⟨rfl, rfl⟩) (drainPc_idle _) _⟩
  | tryRecv hpc hch => exact ⟨_, _, h.recv (idle_of_eq hpc ⟨rfl, rfl⟩) hch⟩
  | tryRecvEmpty hpc _ _ => exact ⟨_, _, h.move (idle_of_eq hpc ⟨rfl, rfl⟩) (drainPc_idle _) _⟩
  | tryRecvDisconnected hpc _ _ =>
    exact ⟨_, _, h.move (idle_of_eq hpc ⟨rfl, rfl⟩) ⟨rfl, rfl⟩ _⟩
  | write fault hpc =>
    obtain ⟨kept', h'⟩ := h.write hinv hpc fault
    exact ⟨drained, kept', h'⟩
  | crash _ => exact ⟨_, _, h.crash hc.1 hc.2⟩
  | restart hpc => exact ⟨_, _, h.move (idle_of_eq hpc ⟨rfl, rfl⟩) ⟨rfl, rfl⟩ _⟩

theorem CleanRun.ledger (h : CleanRun env events s) :
    ∃ drained kept, Ledger env s drained kept := by
  induction h with
  | start => exact ⟨[], [], .init⟩
  | step hrun hs hc ih =>
    obtain ⟨drained, kept, hledger⟩ := ih
    exact hledger.step hrun.run.chainInv hc hs

-- ---------------------------------------------------------------------------
-- After a drain
-- ---------------------------------------------------------------------------

theorem DrainCompleted.settled (h : CleanRun env events s) (hd : DrainCompleted env s s') :
    ∃ drained kept, Ledger env s' drained kept ∧ s'.pending = [] ∧ s'.pc.hand = [] := by
  obtain ⟨drained, kept, hledger⟩ := h.ledger
  rcases hd with ⟨hskipped, hs⟩ | ⟨hspill, ok, hs⟩
  · obtain ⟨drained', kept', hledger'⟩ := hledger.step (e := .truncate) h.run.chainInv hskipped hs
    refine ⟨drained', kept', hledger', ?_⟩
    cases hs with
    | @truncate _ resume _ _ hpc =>
      exact ⟨pending_of_unlocked (resume_idle resume).1, (resume_idle resume).2⟩
  · obtain ⟨drained', kept', hledger'⟩ := hledger.step (e := .read ok) h.run.chainInv trivial hs
    refine ⟨drained', kept', hledger', ?_⟩
    cases hs with
    | @read _ resume _ hpc =>
      have hread : readSpill ok s resume = { s with pc := resume.pc } := by
        simp [readSpill, hspill, linesAt]
      rw [hread]
      exact ⟨(pending_of_unlocked (resume_idle resume).1).trans hspill, (resume_idle resume).2⟩

theorem perm_of_toText {ts us : List (Trace F)} (ht : ∀ t ∈ ts, env.offered t)
    (hu : ∀ t ∈ us, env.offered t) (h : (ts.map toText).Perm (us.map toText)) : ts.Perm us := by
  have hread : ∀ ts : List (Trace F), (∀ t ∈ ts, env.offered t) →
      (ts.map toText).map env.fromText = ts.map Except.ok := by
    intro ts hts
    rw [List.map_map]
    exact List.map_congr_left fun t hm => env.roundTrip t (hts t hm) t.prevHash
  have hmap := h.map env.fromText
  rw [hread ts ht, hread us hu] at hmap
  exact (List.map_perm_map_iff fun _ _ => Except.ok.inj).mp hmap

theorem Row.Records.traceId (h : Row.Records env row t) : row.traceId = t.traceId := by
  obtain ⟨_, hrow⟩ := h
  simpa using hrow.traceId

theorem filter_eq_singleton {rows : List Row} (hn : (rows.map Row.traceId).Nodup)
    (hm : row ∈ rows) : rows.filter (·.traceId = row.traceId) = [row] := by
  obtain ⟨front, back, rfl⟩ := List.append_of_mem hm
  simp only [List.map_append, List.map_cons, List.nodup_append, List.nodup_cons] at hn
  obtain ⟨_, ⟨hback, _⟩, hfront⟩ := hn
  have hleft : front.filter (·.traceId = row.traceId) = [] := by
    refine List.filter_eq_nil_iff.mpr fun r hr => ?_
    simpa using hfront _ (List.mem_map_of_mem hr) _ (List.mem_cons_self ..)
  have hright : back.filter (·.traceId = row.traceId) = [] := by
    refine List.filter_eq_nil_iff.mpr fun r hr => ?_
    have hne : r.traceId ≠ row.traceId := fun he => hback (he ▸ List.mem_map_of_mem hr)
    simpa using hne
  simp [List.filter_append, hleft, hright]

theorem exists_records {rows : List Row} {stored : List (Trace F)}
    (h : List.Forall₂ (Row.Records env) rows stored) (hm : t ∈ stored) :
    ∃ row ∈ rows, row.Records env t := by
  induction h with
  | nil => cases hm
  | @cons row u rows _ hrow _ ih =>
    rcases List.mem_cons.mp hm with rfl | hm
    · exact ⟨row, by simp, hrow⟩
    · obtain ⟨row', hmem, hrow'⟩ := ih hm
      exact ⟨row', by simp [hmem], hrow'⟩

theorem exactlyOnce_of_mem {stored : List (Trace F)}
    (hrows : List.Forall₂ (Row.Records env) s.rows stored)
    (hn : (stored.map Trace.traceId).Nodup) (hm : t ∈ stored) : ExactlyOnce env s t := by
  have hids : s.rows.map Row.traceId = stored.map Trace.traceId := by
    rw [← List.forall₂_eq_eq_eq, List.forall₂_map_left_iff, List.forall₂_map_right_iff]
    exact hrows.imp fun _ _ hrow => hrow.traceId
  obtain ⟨row, hmem, hrow⟩ := exists_records hrows hm
  refine ⟨row, ?_, hrow⟩
  rw [← hrow.traceId]
  exact filter_eq_singleton (hids ▸ hn) hmem

/-- In every run whose steps are clean, once a drain has completed the table
holds what it should, as often as it was appended or accepted. -/
theorem durable_exactly_once (h : CleanRun env events s) (hd : DrainCompleted env s s') :
    Recorded env s' ∧
      ∃ kept stored : List (Trace F),
        (kept ++ s'.channel ++ s'.lostAtCrash ++ s'.failed).Perm s'.accepted ∧
        List.Forall₂ (Row.Records env) s'.rows stored ∧ stored.Perm (s'.appended ++ kept) := by
  obtain ⟨drained, kept, hledger, hpending, hhand⟩ := hd.settled h
  obtain ⟨stored, hrows, hstored⟩ := hledger.rows
  have hdrained : drained.Perm s'.appended := by
    refine perm_of_toText (fun t hm => hledger.offered t (by simp [hm]))
      (fun t hm => hledger.offered t (by simp [hm])) ?_
    simpa [hpending] using hledger.pending
  have hkept : (kept ++ s'.channel ++ s'.lostAtCrash ++ s'.failed).Perm s'.accepted := by
    simpa only [hhand, List.append_nil] using hledger.channel
  have hall : stored.Perm (s'.appended ++ kept) := hstored.trans (hdrained.append_right kept)
  refine ⟨fun hn t ht => ?_, kept, stored, hkept, hrows, hall⟩
  have hsub : (s'.appended ++ kept).Sublist
      (s'.appended ++ (kept ++ s'.channel ++ s'.lostAtCrash ++ s'.failed)) := by
    simp
  have hwhole := ((hkept.append_left s'.appended).map Trace.traceId).nodup_iff.mpr hn
  have hnodup : (stored.map Trace.traceId).Nodup :=
    (hall.map Trace.traceId).nodup_iff.mpr ((hsub.map Trace.traceId).nodup hwhole)
  refine exactlyOnce_of_mem hrows hnodup (hall.mem_iff.mpr ?_)
  rcases ht with ht | ⟨ht, hchannel, hlost, hfailed⟩
  · simp [ht]
  · have hmem := hkept.mem_iff.mpr ht
    simp only [List.mem_append, hchannel, hlost, hfailed, or_false] at hmem
    simp [hmem]

-- ---------------------------------------------------------------------------
-- A full channel
-- ---------------------------------------------------------------------------

def nthId (i : Nat) : String := String.ofList <|
  "01890a5d-ac96-774b-bcce-b302099a".toList ++
    [Nat.digitChar (i / 4096 % 16), Nat.digitChar (i / 256 % 16), Nat.digitChar (i / 16 % 16),
      Nat.digitChar (i % 16)]

theorem digitChar_inj : ∀ a < 16, ∀ b < 16, Nat.digitChar a = Nat.digitChar b → a = b := by
  decide

theorem nthId_inj (hi : i < 65536) (hj : j < 65536) (h : nthId i = nthId j) : i = j := by
  have hlist := List.append_cancel_left (String.ofList_inj.mp h)
  simp only [List.cons.injEq, and_true] at hlist
  obtain ⟨h3, h2, h1, h0⟩ := hlist
  have e3 := digitChar_inj _ (Nat.mod_lt _ (by decide)) _ (Nat.mod_lt _ (by decide)) h3
  have e2 := digitChar_inj _ (Nat.mod_lt _ (by decide)) _ (Nat.mod_lt _ (by decide)) h2
  have e1 := digitChar_inj _ (Nat.mod_lt _ (by decide)) _ (Nat.mod_lt _ (by decide)) h1
  have e0 := digitChar_inj _ (Nat.mod_lt _ (by decide)) _ (Nat.mod_lt _ (by decide)) h0
  omega

@[irreducible] def nthTraces (n : Nat) : List (Trace ℚ) :=
  (List.range n).map fun i => sampleTrace (nthId i)

theorem nthId_cap : nthId traceChannelCap = sampleId := by decide

def fillEvents (n : Nat) : List (Event ℚ) :=
  .restart :: (List.range n).map fun i => .offer (sampleTrace (nthId i))

theorem filled (h : n ≤ traceChannelCap) : CleanRun sampleEnv (fillEvents n)
    { State.init with
      channel := nthTraces n, pc := .loadHead, accepted := nthTraces n } := by
  induction n with
  | zero =>
    have hup : CleanRun sampleEnv [.restart] { State.init with pc := .loadHead } :=
      .step .start (.restart rfl) trivial
    simpa [fillEvents, nthTraces, State.init] using hup
  | succ n ih =>
    have hoffer := (ih (Nat.le_of_succ_le h)).step (.offer ⟨nthId n, rfl⟩ (by simp)) trivial
    have hroom : n < traceChannelCap := h
    simpa [fillEvents, nthTraces, List.range_succ, offerTrace, State.init, Pc.receives, hroom]
      using hoffer

def spilledState : State ℚ :=
  { State.init with
    spill := [toText (sampleTrace sampleId)]
    accepted := nthTraces traceChannelCap
    appended := [sampleTrace sampleId]
    lostAtCrash := nthTraces traceChannelCap }

def spillEvents : List (Event ℚ) := fillEvents traceChannelCap ++
  [.offer (sampleTrace sampleId)] ++ [.append (sampleTrace sampleId)] ++ [.crash]

theorem spilled : CleanRun sampleEnv spillEvents spilledState := by
  have hfull := (filled (le_refl traceChannelCap)).step (.offer ⟨sampleId, rfl⟩ (by simp)) trivial
  have hwaiting : CleanRun sampleEnv (fillEvents traceChannelCap ++ [.offer (sampleTrace sampleId)])
    { State.init with
      channel := nthTraces traceChannelCap, pc := .loadHead
      waiting := [sampleTrace sampleId], accepted := nthTraces traceChannelCap } := by
    simpa [offerTrace, State.init, Pc.receives, nthTraces, sampleEnv] using hfull
  have hspilled := hwaiting.step (.append [] rfl rfl) trivial
  have hcrashed := hspilled.step (.crash (by simp)) ⟨rfl, rfl⟩
  simpa [spillEvents, spilledState, State.init] using hcrashed

def drainingState : State ℚ :=
  { spilledState with
    head := genesisHash
    pc := .draining .recv [toText (sampleTrace sampleId)] [] [] }

def recoverEvents : List (Event ℚ) := [.restart, .loadHead, .read fun _ => true]

theorem readSpill_one {s : State ℚ} {t : Trace ℚ} (h : s.spill = [toText t]) :
    readSpill (fun _ => true) s resume =
      { s with pc := .draining resume [toText t] [] [] } := by
  simp [readSpill, h, linesAt, isBlank_toText]

theorem draining : CleanRun sampleEnv (spillEvents ++ recoverEvents) drainingState := by
  have hloaded := (spilled.step (.restart rfl) trivial).step (.loadHead rfl) trivial
  have hread := hloaded.step (.read (fun _ => true) rfl) trivial
  rw [readSpill_one rfl] at hread
  simpa [recoverEvents, drainingState, spilledState, State.init, currentHead] using hread

theorem sampleEnv_reads :
    sampleEnv.fromText (toText (sampleTrace sampleId)) = .ok (sampleTrace sampleId) :=
  sampleReader_toText sampleId genesisHash

def sampleHash (head : String) : String :=
  sampleDigest (Json.canonicalJson ((sampleTrace sampleId).withPrevHash head).toValue)

def insertSample (rows : List Row) (head : String) : List Row :=
  insert rows ((sampleTrace sampleId).withPrevHash head) (sampleHash head)

theorem drainLine_insert (s : State ℚ) (resume : Resume) (todo inserted skipped : List String) :
    drainLine sampleEnv .insert s resume (toText (sampleTrace sampleId)) todo inserted skipped =
      { s with
        pc := .draining resume todo inserted (skipped ++ [toText (sampleTrace sampleId)]) } := by
  unfold drainLine
  rw [sampleEnv_reads]
  rfl

theorem drainLine_none (s : State ℚ) (resume : Resume) (todo inserted skipped : List String) :
    drainLine sampleEnv .none s resume (toText (sampleTrace sampleId)) todo inserted skipped =
      { s with
        rows := insertSample s.rows s.head
        head := sampleHash s.head
        pc := .draining resume todo (inserted ++ [toText (sampleTrace sampleId)]) skipped } := by
  unfold drainLine
  rw [sampleEnv_reads]
  simp only [writeTrace_none, sampleEnv, insertSample, sampleHash]

theorem sampleIds_nodup :
    (([sampleTrace sampleId] ++ nthTraces traceChannelCap).map Trace.traceId).Nodup := by
  have hids : ([sampleTrace sampleId] ++ nthTraces traceChannelCap).map Trace.traceId =
      nthId traceChannelCap :: (List.range traceChannelCap).map nthId := by
    rw [nthId_cap]
    simp [nthTraces, sampleTrace]
  rw [hids, List.nodup_cons]
  have hcap : traceChannelCap < 65536 := by decide
  constructor
  · intro hm
    obtain ⟨i, hi, he⟩ := List.mem_map.mp hm
    have hlt := List.mem_range.mp hi
    have heq := nthId_inj (hlt.trans hcap) hcap he
    exact absurd heq hlt.ne
  · refine List.nodup_range.map_on ?_
    intro i hi j hj he
    exact nthId_inj ((List.mem_range.mp hi).trans hcap) ((List.mem_range.mp hj).trans hcap) he

def insertedState : State ℚ :=
  { drainingState with
    rows := insertSample [] genesisHash
    head := sampleHash genesisHash
    pc := .truncating .recv [toText (sampleTrace sampleId)] [] }

def insertedEvents : List (Event ℚ) :=
  spillEvents ++ recoverEvents ++ [.drainLine .none] ++ [.drainEnd]

theorem inserted : CleanRun sampleEnv insertedEvents insertedState := by
  have hline := draining.step (.drainLine .none rfl) trivial
  rw [drainLine_none] at hline
  have hend := hline.step (.drainEnd rfl) trivial
  simpa [insertedEvents, insertedState, drainingState, spilledState, State.init] using hend

def cutState : State ℚ := { insertedState with spill := [], pc := Resume.recv.pc }

theorem durable_exactly_once_sample :
    Recorded sampleEnv cutState ∧
      ∃ kept stored : List (Trace ℚ),
        (kept ++ cutState.channel ++ cutState.lostAtCrash ++ cutState.failed).Perm
          cutState.accepted ∧
        List.Forall₂ (Row.Records sampleEnv) cutState.rows stored ∧
        stored.Perm (cutState.appended ++ kept) :=
  durable_exactly_once inserted (.inl ⟨rfl, .truncate rfl⟩)

/-- The insert of the line fails, and the file is cut. -/
theorem spilled_lost : ∃ events s s', Run sampleEnv events s ∧ DrainCompleted sampleEnv s s' ∧
    ((s'.appended ++ s'.accepted).map Trace.traceId).Nodup ∧
    s'.appended = [sampleTrace sampleId] ∧ s'.rows = [] := by
  have hline := draining.run.step (.drainLine .insert rfl)
  rw [drainLine_insert] at hline
  have hcut := (hline.step (.drainEnd rfl)).step (.truncate rfl)
  have hup := (hcut.step (.crash nofun)).step (.restart rfl)
  have hseek := hup.step (.loadHead rfl)
  refine ⟨_, _, _, hseek, .inr ⟨rfl, fun _ => true, .read _ rfl⟩, ?_, rfl, rfl⟩
  exact sampleIds_nodup

/-- The line is inserted, and the process dies before the file is cut. -/
theorem spilled_replayed : ∃ events s s', Run sampleEnv events s ∧
    DrainCompleted sampleEnv s s' ∧
    ((s'.appended ++ s'.accepted).map Trace.traceId).Nodup ∧
    s'.appended = [sampleTrace sampleId] ∧
    ∃ head, s'.rows = insertSample (insertSample [] genesisHash) head := by
  have hcrashed := inserted.run.step (.crash nofun)
  have hseek := (hcrashed.step (.restart rfl)).step (.loadHead rfl)
  have hread := hseek.step (.read (fun _ => true) rfl)
  rw [readSpill_one rfl] at hread
  have hline := hread.step (.drainLine .none rfl)
  rw [drainLine_none] at hline
  have hend := hline.step (.drainEnd rfl)
  refine ⟨_, _, _, hend, .inl ⟨rfl, .truncate rfl⟩, ?_, rfl, _, rfl⟩
  exact sampleIds_nodup

/-- A failed insert in a drain loses a spilled trace, and a crash before the file
is cut doubles it. -/
theorem durable_not_exactly_once :
    (∃ events s s', Run sampleEnv events s ∧ DrainCompleted sampleEnv s s' ∧
      s'.rows = [] ∧ ¬ Recorded sampleEnv s') ∧
    (∃ events s s', Run sampleEnv events s ∧ DrainCompleted sampleEnv s s' ∧
      s'.rows.length = 2 ∧ ¬ Recorded sampleEnv s') := by
  constructor
  · obtain ⟨events, s, s', hrun, hd, hn, happended, hrows⟩ := spilled_lost
    refine ⟨events, s, s', hrun, hd, hrows, fun h => ?_⟩
    obtain ⟨row, hfilter, _⟩ := h hn (sampleTrace sampleId) (.inl (by simp [happended]))
    simp [hrows] at hfilter
  · obtain ⟨events, s, s', hrun, hd, hn, happended, head, hrows⟩ := spilled_replayed
    refine ⟨events, s, s', hrun, hd, by simp [hrows, insertSample, insert], fun h => ?_⟩
    obtain ⟨row, hfilter, _⟩ := h hn (sampleTrace sampleId) (.inl (by simp [happended]))
    simp [hrows, insertSample, insert] at hfilter

end Firstpass.Store
