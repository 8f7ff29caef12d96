import Firstpass.Proxy.StoreDurable

/-!
# The order of spilled traces

A spilled trace is meant to reach the table before every trace the channel
accepts after it. The writer drains the spill file only when it finds the
channel empty, so a trace that is accepted while a spilled one waits is written
first. Where no trace is accepted in that time, and no drain leaves out a line,
`Order` is kept by every step and the table has the order of the marks.
-/

namespace Firstpass.Store

open HashChain (genesisHash)

variable {F : Type} [F64 F] {env : StoreEnv F}

-- ---------------------------------------------------------------------------
-- What is told of a run
-- ---------------------------------------------------------------------------

/-- A trace was appended to the spill file, or went into the channel. -/
inductive Mark (F : Type) [F64 F]
  | spilled (t : Trace F)
  | accepted (t : Trace F)

def Mark.trace : Mark F → Trace F
  | .spilled t => t
  | .accepted t => t

def Mark.traceId (m : Mark F) : String := m.trace.traceId

/-- The channel takes a trace that is offered now. -/
def State.takes (s : State F) : Bool :=
  !s.closed && s.pc.receives && decide (s.channel.length < traceChannelCap)

def mark (s : State F) : Event F → List (Mark F)
  | .append t => [.spilled t]
  | .offer t => if s.takes then [.accepted t] else []
  | _ => []

/-- The marks of a run whose steps all satisfy `turn`. -/
inductive Told (env : StoreEnv F) (turn : State F → Event F → Prop) : List (Mark F) → State F → Prop
  | start : Told env turn [] .init
  | step : Told env turn marks s → Step env s e s' → turn s e → Told env turn (marks ++ mark s e) s'

theorem Told.run (h : Told env turn marks s) : ∃ events, Run env events s := by
  induction h with
  | start => exact ⟨[], .start⟩
  | step _ hs _ ih =>
    obtain ⟨events, hrun⟩ := ih
    exact ⟨_, hrun.step hs⟩

def State.ids (s : State F) : List String := s.rows.map Row.traceId

/-- `t'` was accepted after `t` was spilled. -/
def Before (marks : List (Mark F)) (t t' : Trace F) : Prop :=
  [Mark.spilled t, Mark.accepted t'].Sublist marks

/-- Wherever `b` stands, `a` stands earlier. -/
def Precedes (a b : String) (ids : List String) : Prop :=
  ∀ front back, ids = front ++ b :: back → a ∈ front

def SpillOrder (marks : List (Mark F)) (s : State F) : Prop :=
  ∀ t t' : Trace F, Before marks t t' → Precedes t.traceId t'.traceId s.ids

-- ---------------------------------------------------------------------------
-- The steps that keep the order
-- ---------------------------------------------------------------------------

/-- The trace of the line is in the table. -/
def Landed (s : State F) (line : String) : Prop :=
  ∀ t : Trace F, line = toText t → t.traceId ∈ s.ids

/-- The writer looks at the channel before it drains again. -/
def Pc.ready : Pc F → Bool
  | .recv => true
  | .writing _ => true
  | .tryRecv => true
  | _ => false

def InTurn (s : State F) : Event F → Prop
  -- No trace is accepted while a spilled one waits for the channel to empty.
  | .offer _ => s.takes → s.pc.ready → ∀ line ∈ s.spill, Landed s line
  -- A drain leaves out no line that is not in the table.
  | .seekFailed => s.channel = [] ∨ ∀ line ∈ s.spill, Landed s line
  | .read ok => ∀ line ∈ linesAt (!ok ·) s.spill, Landed s line
  | .drainLine fault => fault = .none ∨ ∀ line ∈ s.pc.todo.head?, Landed s line
  | _ => True

-- ---------------------------------------------------------------------------
-- Precedence
-- ---------------------------------------------------------------------------

variable {marks : List (Mark F)} {s s' : State F} {t t' : Trace F} {m m' : Mark F}

theorem precedes_of_not_mem (a : String) (h : b ∉ ids) : Precedes a b ids := by
  rintro front back rfl
  exact absurd (by simp) h

theorem precedes_concat (h : Precedes a b ids) (hlast : last = b → a ∈ ids) :
    Precedes a b (ids ++ [last]) := by
  rintro front back he
  rcases List.eq_nil_or_concat back with rfl | ⟨back, final, rfl⟩
  · obtain ⟨rfl, hid⟩ := List.append_inj' he rfl
    exact hlast (by simpa using hid)
  · have hcut : ids ++ [last] = (front ++ b :: back) ++ [final] := by simpa using he
    exact h front back (List.append_inj' hcut rfl).1

theorem Before.spilled (h : Before marks t t') : Mark.spilled t ∈ marks :=
  h.subset (by simp)

theorem Before.accepted (h : Before marks t t') : Mark.accepted t' ∈ marks :=
  h.subset (by simp)

/-- The pairs a new mark adds end with it. -/
theorem before_concat (h : Before (marks ++ [m]) t t') :
    Before marks t t' ∨ (m = .accepted t' ∧ Mark.spilled t ∈ marks) := by
  obtain ⟨front, back, he, hfront, hback⟩ := List.sublist_append_iff.mp h
  rcases List.sublist_singleton.mp hback with rfl | rfl
  · left
    rwa [Before, he, List.append_nil]
  · have hsplit : [Mark.spilled t] ++ [Mark.accepted t'] = front ++ [m] := he
    obtain ⟨rfl, hlast⟩ := List.append_inj' hsplit rfl
    exact .inr ⟨by simpa using hlast.symm, hfront.subset (by simp)⟩

-- ---------------------------------------------------------------------------
-- The invariant
-- ---------------------------------------------------------------------------

/-- The lines that the drain under way, or else the next one, will write. -/
def State.ahead (s : State F) : List String :=
  match s.pc with
  | .draining _ todo _ _ => todo
  | .truncating .. => []
  | _ => s.spill

structure Order (marks : List (Mark F)) (s : State F) : Prop where
  lines : ∀ line ∈ s.spill, ∃ t, Mark.spilled t ∈ marks ∧ line = toText t
  todo : ∀ line ∈ s.pc.todo, line ∈ s.spill
  spilled : ∀ t, Mark.spilled t ∈ marks → t.traceId ∈ s.ids ∨ toText t ∈ s.ahead
  accepted : ∀ t ∈ s.pc.hand ++ s.channel, Mark.accepted t ∈ marks
  told : ∀ last ∈ s.ids, ∃ m ∈ marks, m.traceId = last
  order : SpillOrder marks s
  ready : s.pc.ready = true → ∀ t t', Before marks t t' → t' ∈ s.pc.hand ++ s.channel →
    t.traceId ∈ s.ids

theorem Order.init : Order ([] : List (Mark F)) .init where
  lines := by simp [State.init]
  todo := by simp [State.init, Pc.todo]
  spilled := by simp
  accepted := by simp [State.init, Pc.hand]
  told := by simp [State.init, State.ids]
  order := fun _ _ _ => precedes_of_not_mem _ (by simp [State.init, State.ids])
  ready := by rintro ⟨⟩

theorem mark_unique (hn : (marks.map Mark.traceId).Nodup) (hm : m ∈ marks) (hm' : m' ∈ marks)
    (h : m.traceId = m'.traceId) : m = m' :=
  List.inj_on_of_nodup_map hn hm hm' h

theorem ahead_of_unlocked (h : s.pc.locksSpill = false) : s.ahead = s.spill := by
  unfold State.ahead
  split <;> simp_all [Pc.locksSpill]

theorem todo_of_unlocked {pc : Pc F} (h : pc.locksSpill = false) : pc.todo = [] := by
  cases pc <;> first | rfl | cases h

theorem Order.ahead_spill (h : Order marks s) : ∀ line ∈ s.ahead, line ∈ s.spill := by
  intro line hm
  have htodo := h.todo
  unfold State.ahead at hm
  split at hm
  · rename_i hpc
    rw [hpc] at htodo
    exact htodo line hm
  · cases hm
  · exact hm

theorem Order.spilled_waits (h : Order marks s) (ht : Mark.spilled t ∈ marks) :
    t.traceId ∈ s.ids ∨ toText t ∈ s.spill :=
  (h.spilled t ht).imp_right (h.ahead_spill _)

/-- Where every line of the file has landed, every spilled trace has. -/
theorem Order.landed (h : Order marks s) (hl : ∀ line ∈ s.spill, Landed s line)
    (ht : Mark.spilled t ∈ marks) : t.traceId ∈ s.ids :=
  (h.spilled_waits ht).elim (fun hid => hid) fun hm => hl _ hm t rfl

/-- A trace that is told of for the first time is in no row. -/
theorem Order.fresh (h : Order marks s) (hn : ((marks ++ [m]).map Mark.traceId).Nodup) :
    m.traceId ∉ s.ids := by
  intro hm
  obtain ⟨m', hm', hid⟩ := h.told _ hm
  rw [List.map_append, List.nodup_append] at hn
  exact hn.2.2 _ (List.mem_map_of_mem hm') _ (by simp) hid

theorem SpillOrder.insert {last : String} (h : SpillOrder marks s)
    (hids : s'.ids = s.ids ++ [last])
    (hlast : ∀ t t' : Trace F, Before marks t t' → last = t'.traceId → t.traceId ∈ s.ids) :
    SpillOrder marks s' := by
  rintro t t' hb
  rw [hids]
  exact precedes_concat (h t t' hb) (hlast t t' hb)

-- ---------------------------------------------------------------------------
-- One step
-- ---------------------------------------------------------------------------

/-- The writer lets go of what it held and goes elsewhere. -/
theorem Order.leave (h : Order marks s) (hrows : s'.rows = s.rows) (hspill : s'.spill = s.spill)
    (hchannel : ∀ t ∈ s'.channel, t ∈ s.channel) (hpc : s'.pc.Idle)
    (hready : s'.pc.ready = true → ∀ t t', Before marks t t' → t' ∈ s'.channel →
      t.traceId ∈ s.ids) : Order marks s' := by
  have hids : s'.ids = s.ids := by simp [State.ids, hrows]
  exact {
    lines := by simpa [hspill] using h.lines
    todo := by simp [todo_of_unlocked hpc.1]
    spilled := by
      rintro t ht
      rw [hids, ahead_of_unlocked hpc.1, hspill]
      exact h.spilled_waits ht
    accepted := by
      simp only [hpc.2, List.nil_append]
      exact fun t ht => h.accepted t (by simp [hchannel t ht])
    told := by simpa [hids] using h.told
    order := by simpa [SpillOrder, hids] using h.order
    ready := by simpa [hpc.2, hids] using hready }

theorem offerTrace_taken (h : s.takes = true) : offerTrace env s t =
    { s with channel := s.channel ++ [t], accepted := s.accepted ++ [t] } := by
  simp only [State.takes, Bool.and_eq_true, Bool.not_eq_true', decide_eq_true_eq] at h
  obtain ⟨⟨hclosed, hreceives⟩, hroom⟩ := h
  simp [offerTrace, hclosed, hreceives, hroom]

theorem offerTrace_refused (env : StoreEnv F) (t : Trace F) (h : s.takes = false) :
    ∃ waiting, offerTrace env s t = { s with waiting } := by
  unfold offerTrace
  split
  · exact ⟨s.waiting, rfl⟩
  · rename_i hopen
    split
    · rename_i hroom
      simp [State.takes, hroom] at h hopen
      simp [h hopen.1] at hopen
    · split
      · exact ⟨_, rfl⟩
      · exact ⟨s.waiting, rfl⟩

theorem Order.take (h : Order marks s) (hwaits : s.pc.ready = true →
      ∀ line ∈ s.spill, Landed s line)
    (hn : ((marks ++ [Mark.accepted t]).map Mark.traceId).Nodup) :
    Order (marks ++ [Mark.accepted t])
      { s with channel := s.channel ++ [t], accepted := s.accepted ++ [t] } where
  lines line hm := by
    obtain ⟨u, hu, rfl⟩ := h.lines line hm
    exact ⟨u, by simp [hu], rfl⟩
  todo := h.todo
  spilled u hu := h.spilled u (by simpa using hu)
  accepted u hu := by
    have hold := h.accepted u
    simp only [List.mem_append, List.mem_singleton, Mark.accepted.injEq] at hu hold ⊢
    rcases hu with hu | hu | hu
    · exact .inl (hold (.inl hu))
    · exact .inl (hold (.inr hu))
    · exact .inr hu
  told last hm := by
    obtain ⟨m, hm, hid⟩ := h.told last hm
    exact ⟨m, by simp [hm], hid⟩
  order u u' hb := by
    rcases before_concat hb with hb | ⟨hu', -⟩
    · exact h.order u u' hb
    · obtain rfl := Mark.accepted.inj hu'
      exact precedes_of_not_mem _ (h.fresh hn)
  ready hr u u' hb hu' := by
    rcases before_concat hb with hb | ⟨-, hu⟩
    · exact h.landed (hwaits hr) hb.spilled
    · exact h.landed (hwaits hr) hu

theorem Order.offer (h : Order marks s) (hturn : InTurn s (.offer t))
    (hn : ((marks ++ mark s (.offer t)).map Mark.traceId).Nodup) :
    Order (marks ++ mark s (.offer t)) (offerTrace env s t) := by
  cases htakes : s.takes with
  | true =>
    simp only [mark, htakes, if_true] at hn ⊢
    rw [offerTrace_taken htakes]
    exact h.take (hturn htakes) hn
  | false =>
    obtain ⟨waiting, he⟩ := offerTrace_refused env t htakes
    rw [he]
    simpa [mark, htakes] using { h with }

theorem Order.append (h : Order marks s) (hs : s.pc.locksSpill = false)
    (waiting : List (Trace F)) :
    Order (marks ++ [Mark.spilled t]) { s with
      waiting, spill := s.spill ++ [toText t], appended := s.appended ++ [t] } where
  lines line hm := by
    simp only [List.mem_append, List.mem_singleton] at hm
    rcases hm with hm | rfl
    · obtain ⟨u, hu, rfl⟩ := h.lines line hm
      exact ⟨u, by simp [hu], rfl⟩
    · exact ⟨t, by simp, rfl⟩
  todo := by simp [todo_of_unlocked hs]
  spilled u hu := by
    rw [ahead_of_unlocked (by exact hs)]
    simp only [List.mem_append, List.mem_singleton, Mark.spilled.injEq] at hu ⊢
    rcases hu with hu | rfl
    · exact (h.spilled_waits hu).imp_right .inl
    · exact .inr (.inr rfl)
  accepted u hu := by simp [h.accepted u hu]
  told last hm := by
    obtain ⟨m, hm, hid⟩ := h.told last hm
    exact ⟨m, by simp [hm], hid⟩
  order u u' hb := by
    rcases before_concat hb with hb | ⟨⟨⟩, -⟩
    exact h.order u u' hb
  ready hr u u' hb hu' := by
    rcases before_concat hb with hb | ⟨⟨⟩, -⟩
    exact h.ready hr u u' hb hu'

theorem Order.recv (h : Order marks s) (hr : s.pc.ready = true) (hhand : s.pc.hand = [])
    (hch : s.channel = t :: rest) :
    Order marks { s with channel := rest, pc := .writing t } where
  lines := h.lines
  todo := by simp [Pc.todo]
  spilled u hu := by
    rw [ahead_of_unlocked rfl]
    exact h.spilled_waits hu
  accepted := by simpa [hhand, hch] using h.accepted
  told := h.told
  order := h.order
  ready _ u u' hb hu' := h.ready hr u u' hb (by simpa [hhand, hch] using hu')

/-- Where the writer goes after a drain that left nothing out. -/
theorem Order.drained (h : Order marks s) (hrows : s'.rows = s.rows) (hspill : s'.spill = s.spill)
    (hchannel : s'.channel = s.channel) (hpc : s'.pc.Idle)
    (hl : ∀ t, Mark.spilled t ∈ marks → t.traceId ∈ s.ids) : Order marks s' :=
  h.leave hrows hspill (by simp [hchannel]) hpc fun _ _ _ hb _ => hl _ hb.spilled

theorem Order.read (h : Order marks s) (hinv : ChainInv env s) (hpc : s.pc = .seekSpill resume)
    (hturn : InTurn s (.read ok)) : Order marks (readSpill ok s resume) := by
  have hs : s.pc.locksSpill = false := by rw [hpc]; rfl
  -- A line that is neither read nor landed would be left out.
  have hread : ∀ t, Mark.spilled t ∈ marks →
      t.traceId ∈ s.ids ∨ toText t ∈ linesAt ok s.spill := by
    rintro t ht
    rcases h.spilled_waits ht with hid | hm
    · exact .inl hid
    · rcases List.mem_append.mp ((linesAt_perm ok s.spill).mem_iff.mpr hm) with hm | hm
      · exact .inl (hturn _ hm t rfl)
      · exact .inr hm
  unfold readSpill
  rw [filter_not_blank fun line hm => hinv.spill line (mem_linesAt hm)]
  split
  · rename_i hnone
    exact h.drained rfl rfl rfl (resume_idle resume) (by simpa [hnone] using hread)
  · exact {
      lines := h.lines
      todo := fun line hm => mem_linesAt hm
      spilled := hread
      accepted := by simpa [hpc, Pc.hand] using h.accepted
      told := h.told
      order := h.order
      ready := by rintro ⟨⟩ }

theorem writeTrace_ids (hw : writeTrace env fault s.rows s.head t = some (rows, head)) :
    rows.map Row.traceId = s.ids ++ [t.traceId] := by
  obtain ⟨-, rfl⟩ := writeTrace_some hw
  simp [Store.insert, State.ids]

theorem writeTrace_faulty (hw : writeTrace env fault s.rows s.head t = none) : fault ≠ .none := by
  rintro rfl
  simp [writeTrace_none] at hw

/-- The first line of a drain is written, or left out when its trace has landed. -/
theorem Order.drainLine (h : Order marks s) (hinv : ChainInv env s)
    (hn : (marks.map Mark.traceId).Nodup)
    (hpc : s.pc = .draining resume (line :: rest) written skipped)
    (hturn : InTurn s (.drainLine fault)) :
    Order marks (drainLine env fault s resume line rest written skipped) := by
  have htodo := h.todo
  have hspilled := h.spilled
  simp only [hpc, Pc.todo, State.ahead, List.mem_cons, forall_eq_or_imp] at htodo hspilled
  obtain ⟨t, ht, rfl⟩ := h.lines line htodo.1
  obtain ⟨read, hread, hname⟩ : ∃ read, env.fromText (toText t) = .ok read ∧
      read.traceId = t.traceId := by
    obtain ⟨read, hoffered, he⟩ := hinv.spill _ htodo.1
    exact ⟨read, he ▸ env.roundTrip read hoffered read.prevHash, (toText_inj he).1.symm⟩
  unfold Store.drainLine
  simp only [hread]
  split
  · -- The line is left out.
    rename_i hw
    have hlanded : Landed s (toText t) := by
      rcases hturn with hnone | hl
      · exact absurd hnone (writeTrace_faulty hw)
      · exact hl _ (by simp [hpc, Pc.todo])
    exact {
      lines := h.lines
      todo := htodo.2
      spilled := by
        rintro u hu
        rcases hspilled u hu with hid | he | hm
        · exact .inl hid
        · exact .inl (hlanded u he.symm)
        · exact .inr hm
      accepted := by simpa [hpc, Pc.hand] using h.accepted
      told := h.told
      order := h.order
      ready := by rintro ⟨⟩ }
  · -- Its row is the last one, and no accepted trace has its name.
    rename_i rows head hw
    have hids := writeTrace_ids hw
    exact {
      lines := h.lines
      todo := htodo.2
      spilled := by
        rintro u hu
        simp only [State.ids, hids, List.mem_append, List.mem_singleton]
        rcases hspilled u hu with hid | he | hm
        · exact .inl (.inl hid)
        · exact .inl (.inr ((toText_inj he).1.trans hname.symm))
        · exact .inr hm
      accepted := by simpa [hpc, Pc.hand] using h.accepted
      told := by
        simp only [State.ids, hids, List.mem_append, List.mem_singleton]
        rintro last (hm | rfl)
        · exact h.told last hm
        · exact ⟨_, ht, hname.symm⟩
      order := h.order.insert hids fun u u' hb he => by
        have heq : Mark.spilled t = .accepted u' :=
          mark_unique hn ht hb.accepted (hname.symm.trans he)
        cases heq
      ready := by rintro ⟨⟩ }

theorem Order.write (h : Order marks s) (hn : (marks.map Mark.traceId).Nodup)
    (hpc : s.pc = .writing t) (fault : Fault) : Order marks (writeInHand env fault s t) := by
  have hs : s.pc.locksSpill = false := by rw [hpc]; rfl
  have hready : ∀ u u', Before marks u u' → u' ∈ t :: s.channel → u.traceId ∈ s.ids := by
    simpa [hpc, Pc.hand] using h.ready (by rw [hpc]; rfl)
  have ht : Mark.accepted t ∈ marks := h.accepted t (by simp [hpc, Pc.hand])
  unfold writeInHand
  split
  · exact h.leave rfl rfl (fun _ hm => hm) ⟨rfl, rfl⟩ fun _ u u' hb hm =>
      hready u u' hb (List.mem_cons_of_mem _ hm)
  · rename_i rows head hw
    have hids := writeTrace_ids hw
    exact {
      lines := h.lines
      todo := by simp [Pc.todo]
      spilled := by
        rintro u hu
        rw [ahead_of_unlocked rfl]
        simp only [State.ids, hids, List.mem_append]
        exact (h.spilled_waits hu).imp_left .inl
      accepted := fun u hu => h.accepted u (by simp [Pc.hand] at hu; simp [hu])
      told := by
        simp only [State.ids, hids, List.mem_append, List.mem_singleton]
        rintro last (hm | rfl)
        · exact h.told last hm
        · exact ⟨_, ht, rfl⟩
      order := h.order.insert hids fun u u' hb he => by
        -- The trace in hand is the accepted one, so what was spilled before it has landed.
        have heq : Mark.accepted t = .accepted u' := mark_unique hn ht hb.accepted he
        cases heq
        exact hready u t hb (by simp)
      ready := by
        rintro - u u' hb hm
        simp only [State.ids, hids, List.mem_append]
        exact .inl (hready u u' hb (List.mem_cons_of_mem _ (by simpa [Pc.hand] using hm))) }

theorem Order.quiet (he : mark s e = []) (h : Order marks s') : Order (marks ++ mark s e) s' := by
  simpa [he] using h

theorem Order.step (h : Order marks s) (hmode : env.mode = .durable) (hinv : ChainInv env s)
    (hn : ((marks ++ mark s e).map Mark.traceId).Nodup) (hturn : InTurn s e)
    (hs : Step env s e s') : Order (marks ++ mark s e) s' := by
  have hseek : ∀ resume : Resume, (drainPc env resume).ready = false := by
    simp [drainPc, hmode, Pc.ready]
  cases hs with
  | offer _ _ => exact h.offer hturn hn
  | append _ _ hlock => exact h.append hlock _
  | appendFailed _ _ => exact .quiet rfl { h with }
  | closeSenders _ => exact .quiet rfl { h with }
  | loadHead _ =>
    exact .quiet rfl (h.leave rfl rfl (fun _ hm => hm) (drainPc_idle .recv) (by simp [hseek]))
  | loadHeadFailed _ => exact .quiet rfl (h.leave rfl rfl (by simp) ⟨rfl, rfl⟩ (by rintro ⟨⟩))
  | @seekFailed _ resume hpc =>
    refine .quiet rfl (h.leave rfl rfl (fun _ hm => hm) (resume_idle resume) ?_)
    rintro - u u' hb hm
    rcases hturn with hempty | hl
    · simp [hempty] at hm
    · exact h.landed hl hb.spilled
  | read ok hpc => exact .quiet rfl (h.read hinv hpc hturn)
  | drainLine fault hpc =>
    exact .quiet rfl (h.drainLine hinv (by simpa [mark] using hn) hpc hturn)
  | drainEnd hpc =>
    refine .quiet rfl { h with todo := ?_, spilled := ?_, accepted := ?_, ready := ?_ }
    · simp [Pc.todo]
    · rintro u hu
      simpa [State.ahead, State.ids, hpc] using h.spilled u hu
    · simpa [Pc.hand, hpc] using h.accepted
    · rintro ⟨⟩
  | @truncate _ resume _ _ hpc =>
    have hall : ∀ t, Mark.spilled t ∈ marks → t.traceId ∈ s.ids := by
      simpa [State.ahead, hpc] using h.spilled
    exact .quiet rfl {
      lines := by simp
      todo := by simp
      spilled := fun u hu => .inl (hall u hu)
      accepted := by simpa [hpc] using h.accepted
      told := h.told
      order := h.order
      ready := fun _ _ _ hb _ => hall _ hb.spilled }
  | @truncateFailed _ resume _ _ hpc =>
    exact .quiet rfl (h.drained rfl rfl rfl (resume_idle resume)
      (by simpa [State.ahead, hpc] using h.spilled))
  | recv hpc hch => exact .quiet rfl (h.recv (by rw [hpc]; rfl) (by rw [hpc]; rfl) hch)
  | recvClosed _ _ _ =>
    exact .quiet rfl (h.leave rfl rfl (fun _ hm => hm) (drainPc_idle .exit) (by simp [hseek]))
  | tryRecv hpc hch => exact .quiet rfl (h.recv (by rw [hpc]; rfl) (by rw [hpc]; rfl) hch)
  | tryRecvEmpty _ _ _ =>
    exact .quiet rfl (h.leave rfl rfl (fun _ hm => hm) (drainPc_idle .recv) (by simp [hseek]))
  | tryRecvDisconnected _ _ _ =>
    exact .quiet rfl (h.leave rfl rfl (fun _ hm => hm) ⟨rfl, rfl⟩ (by rintro ⟨⟩))
  | write fault hpc => exact .quiet rfl (h.write (by simpa [mark] using hn) hpc fault)
  | crash _ => exact .quiet rfl (h.leave rfl rfl (by simp) ⟨rfl, rfl⟩ (by rintro ⟨⟩))
  | restart _ =>
    exact .quiet rfl (h.leave rfl rfl (fun _ hm => hm) ⟨rfl, rfl⟩ (by rintro ⟨⟩))

-- ---------------------------------------------------------------------------
-- Whole runs
-- ---------------------------------------------------------------------------

theorem Told.order (h : Told env InTurn marks s) (hmode : env.mode = .durable)
    (hn : (marks.map Mark.traceId).Nodup) : Order marks s := by
  induction h with
  | start => exact .init
  | step htold hs hturn ih =>
    obtain ⟨events, hrun⟩ := htold.run
    have hold := ih (by
      rw [List.map_append] at hn
      exact (List.nodup_append.mp hn).1)
    exact hold.step hmode hrun.chainInv hn hturn hs

/-- In every durable run whose steps are in turn, a spilled trace stands before
every trace that was accepted after it. -/
theorem spill_order (h : Told env InTurn marks s) (hmode : env.mode = .durable)
    (hn : (marks.map Mark.traceId).Nodup) : SpillOrder marks s :=
  (h.order hmode hn).order

-- ---------------------------------------------------------------------------
-- A trace that overtakes a spilled one
-- ---------------------------------------------------------------------------

theorem Told.mono {turn turn' : State F → Event F → Prop} (h : Told env turn marks s)
    (himp : ∀ s e, turn s e → turn' s e) : Told env turn' marks s := by
  induction h with
  | start => exact .start
  | step _ hs hturn ih => exact ih.step hs (himp _ _ hturn)

theorem Told.quiet {turn : State F → Event F → Prop} (h : Told env turn marks s)
    (hs : Step env s e s') (hturn : turn s e) (he : mark s e = []) : Told env turn marks s' := by
  simpa [he] using h.step hs hturn

theorem Told.take {turn : State F → Event F → Prop} (h : Told env turn marks s)
    (ht : env.offered t) (htakes : s.takes = true) (hturn : turn s (.offer t)) :
    Told env turn (marks ++ [.accepted t])
      { s with channel := s.channel ++ [t], accepted := s.accepted ++ [t] } := by
  have hup : s.pc ≠ .down := by
    intro hpc
    simp [State.takes, hpc, Pc.receives] at htakes
  have hoffer := h.step (.offer ht hup) hturn
  rw [offerTrace_taken htakes] at hoffer
  simpa [mark, htakes] using hoffer

/-- The writer writes what it has in hand and everything in the channel, and
does not look at the spill file. -/
theorem Told.writeAll (h : Told env (fun _ _ => True) marks s) (hpc : s.pc = .writing t) :
    ∃ s', Told env (fun _ _ => True) marks s' ∧
      s'.ids = s.ids ++ (t :: s.channel).map Trace.traceId := by
  obtain ⟨channel, hch⟩ : ∃ channel, s.channel = channel := ⟨_, rfl⟩
  induction channel generalizing s t with
  | nil =>
    refine ⟨_, h.quiet (.write .none hpc) trivial rfl, ?_⟩
    simp [writeInHand, writeTrace_none, State.ids, Store.insert, hch]
  | cons u rest ih =>
    have hwrite := h.quiet (.write .none hpc) trivial rfl
    simp only [writeInHand, writeTrace_none] at hwrite
    have hnext := hwrite.quiet (.tryRecv rfl hch) trivial rfl
    obtain ⟨s', htold, hids⟩ := ih hnext rfl rfl
    refine ⟨s', htold, ?_⟩
    rw [hids]
    simp [State.ids, Store.insert, hch]

def lateTrace : Trace ℚ := sampleTrace (nthId (traceChannelCap + 1))

def spillMarks : List (Mark ℚ) :=
  (nthTraces traceChannelCap).map .accepted ++ [.spilled (sampleTrace sampleId)]

theorem spillMarks_ids : (spillMarks ++ [Mark.accepted lateTrace]).map Mark.traceId =
    (List.range (traceChannelCap + 2)).map nthId := by
  simp only [spillMarks, nthTraces, lateTrace, List.range_succ, List.map_append, List.map_map,
    List.map_cons, List.map_nil]
  rw [nthId_cap]
  rfl

theorem spillMarks_nodup : ((spillMarks ++ [Mark.accepted lateTrace]).map Mark.traceId).Nodup := by
  rw [spillMarks_ids]
  have hcap : traceChannelCap + 2 < 65536 := by decide
  refine List.nodup_range.map_on ?_
  intro i hi j hj he
  exact nthId_inj ((List.mem_range.mp hi).trans hcap) ((List.mem_range.mp hj).trans hcap) he

theorem spilled_before_late :
    Before (spillMarks ++ [Mark.accepted lateTrace]) (sampleTrace sampleId) lateTrace := by
  simp [Before, spillMarks]

/-- The writer waits at the channel, which fills up. -/
theorem toldFull (h : n ≤ traceChannelCap) :
    Told sampleEnv InTurn ((nthTraces n).map .accepted) { State.init with
      head := genesisHash, pc := .recv, channel := nthTraces n, accepted := nthTraces n } := by
  induction n with
  | zero =>
    have hup : Told sampleEnv InTurn [] { State.init with pc := .loadHead } :=
      Told.quiet .start (.restart rfl) trivial rfl
    have hload := hup.quiet (.loadHead rfl) trivial rfl
    have hread := hload.quiet (.read (fun _ => true) rfl) (by simp [InTurn, linesAt]) rfl
    simpa [readSpill, linesAt, nthTraces, State.init, currentHead, Resume.pc] using hread
  | succ n ih =>
    have hroom : n < traceChannelCap := h
    have hoffer := (ih (Nat.le_of_succ_le h)).step (.offer ⟨nthId n, rfl⟩ (by simp))
      (by simp [InTurn, State.init])
    simpa [nthTraces, List.range_succ, offerTrace, mark, State.takes, State.init, Pc.receives,
      hroom] using hoffer

def waitingState : State ℚ :=
  { State.init with
    head := genesisHash
    pc := .recv
    channel := nthTraces traceChannelCap
    accepted := nthTraces traceChannelCap
    spill := [toText (sampleTrace sampleId)]
    appended := [sampleTrace sampleId] }

theorem toldSpilled : Told sampleEnv InTurn spillMarks waitingState := by
  have hfull := (toldFull (le_refl traceChannelCap)).quiet (.offer ⟨sampleId, rfl⟩ (by simp))
    (by simp [InTurn, State.init]) (by simp [mark, State.takes, nthTraces])
  have hwaiting : Told sampleEnv InTurn ((nthTraces traceChannelCap).map .accepted)
      { State.init with
        head := genesisHash, pc := .recv, channel := nthTraces traceChannelCap
        waiting := [sampleTrace sampleId], accepted := nthTraces traceChannelCap } := by
    simpa [offerTrace, State.init, Pc.receives, nthTraces, sampleEnv] using hfull
  have hspilled := hwaiting.step (.append [] rfl rfl) trivial
  simpa [spillMarks, waitingState, mark, State.init] using hspilled

/-- A trace goes into the channel while the writer is at work on it, and is
written although the spilled one still waits. -/
theorem spill_overtaken : sampleEnv.mode = .durable ∧
    ∃ marks s, Told sampleEnv (fun _ _ => True) marks s ∧
      (marks.map Mark.traceId).Nodup ∧ ¬ SpillOrder marks s := by
  refine ⟨rfl, spillMarks ++ [.accepted lateTrace], ?_⟩
  obtain ⟨t, rest, hch⟩ : ∃ t rest, nthTraces traceChannelCap = t :: rest :=
    List.exists_cons_of_length_pos (by simp [nthTraces, traceChannelCap])
  have hlen : rest.length + 1 = traceChannelCap := by
    have hlen := congrArg List.length hch
    simpa [nthTraces] using hlen.symm
  -- The writer takes one trace, and the late one goes behind the others.
  have hany : Told sampleEnv (fun _ _ => True) _ _ := toldSpilled.mono fun _ _ _ => trivial
  have htaken := hany.quiet (.recv rfl hch) trivial rfl
  have hlate := htaken.take (t := lateTrace) ⟨_, rfl⟩
    (by simp [State.takes, Pc.receives, waitingState, State.init, Nat.lt_of_succ_le hlen.le])
    trivial
  obtain ⟨s, htold, hids⟩ := hlate.writeAll rfl
  refine ⟨s, htold, spillMarks_nodup, fun horder => ?_⟩
  have hwritten : s.ids = (nthTraces traceChannelCap).map Trace.traceId ++ [lateTrace.traceId] := by
    rw [hids, hch]
    simp [State.ids, waitingState, State.init]
  -- Had the spilled trace been written first, it would be among those in the channel.
  have hm := horder _ _ spilled_before_late _ [] hwritten
  exact (List.nodup_cons.mp sampleIds_nodup).1 hm

/-- The run goes on after a crash: the spilled trace is drained at startup, and
the late one is accepted then. -/
theorem spill_order_sample : ∃ marks s, Told sampleEnv InTurn marks s ∧
    Before marks (sampleTrace sampleId) lateTrace ∧ lateTrace.traceId ∈ s.ids ∧
    SpillOrder marks s := by
  refine ⟨spillMarks ++ [.accepted lateTrace], ?_⟩
  have hdown := toldSpilled.quiet (.crash (by simp [waitingState])) trivial rfl
  have hload := (hdown.quiet (.restart rfl) trivial rfl).quiet (.loadHead rfl) trivial rfl
  have hread := hload.quiet (.read (fun _ => true) rfl) (by simp [InTurn, linesAt]) rfl
  rw [readSpill_one rfl] at hread
  have hline := hread.quiet (.drainLine .none rfl) (.inl rfl) rfl
  rw [drainLine_none] at hline
  have hcut := (hline.quiet (.drainEnd rfl) trivial rfl).quiet (.truncate rfl) trivial rfl
  have hlate := hcut.take (t := lateTrace) ⟨_, rfl⟩
    (by simp [State.takes, Pc.receives, Resume.pc, traceChannelCap]) (by simp [InTurn])
  have hwrite := (hlate.quiet (.recv rfl rfl) trivial rfl).quiet (.write .none rfl) trivial rfl
  refine ⟨_, hwrite, spilled_before_late, ?_, spill_order hwrite rfl spillMarks_nodup⟩
  simp [writeInHand, writeTrace_none, State.ids, Store.insert]

end Firstpass.Store
