import Firstpass.Proxy.Store

/-!
# The table is always a chain

`ChainInv` is kept by every step, so in every state of every run the rows
verify from genesis, and the writer's head is the hash of the last row.
-/

namespace Firstpass.Store

open HashChain (genesisHash HashesTo verifyChain verifyChain_ok)
open LinkedChain

variable {F : Type} [F64 F] {env : StoreEnv F}

-- ---------------------------------------------------------------------------
-- Rows
-- ---------------------------------------------------------------------------

/-- The row holds this trace: its columns, and the trace as its body. -/
structure Row.Holds (env : StoreEnv F) (row : Row) (t : Trace F) : Prop where
  traceId : row.traceId = t.traceId
  body : env.fromText row.body = .ok t
  hash : HashesTo env.sha256Hex t row.hash

/-- The rows hold `ts`, which are chained from genesis to the head. -/
structure Chained (env : StoreEnv F) (rows : List Row) (ts : List (Trace F)) : Prop where
  holds : List.Forall₂ (Row.Holds env) rows ts
  linked : Linked Trace.prevHash (HashesTo env.sha256Hex) genesisHash ts (currentHead rows)

theorem currentHead_insert (rows : List Row) (t : Trace F) (hash : String) :
    currentHead (insert rows t hash) = hash := by
  simp [currentHead, insert]

theorem Chained.nil : Chained env [] [] := ⟨.nil, .nil⟩

theorem Chained.insert {hash : String} (h : Chained env rows ts) (ht : env.offered t)
    (hhash : HashesTo env.sha256Hex (t.withPrevHash (currentHead rows)) hash) :
    Chained env (insert rows (t.withPrevHash (currentHead rows)) hash)
      (ts ++ [(t.withPrevHash (currentHead rows))]) where
  holds := List.rel_append h.holds (.cons ⟨rfl, env.roundTrip t ht _, hhash⟩ .nil)
  linked := by
    rw [currentHead_insert]
    exact linked_concat_iff.mpr ⟨h.linked, hhash⟩

theorem writeTrace_some (h : writeTrace env fault rows head t = some (rows', head')) :
    HashesTo env.sha256Hex (t.withPrevHash head) head' ∧
      rows' = Store.insert rows (t.withPrevHash head) head' := by
  unfold writeTrace at h
  cases hh : Trace.hash env.sha256Hex (t.withPrevHash head) with
  | error e => simp [hh] at h
  | ok hash =>
    simp only [hh] at h
    split at h
    · obtain ⟨rfl, rfl⟩ := Prod.mk.inj (Option.some.inj h)
      exact ⟨hh, rfl⟩
    · cases h

theorem writeTrace_none (env : StoreEnv F) (rows : List Row) (head : String) (t : Trace F) :
    writeTrace env .none rows head t =
      some (Store.insert rows (t.withPrevHash head)
          (env.sha256Hex (Json.canonicalJson (t.withPrevHash head).toValue)),
        env.sha256Hex (Json.canonicalJson (t.withPrevHash head).toValue)) := rfl

-- ---------------------------------------------------------------------------
-- The invariant
-- ---------------------------------------------------------------------------

def Pc.hasHead : Pc F → Bool
  | .down => false
  | .loadHead => false
  | .stopped => false
  | _ => true

def Pc.hand : Pc F → List (Trace F)
  | .writing t => [t]
  | _ => []

def Pc.todo : Pc F → List String
  | .draining _ todo _ _ => todo
  | _ => []

/-- The line is the text of a trace that was offered. -/
def OfferedLine (env : StoreEnv F) (line : String) : Prop :=
  ∃ t, env.offered t ∧ line = toText t

structure ChainInv (env : StoreEnv F) (s : State F) : Prop where
  chained : ∃ ts, Chained env s.rows ts
  head : s.pc.hasHead = true → s.head = currentHead s.rows
  channel : ∀ t ∈ s.channel, env.offered t
  waiting : ∀ t ∈ s.waiting, env.offered t
  hand : ∀ t ∈ s.pc.hand, env.offered t
  spill : ∀ line ∈ s.spill, OfferedLine env line
  todo : ∀ line ∈ s.pc.todo, OfferedLine env line

theorem OfferedLine.fromText (h : OfferedLine env line) :
    ∃ t, env.offered t ∧ env.fromText line = .ok t := by
  obtain ⟨t, ht, rfl⟩ := h
  exact ⟨t, ht, env.roundTrip t ht t.prevHash⟩

theorem ChainInv.init : ChainInv env .init where
  chained := ⟨[], .nil⟩
  head := by rintro ⟨⟩
  channel := by simp [State.init]
  waiting := by simp [State.init]
  hand := by simp [State.init, Pc.hand]
  spill := by simp [State.init]
  todo := by simp [State.init, Pc.todo]

theorem mem_linesAt (h : line ∈ linesAt p spill) : line ∈ spill := by
  obtain ⟨⟨l, i⟩, hm, rfl⟩ := List.mem_map.mp h
  exact (List.mem_zipIdx' (List.mem_filter.mp hm).1).2 ▸ List.getElem_mem _

@[simp] theorem resume_hand (resume : Resume) : (resume.pc : Pc F).hand = [] := by
  cases resume <;> rfl

@[simp] theorem resume_todo (resume : Resume) : (resume.pc : Pc F).todo = [] := by
  cases resume <;> rfl

@[simp] theorem drainPc_hand (resume : Resume) : (drainPc env resume).hand = [] := by
  unfold drainPc
  split
  · rfl
  · exact resume_hand resume

@[simp] theorem drainPc_todo (resume : Resume) : (drainPc env resume).todo = [] := by
  unfold drainPc
  split
  · rfl
  · exact resume_todo resume

-- ---------------------------------------------------------------------------
-- One step
-- ---------------------------------------------------------------------------

theorem ChainInv.move {pc : Pc F} (h : ChainInv env s) (hhead : s.pc.hasHead = true)
    (hhand : pc.hand = [])
    (htodo : pc.todo = []) : ChainInv env { s with pc := pc } where
  chained := h.chained
  head := fun _ => h.head hhead
  channel := h.channel
  waiting := h.waiting
  hand := by simp [hhand]
  spill := h.spill
  todo := by simp [htodo]

theorem ChainInv.offer (h : ChainInv env s) (ht : env.offered t) :
    ChainInv env (offerTrace env s t) := by
  unfold offerTrace
  split
  · exact h
  · split
    · exact { h with channel := by simpa [or_imp, forall_and] using ⟨h.channel, ht⟩ }
    · split
      · exact { h with waiting := by simpa [or_imp, forall_and] using ⟨h.waiting, ht⟩ }
      · exact h

theorem ChainInv.read (h : ChainInv env s) (hpc : s.pc = .seekSpill resume) :
    ChainInv env (readSpill ok s resume) := by
  have hhead : s.pc.hasHead = true := by rw [hpc]; rfl
  unfold readSpill
  split
  · exact h.move hhead (resume_hand resume) (resume_todo resume)
  · rename_i todo _ _
    have htodo : ∀ line ∈ (linesAt ok s.spill).filter (!isBlank ·), OfferedLine env line :=
      fun line hm => h.spill line (mem_linesAt (List.mem_filter.mp hm).1)
    exact { h with head := fun _ => h.head hhead, hand := by simp [Pc.hand], todo := htodo }

theorem ChainInv.write {rows : List Row} {head : String} (h : ChainInv env s)
    (hhead : s.pc.hasHead = true) (ht : env.offered t)
    (hw : writeTrace env fault s.rows s.head t = some (rows, head)) :
    (∃ ts, Chained env rows ts) ∧ head = currentHead rows := by
  obtain ⟨ts, hts⟩ := h.chained
  obtain ⟨hhash, rfl⟩ := writeTrace_some hw
  rw [h.head hhead] at hhash ⊢
  exact ⟨⟨_, hts.insert ht hhash⟩, (currentHead_insert _ _ _).symm⟩

theorem ChainInv.drainLine {todo : List String} (h : ChainInv env s)
    (hpc : s.pc = .draining resume (line :: todo) inserted skipped) :
    ChainInv env (drainLine env fault s resume line todo inserted skipped) := by
  have hhead : s.pc.hasHead = true := by rw [hpc]; rfl
  have htodo := h.todo
  rw [hpc] at htodo
  obtain ⟨hline, hrest⟩ := List.forall_mem_cons.mp htodo
  obtain ⟨t, ht, hread⟩ := hline.fromText
  unfold Store.drainLine
  simp only [hread]
  split
  · exact { h with head := fun _ => h.head hhead, hand := by simp [Pc.hand], todo := hrest }
  · rename_i rows head hw
    obtain ⟨hchain, hcur⟩ := h.write hhead ht hw
    exact { h with
      chained := hchain, head := fun _ => hcur, hand := by simp [Pc.hand], todo := hrest }

theorem ChainInv.writeInHand (h : ChainInv env s) (hpc : s.pc = .writing t) :
    ChainInv env (writeInHand env fault s t) := by
  have hhead : s.pc.hasHead = true := by rw [hpc]; rfl
  have ht : env.offered t := h.hand t (by simp [hpc, Pc.hand])
  unfold Store.writeInHand
  split
  · exact { h with
      head := fun _ => h.head hhead, hand := by simp [Pc.hand], todo := by simp [Pc.todo] }
  · rename_i rows head hw
    obtain ⟨hchain, hcur⟩ := h.write hhead ht hw
    exact { h with
      chained := hchain, head := fun _ => hcur
      hand := by simp [Pc.hand], todo := by simp [Pc.todo] }

theorem ChainInv.recv (h : ChainInv env s) (hhead : s.pc.hasHead = true)
    (hch : s.channel = t :: rest) :
    ChainInv env { s with channel := rest, pc := .writing t } := by
  have hchannel := h.channel
  rw [hch] at hchannel
  obtain ⟨ht, hrest⟩ := List.forall_mem_cons.mp hchannel
  exact { h with
    head := fun _ => h.head hhead, channel := hrest
    hand := by simpa [Pc.hand] using ht, todo := by simp [Pc.todo] }

theorem ChainInv.unwait (h : ChainInv env s) (hw : s.waiting = front ++ t :: back) :
    env.offered t ∧ ∀ u ∈ front ++ back, env.offered u := by
  refine ⟨h.waiting t (by simp [hw]), fun u hu => h.waiting u ?_⟩
  rw [hw]
  rcases List.mem_append.mp hu with hu | hu <;> simp [hu]

theorem ChainInv.step (h : ChainInv env s) (hs : Step env s e s') : ChainInv env s' := by
  cases hs with
  | offer ht _ => exact h.offer ht
  | append _ hw _ =>
    obtain ⟨ht, hrest⟩ := h.unwait hw
    refine { h with waiting := hrest, spill := ?_ }
    simpa [or_imp, forall_and] using ⟨h.spill, _, ht, rfl⟩
  | appendFailed hw _ => exact { h with waiting := (h.unwait hw).2 }
  | closeSenders _ => exact { h with }
  | loadHead _ => exact { h with head := fun _ => rfl, hand := by simp, todo := by simp }
  | loadHeadFailed _ =>
    exact { h with
      head := by rintro ⟨⟩, channel := by simp
      hand := by simp [Pc.hand], todo := by simp [Pc.todo] }
  | seekFailed hpc => exact h.move (by rw [hpc]; rfl) (resume_hand _) (resume_todo _)
  | read _ hpc => exact h.read hpc
  | drainLine _ hpc => exact h.drainLine hpc
  | drainEnd hpc => exact h.move (by rw [hpc]; rfl) rfl rfl
  | truncate hpc =>
    rename_i resume _ _
    have hmove := h.move (by rw [hpc]; rfl) (resume_hand resume) (resume_todo resume)
    exact { hmove with spill := by simp }
  | truncateFailed hpc => exact h.move (by rw [hpc]; rfl) (resume_hand _) (resume_todo _)
  | recv hpc hch => exact h.recv (by rw [hpc]; rfl) hch
  | recvClosed hpc _ _ => exact h.move (by rw [hpc]; rfl) (drainPc_hand _) (drainPc_todo _)
  | tryRecv hpc hch => exact h.recv (by rw [hpc]; rfl) hch
  | tryRecvEmpty hpc _ _ => exact h.move (by rw [hpc]; rfl) (drainPc_hand _) (drainPc_todo _)
  | tryRecvDisconnected hpc _ _ => exact h.move (by rw [hpc]; rfl) rfl rfl
  | write _ hpc => exact h.writeInHand hpc
  | crash _ =>
    exact { h with
      head := by rintro ⟨⟩, channel := by simp, waiting := by simp
      hand := by simp [Pc.hand], todo := by simp [Pc.todo] }
  | restart _ =>
    exact { h with head := by rintro ⟨⟩, hand := by simp [Pc.hand], todo := by simp [Pc.todo] }

-- ---------------------------------------------------------------------------
-- Every run
-- ---------------------------------------------------------------------------

theorem Run.chainInv (h : Run env events s) : ChainInv env s := by
  induction h with
  | start => exact .init
  | step _ hs ih => exact ih.step hs

theorem loadAllTraces_ok (h : List.Forall₂ (Row.Holds env) rows ts) :
    loadAllTraces env rows = .ok ts := by
  unfold loadAllTraces
  induction h with
  | nil => rfl
  | cons hrow _ ih => simp [List.mapM_cons, hrow.body, ih, bind, Except.bind, pure, Except.pure]

/-- In every state of every run the table loads and verifies from genesis, and
a loaded head is the hash of the last row. -/
theorem store_chain (env : StoreEnv F) (events : List (Event F)) (s : State F)
    (h : Run env events s) :
    (∃ ts, loadAllTraces env s.rows = .ok ts ∧
      verifyChain env.sha256Hex ts genesisHash = .ok ()) ∧
    (s.pc.hasHead = true → s.head = match s.rows.getLast? with
      | some row => row.hash
      | none => genesisHash) := by
  have hinv := h.chainInv
  obtain ⟨ts, hts⟩ := hinv.chained
  exact ⟨⟨ts, loadAllTraces_ok hts.holds, verifyChain_ok.mpr ⟨_, hts.linked⟩⟩, hinv.head⟩

-- ---------------------------------------------------------------------------
-- A store of sample traces
-- ---------------------------------------------------------------------------

theorem toText_inj {t u : Trace F} (h : toText t = toText u) :
    t.traceId = u.traceId ∧ t.prevHash = u.prevHash := by
  have hv : t.toValue = u.toValue := Json.print_injective (String.ofList_inj.mp h)
  have htrace (t : Trace F) : t.toValue.get "trace_id" = some (.string t.traceId) :=
    get_record t.keys_nodup (by simp [Trace.fields])
  have hlink (t : Trace F) : t.toValue.get "prev_hash" = some (.string t.prevHash) :=
    get_record t.keys_nodup (by simp [Trace.fields])
  constructor
  · simpa [htrace] using congrArg (Json.Value.get · "trace_id") hv
  · simpa [hlink] using congrArg (Json.Value.get · "prev_hash") hv

def sampleId : String := "01890a5d-ac96-774b-bcce-b302099a2000"

def sampleTrace (traceId : String) : Trace ℚ where
  traceId := traceId
  prevHash := genesisHash
  tenantId := "tenant-a"
  sessionId := "session-1"
  ts := "2026-01-01T00:00:00Z"
  mode := .observe
  policy := ⟨"observe-passthrough@v0", false, none, none⟩
  request := ⟨"anthropic.messages", "deadbeef",
    ⟨3, .other, none, none, none, 0, 0, false, none, 0, 0, 0⟩⟩
  attempts := []
  deferred := []
  final := ⟨none, .error, 0, 0, 12, 0, 0, none, 0⟩
  probe := none
  rollout := none
  shadow := none
  routeIx := none
  predictedPass := none
  decisionPrior := none
  elastic := none
  risk := none
  experiment := none
  upstreamProvider := ""

open Classical in
noncomputable def sampleReader (text : String) : Except String (Trace ℚ) :=
  if h : ∃ traceId link, toText ((sampleTrace traceId).withPrevHash link) = text then
    .ok ((sampleTrace h.choose).withPrevHash h.choose_spec.choose)
  else .error "expected value"

theorem sampleReader_toText (traceId link : String) :
    sampleReader (toText ((sampleTrace traceId).withPrevHash link)) =
      .ok ((sampleTrace traceId).withPrevHash link) := by
  have hex : ∃ traceId' link', toText ((sampleTrace traceId').withPrevHash link') =
      toText ((sampleTrace traceId).withPrevHash link) := ⟨traceId, link, rfl⟩
  obtain ⟨hid, hlink⟩ := toText_inj hex.choose_spec.choose_spec
  rw [sampleReader, dif_pos hex]
  exact congrArg Except.ok (congr (congrArg (fun i => (sampleTrace i).withPrevHash) hid) hlink)

def sampleDigest (text : String) : String :=
  if HashChain.canonicalJson (sampleTrace sampleId) = .ok text then
    "6e6adbaf9eef323df743082a2e135e26b07b9b40abe2627e9465ea2b9a363ea3"
  else
    "8defca80ea4dd1a4e8a836e67c4e03dc74b7381ca1adbca64b3efb89a3e507de"

noncomputable def sampleEnv : StoreEnv ℚ where
  mode := .durable
  sha256Hex := sampleDigest
  fromText := sampleReader
  offered t := ∃ traceId, t = sampleTrace traceId
  roundTrip := by
    rintro _ ⟨traceId, rfl⟩ prevHash
    exact sampleReader_toText traceId prevHash

def sampleText : String :=
  Json.canonicalJson ((sampleTrace sampleId).withPrevHash genesisHash).toValue

def sampleState : State ℚ :=
  { State.init with
    rows := insert [] ((sampleTrace sampleId).withPrevHash genesisHash) (sampleDigest sampleText)
    head := sampleDigest sampleText
    pc := .tryRecv
    accepted := [sampleTrace sampleId] }

theorem sampleRun : Run sampleEnv
    [.restart, .offer (sampleTrace sampleId), .loadHead, .read fun _ => true, .recv, .write .none]
    sampleState := by
  have hoffered : sampleEnv.offered (sampleTrace sampleId) := ⟨sampleId, rfl⟩
  have hup := Run.step (@Run.start ℚ _ sampleEnv) (.restart rfl)
  have hqueued := hup.step (.offer hoffered nofun)
  have hready := (hqueued.step (.loadHead rfl)).step (.read (fun _ => true) rfl)
  have hhand : Run sampleEnv _ { State.init with
      head := genesisHash, pc := .writing (sampleTrace sampleId)
      accepted := [sampleTrace sampleId] } :=
    hready.step (.recv rfl rfl)
  have hwritten := hhand.step (.write .none rfl)
  have hdigest : sampleEnv.sha256Hex = sampleDigest := by simp only [sampleEnv]
  simp only [writeInHand, writeTrace_none, hdigest] at hwritten
  exact hwritten

theorem store_chain_sampleRun :
    (∃ ts, loadAllTraces sampleEnv sampleState.rows = .ok ts ∧
      verifyChain sampleEnv.sha256Hex ts genesisHash = .ok ()) ∧
    (sampleState.pc.hasHead = true → sampleState.head = match sampleState.rows.getLast? with
      | some row => row.hash
      | none => genesisHash) :=
  store_chain sampleEnv _ _ sampleRun

end Firstpass.Store
