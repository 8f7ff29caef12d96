import Firstpass.Proxy.PairedCluster

/-!
# Each trace counts once

A trace is credited with one pair and one challenger's cost at most, whatever happens to
appends, rows and processes. It is credited with one incumbent's cost at most, as long as
startup remembers its receipt.
-/

namespace Firstpass.Monitor

open Select CursorLog

variable {F : Type} [Field F] [LinearOrder F]

variable {ι α : Type} [DecidableEq ι]

-- ---------------------------------------------------------------------------
-- What one process keeps
-- ---------------------------------------------------------------------------

def namedIn (traceId : Uuid) (log : List (Option (LogRecord F))) : Nat :=
  log.countP (names traceId)

/-- What every process keeps. `once`: the incumbent's cost of a trace that was counted is not
counted again, because the trace was served here, or is remembered from its receipt, or is
named by a record that was read. -/
structure Booked.Fair (d : Deployment F) (servedBy : Uuid → Option Uuid)
    (log : List (Option (LogRecord F))) (b : Boot F) (s : Booked F) : Prop where
  sound : s.account.Sound d.site
  costed : ∀ traceId ∈ s.account.entry.locallyCosted, (servedBy traceId).isSome
  once : ∀ traceId, traceId ≠ Uuid.nil → b.Remembers d traceId →
    costsOf .incumbent traceId s.account.ledger ≤ 1 ∧
    (0 < costsOf .incumbent traceId s.account.ledger →
      servedBy traceId = some s.replicaId ∨ traceId ∈ s.account.entry.locallyCosted ∨
        0 < namedIn traceId (log.take s.account.entry.remoteLogOffset))

section process
variable {d : Deployment F} {servedBy : Uuid → Option Uuid} {log : List (Option (LogRecord F))}
  {b : Boot F} {s : Booked F}

omit [Field F] [LinearOrder F] in
theorem namedIn_take_le (traceId : Uuid) (log : List (Option (LogRecord F))) (n : Nat) :
    namedIn traceId (log.take n) ≤ namedIn traceId log :=
  (List.take_sublist n log).countP_le

omit [Field F] [LinearOrder F] in
theorem namedIn_take_succ (traceId : Uuid) {n : Nat} {record : Option (LogRecord F)}
    (hget : log[n]? = some record) : namedIn traceId (log.take (n + 1)) =
      namedIn traceId (log.take n) + if names traceId record then 1 else 0 := by
  rw [namedIn, List.take_add_one, hget, Option.toList_some, List.countP_append, namedIn,
    List.countP_singleton]

omit [Field F] [LinearOrder F] in
theorem namedIn_concat_pair (traceId : Uuid) (log : List (Option (LogRecord F)))
    (r : PairRecord F) : namedIn traceId (log ++ [some (.pair r)]) =
      namedIn traceId log + if r.incumbentTraceId = traceId then 1 else 0 := by
  rw [namedIn, List.countP_append, List.countP_singleton, namedIn]
  simp only [names, decide_eq_true_eq]

/-- The cost of a trace that a process knows nothing of was not counted. -/
theorem Booked.Fair.unknown (h : s.Fair d servedBy log b) {traceId : Uuid}
    (hid : traceId ≠ Uuid.nil) (hremembers : b.Remembers d traceId)
    (hserved : servedBy traceId ≠ some s.replicaId)
    (hcosted : traceId ∉ s.account.entry.locallyCosted)
    (hread : namedIn traceId (log.take s.account.entry.remoteLogOffset) = 0) :
    costsOf .incumbent traceId s.account.ledger = 0 := by
  obtain ⟨-, hkept⟩ := h.once traceId hid hremembers
  by_contra hne
  rcases hkept (Nat.pos_of_ne_zero hne) with hown | hmem | hpast
  · exact hserved hown
  · exact hcosted hmem
  · exact hpast.ne' hread

omit [Field F] [LinearOrder F] s b in
/-- The records of the log name served traces. -/
theorem namedIn_unserved
    (howned : ∀ r, some (.pair r) ∈ log → servedBy r.incumbentTraceId = some r.replicaId)
    {traceId : Uuid} (hnew : servedBy traceId = none) (n : Nat) :
    namedIn traceId (log.take n) = 0 := by
  refine List.countP_eq_zero.mpr fun record hmem hname => ?_
  rcases record with - | ⟨arm, x, key, usd⟩ | r
  · cases hname
  · cases hname
  · have hown := howned r (List.mem_of_mem_take hmem)
    rw [of_decide_eq_true hname, hnew] at hown
    cases hown

theorem Booked.Fair.mono (h : s.Fair d servedBy log b) {servedBy' : Uuid → Option Uuid}
    (hserved : ∀ traceId id, servedBy traceId = some id → servedBy' traceId = some id)
    {log' : List (Option (LogRecord F))} (hlog : log <+: log')
    (hcursor : s.account.entry.remoteLogOffset ≤ log.length) : s.Fair d servedBy' log' b where
  sound := h.sound
  costed traceId hmem := by
    obtain ⟨id, hid⟩ := Option.isSome_iff_exists.mp (h.costed traceId hmem)
    rw [hserved traceId id hid]
    rfl
  once traceId hid hremembers := by
    obtain ⟨hle, hkept⟩ := h.once traceId hid hremembers
    obtain ⟨more, rfl⟩ := hlog
    refine ⟨hle, fun hpos => ?_⟩
    rw [List.take_append_of_le_length hcursor]
    exact (hkept hpos).imp (hserved traceId _) id

theorem Booked.Fair.consume (h : s.Fair d servedBy log b)
    (hnamed : ∀ traceId, traceId ≠ Uuid.nil → namedIn traceId log ≤ 1)
    (howned : ∀ r, some (.pair r) ∈ log → servedBy r.incumbentTraceId = some r.replicaId)
    {record : Option (LogRecord F)} (hget : log[(booking d).cursor s]? = some record) :
    ((booking d).consume s ((booking d).cursor s) record).Fair d servedBy log b where
  sound := h.sound.credit (honest_consume _ s.replicaId _ record)
  costed traceId hmem := by
    rcases locallyCosted_consume s.account.entry s.replicaId ((booking d).cursor s) record with
      hsame | ⟨r, -, herase⟩
    · exact h.costed traceId (hsame ▸ hmem)
    · exact h.costed traceId (Finset.mem_of_mem_erase (herase ▸ hmem))
  once traceId hid hremembers := by
    obtain ⟨hle, hkept⟩ := h.once traceId hid hremembers
    have hcursor : ((booking d).consume s ((booking d).cursor s) record).account.entry.remoteLogOffset
        = (booking d).cursor s + 1 := (booking d).cursor_consume s record
    have hread := namedIn_take_succ traceId hget
    rw [costsOf_consume, hcursor, hread]
    rcases incumbent_logCredits s.account.entry s.replicaId record hid with
      hzero | ⟨hone, r, rfl, hname, hother, hunknown⟩
    · rw [hzero, Nat.add_zero]
      refine ⟨hle, fun hpos => ?_⟩
      rcases hkept hpos with hown | hmem | hpast
      · exact .inl hown
      · rcases locallyCosted_consume s.account.entry s.replicaId ((booking d).cursor s) record with
          hsame | ⟨r, rfl, herase⟩
        · exact .inr (.inl (hsame ▸ hmem))
        · by_cases hname : r.incumbentTraceId = traceId
          · have hnames : names traceId (some (.pair r)) = true := decide_eq_true hname
            rw [if_pos hnames]
            exact .inr (.inr (Nat.succ_pos _))
          · refine .inr (.inl ?_)
            exact herase ▸ Finset.mem_erase.mpr ⟨fun heq => hname heq.symm, hmem⟩
      · exact .inr (.inr (Nat.add_pos_left hpast _))
    · -- the record is the first that names the trace, and another process served it
      have hnames : names traceId (some (.pair r)) = true := decide_eq_true hname
      rw [if_pos hnames] at hread ⊢
      have hserved : servedBy traceId ≠ some s.replicaId := by
        rw [← hname, howned r (List.mem_of_getElem? hget)]
        exact fun heq => hother (Option.some.inj heq)
      have hfirst : namedIn traceId (log.take ((booking d).cursor s)) = 0 := by
        have htake := namedIn_take_le traceId log ((booking d).cursor s + 1)
        have hlog := hnamed traceId hid
        omega
      rw [h.unknown hid hremembers hserved hunknown hfirst, hone]
      exact ⟨le_rfl, fun _ => .inr (.inr (Nat.succ_pos _))⟩

theorem Booked.Fair.perform (h : s.Fair d servedBy log b) {l : Local F}
    (hl : ∀ t, l ≠ .tally (.serve t)) : ((booking d).perform l s).Fair d servedBy log b where
  sound := h.sound.credit (honest_applyLocal d _ fun t ht => absurd ht (hl t))
  costed traceId hmem := h.costed traceId (locallyCosted_applyLocal d s.account.entry l ▸ hmem)
  once traceId hid hremembers := by
    rw [costsOf_perform, incumbent_localCredits d s.account.entry hl, Nat.add_zero,
      locallyCosted_perform, offset_perform]
    exact h.once traceId hid hremembers

/-- A process serves a trace that nobody knows. -/
theorem Booked.Fair.serve (h : s.Fair d servedBy log b) {t : Receipt F}
    (ht : t.paired d.site = true) (hnew : servedBy t.traceId = none)
    (howned : ∀ r, some (.pair r) ∈ log → servedBy r.incumbentTraceId = some r.replicaId) :
    ((booking d).perform (.tally (.serve t)) s).Fair d
      (Function.update servedBy t.traceId (some s.replicaId)) log b where
  sound := h.sound.credit (honest_serve ht s.account.entry)
  costed traceId hmem := by
    have hbefore := h.costed traceId
      (locallyCosted_applyLocal d s.account.entry (.tally (.serve t)) ▸ hmem)
    by_cases hsame : traceId = t.traceId
    · rw [hsame, Function.update_self]
      rfl
    · rwa [Function.update_of_ne hsame]
  once traceId hid hremembers := by
    have hcredit := incumbent_credits_le d.site t traceId
    rw [costsOf_perform, locallyCosted_perform, offset_perform]
    by_cases hsame : traceId = t.traceId
    · subst hsame
      have hcosted : t.traceId ∉ s.account.entry.locallyCosted := by
        intro hmem
        have hsome := h.costed t.traceId hmem
        rw [hnew] at hsome
        cases hsome
      have hzero := h.unknown hid hremembers (by rw [hnew]; nofun) hcosted
        (namedIn_unserved howned hnew _)
      refine ⟨?_, fun _ => .inl (Function.update_self ..)⟩
      rw [hzero, Nat.zero_add]
      exact hcredit.trans (ite_le_one le_rfl zero_le_one)
    · rw [if_neg fun h => hsame h.2.symm] at hcredit
      have hzero : costsOf .incumbent traceId (s.account.entry.localCredits d (.tally (.serve t))) = 0 :=
        Nat.le_zero.mp hcredit
      rw [hzero, Nat.add_zero, Function.update_of_ne hsame]
      exact h.once traceId hid hremembers

omit b s in
theorem Booked.Fair.boot {b : Boot F} (hpaired : ∀ t ∈ b.traces, t.paired d.site = true)
    (hserved : ∀ t ∈ b.traces, (servedBy t.traceId).isSome) :
    ((booking d).boot b).Fair d servedBy log b where
  sound := sound_bootAccount d hpaired
  costed traceId hmem := by
    rw [entry_boot, locallyCosted_bootEntry] at hmem
    rcases of_mem_foldl_replayTrace d.site hmem with hmem | ⟨t, ht, rfl⟩
    · cases hmem
    · exact hserved t ht
  once traceId _ hremembers := by
    obtain ⟨hle, hcosted⟩ := hremembers.boot
    refine ⟨hle, fun hpos => .inr (.inl ?_)⟩
    rw [entry_boot]
    exact hcosted hpos

end process

-- ---------------------------------------------------------------------------
-- What the cluster keeps
-- ---------------------------------------------------------------------------

/-- What every run keeps. A trace is named once in the log and under way, after its one
evaluation, and by the process that served it; receipts are of served traces. -/
structure Cluster.Inv (d : Deployment F) (c : Cluster ι F) : Prop where
  ok : ∀ i, (booking d).Ok c.sys.log (c.sys.process i)
  named : ∀ traceId, traceId ≠ Uuid.nil →
    namedIn traceId c.sys.log + c.inFlight.countP (·.incumbentTraceId = traceId) ≤
      if traceId ∈ c.evaluated then 1 else 0
  owned : ∀ r, some (.pair r) ∈ c.sys.log ∨ r ∈ c.inFlight →
    c.servedBy r.incumbentTraceId = some r.replicaId
  receipts : ∀ i t, t ∈ c.served i ∨ t ∈ (c.db i).traces ∨ t ∈ (c.boot i).traces →
    t.traceId ≠ Uuid.nil ∧ (c.servedBy t.traceId).isSome ∧ t.paired d.site = true
  fair : ∀ i, (c.sys.process i).state.Fair d c.servedBy c.sys.log (c.boot i)

namespace Cluster

variable {d : Deployment F} {c : Cluster ι F}

omit [DecidableEq ι] in
theorem Inv.namedIn_le (h : c.Inv d) {traceId : Uuid} (hid : traceId ≠ Uuid.nil) :
    namedIn traceId c.sys.log ≤ 1 := by
  have hnamed := h.named traceId hid
  split at hnamed <;> omega

/-- A move of the log or of a process, but no start and no served trace. -/
def Calm : LogAction ι F → Prop
  | .act _ (.tally (.serve _)) => False
  | .restart _ _ => False
  | _ => True

theorem Inv.fair_step (h : c.Inv d) {a : LogAction ι F} (ha : Calm a) (i : ι) :
    (((booking d).step c.sys a).process i).state.Fair d c.servedBy
      ((booking d).step c.sys a).log (c.boot i) := by
  have hlog := (booking d).step_log c.sys a
  have hcursor := (h.ok i).cursor_le
  rcases (booking d).step_moved (h.ok i) a with ⟨-, hsame⟩ | ⟨-, hmoved⟩
  · rw [hsame]
    exact (h.fair i).mono (fun _ _ hid => hid) hlog hcursor
  · generalize (((booking d).step c.sys a).process i).state = s at hmoved ⊢
    cases hmoved with
    | same _ _ => exact (h.fair i).mono (fun _ _ hid => hid) hlog hcursor
    | read has =>
      exact (booking d).advance_inductive
        (fun s record hget hs => hs.consume (fun traceId hid => h.namedIn_le hid)
          (fun r hr => h.owned r (.inl hr)) hget) has (h.fair i)
    | act =>
      refine (h.fair i).perform fun t ht => ?_
      subst ht
      exact ha
    | restart => exact ha.elim

/-- A move that leaves the pairs of the log alone. -/
theorem Inv.act (h : c.Inv d) {a : LogAction ι F} (ha : Calm a)
    (hpair : ∀ record, a = .append record → isPairEntry record = false) : (c.act d a).Inv d := by
  have hlog : (c.act d a).sys.log = c.sys.log ∨
      ∃ record, isPairEntry record = false ∧ (c.act d a).sys.log = c.sys.log ++ [record] := by
    cases a with
    | append record => exact .inr ⟨record, hpair record rfl, rfl⟩
    | _ => exact .inl rfl
  refine ⟨fun i => (booking d).step_ok h.ok a i, fun traceId hid => ?_, fun r hr => ?_, h.receipts,
    fun i => h.fair_step ha i⟩
  · rcases hlog with hlog | ⟨record, hquiet, hlog⟩
    · rw [hlog]
      exact h.named traceId hid
    · have hnames : names traceId record = false := by
        rcases record with - | ⟨arm, x, key, usd⟩ | r
        · rfl
        · rfl
        · cases hquiet
      rw [hlog, namedIn, List.countP_append, List.countP_singleton, hnames]
      exact h.named traceId hid
  · refine h.owned r (hr.imp_left fun hmem => ?_)
    rcases hlog with hlog | ⟨record, hquiet, hlog⟩
    · rwa [hlog] at hmem
    · rw [hlog] at hmem
      rcases List.mem_append.mp hmem with hmem | hmem
      · exact hmem
      · rw [← List.mem_singleton.mp hmem] at hquiet
        cases hquiet

theorem Inv.setTasks (h : c.Inv d) (i : ι) (tasks : List (PairTask F)) :
    (c.setTasks i tasks).Inv d := ⟨h.ok, h.named, h.owned, h.receipts, h.fair⟩

/-- The store of a process takes in nothing but receipts of traces that were served. -/
theorem Inv.setDb (h : c.Inv d) (i : ι) {db : Database F}
    (hdb : ∀ t ∈ db.traces, t ∈ c.served i ∨ t ∈ (c.db i).traces) : (c.setDb i db).Inv d := by
  refine ⟨h.ok, h.named, h.owned, fun j t ht => ?_, h.fair⟩
  simp only [Cluster.setDb] at ht
  by_cases hj : j = i
  · subst hj
    rw [Function.update_self] at ht
    rcases ht with ht | ht | ht
    · exact h.receipts j t (.inl ht)
    · exact h.receipts j t ((hdb t ht).imp id .inl)
    · exact h.receipts j t (.inr (.inr ht))
  · rw [Function.update_of_ne hj] at ht
    exact h.receipts j t ht

theorem Inv.appendExperimentPair (h : c.Inv d) (i : ι) (row : ExperimentPairRow F) :
    (c.appendExperimentPair i row).Inv d := h.setDb i fun _ ht => .inr ht

theorem Inv.fallback (h : c.Inv d) (i : ι) (r : PairRecord F) :
    (c.act d (.act i r.fallback)).Inv d := h.act trivial nofun

omit [DecidableEq ι] in
/-- A record that names a trace for the first time is sent by the process that served it. -/
theorem Inv.send (h : c.Inv d) {r : PairRecord F}
    (hnew : namedIn r.incumbentTraceId c.sys.log +
      c.inFlight.countP (·.incumbentTraceId = r.incumbentTraceId) = 0)
    (hevaluated : r.incumbentTraceId ∈ c.evaluated)
    (hown : c.servedBy r.incumbentTraceId = some r.replicaId) :
    { c with inFlight := c.inFlight ++ [r] }.Inv d := by
  refine ⟨h.ok, fun traceId hid => ?_, fun r' hr' => ?_, h.receipts, h.fair⟩
  · rw [List.countP_append, List.countP_singleton, ← Nat.add_assoc]
    by_cases hsame : r.incumbentTraceId = traceId
    · subst hsame
      rw [hnew, if_pos hevaluated]
      simp
    · simp only [hsame, decide_false, Bool.false_eq_true, if_false, Nat.add_zero]
      exact h.named traceId hid
  · rcases hr' with hr' | hr'
    · exact h.owned r' (.inl hr')
    · rcases List.mem_append.mp hr' with hr' | hr'
      · exact h.owned r' (.inr hr')
      · rw [List.mem_singleton.mp hr']
        exact hown

theorem Inv.recordPair (h : c.Inv d) (i : ι) {r : PairRecord F}
    (hnew : namedIn r.incumbentTraceId c.sys.log +
      c.inFlight.countP (·.incumbentTraceId = r.incumbentTraceId) = 0)
    (hevaluated : r.incumbentTraceId ∈ c.evaluated)
    (hown : c.servedBy r.incumbentTraceId = some r.replicaId) : (c.recordPair i r).Inv d := by
  rw [Cluster.recordPair]
  split
  · exact (h.setTasks i _).send hnew hevaluated hown
  · exact h.setTasks i _

theorem replicaId_act (i j : ι) (l : Local F) :
    (c.act d (.act i l)).replicaId j = c.replicaId j := by
  simp only [Cluster.replicaId, Cluster.act, Consumer.step]
  split <;> rfl

/-- The evaluation of a trace that was not evaluated before, by the process that served it. -/
theorem Inv.spawnPairedChallenger (h : c.Inv d) (i : ι) {t : Receipt F} (ch : Receipt F)
    (hid : t.traceId ≠ Uuid.nil) (hown : c.servedBy t.traceId = some (c.replicaId i))
    (hnew : t.traceId ∉ c.evaluated) :
    ({ c with evaluated := insert t.traceId c.evaluated }.spawnPairedChallenger d i t ch).Inv d := by
  have hzero := h.named t.traceId hid
  rw [if_neg hnew] at hzero
  have hinsert : { c with evaluated := insert t.traceId c.evaluated }.Inv d := by
    refine ⟨h.ok, fun traceId hid => (h.named traceId hid).trans ?_, h.owned, h.receipts, h.fair⟩
    split
    · next hmem => rw [if_pos (Finset.mem_insert_of_mem hmem)]
    · exact Nat.zero_le _
  rw [Cluster.spawnPairedChallenger]
  cases (pairOutcome t.final.servedFrom : Option F) with
  | none => exact hinsert
  | some xInc =>
    have htally := hinsert.act
      (a := .act i (.tally (.health (ch.final.servedFrom = .error) (truncatedAttempts ch))))
      trivial nofun
    simp only
    cases (challengerOutcome ch.final.servedFrom : Option F) with
    | none => exact htally
    | some xCh =>
      refine htally.recordPair i (Nat.le_zero.mp hzero) (Finset.mem_insert_self _ _) ?_
      rw [replicaId_act]
      exact hown

theorem Inv.serve (h : c.Inv d) (i : ι) {t : Receipt F} (hid : t.traceId ≠ Uuid.nil)
    (hnew : c.servedBy t.traceId = none) (ht : t.paired d.site = true) :
    { c.act d (.act i (.tally (.serve t))) with
      served := Function.update c.served i (c.served i ++ [t])
      servedBy := Function.update c.servedBy t.traceId (some (c.replicaId i)) }.Inv d := by
  have hkept : ∀ traceId id, c.servedBy traceId = some id →
      Function.update c.servedBy t.traceId (some (c.replicaId i)) traceId = some id := by
    intro traceId id hsome
    have hne : traceId ≠ t.traceId := by
      rintro rfl
      rw [hnew] at hsome
      cases hsome
    rwa [Function.update_of_ne hne]
  have hold : ∀ j u, u ∈ c.served j ∨ u ∈ (c.db j).traces ∨ u ∈ (c.boot j).traces →
      u.traceId ≠ Uuid.nil ∧
        (Function.update c.servedBy t.traceId (some (c.replicaId i)) u.traceId).isSome ∧
        u.paired d.site = true := by
    intro j u hu
    obtain ⟨huid, hserved, hpaired⟩ := h.receipts j u hu
    obtain ⟨id, hsome⟩ := Option.isSome_iff_exists.mp hserved
    exact ⟨huid, by rw [hkept _ _ hsome]; rfl, hpaired⟩
  have hself : (Function.update c.servedBy t.traceId (some (c.replicaId i)) t.traceId).isSome := by
    rw [Function.update_self]
    rfl
  refine ⟨fun j => (booking d).step_ok h.ok _ j, h.named, fun r hr => hkept _ _ (h.owned r hr),
    fun j u hu => ?_, fun j => ?_⟩
  · rcases hu with hu | hu
    · by_cases hj : j = i
      · subst hj
        simp only [Function.update_self] at hu
        rcases List.mem_append.mp hu with hu | hu
        · exact hold j u (.inl hu)
        · obtain rfl := List.mem_singleton.mp hu
          exact ⟨hid, hself, ht⟩
      · simp only [Function.update_of_ne hj] at hu
        exact hold j u (.inl hu)
    · exact hold j u (.inr hu)
  · rcases (booking d).step_moved (h.ok j) (.act i (.tally (.serve t))) with
      ⟨-, hsame⟩ | ⟨howner, hmoved⟩
    · simp only [Cluster.act, hsame]
      exact (h.fair j).mono hkept (List.prefix_refl _) (h.ok j).cursor_le
    · cases howner
      simp only [Cluster.act]
      generalize (((booking d).step c.sys (.act i (.tally (.serve t)))).process i).state = s
        at hmoved ⊢
      cases hmoved with
      | same hnot _ => exact absurd rfl (hnot i _)
      | act => exact (h.fair i).serve ht hnew fun r hr => h.owned r (.inl hr)

theorem Inv.land (h : c.Inv d) {k : Nat} {r : PairRecord F} (hr : c.inFlight[k]? = some r) :
    { c.act d (.append (some (.pair r))) with inFlight := c.inFlight.eraseIdx k }.Inv d := by
  obtain ⟨hk, rfl⟩ := List.getElem?_eq_some_iff.mp hr
  refine ⟨fun i => (booking d).step_ok h.ok _ i, fun traceId hid => ?_, fun r' hr' => ?_, h.receipts,
    fun i => h.fair_step (a := .append _) trivial i⟩
  · have hperm := (List.getElem_cons_eraseIdx_perm hk).countP_eq (·.incumbentTraceId = traceId)
    have hmoved : namedIn traceId (c.sys.log ++ [some (.pair c.inFlight[k])]) +
        (c.inFlight.eraseIdx k).countP (·.incumbentTraceId = traceId) =
          namedIn traceId c.sys.log + c.inFlight.countP (·.incumbentTraceId = traceId) := by
      rw [namedIn_concat_pair, ← hperm, List.countP_cons]
      simp only [decide_eq_true_eq]
      omega
    exact hmoved.trans_le (h.named traceId hid)
  · rcases hr' with hr' | hr'
    · rcases List.mem_append.mp hr' with hr' | hr'
      · exact h.owned r' (.inl hr')
      · cases List.mem_singleton.mp hr'
        exact h.owned _ (.inr (List.getElem_mem hk))
    · exact h.owned r' (.inr (List.mem_of_mem_eraseIdx hr'))

omit [DecidableEq ι] in
theorem Inv.lose (h : c.Inv d) (k : Nat) : { c with inFlight := c.inFlight.eraseIdx k }.Inv d := by
  refine ⟨h.ok, fun traceId hid => (Nat.add_le_add_left ?_ _).trans (h.named traceId hid),
    fun r hr => h.owned r (hr.imp_right List.mem_of_mem_eraseIdx), h.receipts, h.fair⟩
  exact (List.eraseIdx_sublist _ k).countP_le

theorem Inv.restart (h : c.Inv d) (i : ι) (replicaId : Uuid) :
    (c.move d (.restart i replicaId)).Inv d := by
  have hdb : ∀ t ∈ (c.db i).traces, _ := fun t ht => h.receipts i t (.inr (.inl ht))
  refine ⟨fun j => (booking d).step_ok h.ok _ j, h.named, h.owned, fun j t ht => ?_, fun j => ?_⟩
  · simp only [Cluster.move] at ht
    by_cases hj : j = i
    · subst hj
      rw [Function.update_self] at ht
      exact h.receipts j t (.imp_right (fun ht => .inl (ht.elim id id)) ht)
    · rw [Function.update_of_ne hj] at ht
      exact h.receipts j t ht
  · simp only [Cluster.move, Cluster.act]
    rcases (booking d).step_moved (h.ok j) (.restart i ⟨replicaId, (c.db i).traces, (c.db i).deferred,
      (c.db i).pairs⟩) with ⟨howner, hsame⟩ | ⟨howner, hmoved⟩
    · have hj : j ≠ i := fun hj => howner (congrArg some hj.symm)
      rw [hsame, Function.update_of_ne hj]
      exact h.fair j
    · cases howner
      rw [Function.update_self]
      generalize (((booking d).step c.sys (.restart i ⟨replicaId, (c.db i).traces, (c.db i).deferred,
        (c.db i).pairs⟩)).process i).state = s at hmoved ⊢
      cases hmoved with
      | same _ hnot => exact absurd rfl (hnot i _)
      | restart => exact .boot (fun t ht => (hdb t ht).2.2) fun t ht => (hdb t ht).2.1

theorem Inv.move (h : c.Inv d) (m : Move ι F) : (c.move d m).Inv d := by
  cases m with
  | serve i t =>
    simp only [Cluster.move]
    split
    · exact h
    · next hok =>
      obtain ⟨hid, hnew, ht⟩ := by simpa only [not_or] using hok
      exact h.serve i hid (Option.not_isSome_iff_eq_none.mp hnew) (Bool.not_eq_false _ |>.mp ht)
  | save i k =>
    simp only [Cluster.move]
    split
    · exact h
    · next t hget =>
      refine h.setDb i fun u hu => ?_
      rcases List.mem_append.mp hu with hu | hu
      · exact .inr hu
      · exact .inl (List.mem_singleton.mp hu ▸ List.mem_of_getElem? hget)
  | feedback i traceId verdict => exact h.setDb i fun t ht => .inr ht
  | publish record =>
    simp only [Cluster.move]
    split
    · exact h
    · next hquiet =>
      refine h.act (a := .append record) trivial ?_
      rintro record' ⟨⟩
      exact Bool.eq_false_of_not_eq_true hquiet
  | observe i arm sessionId verdict => exact h.act (a := .act i (.outcome ..)) trivial nofun
  | evaluate i k ch =>
    simp only [Cluster.move]
    split
    · exact h
    · next t hget =>
      split
      · exact h
      · next hok =>
        obtain ⟨hown, hnew, -⟩ := by simpa only [not_or] using hok
        have hid := (h.receipts i t (.inl (List.mem_of_getElem? hget))).1
        exact h.spawnPairedChallenger i ch hid (not_not.mp hown) hnew
  | land k =>
    simp only [Cluster.move]
    split
    · exact h
    · next r hget => exact h.land hget
  | lose k => exact h.lose k
  | appended i k ok =>
    simp only [Cluster.move]
    repeat' split
    all_goals first | exact h | exact h.setTasks ..
  | readBack i k ok =>
    simp only [Cluster.move]
    split
    · next r _ =>
      cases ok with
      | true => exact h.setTasks ..
      | false => exact (h.fallback i r).setTasks ..
    · exact h
  | write i k ok =>
    simp only [Cluster.move]
    split
    · cases ok with
      | true => exact (h.appendExperimentPair ..).setTasks ..
      | false => exact h.setTasks ..
    · cases ok with
      | true => exact (h.appendExperimentPair ..).setTasks ..
      | false => exact h.setTasks ..
    · exact h
  | applyLocally i k =>
    simp only [Cluster.move]
    split
    · next r _ => exact (h.fallback i r).setTasks ..
    · exact h
  | sync s =>
    refine h.act ?_ ?_
    · cases s <;> trivial
    · cases s <;> exact nofun
  | restart i replicaId => exact h.restart i replicaId

omit [DecidableEq ι] in
theorem inv_new (d : Deployment F) (replicaId : ι → Uuid) : (Cluster.new d replicaId).Inv d where
  ok i := ⟨((booking d).cursor_boot _).le, nofun, nofun⟩
  named traceId _ := Nat.zero_le _
  owned r hr := by
    rcases hr with hr | hr <;> cases hr
  receipts i t ht := by
    rcases ht with ht | ht | ht <;> cases ht
  fair i := Booked.Fair.boot (fun _ ht => absurd ht List.not_mem_nil)
    fun _ ht => absurd ht List.not_mem_nil

theorem inv_run (d : Deployment F) (replicaId : ι → Uuid) (moves : List (Move ι F)) :
    ((Cluster.new d replicaId).run d moves).Inv d := by
  induction moves using List.reverseRecOn with
  | nil => exact inv_new d replicaId
  | append_singleton moves m ih =>
    rw [Cluster.run, List.foldl_append]
    exact ih.move m

end Cluster

/-- In every run, of the traces that have an id, each is credited in the experiment of each
process with one pair and one challenger's cost at most; and with one incumbent's cost at
most, if the last start of the process found at most one receipt of it and remembered it. -/
theorem evidence_once (d : Deployment F) (replicaId : ι → Uuid) (moves : List (Move ι F)) (i : ι)
    {traceId : Uuid} (hid : traceId ≠ Uuid.nil) :
    let c := (Cluster.new d replicaId).run d moves
    let a := (c.sys.process i).state.account
    a.entry.experiment = d.site.params.fresh.run (a.ledger.map Credit.call) ∧
      pairsOf traceId a.ledger ≤ 1 ∧ costsOf .challenger traceId a.ledger ≤ 1 ∧
      ((c.boot i).Remembers d traceId → costsOf .incumbent traceId a.ledger ≤ 1) := by
  intro c a
  have hfair := (Cluster.inv_run d replicaId moves).fair i
  have hpairs := (hfair.sound.pairs traceId hid).1
  exact ⟨hfair.sound.experiment, hpairs, (hfair.sound.challenger traceId).trans_le hpairs,
    fun hremembers => (hfair.once traceId hid hremembers).1⟩

/-- An append is reported lost, its row is stored and the pair applied, and then the record is
in the log after all; and the process crashes and starts from its store. -/
theorem evidence_once_timeout :
    let moves : List (Move Bool ℚ) := [.serve true (sampleReceipt 2 "s" .incumbent), .save true 0,
      .evaluate true 0 (sampleReceipt 5 "s" .challenger), .appended true 0 false,
      .write true 0 true, .applyLocally true 0, .land 0, .sync (.begin true),
      .sync (.load true 0), .sync (.apply true 0), .restart true 9, .sync (.begin true),
      .sync (.load true 0), .sync (.apply true 0)]
    let c := (Cluster.new sampleDeployment fun i => if i then 8 else 7).run sampleDeployment moves
    let ledger := (c.sys.process true).state.account.ledger
    0 < pairsOf 5 ledger ∧ pairsOf 5 ledger ≤ 1 ∧ costsOf .challenger 5 ledger ≤ 1 ∧
      0 < costsOf .incumbent 2 ledger ∧ costsOf .incumbent 2 ledger ≤ 1 := by
  intro moves c ledger
  have hpair : 0 < pairsOf 5 ledger := by decide +kernel
  have hcost : 0 < costsOf .incumbent 2 ledger := by decide +kernel
  have hremembers : (c.boot true).Remembers sampleDeployment 2 := by
    rw [show c.boot true = ⟨9, [sampleReceipt 2 "s" .incumbent], [], [_]⟩ from rfl]
    refine ⟨by decide, fun t ht _ => ?_⟩
    rwa [List.take_of_length_le (by decide)]
  have hpaired := evidence_once sampleDeployment (fun i : Bool => if i then 8 else 7) moves true
    (show (5 : Uuid) ≠ Uuid.nil by decide)
  have hserved := evidence_once sampleDeployment (fun i : Bool => if i then 8 else 7) moves true
    (show (2 : Uuid) ≠ Uuid.nil by decide)
  exact ⟨hpair, hpaired.2.1, hpaired.2.2.1, hcost, hserved.2.2.2 hremembers⟩

-- ---------------------------------------------------------------------------
-- Beyond the receipts that startup remembers
-- ---------------------------------------------------------------------------

/-- The only process has served and stored `ts`, and done nothing else. -/
structure Cluster.Idle (c : Cluster Unit F) (replicaId : Uuid) (ts : List (Receipt F)) : Prop where
  log : c.sys.log = []
  inFlight : c.inFlight = []
  served : c.served () = ts
  db : c.db () = ⟨ts, [], []⟩
  evaluated : c.evaluated = ∅
  runs : c.replicaId () = replicaId
  known : ∀ t ∈ ts, c.servedBy t.traceId = some replicaId
  unknown : ∀ traceId, traceId ∉ ts.map (·.traceId) → c.servedBy traceId = none

theorem Cluster.Idle.serve_save {d : Deployment F} {c : Cluster Unit F} {replicaId : Uuid}
    {ts : List (Receipt F)} (h : c.Idle replicaId ts) {t : Receipt F} (hid : t.traceId ≠ Uuid.nil)
    (hnew : t.traceId ∉ ts.map (·.traceId)) (ht : t.paired d.site = true) :
    (c.run d [.serve () t, .save () ts.length]).Idle replicaId (ts ++ [t]) := by
  have hok : ¬(t.traceId = Uuid.nil ∨ (c.servedBy t.traceId).isSome ∨ t.paired d.site = false) := by
    simp [hid, h.unknown _ hnew, ht]
  have hserve : c.move d (.serve () t) =
      { c.act d (.act () (.tally (.serve t))) with
        served := Function.update c.served () (ts ++ [t])
        servedBy := Function.update c.servedBy t.traceId (some replicaId) } := by
    simp only [Cluster.move, hok, if_false, h.served, h.runs]
  have hsave : c.run d [.serve () t, .save () ts.length] =
      (c.move d (.serve () t)).setDb () ⟨ts ++ [t], [], []⟩ := by
    have hget : ((c.move d (.serve () t)).served ())[ts.length]? = some t := by
      simp [hserve]
    have hdb : (c.move d (.serve () t)).db () = ⟨ts, [], []⟩ := by
      rw [hserve]
      exact h.db
    change (c.move d (.serve () t)).move d (.save () ts.length) = _
    generalize c.move d (.serve () t) = c' at hget hdb ⊢
    simp only [Cluster.move, hget, hdb]
  rw [hsave, hserve]
  refine ⟨h.log, h.inFlight, ?_, ?_, h.evaluated, ?_, fun u hu => ?_, fun traceId hmem => ?_⟩
  · simp [Cluster.setDb]
  · simp [Cluster.setDb]
  · exact (Cluster.replicaId_act () () _).trans h.runs
  · simp only [Cluster.setDb]
    rcases List.mem_append.mp hu with hu | hu
    · have hne : u.traceId ≠ t.traceId := fun heq => hnew (heq ▸ List.mem_map_of_mem hu)
      rw [Function.update_of_ne hne]
      exact h.known u hu
    · rw [List.mem_singleton.mp hu, Function.update_self]
  · rw [List.map_append, List.mem_append, not_or] at hmem
    have hne : traceId ≠ t.traceId := fun heq => hmem.2 (heq ▸ List.mem_singleton_self _)
    simp only [Cluster.setDb]
    rw [Function.update_of_ne hne]
    exact h.unknown traceId hmem.1

/-- Each trace is served and stored. -/
def serveAndSave (ts : List (Receipt F)) : List (Move Unit F) :=
  ts.zipIdx.flatMap fun t => [.serve () t.1, .save () t.2]

theorem idle_serveAndSave (d : Deployment F) (replicaId : Uuid) {ts : List (Receipt F)}
    (hids : (ts.map (·.traceId)).Nodup) (hnil : ∀ t ∈ ts, t.traceId ≠ Uuid.nil)
    (hpaired : ∀ t ∈ ts, t.paired d.site = true) :
    ((Cluster.new d fun _ => replicaId).run d (serveAndSave ts)).Idle replicaId ts := by
  induction ts using List.reverseRecOn with
  | nil => exact ⟨rfl, rfl, rfl, rfl, rfl, rfl, nofun, fun _ _ => rfl⟩
  | append_singleton ts t ih =>
    rw [List.map_append] at hids
    have hmem := List.mem_append_right ts (List.mem_singleton_self t)
    have hnew : t.traceId ∉ ts.map (·.traceId) := fun hold =>
      (List.nodup_append.mp hids).2.2 _ hold _ (List.mem_singleton_self _) rfl
    have hidle := ih hids.of_append_left (fun u hu => hnil u (List.mem_append_left _ hu))
      fun u hu => hpaired u (List.mem_append_left _ hu)
    have hmoves : serveAndSave (ts ++ [t]) =
        serveAndSave ts ++ [.serve () t, .save () ts.length] := by
      simp [serveAndSave, List.zipIdx_append]
    rw [hmoves, Cluster.run, List.foldl_append]
    exact hidle.serve_save (hnil t hmem) hnew (hpaired t hmem)

/-- A process that starts when one pair is in the log, and reads it. -/
theorem run_restart_read (d : Deployment F) {c : Cluster Unit F} {r : PairRecord F}
    (hlog : c.sys.log = [some (.pair r)]) (replicaId : Uuid) :
    ((c.run d [.restart () replicaId, .sync (.begin ()), .sync (.load () 0),
      .sync (.apply () 0)]).sys.process ()).state =
      (booking d).consume ((booking d).boot ⟨replicaId, (c.db ()).traces, (c.db ()).deferred,
        (c.db ()).pairs⟩) 0 (some (.pair r)) := by
  simp [Cluster.run, Cluster.move, Cluster.act, Consumer.step, Action.owner, Consumer.moveOne,
    Sync.action, Fetch.load, Consumer.applyFetch, Consumer.batch, Consumer.cursor_boot, hlog]

/-- The process evaluates a challenger on a trace, and the append lands. -/
theorem Cluster.Idle.evaluate_land {d : Deployment F} {c : Cluster Unit F} {replicaId : Uuid}
    {ts : List (Receipt F)} (h : c.Idle replicaId ts) {k : Nat} {t ch : Receipt F}
    (hget : ts[k]? = some t) (hsite : t.credits d.site ≠ []) {xInc xCh : F}
    (hinc : pairOutcome t.final.servedFrom = some xInc)
    (hch : challengerOutcome ch.final.servedFrom = some xCh) (hx : inUnit xInc ∧ inUnit xCh) :
    ∃ r : PairRecord F, r.replicaId = replicaId ∧ r.incumbentTraceId = t.traceId ∧
      (c.run d [.evaluate () k ch, .land 0]).sys.log = [some (.pair r)] ∧
      (c.run d [.evaluate () k ch, .land 0]).db () = ⟨ts, [], []⟩ := by
  have hok : ¬(c.servedBy t.traceId ≠ some (c.replicaId ()) ∨ t.traceId ∈ c.evaluated ∨
      t.credits d.site = []) := by
    rw [h.known t (List.mem_of_getElem? hget), h.runs, h.evaluated]
    simp [hsite]
  let c₁ : Cluster Unit F := { c with evaluated := insert t.traceId c.evaluated }
  let c₂ := c₁.act d (.act () (.tally (.health (ch.final.servedFrom = .error)
    (truncatedAttempts ch))))
  have hruns : c₂.replicaId () = replicaId := by
    rw [show c₂.replicaId () = c₁.replicaId () from Cluster.replicaId_act () () _]
    exact h.runs
  let r : PairRecord F :=
    { xInc, xCh
      incumbentCostUsd := t.final.totalCostUsd
      challengerCostUsd := ch.final.totalCostUsd
      chError := ch.final.servedFrom = .error
      chTruncated := truncatedAttempts ch
      replicaId := c₂.replicaId ()
      traceId := ch.traceId
      incumbentTraceId := t.traceId }
  have hevaluate : c.move d (.evaluate () k ch) = c₂.recordPair () r := by
    simp only [Cluster.move, h.served, hget, hok, if_false, Cluster.spawnPairedChallenger, hinc, hch]
    rfl
  have hsent : (c₂.recordPair () r).inFlight = [r] := by
    rw [Cluster.recordPair, if_pos hx]
    change c.inFlight ++ [r] = [r]
    rw [h.inFlight, List.nil_append]
  have hsame : (c₂.recordPair () r).sys = c₂.sys ∧ (c₂.recordPair () r).db = c.db := by
    rw [Cluster.recordPair, if_pos hx]
    exact ⟨rfl, rfl⟩
  have hland : c.run d [.evaluate () k ch, .land 0] =
      { (c₂.recordPair () r).act d (.append (some (.pair r))) with inFlight := [] } := by
    change (c.move d (.evaluate () k ch)).move d (.land 0) = _
    rw [hevaluate, Cluster.move, hsent]
    rfl
  refine ⟨r, hruns, rfl, ?_, ?_⟩
  · rw [hland]
    change (c₂.recordPair () r).sys.log ++ [some (.pair r)] = _
    rw [hsame.1]
    change c.sys.log ++ [some (.pair r)] = _
    rw [h.log, List.nil_append]
  · rw [hland]
    exact (congrFun hsame.2 ()).trans h.db

omit [Field F] [LinearOrder F] in
theorem ledger_feed (g : α → List (Credit F)) (f : Entry F → α → Entry F) (a : Account F)
    (xs : List α) : (a.feed (fun _ x => g x) f xs).ledger = a.ledger ++ xs.flatMap g := by
  induction xs generalizing a with
  | nil => exact (List.append_nil _).symm
  | cons x xs ih =>
    refine (ih (a.credit (g x) (f a.entry x))).trans ?_
    rw [Account.credit, List.append_assoc, List.flatMap_cons]

/-- Once startup remembers as many traces as it can, it remembers no other. -/
theorem not_mem_locallyCosted (site : Site F) {ts : List (Receipt F)} {t : Receipt F}
    (hids : ((ts ++ [t]).map (·.traceId)).Nodup)
    (hincumbent : ∀ u ∈ ts, u.isIncumbent site = true) (hlen : ts.length = maxTrackedSessions) :
    t.traceId ∉
      ((ts ++ [t]).foldl (Entry.replayTrace site) (.new site.params)).locallyCosted := by
  rw [List.map_append] at hids
  have hall : ∀ u ∈ ts,
      u.traceId ∈ (ts.foldl (Entry.replayTrace site) (.new site.params)).locallyCosted := by
    intro u hu
    refine mem_foldl_replayTrace site ?_
    rw [List.filter_eq_self.mpr hincumbent,
      show (Entry.new site.params).locallyCosted.card = 0 from rfl, Nat.sub_zero, ← hlen,
      List.take_length]
    exact hu
  have hfull : maxTrackedSessions ≤
      (ts.foldl (Entry.replayTrace site) (.new site.params)).locallyCosted.card := by
    rw [← hlen, ← List.length_map (·.traceId), ← List.toFinset_card_of_nodup hids.of_append_left]
    refine Finset.card_le_card fun id hid => ?_
    obtain ⟨u, hu, rfl⟩ := List.mem_map.mp (List.mem_toFinset.mp hid)
    exact hall u hu
  rw [List.foldl_append, List.foldl_cons, List.foldl_nil, locallyCosted_replayTrace,
    if_neg fun h => hfull.not_gt h.2]
  intro hmem
  rcases of_mem_foldl_replayTrace site hmem with hmem | ⟨u, hu, hsame⟩
  · cases hmem
  · exact (List.nodup_append.mp hids).2.2 _ (List.mem_map_of_mem hu) _ (List.mem_singleton_self _)
      hsame

/-- Of one receipt more than startup remembers, the last is counted by startup and again from
the log. -/
theorem incumbent_cost_again (d : Deployment F) {replicaId replicaId' : Uuid}
    (hother : replicaId ≠ replicaId') {ts : List (Receipt F)} {t : Receipt F} (ch : Receipt F)
    (hids : ((ts ++ [t]).map (·.traceId)).Nodup)
    (hnil : ∀ u ∈ ts ++ [t], u.traceId ≠ Uuid.nil)
    (hpaired : ∀ u ∈ ts ++ [t], u.paired d.site = true)
    (hincumbent : ∀ u ∈ ts, u.isIncumbent d.site = true) (hlen : ts.length = maxTrackedSessions)
    (hsite : costsOf .incumbent t.traceId (t.credits d.site) = 1) {xInc xCh : F}
    (hinc : pairOutcome t.final.servedFrom = some xInc)
    (hch : challengerOutcome ch.final.servedFrom = some xCh) (hx : inUnit xInc ∧ inUnit xCh) :
    let c := (Cluster.new d fun _ => replicaId).run d (serveAndSave (ts ++ [t]) ++
      [.evaluate () ts.length ch, .land 0] ++ [.restart () replicaId', .sync (.begin ()),
        .sync (.load () 0), .sync (.apply () 0)])
    (c.db ()).traces = ts ++ [t] ∧
      2 ≤ costsOf .incumbent t.traceId (c.sys.process ()).state.account.ledger := by
  intro c
  have hidle := idle_serveAndSave d replicaId hids hnil hpaired
  have hcredits : t.credits d.site ≠ [] := by
    intro h
    rw [h] at hsite
    cases hsite
  obtain ⟨r, hr, hname, hlog, hdb⟩ :=
    hidle.evaluate_land (List.getElem?_concat_length ..) hcredits hinc hch hx
  have hc : c = (((Cluster.new d fun _ => replicaId).run d (serveAndSave (ts ++ [t]))).run d
      [.evaluate () ts.length ch, .land 0]).run d [.restart () replicaId', .sync (.begin ()),
        .sync (.load () 0), .sync (.apply () 0)] :=
    (Cluster.run_append d _ _ _).trans (congrArg (Cluster.run d · _) (Cluster.run_append d _ _ _))
  have hstate : (c.sys.process ()).state = (booking d).consume
      ((booking d).boot ⟨replicaId', ts ++ [t], [], []⟩) 0 (some (.pair r)) := by
    have hread := run_restart_read d hlog replicaId'
    rw [hdb] at hread
    rw [hc]
    exact hread
  have hledger : (c.sys.process ()).state.account.ledger =
      (ts ++ [t]).flatMap (·.credits d.site) ++
        (bootEntry d ⟨replicaId', ts ++ [t], [], []⟩).logCredits replicaId' (some (.pair r)) := by
    rw [hstate, ← entry_bootAccount]
    change _ ++ _ = _
    congr 1
    exact ledger_feed (·.credits d.site) (Entry.replayTrace d.site) ⟨.new d.site.params, []⟩
      (ts ++ [t])
  have hread : costsOf .incumbent t.traceId ((bootEntry d ⟨replicaId', ts ++ [t], [], []⟩).logCredits
      replicaId' (some (.pair r))) = 1 := by
    have hfresh : ¬((bootEntry d ⟨replicaId', ts ++ [t], [], []⟩).alreadyApplied r.traceId ∨
        r.replicaId = replicaId') := by
      rintro (⟨-, hseen⟩ | hown)
      · have hnone := congrArg Evidence.appliedPairIds
          (evidence_bootEntry d (b := ⟨replicaId', ts ++ [t], [], []⟩) rfl rfl)
        rw [show (bootEntry d _).appliedPairIds = _ from hnone] at hseen
        cases hseen
      · exact hother (hr.symm.trans hown)
    have hunknown := not_mem_locallyCosted d.site hids hincumbent hlen
    rw [← locallyCosted_bootEntry d ⟨replicaId', ts ++ [t], [], []⟩] at hunknown
    rw [Entry.logCredits, costsOf_append, incumbent_localPairCredits, if_neg hfresh,
      Entry.remoteCredits, hname, if_neg fun h => hunknown h.2]
    simp [costsOf, Credit.isCostOf]
  refine ⟨?_, ?_⟩
  · rw [hc]
    exact congrArg Database.traces hdb
  · rw [hledger, List.flatMap_append, costsOf_append, costsOf_append, hread, List.flatMap_singleton,
      hsite]
    omega

/-- The receipt number `n` of the counterexample. -/
def numbered (n : Nat) : Receipt ℚ := sampleReceipt (n + 1) "s" .incumbent

theorem traceId_numbered (n : Nat) :
    ((List.range n).map numbered).map (·.traceId) = (List.range n).map (· + 1) := by
  rw [List.map_map]
  rfl

/-- A process serves and stores `n + 1` traces, evaluates the last, restarts, and reads the log. -/
def overflowing (n : Nat) : List (Move Unit ℚ) :=
  serveAndSave ((List.range (n + 1)).map numbered) ++
    [.evaluate () n (sampleReceipt 2000000 "s" .challenger), .land 0] ++
    [.restart () 8, .sync (.begin ()), .sync (.load () 0), .sync (.apply () 0)]

theorem overflowing_twice {n : Nat} (hn : n = maxTrackedSessions) :
    let c := (Cluster.new sampleDeployment fun _ => 7).run sampleDeployment (overflowing n)
    (c.db ()).traces.map (·.traceId) = (List.range (n + 1)).map (· + 1) ∧
      2 ≤ costsOf .incumbent (n + 1) (c.sys.process ()).state.account.ledger := by
  have hlen : ((List.range n).map numbered).length = n := by
    rw [List.length_map, List.length_range]
  have hlist : (List.range (n + 1)).map numbered = (List.range n).map numbered ++ [numbered n] := by
    rw [List.range_succ, List.map_append, List.map_singleton]
  have hids : (((List.range n).map numbered ++ [numbered n]).map (·.traceId)).Nodup := by
    rw [← hlist, traceId_numbered]
    exact List.nodup_range.map fun n m h => Nat.succ.inj h
  have hmem : ∀ u ∈ (List.range n).map numbered ++ [numbered n], ∃ m, u = numbered m := by
    intro u hu
    rw [← hlist] at hu
    obtain ⟨m, -, hm⟩ := List.mem_map.mp hu
    exact ⟨m, hm.symm⟩
  have hcredits : (numbered n).credits sampleDeployment.site = [.cost .incumbent (n + 1) 0.1] := by
    simp [Receipt.credits, numbered, sampleReceipt, Site.IsAt, Receipt.route, sampleDeployment,
      Site.fingerprint, sampleParams, Params.ofRange]
  have hone : inUnit (1 : ℚ) := ⟨zero_le_one, le_rfl⟩
  have hagain := incumbent_cost_again sampleDeployment (show (7 : Uuid) ≠ 8 by decide)
    (sampleReceipt 2000000 "s" .challenger) hids
    (fun u hu => by obtain ⟨m, rfl⟩ := hmem u hu; exact Nat.succ_ne_zero m)
    (fun u hu => by obtain ⟨m, rfl⟩ := hmem u hu; rfl)
    (fun u hu => by obtain ⟨m, rfl⟩ := hmem u (List.mem_append_left _ hu); rfl) (hlen.trans hn)
    (by rw [hcredits]; simp [costsOf, Credit.isCostOf, numbered, sampleReceipt]) rfl rfl ⟨hone, hone⟩
  rw [hlen, ← hlist] at hagain
  obtain ⟨htraces, htwice⟩ := hagain
  refine ⟨?_, htwice⟩
  rw [overflowing, htraces]
  exact traceId_numbered _

/-- The incumbent's cost of a trace whose receipt is stored once is counted twice: the process
has 1,000,001 receipts in its store, and of the last it reads its own record after a
restart. -/
theorem incumbent_cost_twice :
    let c := (Cluster.new sampleDeployment fun _ => 7).run sampleDeployment
      (overflowing maxTrackedSessions)
    (c.db ()).traces.map (·.traceId) = (List.range (maxTrackedSessions + 1)).map (· + 1) ∧
      2 ≤ costsOf .incumbent (maxTrackedSessions + 1)
        (c.sys.process ()).state.account.ledger :=
  overflowing_twice rfl

end Firstpass.Monitor
