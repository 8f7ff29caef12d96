import Firstpass.Proxy.IncumbentCost
import Firstpass.Proxy.MonitorRuns

/-!
# Records of other tenants and of other configurations

What reaches a monitor names a tenant and a fingerprint, and an experiment is to count what
names its own. A run is compared with the run from which all else is taken out.

They agree but for three ways in: the traces that a start remembers, whatever their
fingerprint; the map from ids to receipts, which has one receipt for an id, whoever's it
is; and the cursor, which a sync of another fingerprint's log moves as well.
-/

namespace Firstpass.Monitor

open Select CursorLog ExperimentMonitor

variable {F : Type} [Field F] [LinearOrder F]

-- ---------------------------------------------------------------------------
-- What is the experiment's own
-- ---------------------------------------------------------------------------

namespace Site

variable (site : Site F)

def Owns (tenant fingerprint : String) : Prop :=
  tenant = site.tenant ∧ fingerprint = site.fingerprint

instance (tenant fingerprint : String) : Decidable (site.Owns tenant fingerprint) :=
  inferInstanceAs (Decidable (_ ∧ _))

end Site

def Stamped.isOwn (site : Site F) (s : Stamped F) : Bool := site.Owns s.tenant s.fingerprint

def Receipt.isOwn (site : Site F) (t : Receipt F) : Bool :=
  match t.experiment with
  | none => t.tenantId = site.tenant
  | some rec => site.Owns t.tenantId rec.fingerprint

def ExperimentPairRow.isOwn (site : Site F) (row : ExperimentPairRow F) : Bool :=
  site.Owns row.tenant row.fingerprint

/-- A verdict names neither a tenant nor a fingerprint: its trace does. -/
def Boot.own (site : Site F) (b : Boot F) : Boot F :=
  { b with
    traces := b.traces.filter (·.isOwn site)
    pairs := b.pairs.filter (·.isOwn site) }

-- ---------------------------------------------------------------------------
-- Entries alike but for what is stale and what is remembered
-- ---------------------------------------------------------------------------

/-- Entries that differ in their count of stale receipts, and in the traces that they
remember but for those agreed on. -/
def Alike (agreed : Uuid → Prop) (e e' : Entry F) : Prop :=
  ∃ n ids, e' = e.rebook n ids e.remoteLogOffset ∧ ∀ id, agreed id → (id ∈ e.locallyCosted ↔ id ∈ ids)

section
variable {agreed : Uuid → Prop} {e e' : Entry F} {f : Entry F → Entry F}

omit [Field F] [LinearOrder F] in
theorem Alike.refl (agreed : Uuid → Prop) (e : Entry F) : Alike agreed e e :=
  ⟨e.ignoredStale, e.locallyCosted, rfl, fun _ _ => Iff.rfl⟩

omit [Field F] [LinearOrder F] in
theorem Alike.blind (hf : Blind f) (h : Alike agreed e e') : Alike agreed (f e) (f e') := by
  obtain ⟨n, ids, rfl, hids⟩ := h
  refine ⟨n, ids, ?_, fun id hid => ?_⟩
  · rw [hf.offset]
    exact hf e n ids e.remoteLogOffset
  · rw [hf.locallyCosted]
    exact hids id hid

omit [Field F] [LinearOrder F] in
theorem Alike.stale (h : Alike agreed e e') : Alike agreed e.stale e' := by
  obtain ⟨n, ids, rfl, hids⟩ := h
  exact ⟨n, ids, rfl, hids⟩

theorem Alike.serve (site : Site F) (t : Receipt F) (h : Alike agreed e e') :
    Alike agreed (e.serve site t) (e'.serve site t) := by
  obtain ⟨n, ids, rfl, hids⟩ := h
  obtain ⟨f, g, k, -, heq⟩ := serve_eq site t
  rw [heq, heq]
  exact ⟨g n, ids, rfl, hids⟩

/-- The cost of a remote record is counted alike where both remember the trace, or neither. -/
theorem Alike.tallyRemote {r : PairRecord F}
    (hr : r.incumbentTraceId ≠ Uuid.nil → agreed r.incumbentTraceId) (h : Alike agreed e e') :
    Alike agreed (e.tallyRemote r) (e'.tallyRemote r) := by
  obtain ⟨n, ids, rfl, hids⟩ := h
  have hsame : (r.incumbentTraceId ≠ Uuid.nil ∧ r.incumbentTraceId ∈ e.locallyCosted) ↔
      r.incumbentTraceId ≠ Uuid.nil ∧ r.incumbentTraceId ∈ (e.rebook n ids e.remoteLogOffset).locallyCosted :=
    and_congr_right fun hid => hids r.incumbentTraceId (hr hid)
  refine Alike.blind (Blind.tallyHealth .challenger r.chError r.chTruncated) ?_
  simp only [← hsame]
  split
  · refine ⟨n, ids.erase r.incumbentTraceId, rfl, fun id hid => ?_⟩
    simp only [Finset.mem_erase, hids id hid]
  · exact ⟨n, ids, rfl, hids⟩

end

-- ---------------------------------------------------------------------------
-- Startup
-- ---------------------------------------------------------------------------

/-- The traces of the incumbents' receipts, whatever their fingerprint. -/
def incumbentIds (site : Site F) (traces : List (Receipt F)) : List Uuid :=
  (traces.filter (·.isIncumbent site)).map (·.traceId)

/-- A start remembers traces as long as there is room. -/
def Remembered (ids : List Uuid) (id : Uuid) : Prop :=
  ∃ before after, ids = before ++ id :: after ∧ before.toFinset.card < maxTrackedSessions

theorem Remembered.mem {ids : List Uuid} {id : Uuid} (h : Remembered ids id) : id ∈ ids := by
  obtain ⟨before, after, rfl, -⟩ := h
  simp

theorem remembered_append (ids : List Uuid) (x id : Uuid) :
    Remembered (ids ++ [x]) id ↔
      Remembered ids id ∨ id = x ∧ ids.toFinset.card < maxTrackedSessions := by
  constructor
  · rintro ⟨before, after, heq, hroom⟩
    cases after using List.reverseRecOn with
    | nil =>
      obtain ⟨rfl, hx⟩ := List.append_inj' heq rfl
      exact .inr ⟨(List.singleton_inj.mp hx).symm, hroom⟩
    | append_singleton after y =>
      rw [← List.cons_append, ← List.append_assoc] at heq
      exact .inl ⟨before, after, (List.append_inj' heq rfl).1, hroom⟩
  · rintro (⟨before, after, rfl, hroom⟩ | ⟨rfl, hroom⟩)
    · exact ⟨before, after ++ [x], by simp, hroom⟩
    · exact ⟨ids, [], rfl, hroom⟩

theorem incumbentIds_append (site : Site F) (traces : List (Receipt F)) (t : Receipt F) :
    incumbentIds site (traces ++ [t]) =
      incumbentIds site traces ++ if t.isIncumbent site then [t.traceId] else [] := by
  rw [incumbentIds, List.filter_append, List.map_append, ← incumbentIds]
  cases h : t.isIncumbent site <;> simp [h]

/-- What a start remembers: the first traces of incumbents. -/
theorem mem_locallyCosted_iff (site : Site F) (traces : List (Receipt F)) :
    let costed := (traces.foldl (Entry.replayTrace site) (.new site.params)).locallyCosted
    costed ⊆ (incumbentIds site traces).toFinset ∧
      (costed.card < maxTrackedSessions → costed = (incumbentIds site traces).toFinset) ∧
      ∀ id, id ∈ costed ↔ Remembered (incumbentIds site traces) id := by
  induction traces using List.reverseRecOn with
  | nil =>
    refine ⟨Finset.Subset.refl _, fun _ => rfl, fun id => ⟨nofun, ?_⟩⟩
    rintro ⟨before, after, heq, -⟩
    simp [incumbentIds] at heq
  | append_singleton traces t ih =>
    obtain ⟨hsubset, hroomy, hmem⟩ := ih
    rw [List.foldl_append, List.foldl_cons, List.foldl_nil, locallyCosted_replayTrace,
      incumbentIds_append]
    generalize (traces.foldl (Entry.replayTrace site) (.new site.params)).locallyCosted = costed
      at hsubset hroomy hmem ⊢
    generalize incumbentIds site traces = ids at hsubset hroomy hmem ⊢
    by_cases hinc : t.isIncumbent site = true
    · have hroom : costed.card < maxTrackedSessions ↔ ids.toFinset.card < maxTrackedSessions :=
        ⟨fun h => hroomy h ▸ h, (Finset.card_le_card hsubset).trans_lt⟩
      have hgrown : (ids ++ [t.traceId]).toFinset = insert t.traceId ids.toFinset := by
        ext id
        simp
      simp only [hinc, if_true, true_and, remembered_append, ← hroom, hgrown]
      split
      · next hlt =>
        rw [hroomy hlt]
        refine ⟨Finset.Subset.refl _, fun _ => rfl, fun id => ?_⟩
        rw [← hroomy hlt, Finset.mem_insert, hmem id, and_iff_left hlt, or_comm]
      · next hfull =>
        refine ⟨hsubset.trans (Finset.subset_insert _ _), fun h => absurd h hfull, fun id => ?_⟩
        rw [hmem id, or_iff_left fun h => hfull h.2]
    · simp only [hinc, Bool.false_eq_true, false_and, if_false, List.append_nil]
      exact ⟨hsubset, hroomy, hmem⟩

/-- What the elements kept preserve together, and the others on one side. -/
theorem foldl_filter_rel {α β γ : Type} {R : β → γ → Prop} {p : α → Bool} {f : β → α → β}
    {g : γ → α → γ} (hkept : ∀ b c a, p a = true → R b c → R (f b a) (g c a))
    (hdropped : ∀ b c a, p a = false → R b c → R (f b a) c) (as : List α) {b : β} {c : γ}
    (h : R b c) : R (as.foldl f b) ((as.filter p).foldl g c) := by
  rw [List.foldl_filter]
  refine List.foldl_rel h fun a _ b c hbc => ?_
  cases ha : p a with
  | true => exact hkept b c a ha hbc
  | false => exact hdropped b c a ha hbc

section startup
variable {site : Site F} {e e' : Entry F} {agreed : Uuid → Prop}

/-- Entries that may differ in all that they remember. -/
abbrev Loose : Entry F → Entry F → Prop := Alike fun _ => False

theorem Alike.remember_left (t : Receipt F) (h : Loose e e') : Loose (e.remember site t) e' := by
  obtain ⟨n, ids, rfl, -⟩ := h
  obtain ⟨ids', heq⟩ := remember_eq site e t
  rw [heq]
  exact ⟨n, ids, rfl, nofun⟩

theorem Alike.remember_right (t : Receipt F) (h : Loose e e') : Loose e (e'.remember site t) := by
  obtain ⟨n, ids, rfl, -⟩ := h
  obtain ⟨ids', heq⟩ := remember_eq site (e.rebook n ids e.remoteLogOffset) t
  rw [heq]
  exact ⟨n, ids', rfl, nofun⟩

theorem Receipt.not_here {t : Receipt F} {rec : ExperimentRecord F}
    (hrec : t.experiment = some rec) (ht : t.isOwn site = false) :
    ¬(site.IsAt t.tenantId t.route ∧ rec.fingerprint = site.fingerprint) := by
  simp only [Receipt.isOwn, hrec, decide_eq_false_iff_not] at ht
  rintro ⟨hsite, hfp⟩
  exact ht ⟨hsite.1, hfp⟩

theorem Alike.serve_foreign {t : Receipt F} (ht : t.isOwn site = false) (h : Alike agreed e e') :
    Alike agreed (e.serve site t) e' := by
  cases hrec : t.experiment with
  | none => simpa only [Entry.serve, hrec] using h
  | some rec =>
    simp only [Entry.serve, hrec]
    split_ifs with hsite hfp
    · exact absurd ⟨hsite, hfp⟩ (Receipt.not_here hrec ht)
    · exact h.stale
    · exact h

theorem Alike.feedback (sessionHash : String → UInt64) (t : Receipt F) (verdict : Verdict)
    (h : Alike agreed e e') :
    Alike agreed (e.feedback sessionHash site t verdict)
      (e'.feedback sessionHash site t verdict) := by
  rw [feedback_eq, feedback_eq]
  cases t.vote sessionHash site verdict with
  | none => exact h
  | some v => exact h.blind (Blind.observeOutcome v.2.1 v.1 v.2.2)

theorem feedback_foreign (sessionHash : String → UInt64) (e : Entry F) {t : Receipt F}
    (ht : t.isOwn site = false) (verdict : Verdict) :
    e.feedback sessionHash site t verdict = e := by
  cases hrec : t.experiment with
  | none => simp only [Entry.feedback, hrec]
  | some rec =>
    cases houtcome : (outcomeOf verdict : Option F) with
    | none => simp only [Entry.feedback, hrec, houtcome]
    | some outcome => simp only [Entry.feedback, hrec, houtcome, if_neg (Receipt.not_here hrec ht)]

theorem Alike.replayRow (row : ExperimentPairRow F) (h : Alike agreed e e') :
    Alike agreed (e.replayRow site row) (e'.replayRow site row) := by
  rw [Entry.replayRow, Entry.replayRow]
  split_ifs
  · exact h.blind (Blind.replayPair row)
  · obtain ⟨n, ids, rfl, hids⟩ := h
    exact ⟨n + 1, ids, rfl, hids⟩
  · exact h

theorem Alike.replayRow_foreign {row : ExperimentPairRow F} (hrow : row.isOwn site = false)
    (h : Alike agreed e e') : Alike agreed (e.replayRow site row) e' := by
  rw [Entry.replayRow]
  split_ifs with hsite hfp
  · exact absurd ⟨hsite.1, hfp⟩ (of_decide_eq_false hrow)
  · exact h.stale
  · exact h

omit [Field F] [LinearOrder F] in
/-- Of the receipts kept, the last of an id is found as before. -/
theorem byId_filter {traces : List (Receipt F)} {p : Receipt F → Bool} {id : Uuid} {t : Receipt F}
    (ht : byId traces id = some t) (hp : p t = true) : byId (traces.filter p) id = some t := by
  rw [byId, List.find?_eq_some_iff_append] at ht
  obtain ⟨hid, later, earlier, heq, hlater⟩ := ht
  rw [byId, List.filter_comm, ← List.filter_reverse, heq, List.find?_eq_some_iff_append]
  refine ⟨hid, later.filter p, earlier.filter p, ?_, fun u hu => ?_⟩
  · rw [List.filter_append, List.filter_cons_of_pos hp]
  · exact hlater u (List.mem_of_mem_filter hu)

omit [Field F] [LinearOrder F] in
theorem byId_filter_none {traces : List (Receipt F)} {p : Receipt F → Bool} {id : Uuid}
    (h : byId traces id = none) : byId (traces.filter p) id = none := by
  rw [byId, List.filter_comm, ← List.filter_reverse, List.find?_eq_none]
  intro t ht
  exact List.find?_eq_none.mp h t (List.mem_of_mem_filter ht)

/-- No verdict is about an id of which the last receipt is foreign and another is not. -/
def Boot.Found (site : Site F) (b : Boot F) : Prop :=
  ∀ o ∈ b.deferred, ∀ t, byId b.traces o.1 = some t → t.isOwn site = false →
    byId (b.own site).traces o.1 = none

theorem Alike.replayOutcome (sessionHash : String → UInt64) {b : Boot F} (hfound : b.Found site)
    {o : Uuid × Verdict} (ho : o ∈ b.deferred) (h : Alike agreed e e') :
    Alike agreed (e.replayOutcome sessionHash site b.traces o)
      (e'.replayOutcome sessionHash site (b.own site).traces o) := by
  rw [Entry.replayOutcome, Entry.replayOutcome]
  cases hfind : byId b.traces o.1 with
  | none =>
    have hnone : byId (b.own site).traces o.1 = none := byId_filter_none hfind
    simpa only [hnone] using h
  | some t =>
    cases hown : t.isOwn site with
    | true =>
      have hsome : byId (b.own site).traces o.1 = some t := byId_filter hfind hown
      simpa only [hsome] using h.feedback sessionHash t o.2
    | false =>
      simp only [hfound o ho t hfind hown, feedback_foreign sessionHash e hown]
      exact h

/-- The traces on which both starts agree: both remember them, or neither. -/
def Boot.Agrees (site : Site F) (b : Boot F) (id : Uuid) : Prop :=
  Remembered (incumbentIds site b.traces) id ↔
    Remembered (incumbentIds site (b.own site).traces) id

theorem mem_locallyCosted_replay (sessionHash : String → UInt64) (site : Site F)
    (traces : List (Receipt F)) (deferred : List (Uuid × Verdict))
    (pairs : List (ExperimentPairRow F)) (id : Uuid) :
    id ∈ (Entry.replay sessionHash site traces deferred pairs).locallyCosted ↔
      Remembered (incumbentIds site traces) id := by
  obtain ⟨-, -, hmem⟩ := mem_locallyCosted_iff site traces
  rw [Entry.replay, foldl_frame Entry.locallyCosted fun e row => locallyCosted_replayRow site e row,
    foldl_frame Entry.locallyCosted fun e o =>
      locallyCosted_replayOutcome sessionHash site traces e o]
  exact hmem id

theorem replay_alike (sessionHash : String → UInt64) {b : Boot F} (hfound : b.Found site)
    (pairs : List (ExperimentPairRow F)) :
    Alike (b.Agrees site) (.replay sessionHash site b.traces b.deferred pairs)
      (.replay sessionHash site (b.own site).traces b.deferred (pairs.filter (·.isOwn site))) := by
  have hloose : Loose (.replay sessionHash site b.traces b.deferred pairs)
      (.replay sessionHash site (b.own site).traces b.deferred (pairs.filter (·.isOwn site))) := by
    refine foldl_filter_rel (fun e e' row _ h => h.replayRow row)
      (fun e e' row hrow h => h.replayRow_foreign hrow) pairs ?_
    refine List.foldl_rel ?_ fun o ho e e' h => h.replayOutcome sessionHash hfound ho
    refine foldl_filter_rel (fun e e' t _ h => ?_) (fun e e' t ht h => ?_) b.traces (.refl _ _)
    · exact ((h.serve site t).remember_left t).remember_right t
    · exact (h.serve_foreign ht).remember_left t
  obtain ⟨n, ids, heq, -⟩ := hloose
  refine ⟨n, ids, heq, fun id hid => ?_⟩
  have hids := mem_locallyCosted_replay sessionHash site (b.own site).traces b.deferred
    (pairs.filter (·.isOwn site)) id
  rw [heq] at hids
  exact (mem_locallyCosted_replay sessionHash site b.traces b.deferred pairs id).trans
    (hid.trans hids.symm)

end startup

theorem running_alike (d : Deployment F) {b : Boot F} (hfound : b.Found d.site)
    (sharedLog : Bool) :
    Alike (b.Agrees d.site) ((b.running d sharedLog).monitor.at d.site)
      (((b.own d.site).running d sharedLog).monitor.at d.site) := by
  obtain ⟨-, hall⟩ := buildMonitorWith_at d.sessionHash d.runs b.replicaId b.traces b.deferred
    b.pairs sharedLog
  obtain ⟨-, hown⟩ := buildMonitorWith_at d.sessionHash d.runs b.replicaId (b.own d.site).traces
    b.deferred (b.own d.site).pairs sharedLog
  have hpairs : (if sharedLog then (b.own d.site).pairs.filter (·.inLog = .notInLog)
      else (b.own d.site).pairs) =
        (if sharedLog then b.pairs.filter (·.inLog = .notInLog) else b.pairs).filter
          (·.isOwn d.site) := by
    cases sharedLog with
    | true => exact List.filter_comm ..
    | false => rfl
  rw [hpairs] at hown
  rw [Boot.running, Boot.running, hall]
  exact hown ▸ replay_alike d.sessionHash hfound _

-- ---------------------------------------------------------------------------
-- What is observed
-- ---------------------------------------------------------------------------

section observe
variable (sessionHash : String → UInt64) {site : Site F} (tenant : String) (routeIx : Nat)
  (fingerprint : String) (input : Input F)
variable {agreed : Uuid → Prop} {e e' : Entry F} (h : Alike agreed e e')
include h

theorem Alike.observe :
    Alike agreed (e.observe sessionHash site tenant routeIx fingerprint input)
      (e'.observe sessionHash site tenant routeIx fingerprint input) := by
  cases input with
  | cost arm usd =>
    simp only [Entry.observe]
    split_ifs
    · exact h.blind (Blind.observeCost arm usd)
    · obtain ⟨n, ids, rfl, hids⟩ := h
      exact ⟨n + 1, ids, rfl, hids⟩
    · exact h
  | health arm errored truncated =>
    simp only [Entry.observe]
    split
    · exact h.blind (Blind.tallyHealth arm errored truncated)
    · exact h
  | outcome arm sessionId verdict =>
    simp only [Entry.observe]
    cases (outcomeOf verdict : Option F) with
    | none => exact h
    | some outcome =>
      dsimp only
      split
      · exact h.blind (Blind.observeOutcome arm (sessionHash sessionId) outcome)
      · exact h
  | pair x y usd traceId =>
    simp only [Entry.observe]
    split
    · exact h.blind (Blind.applyPairLocally x y usd traceId)
    · exact h

theorem Alike.observe_foreign (hforeign : ¬site.Owns tenant fingerprint) :
    Alike agreed (e.observe sessionHash site tenant routeIx fingerprint input) e' := by
  have haway : ¬(site.IsAt tenant routeIx ∧ fingerprint = site.fingerprint) := by
    rintro ⟨hsite, hfp⟩
    exact hforeign ⟨hsite.1, hfp⟩
  cases input with
  | cost arm usd =>
    simp only [Entry.observe]
    split_ifs with hsite hfp
    · exact absurd ⟨hsite, hfp⟩ haway
    · exact h.stale
    · exact h
  | health arm errored truncated => simpa only [Entry.observe, haway, if_false] using h
  | outcome arm sessionId verdict =>
    simp only [Entry.observe, haway, if_false]
    cases (outcomeOf verdict : Option F) <;> exact h
  | pair x y usd traceId => simpa only [Entry.observe, haway, if_false] using h

end observe

-- ---------------------------------------------------------------------------
-- What is read
-- ---------------------------------------------------------------------------

/-- The records of other replicas that an entry reads name traces agreed on. -/
def NamesAgreed (agreed : Uuid → Prop) (replicaId : Uuid) (records : List (Option (LogRecord F))) :
    Prop :=
  ∀ r, some (.pair r) ∈ records → r.replicaId ≠ replicaId → r.incumbentTraceId ≠ Uuid.nil →
    agreed r.incumbentTraceId

section
variable {agreed : Uuid → Prop} {e e' : Entry F} {replicaId : Uuid}

theorem Alike.applyEntry {record : Option (LogRecord F)} (h : Alike agreed e e')
    (hrecord : NamesAgreed agreed replicaId [record]) :
    Alike agreed (e.applyEntry replicaId record) (e'.applyEntry replicaId record) := by
  cases record with
  | none => exact h
  | some record =>
    cases record with
    | outcome arm x key usd => exact h.blind (Blind.applyLogOutcome arm x key)
    | pair r =>
      have hseen : e'.alreadyApplied r.traceId ↔ e.alreadyApplied r.traceId := by
        obtain ⟨n, ids, rfl, -⟩ := h
        exact Iff.rfl
      have happlied := h.blind (Blind.applyPairLocally r.xInc r.xCh r.challengerCostUsd r.traceId)
      simp only [Entry.applyEntry, Entry.applyLogRecord, applyLogPair_eq, hseen]
      split
      · exact happlied
      · next hnew =>
        refine happlied.tallyRemote fun hid => ?_
        exact hrecord r (List.mem_singleton_self _) (fun hown => hnew (.inr hown)) hid

omit [Field F] [LinearOrder F] in
theorem Alike.offset (h : Alike agreed e e') : e'.remoteLogOffset = e.remoteLogOffset := by
  obtain ⟨n, ids, rfl, -⟩ := h
  rfl

theorem Alike.readOn {records : List (Option (LogRecord F))} (h : Alike agreed e e')
    (hrecords : NamesAgreed agreed replicaId records) :
    Alike agreed (e.readOn replicaId records) (e'.readOn replicaId records) := by
  refine List.foldl_rel h fun record hmem e e' h => ?_
  have hrecord : NamesAgreed agreed replicaId [record] := by
    intro r hr
    obtain rfl := List.mem_singleton.mp hr
    exact hrecords r hmem
  obtain ⟨n, ids, heq, hids⟩ := h.applyEntry hrecord
  refine ⟨n, ids, ?_, hids⟩
  rw [h.offset, Entry.consume, Entry.consume, heq]
  rfl

end

-- ---------------------------------------------------------------------------
-- Two runs
-- ---------------------------------------------------------------------------

/-- A step by which nothing foreign gets in: what a sync of the experiment's own log reads names
traces on which the two starts agree, and a sync of another fingerprint's log has nothing to
read past the cursor. -/
def Running.Apart (d : Deployment F) (b : Boot F) (r : Running F) (s : Stamped F) : Prop :=
  ∀ length, s.happening = .sync length → r.sharedLog = true → d.site.IsAt s.tenant s.routeIx →
    let read := (r.log s).take length
    let cursor := (r.monitor.at d.site).remoteLogOffset
    if s.fingerprint = d.site.fingerprint then
      NamesAgreed (b.Agrees d.site) r.monitor.replicaId (read.drop cursor)
    else read.length ≤ cursor

/-- What every step preserves: the two monitors are one to the experiment. -/
structure Mirrors (d : Deployment F) (agreed : Uuid → Prop) (r r' : Running F) : Prop where
  runs : d.site.RunsIn r.monitor
  config : r'.monitor.config = r.monitor.config
  sharedLog : r'.sharedLog = r.sharedLog
  logs : r'.logs d.site.tenant d.site.routeIx d.site.fingerprint =
    r.logs d.site.tenant d.site.routeIx d.site.fingerprint
  alike : Alike agreed (r.monitor.at d.site) (r'.monitor.at d.site)

section mirrors
variable {d : Deployment F} {b : Boot F} {r r' : Running F} {s : Stamped F}

theorem Mirrors.runs' {agreed : Uuid → Prop} (h : Mirrors d agreed r r') :
    d.site.RunsIn r'.monitor := h.runs.of_config h.config

theorem Mirrors.replicaId {agreed : Uuid → Prop} (h : Mirrors d agreed r r') :
    r'.monitor.replicaId = r.monitor.replicaId := congrArg Prod.snd h.config

theorem Mirrors.own (h : Mirrors d (b.Agrees d.site) r r') (hs : s.isOwn d.site = true)
    (hstep : r.Apart d b s) :
    Mirrors d (b.Agrees d.site) (r.occur d.sessionHash s) (r'.occur d.sessionHash s) := by
  obtain ⟨htenant, hfp⟩ := of_decide_eq_true hs
  cases hhap : s.happening with
  | observe input =>
    have htracks : Tracks d.site _ _ :=
      observe_tracks d.sessionHash s.tenant s.routeIx s.fingerprint input
    obtain ⟨hrun, hat⟩ := htracks r.monitor h.runs
    obtain ⟨-, hat'⟩ := htracks r'.monitor h.runs'
    simp only [Running.occur, hhap]
    refine ⟨hrun, by simp only [config_observe, h.config], h.sharedLog, h.logs, ?_⟩
    rw [hat, hat']
    exact h.alike.observe d.sessionHash s.tenant s.routeIx s.fingerprint input
  | append record =>
    simp only [Running.occur, hhap]
    refine ⟨h.runs, h.config, h.sharedLog, ?_, h.alike⟩
    dsimp only
    split
    · next hhere =>
      rw [Running.log, Running.log, ← hhere.1, ← hhere.2.1, ← hhere.2.2, h.logs]
    · exact h.logs
  | sync length =>
    simp only [Running.occur, hhap, h.sharedLog]
    cases hshared : r.sharedLog with
    | false => exact ⟨h.runs, h.config, h.sharedLog, h.logs, h.alike⟩
    | true =>
      simp only [if_true]
      refine ⟨h.runs.of_config (config_syncFromBackend ..),
        by simp only [config_syncFromBackend, h.config], rfl, h.logs, ?_⟩
      by_cases hsite : d.site.IsAt s.tenant s.routeIx
      · have hnames := hstep length hhap hshared hsite
        rw [if_pos hfp] at hnames
        have hlog : r'.log s = r.log s := by
          rw [Running.log, Running.log, hsite.1, hsite.2, hfp, h.logs]
        dsimp only
        rw [hlog, hsite.1, hsite.2, hfp, syncFromBackend_at h.runs, syncFromBackend_at h.runs',
          h.replicaId, h.alike.offset]
        exact h.alike.readOn hnames
      · dsimp only
        rw [syncFromBackend_elsewhere h.runs hsite, syncFromBackend_elsewhere h.runs' hsite]
        exact h.alike

theorem Mirrors.foreign (h : Mirrors d (b.Agrees d.site) r r') (hs : s.isOwn d.site = false)
    (hstep : r.Apart d b s) :
    Mirrors d (b.Agrees d.site) (r.occur d.sessionHash s) r' := by
  have hforeign : ¬d.site.Owns s.tenant s.fingerprint := of_decide_eq_false hs
  cases hhap : s.happening with
  | observe input =>
    obtain ⟨hrun, hat⟩ : d.site.RunsIn _ ∧ _ :=
      observe_tracks d.sessionHash s.tenant s.routeIx s.fingerprint input r.monitor h.runs
    simp only [Running.occur, hhap]
    refine ⟨hrun, by simp only [config_observe, h.config], h.sharedLog, h.logs, ?_⟩
    rw [hat]
    exact h.alike.observe_foreign d.sessionHash s.tenant s.routeIx s.fingerprint input hforeign
  | append record =>
    simp only [Running.occur, hhap]
    refine ⟨h.runs, h.config, h.sharedLog, ?_, h.alike⟩
    dsimp only
    rw [if_neg fun hhere => hforeign ⟨hhere.1.symm, hhere.2.2.symm⟩]
    exact h.logs
  | sync length =>
    simp only [Running.occur, hhap]
    split
    · next hshared =>
      refine ⟨h.runs.of_config (config_syncFromBackend ..),
        by simp only [config_syncFromBackend, h.config], h.sharedLog, h.logs, ?_⟩
      by_cases hsite : d.site.IsAt s.tenant s.routeIx
      · have hshort := hstep length hhap hshared hsite
        rw [if_neg fun hfp => hforeign ⟨hsite.1, hfp⟩] at hshort
        dsimp only
        rw [hsite.1, hsite.2, syncFromBackend_short h.runs s.fingerprint hshort]
        exact h.alike
      · dsimp only
        rw [syncFromBackend_elsewhere h.runs hsite]
        exact h.alike
    · exact h

end mirrors

theorem run_mirrors (d : Deployment F) {b : Boot F} (hfound : b.Found d.site) (sharedLog : Bool)
    {history : List (Stamped F)}
    (hsteps : ∀ first s, first ++ [s] <+: history → (run d b sharedLog first).Apart d b s) :
    Mirrors d (b.Agrees d.site) (run d b sharedLog history)
      (run d (b.own d.site) sharedLog (history.filter (·.isOwn d.site))) := by
  induction history using List.reverseRecOn with
  | nil =>
    obtain ⟨hrun, -⟩ := buildMonitorWith_at d.sessionHash d.runs b.replicaId b.traces b.deferred
      b.pairs sharedLog
    refine ⟨hrun, ?_, rfl, rfl, running_alike d hfound sharedLog⟩
    exact (config_buildMonitorWith ..).trans (config_buildMonitorWith ..).symm
  | append_singleton history s ih =>
    have hbefore := ih fun first s' h => hsteps first s' (h.trans (List.prefix_append history [s]))
    have hstep := hsteps history s (List.prefix_refl _)
    rw [List.filter_append, run_concat]
    cases hs : s.isOwn d.site with
    | true =>
      rw [List.filter_cons_of_pos hs, List.filter_nil, run_concat]
      exact hbefore.own hs hstep
    | false =>
      rw [List.filter_cons_of_neg (by simp [hs]), List.filter_nil, List.append_nil]
      exact hbefore.foreign hs hstep

/-- In a run whose steps leave the experiment apart, what names another tenant or another
fingerprint changes neither the experiment nor what it has counted already. -/
theorem experiment_isolated (d : Deployment F) {b : Boot F} (hfound : b.Found d.site)
    (sharedLog : Bool) {history : List (Stamped F)}
    (hsteps : ∀ first s, first ++ [s] <+: history → (run d b sharedLog first).Apart d b s) :
    ∀ first, first <+: history →
      let all := (run d b sharedLog first).monitor
      let own := (run d (b.own d.site) sharedLog (first.filter (·.isOwn d.site))).monitor
      (all.at d.site).experiment = (own.at d.site).experiment ∧
      (all.at d.site).sessions = (own.at d.site).sessions ∧
      (all.at d.site).appliedPairIds = (own.at d.site).appliedPairIds ∧
      (all.at d.site).health = (own.at d.site).health ∧
      all.status d.site.tenant d.site.routeIx = own.status d.site.tenant d.site.routeIx := by
  intro first hfirst all own
  have hmirrors : Mirrors d _ (run d b sharedLog first) _ :=
    run_mirrors d hfound sharedLog fun before s h => hsteps before s (h.trans hfirst)
  obtain ⟨n, ids, heq, -⟩ := hmirrors.alike
  have hsame : own.at d.site =
      (all.at d.site).rebook n ids (all.at d.site).remoteLogOffset := heq
  refine ⟨?_, ?_, ?_, ?_, ?_⟩
  · rw [hsame]; rfl
  · rw [hsame]; rfl
  · rw [hsame]; rfl
  · rw [hsame]; rfl
  · rw [status_at, status_at, hsame]
    rfl

/-- An incumbent's receipt of an earlier configuration. -/
def staleReceipt : Receipt ℚ :=
  { sampleReceipt 4 "a" .incumbent with experiment := some ⟨.incumbent, 50, 0, "old"⟩ }

def staleOutcome : Option (LogRecord ℚ) := some (.outcome .incumbent 1 5 0.1)

def ownPair : Option (LogRecord ℚ) := some (.pair (samplePair 8 3 4 1 0))

theorem experiment_isolated_stale :
    let b : Boot ℚ := ⟨7, [{ staleReceipt with traceId := 1 }], [(1, .pass)], []⟩
    let history : List (Stamped ℚ) := [⟨"t", 0, "old", .observe (.cost .incumbent 3)⟩,
      ⟨"t", 0, "fp", .append ownPair⟩, ⟨"t", 0, "fp", .sync 1⟩,
      ⟨"t", 0, "old", .append staleOutcome⟩, ⟨"t", 0, "old", .sync 1⟩]
    let site := sampleDeployment.site
    ((run sampleDeployment b true history).monitor.at site).experiment =
      ((run sampleDeployment (b.own site) true (history.filter (·.isOwn site))).monitor.at
        site).experiment := by
  intro b history site
  have hfound : b.Found site := by
    intro o ho t _ _
    obtain rfl := List.mem_singleton.mp ho
    rfl
  have hsteps : ∀ first s, first ++ [s] <+: history →
      (run sampleDeployment b true first).Apart sampleDeployment b s := by
    intro first s hprefix length hsync _ _
    obtain ⟨rest, hrest⟩ := hprefix
    have hs : history[first.length]? = some s := by simp [← hrest]
    have hfirst : first = history.take first.length := by simp [← hrest]
    have hlength : first.length < history.length := by simp [← hrest]
    generalize first.length = n at hs hfirst hlength
    subst hfirst
    have hn : n = 2 ∨ n = 4 := by
      have hlt : n < 5 := hlength
      interval_cases n <;> cases hs <;> first | decide | cases hsync
    intro read cursor
    rcases hn with rfl | rfl <;> cases hs <;> cases hsync
    · rw [if_pos (by decide)]
      rintro r hr - -
      have hmem : some (.pair r) ∈ [ownPair] := List.mem_of_mem_take (List.mem_of_mem_drop hr)
      obtain rfl : r = samplePair 8 3 4 1 0 := by simpa [ownPair] using hmem
      have hall : 4 ∉ incumbentIds site b.traces := by decide +kernel
      have hown : 4 ∉ incumbentIds site (b.own site).traces := by decide +kernel
      exact iff_of_false (fun h => hall h.mem) fun h => hown h.mem
    · rw [if_neg (by decide)]
      decide +kernel
  exact (experiment_isolated sampleDeployment hfound true hsteps history (List.prefix_refl _)).1

/-- A sync of an earlier configuration's log moves the cursor past a pair of the experiment's own
log. A receipt of an earlier configuration takes the cost of a pair that names its trace. -/
theorem experiment_mixed :
    let site := sampleDeployment.site
    let past : List (Stamped ℚ) := [⟨"t", 0, "old", .append staleOutcome⟩, ⟨"t", 0, "old", .sync 1⟩]
    let present : List (Stamped ℚ) := [⟨"t", 0, "fp", .append ownPair⟩, ⟨"t", 0, "fp", .sync 1⟩]
    let b : Boot ℚ := ⟨7, [], [], []⟩
    let skipped := (run sampleDeployment b true (past ++ present)).monitor.at site
    let read := (run sampleDeployment (b.own site) true
      ((past ++ present).filter (·.isOwn site))).monitor.at site
    let b' : Boot ℚ := ⟨7, [staleReceipt], [], []⟩
    let uncosted := (run sampleDeployment b' true present).monitor.at site
    let costed := (run sampleDeployment (b'.own site) true
      (present.filter (·.isOwn site))).monitor.at site
    skipped.experiment.pairs = 0 ∧ read.experiment.pairs = 1 ∧
      uncosted.experiment.incumbent.requests = 0 ∧ costed.experiment.incumbent.requests = 1 := by
  decide +kernel

end Firstpass.Monitor
