import Firstpass.Proxy.ExperimentEvidence

/-!
# A restart lands where the live process was

A process without a shared log serves traces, takes feedback, and may restart at any
point. Its monitor is at every point the one that startup replay builds from what is
stored by then, up to the set of costed traces that only a shared log reads.
-/

namespace Firstpass.Monitor

open Select ExperimentMonitor

variable {F : Type} [Field F] [LinearOrder F]

-- ---------------------------------------------------------------------------
-- The live process
-- ---------------------------------------------------------------------------

inductive Event (F : Type)
  | served (t : Receipt F)
  | outcome (tenant : String) (traceId : Uuid) (verdict : Verdict)
  | restart (replicaId : Uuid)

/-- The monitor and what the store holds. -/
structure Live (F : Type) [Field F] [LinearOrder F] where
  monitor : ExperimentMonitor F
  traces : List (Receipt F)
  deferred : List (Uuid × Verdict)

def ofTenant (tenant : String) (traceId : Uuid) (t : Receipt F) : Bool :=
  t.tenantId = tenant ∧ t.traceId = traceId

def traceExists (traces : List (Receipt F)) (tenant : String) (traceId : Uuid) : Bool :=
  traces.any (ofTenant tenant traceId)

def traceExperiment (traces : List (Receipt F)) (tenant : String) (traceId : Uuid) :
    Option (Receipt F × ExperimentRecord F) :=
  (traces.find? (ofTenant tenant traceId)).bind fun t => t.experiment.map (t, ·)

/-- `record_outcome` without a shared log. -/
def recordOutcome (sessionHash : String → UInt64) (m : ExperimentMonitor F) (tenant : String)
    (routeIx : Nat) (fingerprint : String) (arm : Arm) (sessionId : String) (verdict : Verdict) :
    ExperimentMonitor F × Bool :=
  match verdict with
  | .abstain => (m, false)
  | _ => m.observeOutcome sessionHash tenant routeIx fingerprint arm sessionId verdict

/-- What the serving path and the feedback handler do. Feedback on a trace that the
tenant does not own is refused before anything is stored. -/
def Live.event (sessionHash : String → UInt64) (s : Live F) : Event F → Live F
  | .served t =>
    { s with
      monitor := match t.experiment with
        | none => s.monitor
        | some rec => s.monitor.tallyTrace t rec
      traces := s.traces ++ [t] }
  | .outcome tenant traceId verdict =>
    if traceExists s.traces tenant traceId = false then s
    else
      let s := { s with deferred := s.deferred ++ [(traceId, verdict)] }
      if s.monitor.isActive = false ∨ verdict = .abstain then s
      else
        match traceExperiment s.traces tenant traceId with
        | none => s
        | some (t, rec) =>
          { s with monitor := (recordOutcome sessionHash s.monitor tenant t.route rec.fingerprint
              rec.arm t.sessionId verdict).1 }
  | .restart replicaId =>
    { s with monitor :=
        monitorFromTraces sessionHash s.monitor.params replicaId s.traces s.deferred [] }

def Live.run (sessionHash : String → UInt64) (params : List (Nat × Params F)) (replicaId : Uuid)
    (history : List (Event F)) : Live F :=
  history.foldl (Live.event sessionHash) ⟨fromConfig params replicaId, [], []⟩

def Event.servedId : Event F → Option Uuid
  | .served t => some t.traceId
  | _ => none

def servedIds (history : List (Event F)) : List Uuid := history.filterMap Event.servedId

-- ---------------------------------------------------------------------------
-- What counts
-- ---------------------------------------------------------------------------

/-- A clear outcome of the site's experiment: its session, its arm and its value. -/
abbrev Vote (F : Type) := UInt64 × Arm × F

def Receipt.vote (sessionHash : String → UInt64) (site : Site F) (t : Receipt F)
    (verdict : Verdict) : Option (Vote F) :=
  match t.experiment, (outcomeOf verdict : Option F) with
  | some rec, some outcome =>
    if site.IsAt t.tenantId t.route ∧ rec.fingerprint = site.fingerprint then
      some (sessionHash t.sessionId, rec.arm, outcome)
    else none
  | _, _ => none

/-- The clear outcomes, in the order in which they arrived. -/
def votes (sessionHash : String → UInt64) (site : Site F) (traces : List (Receipt F))
    (deferred : List (Uuid × Verdict)) : List (Vote F) :=
  deferred.filterMap fun d => (byId traces d.1).bind fun t => t.vote sessionHash site d.2

/-- The first vote of each session. -/
def firsts : List (Vote F) → List (Vote F)
  | [] => []
  | v :: vs => v :: (firsts vs).filter (·.1 ≠ v.1)

/-- The votes that count: no more sessions are remembered than `maxTrackedSessions`. -/
def counted (vs : List (Vote F)) : List (Vote F) := (firsts vs).take maxTrackedSessions

def outcomeCalls (vs : List (Vote F)) : List (Call F) := vs.map fun v => .outcome v.2.1 (some v.2.2)

def Receipt.costCall (site : Site F) (t : Receipt F) : Option (Call F) :=
  t.experiment.bind fun rec =>
    if site.IsAt t.tenantId t.route ∧ rec.fingerprint = site.fingerprint then
      some (.cost rec.arm (some t.final.totalCostUsd))
    else none

def costCalls (site : Site F) (traces : List (Receipt F)) : List (Call F) :=
  traces.filterMap (Receipt.costCall site)

def Entry.countVote (e : Entry F) (v : Vote F) : Entry F := (e.observeOutcome v.2.1 v.1 v.2.2).1

/-- The entry that the stored traces and outcomes amount to: the tallies, then the votes. -/
def Entry.account (sessionHash : String → UInt64) (site : Site F) (traces : List (Receipt F))
    (deferred : List (Uuid × Verdict)) : Entry F :=
  (votes sessionHash site traces deferred).foldl Entry.countVote
    (traces.foldl (Entry.serve site) (.new site.params))

theorem feedback_eq (sessionHash : String → UInt64) (site : Site F) (e : Entry F) (t : Receipt F)
    (verdict : Verdict) : e.feedback sessionHash site t verdict =
      match t.vote sessionHash site verdict with
      | none => e
      | some v => e.countVote v := by
  cases ht : t.experiment with
  | none => simp only [Entry.feedback, Receipt.vote, ht]
  | some rec =>
    cases houtcome : (outcomeOf verdict : Option F) with
    | none => simp only [Entry.feedback, Receipt.vote, ht, houtcome]
    | some outcome =>
      simp only [Entry.feedback, Receipt.vote, ht, houtcome]
      split_ifs <;> rfl

-- ---------------------------------------------------------------------------
-- The set of costed traces is not read
-- ---------------------------------------------------------------------------

def Entry.withCosted (e : Entry F) (ids : Finset Uuid) : Entry F := { e with locallyCosted := ids }

theorem serve_withCosted (site : Site F) (e : Entry F) (ids : Finset Uuid) (t : Receipt F) :
    (e.withCosted ids).serve site t = (e.serve site t).withCosted ids := by
  obtain ⟨f, g, h, -, heq⟩ := serve_eq site t
  rw [heq, heq]
  rfl

theorem countVote_withCosted (e : Entry F) (ids : Finset Uuid) (v : Vote F) :
    (e.withCosted ids).countVote v = (e.countVote v).withCosted ids := by
  have hblind : Blind (Entry.countVote · v) := Blind.observeOutcome v.2.1 v.1 v.2.2
  refine (hblind e e.ignoredStale ids e.remoteLogOffset).trans ?_
  rw [← hblind.stale e, ← hblind.offset e]
  rfl

theorem remember_eq (site : Site F) (e : Entry F) (t : Receipt F) :
    ∃ ids, e.remember site t = e.withCosted ids := by
  cases ht : t.experiment with
  | none => exact ⟨e.locallyCosted, by simp only [Entry.remember, ht]; rfl⟩
  | some rec =>
    simp only [Entry.remember, Entry.rememberCosted, ht]
    split_ifs
    · exact ⟨_, rfl⟩
    · exact ⟨e.locallyCosted, rfl⟩
    · exact ⟨e.locallyCosted, rfl⟩

theorem foldl_remember (site : Site F) (traces : List (Receipt F)) (e : Entry F) :
    ∃ ids, traces.foldl (fun e t => (e.serve site t).remember site t) e =
      (traces.foldl (Entry.serve site) e).withCosted ids := by
  induction traces generalizing e with
  | nil => exact ⟨e.locallyCosted, rfl⟩
  | cons t traces ih =>
    obtain ⟨ids, hids⟩ := remember_eq site (e.serve site t) t
    obtain ⟨ids', hids'⟩ := ih ((e.serve site t).withCosted ids)
    refine ⟨ids', ?_⟩
    rw [List.foldl_cons, hids, hids', List.foldl_cons,
      List.foldl_hom (Entry.withCosted · ids) fun e t => serve_withCosted site e ids t]
    rfl

theorem foldl_feedback (sessionHash : String → UInt64) (site : Site F) (traces : List (Receipt F))
    (deferred : List (Uuid × Verdict)) (e : Entry F) :
    deferred.foldl (Entry.replayOutcome sessionHash site traces) e =
      (votes sessionHash site traces deferred).foldl Entry.countVote e := by
  induction deferred generalizing e with
  | nil => rfl
  | cons d deferred ih =>
    rw [List.foldl_cons, ih, Entry.replayOutcome]
    simp only [votes, List.filterMap_cons]
    cases byId traces d.1 with
    | none => rfl
    | some t =>
      simp only [feedback_eq, Option.bind_some]
      cases t.vote sessionHash site d.2 with
      | none => rfl
      | some v => rfl

theorem replay_eq_account (sessionHash : String → UInt64) (site : Site F)
    (traces : List (Receipt F)) (deferred : List (Uuid × Verdict)) :
    ∃ ids, Entry.replay sessionHash site traces deferred [] =
      (Entry.account sessionHash site traces deferred).withCosted ids := by
  obtain ⟨ids, hids⟩ := foldl_remember site traces (.new site.params)
  refine ⟨ids, ?_⟩
  rw [Entry.replay, List.foldl_nil, hids, foldl_feedback,
    List.foldl_hom (Entry.withCosted · ids) fun e v => countVote_withCosted e ids v, Entry.account]

-- ---------------------------------------------------------------------------
-- Looking a trace up
-- ---------------------------------------------------------------------------

omit [Field F] [LinearOrder F] in
theorem eq_of_traceId {traces : List (Receipt F)} (hids : (traces.map (·.traceId)).Nodup)
    {t t' : Receipt F} (ht : t ∈ traces) (ht' : t' ∈ traces) (h : t.traceId = t'.traceId) :
    t = t' := List.inj_on_of_nodup_map hids ht ht' h

omit [Field F] [LinearOrder F] in
theorem byId_of_mem {traces : List (Receipt F)} (hids : (traces.map (·.traceId)).Nodup)
    {t : Receipt F} (ht : t ∈ traces) :
    byId traces t.traceId = if t.experiment.isSome then some t else none := by
  have hunique : ∀ t' ∈ (traces.filter (·.experiment.isSome)).reverse,
      t'.traceId = t.traceId → t' = t := fun t' ht' h =>
    eq_of_traceId hids (List.mem_filter.mp (List.mem_reverse.mp ht')).1 ht h
  cases hfind : byId traces t.traceId with
  | none =>
    have hnone := List.find?_eq_none.mp hfind
    rw [if_neg]
    intro hsome
    have hmem : t ∈ traces.filter (·.experiment.isSome) := List.mem_filter.mpr ⟨ht, hsome⟩
    exact hnone t (List.mem_reverse.mpr hmem) (decide_eq_true rfl)
  | some t' =>
    have hmem := List.mem_of_find?_eq_some hfind
    rw [byId] at hfind
    have hid := List.find?_some hfind
    have heq := hunique t' hmem (of_decide_eq_true hid)
    have hsome := (List.mem_filter.mp (List.mem_reverse.mp hmem)).2
    rw [heq] at hsome ⊢
    rw [if_pos hsome]

omit [Field F] [LinearOrder F] in
theorem byId_append {traces : List (Receipt F)} {t : Receipt F} {id : Uuid}
    (h : t.traceId ≠ id) : byId (traces ++ [t]) id = byId traces id := by
  rw [byId, List.filter_append, List.reverse_append, List.find?_append, byId]
  have hnone : ([t].filter (·.experiment.isSome)).reverse.find? (·.traceId = id) = none := by
    rw [List.find?_eq_none]
    intro t' ht'
    obtain rfl := List.mem_singleton.mp (List.mem_filter.mp (List.mem_reverse.mp ht')).1
    simpa using h
  rw [hnone, Option.none_or]

omit [Field F] [LinearOrder F] in
/-- The feedback handler finds the trace that the replay finds. -/
theorem traceExperiment_eq {traces : List (Receipt F)} (hids : (traces.map (·.traceId)).Nodup)
    {tenant : String} {traceId : Uuid} (hexists : traceExists traces tenant traceId = true) :
    ∃ t ∈ traces, t.traceId = traceId ∧ t.tenantId = tenant ∧
      traceExperiment traces tenant traceId = t.experiment.map (t, ·) ∧
      byId traces traceId = if t.experiment.isSome then some t else none := by
  cases hfind : traces.find? (ofTenant tenant traceId) with
  | none =>
    obtain ⟨t, ht, hown⟩ := List.any_eq_true.mp hexists
    exact absurd hown (List.find?_eq_none.mp hfind t ht)
  | some t =>
    have hown : ofTenant tenant traceId t = true := List.find?_some hfind
    obtain ⟨htenant, rfl⟩ := of_decide_eq_true hown
    have ht := List.mem_of_find?_eq_some hfind
    refine ⟨t, ht, rfl, htenant, ?_, byId_of_mem hids ht⟩
    rw [traceExperiment, hfind, Option.bind_some]

theorem votes_append_trace (sessionHash : String → UInt64) (site : Site F)
    {traces : List (Receipt F)} {deferred : List (Uuid × Verdict)} {t : Receipt F}
    (hnew : ∀ d ∈ deferred, t.traceId ≠ d.1) :
    votes sessionHash site (traces ++ [t]) deferred = votes sessionHash site traces deferred := by
  refine List.filterMap_congr fun d hd => ?_
  rw [byId_append (hnew d hd)]

theorem serve_countVote (site : Site F) (t : Receipt F) (vs : List (Vote F)) (e : Entry F) :
    (vs.foldl Entry.countVote e).serve site t = vs.foldl Entry.countVote (e.serve site t) := by
  obtain ⟨f, g, h, htally, heq⟩ := serve_eq site t
  rw [heq, heq]
  exact (List.foldl_hom (Entry.update f g h) fun e v => observeOutcome_update htally g e _ _ _).symm

-- ---------------------------------------------------------------------------
-- The live process keeps the account
-- ---------------------------------------------------------------------------

/-- What every history preserves. -/
structure Live.Keeps (sessionHash : String → UInt64) (site : Site F) (s : Live F) : Prop where
  runs : site.RunsIn s.monitor
  known : ∀ d ∈ s.deferred, d.1 ∈ s.traces.map (·.traceId)
  account : ∃ ids, s.monitor.at site =
    (Entry.account sessionHash site s.traces s.deferred).withCosted ids

theorem Site.RunsIn.active {site : Site F} {m : ExperimentMonitor F} (h : site.RunsIn m) :
    m.isActive = true := by
  rw [Site.RunsIn] at h
  rw [isActive]
  cases hparams : m.params with
  | nil => simp [hparams] at h
  | cons p ps => rfl

section
variable {sessionHash : String → UInt64} {site : Site F} {s : Live F}

theorem Live.Keeps.served (h : s.Keeps sessionHash site) {t : Receipt F}
    (hnew : t.traceId ∉ s.traces.map (·.traceId)) :
    (s.event sessionHash (.served t)).Keeps sessionHash site := by
  have hknown : ∀ d ∈ s.deferred, d.1 ∈ (s.traces ++ [t]).map (·.traceId) := fun d hd => by
    rw [List.map_append]
    exact List.mem_append_left _ (h.known d hd)
  obtain ⟨ids, hids⟩ := h.account
  have haccount : Entry.account sessionHash site (s.traces ++ [t]) s.deferred =
      (Entry.account sessionHash site s.traces s.deferred).serve site t := by
    have hvotes : votes sessionHash site (s.traces ++ [t]) s.deferred = _ :=
      votes_append_trace sessionHash site fun d hd heq => hnew (heq ▸ h.known d hd)
    rw [Entry.account, hvotes, List.foldl_append, Entry.account, serve_countVote]
    rfl
  have hserve : (s.monitor.at site).serve site t =
      (Entry.account sessionHash site (s.traces ++ [t]) s.deferred).withCosted ids := by
    rw [hids, haccount, serve_withCosted]
  cases ht : t.experiment with
  | none =>
    simp only [Live.event, ht]
    refine ⟨h.runs, hknown, ids, ?_⟩
    simpa only [Entry.serve, ht] using hserve
  | some rec =>
    simp only [Live.event, ht]
    obtain ⟨hrun, hat⟩ := tallyTrace_tracks ht s.monitor h.runs
    exact ⟨hrun, hknown, ids, hat.trans hserve⟩

theorem account_append_outcome (traces : List (Receipt F)) (deferred : List (Uuid × Verdict))
    {t : Receipt F} (hbyId : byId traces t.traceId = if t.experiment.isSome then some t else none)
    (verdict : Verdict) :
    Entry.account sessionHash site traces (deferred ++ [(t.traceId, verdict)]) =
      (Entry.account sessionHash site traces deferred).feedback sessionHash site t verdict := by
  rw [Entry.account, votes, List.filterMap_append, List.foldl_append, ← votes, ← Entry.account,
    feedback_eq, List.filterMap_cons, hbyId]
  cases ht : t.experiment with
  | none => simp [Receipt.vote, ht]
  | some rec =>
    simp only [Option.isSome_some, if_true, Option.bind_some]
    cases t.vote sessionHash site verdict with
    | none => rfl
    | some v => rfl

theorem feedback_withCosted (e : Entry F) (ids : Finset Uuid) (t : Receipt F) (verdict : Verdict) :
    (e.withCosted ids).feedback sessionHash site t verdict =
      (e.feedback sessionHash site t verdict).withCosted ids := by
  rw [feedback_eq, feedback_eq]
  cases t.vote sessionHash site verdict with
  | none => rfl
  | some v => exact countVote_withCosted e ids v

theorem Live.Keeps.outcome (h : s.Keeps sessionHash site)
    (hids : (s.traces.map (·.traceId)).Nodup) (tenant : String) (traceId : Uuid)
    (verdict : Verdict) :
    (s.event sessionHash (.outcome tenant traceId verdict)).Keeps sessionHash site := by
  simp only [Live.event]
  split
  · exact h
  · next hexists =>
    obtain ⟨t, ht, rfl, rfl, hfound, hbyId⟩ :=
      traceExperiment_eq hids (Bool.of_not_eq_false hexists)
    have hknown : ∀ d ∈ s.deferred ++ [(t.traceId, verdict)], d.1 ∈ s.traces.map (·.traceId) := by
      intro d hd
      rcases List.mem_append.mp hd with hd | hd
      · exact h.known d hd
      · rw [List.mem_singleton.mp hd]
        exact List.mem_map_of_mem ht
    obtain ⟨ids, hids'⟩ := h.account
    have haccount : (s.monitor.at site).feedback sessionHash site t verdict =
        (Entry.account sessionHash site s.traces
          (s.deferred ++ [(t.traceId, verdict)])).withCosted ids := by
      rw [hids', feedback_withCosted, account_append_outcome _ _ hbyId]
    split
    · next hskip =>
      refine ⟨h.runs, hknown, ids, ?_⟩
      rw [← haccount, feedback_eq]
      obtain rfl : verdict = .abstain := hskip.resolve_left (by simp [h.runs.active])
      cases hexp : t.experiment <;> simp [Receipt.vote, outcomeOf, hexp]
    · next hskip =>
      rw [hfound]
      cases hexp : t.experiment with
      | none =>
        simp only [Option.map_none]
        refine ⟨h.runs, hknown, ids, ?_⟩
        rw [← haccount, feedback_eq]
        simp only [Receipt.vote, hexp]
      | some rec =>
        obtain ⟨hrun, hat⟩ := observeOutcome_tracks sessionHash hexp verdict s.monitor h.runs
        have hclear : recordOutcome sessionHash s.monitor t.tenantId t.route rec.fingerprint rec.arm
            t.sessionId verdict = s.monitor.observeOutcome sessionHash t.tenantId t.route
              rec.fingerprint rec.arm t.sessionId verdict := by
          cases verdict with
          | abstain => exact absurd (.inr rfl) hskip
          | pass => rfl
          | fail => rfl
        simp only [Option.map_some, hclear]
        exact ⟨hrun, hknown, ids, hat.trans haccount⟩

theorem Live.Keeps.restart (h : s.Keeps sessionHash site) (replicaId : Uuid) :
    (s.event sessionHash (.restart replicaId)).Keeps sessionHash site := by
  obtain ⟨hrun, hat⟩ := monitorFromTraces_at sessionHash h.runs replicaId s.traces s.deferred []
  obtain ⟨ids, hids⟩ := replay_eq_account sessionHash site s.traces s.deferred
  exact ⟨hrun, h.known, ids, hat.trans hids⟩

end

theorem traces_event (sessionHash : String → UInt64) (s : Live F) (e : Event F) :
    (s.event sessionHash e).traces.map (·.traceId) =
      s.traces.map (·.traceId) ++ e.servedId.toList := by
  cases e with
  | served t => simp [Live.event, Event.servedId]
  | outcome tenant traceId verdict =>
    simp only [Live.event, Event.servedId, Option.toList_none, List.append_nil]
    repeat' split
    all_goals rfl
  | restart replicaId => simp [Live.event, Event.servedId]

theorem live_keeps (sessionHash : String → UInt64) {site : Site F} {params : List (Nat × Params F)}
    (hparams : params.lookup site.routeIx = some site.params) (replicaId : Uuid)
    {history : List (Event F)} (hids : (servedIds history).Nodup) :
    (Live.run sessionHash params replicaId history).Keeps sessionHash site ∧
    (Live.run sessionHash params replicaId history).traces.map (·.traceId) = servedIds history := by
  induction history using List.reverseRecOn with
  | nil => exact ⟨⟨hparams, nofun, ∅, rfl⟩, rfl⟩
  | append_singleton history e ih =>
    have happend : servedIds (history ++ [e]) = servedIds history ++ e.servedId.toList := by
      rw [servedIds, List.filterMap_append, ← servedIds]
      cases h : e.servedId <;> simp [h]
    rw [happend] at hids ⊢
    obtain ⟨hkeeps, htraces⟩ := ih hids.of_append_left
    have hrun : Live.run sessionHash params replicaId (history ++ [e]) =
        (Live.run sessionHash params replicaId history).event sessionHash e := by
      rw [Live.run, List.foldl_append]
      rfl
    rw [hrun]
    refine ⟨?_, by rw [traces_event, htraces]⟩
    rw [← htraces] at hids
    cases e with
    | served t =>
      refine hkeeps.served fun hmem => ?_
      exact (List.nodup_append.mp hids).2.2 _ hmem _ (List.mem_singleton_self _) rfl
    | outcome tenant traceId verdict =>
      exact hkeeps.outcome hids.of_append_left tenant traceId verdict
    | restart replicaId => exact hkeeps.restart replicaId

-- ---------------------------------------------------------------------------
-- What the account counts
-- ---------------------------------------------------------------------------

section
omit [Field F] [LinearOrder F]

theorem mem_firsts_cons (vs : List (Vote F)) (u : Vote F) (key : UInt64) :
    key ∈ (firsts (u :: vs)).map (·.1) ↔ key = u.1 ∨ key ∈ (firsts vs).map (·.1) := by
  simp only [firsts, List.map_cons, List.mem_cons, List.mem_map, List.mem_filter,
    decide_eq_true_eq]
  constructor
  · rintro (h | ⟨w, ⟨hw, -⟩, rfl⟩)
    · exact .inl h
    · exact .inr ⟨w, hw, rfl⟩
  · rintro (h | ⟨w, hw, rfl⟩)
    · exact .inl h
    · by_cases hkey : w.1 = u.1
      · exact .inl hkey
      · exact .inr ⟨w, ⟨hw, hkey⟩, rfl⟩

theorem firsts_append (vs : List (Vote F)) (v : Vote F) :
    firsts (vs ++ [v]) = if v.1 ∈ (firsts vs).map (·.1) then firsts vs else firsts vs ++ [v] := by
  induction vs with
  | nil => rfl
  | cons u vs ih =>
    rw [List.cons_append, firsts, ih]
    by_cases hv : v.1 ∈ (firsts vs).map (·.1)
    · rw [if_pos hv, if_pos ((mem_firsts_cons vs u v.1).mpr (.inr hv)), firsts]
    · rw [if_neg hv, List.filter_append]
      by_cases hu : v.1 = u.1
      · rw [if_pos ((mem_firsts_cons vs u v.1).mpr (.inl hu)), firsts]
        simp [hu]
      · have hnew : v.1 ∉ (firsts (u :: vs)).map (·.1) := fun h =>
          ((mem_firsts_cons vs u v.1).mp h).elim hu hv
        rw [if_neg hnew, firsts]
        simp [hu]

/-- No session counts twice. -/
theorem firsts_nodup (vs : List (Vote F)) : ((firsts vs).map (·.1)).Nodup := by
  induction vs using List.reverseRecOn with
  | nil => exact .nil
  | append_singleton vs v ih =>
    rw [firsts_append]
    split
    · exact ih
    · next hnew =>
      rw [List.map_append]
      refine List.nodup_append.mpr ⟨ih, List.nodup_singleton _, fun a ha b hb hab => hnew ?_⟩
      rwa [← show b = v.1 from List.mem_singleton.mp hb, ← hab]

/-- A vote that counts is the first of its session. -/
theorem find_of_mem_firsts {vs : List (Vote F)} {v : Vote F} (h : v ∈ firsts vs) :
    vs.find? (·.1 = v.1) = some v := by
  induction vs with
  | nil => cases h
  | cons u vs ih =>
    rcases List.mem_cons.mp h with rfl | h
    · simp
    · obtain ⟨hmem, hkey⟩ := List.mem_filter.mp h
      have hkey' : ¬u.1 = v.1 := fun heq => by simp [heq] at hkey
      rw [List.find?_cons_of_neg (by simpa using hkey'), ih hmem]

/-- Every session with a clear outcome has a first one. -/
theorem mem_firsts {vs : List (Vote F)} {v : Vote F} (h : v ∈ vs) :
    v.1 ∈ (firsts vs).map (·.1) := by
  induction vs with
  | nil => cases h
  | cons u vs ih =>
    rw [mem_firsts_cons]
    rcases List.mem_cons.mp h with rfl | h
    · exact .inl rfl
    · exact .inr (ih h)

end

theorem vote_inUnit [IsStrictOrderedRing F] {sessionHash : String → UInt64} {site : Site F}
    {traces : List (Receipt F)} {deferred : List (Uuid × Verdict)} {v : Vote F}
    (h : v ∈ votes sessionHash site traces deferred) : inUnit v.2.2 := by
  obtain ⟨d, -, hd⟩ := List.mem_filterMap.mp h
  obtain ⟨t, -, hvote⟩ := Option.bind_eq_some_iff.mp hd
  cases hexp : t.experiment with
  | none => simp [Receipt.vote, hexp] at hvote
  | some rec =>
    cases hverdict : d.2 with
    | abstain => simp [Receipt.vote, hexp, hverdict, outcomeOf] at hvote
    | pass =>
      simp only [Receipt.vote, hexp, hverdict, outcomeOf, Option.ite_none_right_eq_some,
        Option.some.injEq] at hvote
      obtain ⟨-, rfl⟩ := hvote
      exact ⟨zero_le_one, le_rfl⟩
    | fail =>
      simp only [Receipt.vote, hexp, hverdict, outcomeOf, Option.ite_none_right_eq_some,
        Option.some.injEq] at hvote
      obtain ⟨-, rfl⟩ := hvote
      exact ⟨le_rfl, zero_le_one⟩

theorem countVote_skip {e : Entry F} {v : Vote F}
    (h : v.1 ∈ e.sessions ∨ maxTrackedSessions ≤ e.sessions.card) :
    (e.countVote v).experiment = e.experiment ∧ (e.countVote v).sessions = e.sessions := by
  rw [Entry.countVote, observeOutcome_fst, applyLogOutcome_eq, if_pos (or_assoc.mp (.inl h))]
  exact ⟨rfl, rfl⟩

theorem countVote_new {e : Entry F} {v : Vote F} (hseen : v.1 ∉ e.sessions)
    (hfull : ¬maxTrackedSessions ≤ e.sessions.card) (hx : inUnit v.2.2) :
    (e.countVote v).experiment = (e.experiment.observeOutcome v.2.1 v.2.2).1 ∧
      (e.countVote v).sessions = insert v.1 e.sessions := by
  have hnew : ¬(v.1 ∈ e.sessions ∨ maxTrackedSessions ≤ e.sessions.card ∨ ¬inUnit v.2.2) :=
    not_or.mpr ⟨hseen, not_or.mpr ⟨hfull, not_not.mpr hx⟩⟩
  rw [Entry.countVote, observeOutcome_fst, applyLogOutcome_eq, if_neg hnew]
  exact ⟨rfl, rfl⟩

/-- Counting votes one by one counts the first of each session. -/
theorem foldl_countVote {vs : List (Vote F)} (hvs : ∀ v ∈ vs, inUnit v.2.2) (e : Entry F)
    (he : e.sessions = ∅) :
    (vs.foldl Entry.countVote e).experiment = e.experiment.run (outcomeCalls (counted vs)) ∧
    (vs.foldl Entry.countVote e).sessions = ((counted vs).map (·.1)).toFinset := by
  induction vs using List.reverseRecOn with
  | nil => exact ⟨rfl, he⟩
  | append_singleton vs v ih =>
    obtain ⟨hexp, hsessions⟩ := ih fun u hu => hvs u (List.mem_append_left _ hu)
    have hx := hvs v (List.mem_append_right _ (List.mem_singleton_self v))
    have hcard : (vs.foldl Entry.countVote e).sessions.card = (counted vs).length := by
      rw [hsessions, List.toFinset_card_of_nodup, List.length_map]
      exact (firsts_nodup vs).sublist ((List.take_sublist _ _).map _)
    have hkeep : counted (vs ++ [v]) = counted vs →
        v.1 ∈ (vs.foldl Entry.countVote e).sessions ∨
          maxTrackedSessions ≤ (vs.foldl Entry.countVote e).sessions.card →
        ((vs ++ [v]).foldl Entry.countVote e).experiment =
            e.experiment.run (outcomeCalls (counted (vs ++ [v]))) ∧
          ((vs ++ [v]).foldl Entry.countVote e).sessions =
            ((counted (vs ++ [v])).map (·.1)).toFinset := by
      intro hsame hskip
      obtain ⟨hexp', hsessions'⟩ := countVote_skip hskip
      rw [List.foldl_append, List.foldl_cons, List.foldl_nil, hsame, hexp', hsessions']
      exact ⟨hexp, hsessions⟩
    by_cases hfull : maxTrackedSessions ≤ (firsts vs).length
    · -- no further session is remembered
      refine hkeep ?_ (.inr ?_)
      · rw [counted, firsts_append]
        split
        · rfl
        · exact List.take_append_of_le_length hfull
      · rw [hcard, counted, List.length_take, Nat.min_eq_left hfull]
    · have hall : counted vs = firsts vs := List.take_of_length_le (Nat.le_of_not_le hfull)
      by_cases hseen : v.1 ∈ (firsts vs).map (·.1)
      · refine hkeep ?_ (.inl ?_)
        · rw [counted, firsts_append, if_pos hseen, ← counted]
        · rwa [hsessions, hall, List.mem_toFinset]
      · have hnext : counted (vs ++ [v]) = counted vs ++ [v] := by
          rw [counted, firsts_append, if_neg hseen, hall]
          refine List.take_of_length_le ?_
          rw [List.length_append, List.length_singleton]
          omega
        rw [hall] at hcard
        obtain ⟨hexp', hsessions'⟩ := countVote_new (e := vs.foldl Entry.countVote e)
          (by rwa [hsessions, hall, List.mem_toFinset]) (by rwa [hcard]) hx
        rw [List.foldl_append, List.foldl_cons, List.foldl_nil, hexp', hsessions', hnext]
        constructor
        · rw [outcomeCalls, List.map_append, run_append, ← outcomeCalls, ← hexp]
          rfl
        · rw [hsessions, List.map_append, List.toFinset_append, Finset.union_comm]
          rfl

theorem serve_sessions (site : Site F) (traces : List (Receipt F)) (e : Entry F) :
    (traces.foldl (Entry.serve site) e).sessions = e.sessions := by
  refine foldl_frame Entry.sessions (fun e t => ?_) traces e
  obtain ⟨f, g, h, -, heq⟩ := serve_eq site t
  rw [heq]
  rfl

theorem serve_experiment (site : Site F) (e : Entry F) (t : Receipt F) :
    (e.serve site t).experiment = e.experiment.run (Receipt.costCall site t).toList := by
  cases ht : t.experiment with
  | none =>
    simp only [Entry.serve, Receipt.costCall, ht]
    rfl
  | some rec =>
    simp only [Entry.serve, Receipt.costCall, ht, Option.bind_some]
    by_cases h : site.IsAt t.tenantId t.route
    · by_cases hfp : rec.fingerprint = site.fingerprint
      · simp only [h, hfp, and_self, if_true, Entry.tallyHealth]
        split <;> rfl
      · simp only [h, hfp, and_false, if_true, if_false]
        rfl
    · simp only [h, false_and, if_false]
      rfl

theorem serve_costCalls (site : Site F) (traces : List (Receipt F)) (e : Entry F) :
    (traces.foldl (Entry.serve site) e).experiment = e.experiment.run (costCalls site traces) := by
  induction traces generalizing e with
  | nil => rfl
  | cons t traces ih =>
    rw [List.foldl_cons, ih, serve_experiment, ← run_append, costCalls, costCalls,
      List.filterMap_cons]
    cases Receipt.costCall site t <;> rfl

-- ---------------------------------------------------------------------------
-- Replay and live agree
-- ---------------------------------------------------------------------------

/-- Startup replay rebuilds the live monitor of every history, restarts included. Both have
tallied each trace's cost and then the first clear outcome of each session, in the
order in which the outcomes arrived; outcomes that are not clear count for nothing. -/
theorem replay_eq_live [IsStrictOrderedRing F] (sessionHash : String → UInt64) {site : Site F}
    {params : List (Nat × Params F)} (hparams : params.lookup site.routeIx = some site.params)
    (replicaId replicaId' : Uuid) {history : List (Event F)}
    (hids : (servedIds history).Nodup) :
    let live := Live.run sessionHash params replicaId history
    let rebuilt := monitorFromTraces sessionHash params replicaId' live.traces live.deferred []
    let vs := votes sessionHash site live.traces live.deferred
    (rebuilt.at site).experiment = (live.monitor.at site).experiment ∧
    (rebuilt.at site).withCosted ∅ = (live.monitor.at site).withCosted ∅ ∧
    (live.monitor.at site).experiment =
      site.params.fresh.run (costCalls site live.traces ++ outcomeCalls (counted vs)) ∧
    (live.monitor.at site).sessions = ((counted vs).map (·.1)).toFinset ∧
    ((counted vs).map (·.1)).Nodup ∧
    (∀ v ∈ counted vs, vs.find? (·.1 = v.1) = some v) ∧
    ((firsts vs).length ≤ maxTrackedSessions →
      ∀ v ∈ vs, v.1 ∈ (live.monitor.at site).sessions) ∧
    votes sessionHash site live.traces (live.deferred.filter (·.2 ≠ .abstain)) = vs := by
  intro live rebuilt vs
  obtain ⟨hkeeps, -⟩ := live_keeps sessionHash hparams replicaId hids
  obtain ⟨ids, hlive⟩ := hkeeps.account
  obtain ⟨-, hrebuilt⟩ := monitorFromTraces_at sessionHash hparams replicaId' live.traces
    live.deferred []
  obtain ⟨ids', hreplay⟩ := replay_eq_account sessionHash site live.traces live.deferred
  rw [hreplay] at hrebuilt
  have hunit : ∀ v ∈ vs, inUnit v.2.2 := fun v hv => vote_inUnit hv
  obtain ⟨hexp, hsessions⟩ := foldl_countVote hunit
    (live.traces.foldl (Entry.serve site) (.new site.params)) (serve_sessions site _ _)
  have hsessions' : (live.monitor.at site).sessions = ((counted vs).map (·.1)).toFinset := by
    rw [hlive]
    exact hsessions
  refine ⟨by rw [hrebuilt, hlive]; rfl, by rw [hrebuilt, hlive]; rfl, ?_, hsessions', ?_, ?_, ?_, ?_⟩
  · rw [hlive, run_append, ← show (Entry.new site.params).experiment = site.params.fresh from rfl,
      ← serve_costCalls]
    exact hexp
  · exact (firsts_nodup vs).sublist ((List.take_sublist _ _).map _)
  · exact fun v hv => find_of_mem_firsts (List.mem_of_mem_take hv)
  · intro hroom v hv
    rw [hsessions', counted, List.take_of_length_le hroom, List.mem_toFinset]
    exact mem_firsts hv
  · rw [votes, List.filterMap_filter]
    refine List.filterMap_congr fun d _ => ?_
    obtain ⟨id, verdict⟩ := d
    cases verdict with
    | pass => rfl
    | fail => rfl
    | abstain =>
      cases byId live.traces id with
      | none => rfl
      | some t => cases ht : t.experiment <;> simp [Receipt.vote, outcomeOf]

def sampleReceipt (traceId : Uuid) (sessionId : String) (arm : Arm) : Receipt ℚ where
  traceId := traceId
  tenantId := "t"
  sessionId := sessionId
  routeIx := some 0
  experiment := some ⟨arm, 50, 0, "fp"⟩
  final := ⟨some 0, .attempt, 0.1, 0, 10, 0, 0.1, none, 0⟩
  truncated := [false]

theorem replay_eq_live_restart : ∃ p : Params ℚ, p.fingerprint = "fp" ∧
    let history : List (Event ℚ) := [.served (sampleReceipt 1 "a" .incumbent),
      .outcome "t" 1 .abstain, .outcome "t" 1 .pass, .restart 8,
      .served (sampleReceipt 2 "b" .challenger), .outcome "t" 2 .fail, .outcome "t" 2 .pass]
    let live := Live.run (·.hash) [(0, p)] 7 history
    ((monitorFromTraces (·.hash) [(0, p)] 9 live.traces live.deferred []).at
      ⟨"t", 0, p⟩).experiment = (live.monitor.at ⟨"t", 0, p⟩).experiment := by
  have hnew : ∃ e : Experiment ℚ, Experiment.new (fun _ => "") 0.05 0.05 = .ok e := by
    norm_num [Experiment.new]
  obtain ⟨e, he⟩ := hnew
  have hparams : [(0, (⟨0.05, 0.05, "fp", e, he⟩ : Params ℚ))].lookup 0 = some _ := rfl
  exact ⟨⟨0.05, 0.05, "fp", e, he⟩, rfl,
    (replay_eq_live (·.hash) (show _ = some (Site.mk "t" 0 _).params from hparams) 7 9
      (by decide)).1⟩

end Firstpass.Monitor
