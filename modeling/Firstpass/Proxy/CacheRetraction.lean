import Firstpass.Proxy.CacheHits

/-!
# Retraction reaches every replay

A trace is `Past` once its decision can put nothing more, and `Gone` once the store has
nothing of it either: it stays gone. Every receipt that feedback can reach is past, and so is
the decision it was replayed from, so what a report retracts is gone before it is accepted.
-/

namespace Firstpass.ResponseCache

open ConfigFile

variable {F : Type} [F64 F] {env : Env F} {s s' : State F} {e : Event F}

/-- The decision whose put is still to come. -/
def Thread.putId : Thread F → Option String
  | .putting d => some d.trace.traceId
  | _ => none

@[simp] theorem putId_routing (req : Request F) (route : Route F) :
    (Thread.routing req route).putId = none := rfl

@[simp] theorem putId_putting (d : Decision F) :
    (Thread.putting d).putId = some d.trace.traceId := rfl

@[simp] theorem putId_offering (t : Trace F) : (Thread.offering t).putId = none := rfl

def State.putIds (s : State F) : List String := s.threads.filterMap Thread.putId

/-- The receipt is with the writer, or on its way there. -/
def State.HasLeft (s : State F) (t : Trace F) : Prop :=
  .offering t ∈ s.threads ∨ t ∈ s.offered ∨ t ∈ s.rows

/-- Nothing more will be put on the authority of the trace. -/
def Past (s : State F) (traceId : String) : Prop := traceId ∈ s.used ∧ traceId ∉ s.putIds

structure Gone (s : State F) (traceId : String) : Prop where
  past : Past s traceId
  entries : ∀ item ∈ s.cache.entries, item.2.source ≠ traceId

-- ---------------------------------------------------------------------------
-- What one step can do
-- ---------------------------------------------------------------------------

theorem used_step (hs : Step env s e s') (h : traceId ∈ s.used) : traceId ∈ s'.used := by
  cases hs with
  | hit | decide => exact List.mem_cons_of_mem _ h
  | _ => exact h

/-- A put is prepared under a new id, and by nothing else. -/
theorem putIds_step (hs : Step env s e s') (h : traceId ∈ s'.putIds) :
    traceId ∈ s.putIds ∨ (traceId ∉ s.used ∧ traceId ∈ s'.used) := by
  cases hs with
  | miss | hit => exact .inl (by simpa [State.putIds, List.filterMap_append] using h)
  | decide d hthreads hdecides hmints =>
    rcases List.mem_filterMap.mp h with ⟨th, hth, hid⟩
    rcases mem_moved hth with rfl | hold
    · cases hid
      exact .inr ⟨hmints.1, List.mem_cons_self⟩
    · exact .inl (List.mem_filterMap.mpr ⟨th, hthreads ▸ hold, hid⟩)
  | put d resp now o hthreads | skip d hthreads =>
    rcases List.mem_filterMap.mp h with ⟨th, hth, hid⟩
    rcases mem_moved hth with rfl | hold
    · cases hid
    · exact .inl (List.mem_filterMap.mpr ⟨th, hthreads ▸ hold, hid⟩)
  | offer t hthreads =>
    rcases List.mem_filterMap.mp h with ⟨th, hth, hid⟩
    exact .inl (List.mem_filterMap.mpr ⟨th, hthreads ▸ mem_done hth, hid⟩)
  | _ => exact .inl h

theorem Past.step (h : Past s traceId) (hs : Step env s e s') : Past s' traceId := by
  refine ⟨used_step hs h.1, fun hput => ?_⟩
  rcases putIds_step hs hput with hold | hnew
  · exact h.2 hold
  · exact hnew.1 h.1

theorem mem_putIds {d : Decision F} (h : .putting d ∈ s.threads) : d.trace.traceId ∈ s.putIds :=
  List.mem_filterMap.mpr ⟨.putting d, h, rfl⟩

/-- A thread puts, and turns to its receipt. -/
structure Puts (s s' : State F) (d : Decision F) : Prop where
  threads : ∃ front back, s.threads = front ++ .putting d :: back ∧
    s'.threads = front ++ .offering d.trace :: back
  used : s'.used = s.used

/-- What enters the store is put by a thread that was to put it. -/
theorem entries_step (hs : Step env s e s') {item : Item F} (h : item ∈ s'.cache.entries) :
    item ∈ s.cache.entries ∨ ∃ d, Puts s s' d ∧ item.2.source = d.trace.traceId := by
  cases hs with
  | put d resp now o hthreads =>
    rcases mem_putByKey h with rfl | hold
    · exact .inr ⟨d, ⟨⟨_, _, hthreads, rfl⟩, rfl⟩, rfl⟩
    · exact .inl hold
  | retract => exact .inl (mem_retract.mp h).1
  | _ => exact .inl h

theorem Puts.mem_putIds {d : Decision F} (h : Puts s s' d) : d.trace.traceId ∈ s.putIds := by
  obtain ⟨front, back, hthreads, -⟩ := h.threads
  exact ResponseCache.mem_putIds (by simp [hthreads])

theorem Gone.step (h : Gone s traceId) (hs : Step env s e s') : Gone s' traceId := by
  refine ⟨h.past.step hs, fun item hitem hsource => ?_⟩
  rcases entries_step hs hitem with hold | ⟨d, hputs, hd⟩
  · exact h.entries item hold hsource
  · exact h.past.2 (hsource ▸ hd ▸ hputs.mem_putIds)

-- ---------------------------------------------------------------------------
-- The puts
-- ---------------------------------------------------------------------------

/-- Every id is put at most once, and what is in the store has been. -/
structure PutOnce (s : State F) : Prop where
  nodup : s.putIds.Nodup
  used : ∀ traceId ∈ s.putIds, traceId ∈ s.used
  entries : ∀ item ∈ s.cache.entries, Past s item.2.source

theorem PutOnce.start (h : s.Fresh env) : PutOnce s where
  nodup := by simp [State.putIds, h.threads]
  used := by simp [State.putIds, h.threads]
  entries := by simp [h.cache]

/-- A thread that has put is past. -/
theorem PutOnce.past (h : PutOnce s) {d : Decision F} (hputs : Puts s s' d) :
    Past s' d.trace.traceId := by
  refine ⟨hputs.used ▸ h.used _ hputs.mem_putIds, ?_⟩
  obtain ⟨front, back, hthreads, hthreads'⟩ := hputs.threads
  have hnodup := h.nodup
  simp only [State.putIds, hthreads, List.filterMap_append, List.filterMap_cons, putId_putting]
    at hnodup
  simp only [State.putIds, hthreads', List.filterMap_append, List.filterMap_cons, putId_offering]
  exact (List.nodup_middle.mp hnodup).notMem

theorem PutOnce.nodup_step (h : PutOnce s) (hs : Step env s e s') : s'.putIds.Nodup := by
  have hnodup := h.nodup
  cases hs with
  | miss | hit => simpa [State.putIds, List.filterMap_cons] using hnodup
  | decide d hthreads hdecides hmints =>
    have hnew : d.trace.traceId ∉ s.putIds := fun hput => hmints.1 (h.used _ hput)
    simp only [State.putIds, hthreads, List.filterMap_append, List.filterMap_cons, putId_routing]
      at hnodup hnew
    simp only [State.putIds, List.filterMap_append, List.filterMap_cons, putId_putting]
    exact List.nodup_middle.mpr (List.nodup_cons.mpr ⟨hnew, hnodup⟩)
  | put d resp now o hthreads | skip d hthreads =>
    simp only [State.putIds, hthreads, List.filterMap_append, List.filterMap_cons, putId_putting]
      at hnodup
    simp only [State.putIds, List.filterMap_append, List.filterMap_cons, putId_offering]
    exact (List.nodup_middle.mp hnodup).of_cons
  | offer t hthreads => simpa [State.putIds, hthreads, List.filterMap_cons] using hnodup
  | _ => exact hnodup

theorem PutOnce.step (h : PutOnce s) (hs : Step env s e s') : PutOnce s' where
  nodup := h.nodup_step hs
  used traceId hput := by
    rcases putIds_step hs hput with hold | hnew
    · exact used_step hs (h.used traceId hold)
    · exact hnew.2
  entries item hitem := by
    rcases entries_step hs hitem with hold | ⟨d, hputs, hd⟩
    · exact (h.entries item hold).step hs
    · exact hd ▸ h.past hputs

-- ---------------------------------------------------------------------------
-- The receipts
-- ---------------------------------------------------------------------------

theorem cacheSource_decision {d : Decision F} (h : env.Decides d) :
    d.trace.final.cacheSource = none := by
  obtain ⟨first, second, health, traceId, ts, stamps, htrace, -⟩ := h
  rw [htrace]
  rfl

/-- A receipt as it is made. -/
structure NewReceipt (env : Env F) (s s' : State F) (t : Trace F) : Prop where
  mints : s.Mints env t.traceId
  used : t.traceId ∈ s'.used
  /-- A replay is of an entry of the store. -/
  source : ∀ source ∈ t.final.cacheSource, ∃ item ∈ s.cache.entries, item.2.source = source

theorem newReceipt_replay {t : Trace F} (experiment : Option (Nat × ExperimentRecord F))
    (hget : env.cache.getByKey s.cache key now = some entry) (hmints : s.Mints env traceId)
    (hused : traceId ∈ s'.used)
    (ht : t = stampReplay experiment (cacheHitTrace ctx entry traceId ts)) :
    NewReceipt env s s' t ∧ t.traceId = traceId := by
  have hid : t.traceId = traceId := by cases experiment <;> rw [ht] <;> rfl
  have hsource : t.final.cacheSource = some entry.source := by cases experiment <;> rw [ht] <;> rfl
  refine ⟨⟨hid ▸ hmints, hid ▸ hused, fun source hs => ?_⟩, hid⟩
  rw [hsource] at hs
  exact ⟨_, mem_of_getByKey hget, Option.some.inj hs⟩

/-- The receipts of a step: at most one is new. -/
theorem receipts_step (hs : Step env s e s') :
    s'.receipts = s.receipts ∨ ∃ t, s'.receipts = s.receipts ++ [t] ∧ NewReceipt env s s' t := by
  cases hs with
  | hit now ts experiment hroute hget hmints ht =>
    exact .inr ⟨_, rfl, (newReceipt_replay experiment hget hmints List.mem_cons_self ht).1⟩
  | decide d hthreads hdecides hmints =>
    refine .inr ⟨_, rfl, hmints, List.mem_cons_self, fun source hsource => ?_⟩
    rw [cacheSource_decision hdecides] at hsource
    cases hsource
  | _ => exact .inl rfl

/-- The receipts have ids of their own, and go back to decisions that are past. -/
structure Filed (env : Env F) (s : State F) : Prop where
  ids : (s.receipts.map Trace.traceId).Nodup
  used : ∀ t ∈ s.receipts, t.traceId ∈ s.used
  canonical : ∀ t ∈ s.receipts, env.parseUuid t.traceId = some t.traceId
  sources : ∀ t ∈ s.receipts, ∀ source ∈ t.final.cacheSource, Past s source

theorem Filed.start (h : s.Fresh env) : Filed env s where
  ids := h.receipts ▸ h.nodup
  used := h.receipts ▸ h.ids
  canonical := h.receipts ▸ h.canonical
  sources t ht source hsource :=
    ⟨h.sources t (h.receipts ▸ ht) source hsource, by simp [State.putIds, h.threads]⟩

theorem Filed.step (h : Filed env s) (hput : PutOnce s) (hs : Step env s e s') :
    Filed env s' := by
  rcases receipts_step hs with heq | ⟨t, heq, hnew⟩
  · refine ⟨heq ▸ h.ids, ?_, heq ▸ h.canonical, ?_⟩
    · exact fun t ht => used_step hs (h.used t (heq ▸ ht))
    · exact fun t ht source hsource => (h.sources t (heq ▸ ht) source hsource).step hs
  · refine ⟨?_, ?_, ?_, ?_⟩
    · rw [heq, List.map_append, List.nodup_append]
      refine ⟨h.ids, List.nodup_singleton _, ?_⟩
      rintro _ hold _ hnew' rfl
      obtain ⟨t', ht', hid⟩ := List.mem_map.mp hold
      rw [List.map_singleton, List.mem_singleton] at hnew'
      exact hnew.mints.1 (hnew' ▸ hid ▸ h.used t' ht')
    all_goals
      rw [heq]
      intro t' ht'
      rcases List.mem_append.mp ht' with hold | hlast
    · exact used_step hs (h.used t' hold)
    · obtain rfl := List.mem_singleton.mp hlast
      exact hnew.used
    · exact h.canonical t' hold
    · obtain rfl := List.mem_singleton.mp hlast
      exact hnew.mints.2
    · exact fun source hsource => (h.sources t' hold source hsource).step hs
    · obtain rfl := List.mem_singleton.mp hlast
      intro source hsource
      obtain ⟨item, hitem, rfl⟩ := hnew.source source hsource
      exact (hput.entries item hitem).step hs

/-- What has left for the writer is filed, and past. -/
structure Sent (s : State F) : Prop where
  putting : ∀ d, .putting d ∈ s.threads → d.trace ∈ s.receipts
  left : ∀ t, s.HasLeft t → t ∈ s.receipts ∧ Past s t.traceId

theorem Sent.start (h : s.Fresh env) : Sent s where
  putting d hd := by simp [h.threads] at hd
  left t ht := by
    have hrow : t ∈ s.rows := by simpa [State.HasLeft, h.threads, h.offered] using ht
    exact ⟨h.receipts ▸ hrow, h.ids t hrow, by simp [State.putIds, h.threads]⟩

theorem receipts_mono (hs : Step env s e s') {t : Trace F} (h : t ∈ s.receipts) :
    t ∈ s'.receipts := by
  rcases receipts_step hs with heq | ⟨t', heq, -⟩
  · exact heq ▸ h
  · exact heq ▸ List.mem_append_left _ h

theorem putting_step (hs : Step env s e s') {d : Decision F} (h : .putting d ∈ s'.threads) :
    .putting d ∈ s.threads ∨ d.trace ∈ s'.receipts := by
  cases hs with
  | miss | hit => exact .inl (by simpa using h)
  | decide d' hthreads hdecides hmints =>
    rcases mem_moved h with hnew | hold
    · cases hnew
      exact .inr (by simp)
    · exact .inl (hthreads ▸ hold)
  | put d' resp now o hthreads | skip d' hthreads =>
    rcases mem_moved h with hnew | hold
    · cases hnew
    · exact .inl (hthreads ▸ hold)
  | offer t hthreads => exact .inl (hthreads ▸ mem_done h)
  | _ => exact .inl h

/-- A receipt sets out when its thread has put, or is made for a replay. -/
theorem left_step (hs : Step env s e s') {t : Trace F} (h : s'.HasLeft t) :
    s.HasLeft t ∨ (∃ d, Puts s s' d ∧ .putting d ∈ s.threads ∧ t = d.trace) ∨
      (NewReceipt env s s' t ∧ t ∈ s'.receipts ∧ s'.putIds = s.putIds) := by
  cases hs with
  | miss => exact .inl (by simpa [State.HasLeft] using h)
  | hit now ts experiment hroute hget hmints ht =>
    rcases h with hoff | hrest
    · rcases List.mem_append.mp hoff with hold | hlast
      · exact .inl (.inl hold)
      · cases List.mem_singleton.mp hlast
        refine .inr (.inr ⟨?_, by simp, by simp [State.putIds, List.filterMap_cons]⟩)
        exact (newReceipt_replay experiment hget hmints List.mem_cons_self ht).1
    · exact .inl (.inr hrest)
  | decide d hthreads =>
    rcases h with hoff | hrest
    · rcases mem_moved hoff with hnew | hold
      · cases hnew
      · exact .inl (.inl (hthreads ▸ hold))
    · exact .inl (.inr hrest)
  | put d resp now o hthreads | skip d hthreads =>
    rcases h with hoff | hrest
    · rcases mem_moved hoff with hnew | hold
      · cases hnew
        exact .inr (.inl ⟨d, ⟨⟨_, _, hthreads, rfl⟩, rfl⟩, by simp [hthreads], rfl⟩)
      · exact .inl (.inl (hthreads ▸ hold))
    · exact .inl (.inr hrest)
  | offer t' hthreads =>
    rcases h with hoff | hoffered | hrow
    · exact .inl (.inl (hthreads ▸ mem_done hoff))
    · rcases List.mem_append.mp hoffered with hold | hlast
      · exact .inl (.inr (.inl hold))
      · cases List.mem_singleton.mp hlast
        exact .inl (.inl (by simp [hthreads]))
    · exact .inl (.inr (.inr hrow))
  | write hoffered =>
    rcases h with hoff | hoff | hrow
    · exact .inl (.inl hoff)
    · exact .inl (.inr (.inl hoff))
    · rcases List.mem_append.mp hrow with hold | hlast
      · exact .inl (.inr (.inr hold))
      · cases List.mem_singleton.mp hlast
        exact .inl (.inr (.inl hoffered))
  | _ => exact .inl h

theorem Sent.step (h : Sent s) (hput : PutOnce s) (hs : Step env s e s') : Sent s' where
  putting d hd := by
    rcases putting_step hs hd with hold | hnew
    · exact receipts_mono hs (h.putting d hold)
    · exact hnew
  left t ht := by
    rcases left_step hs ht with hold | ⟨d, hputs, hd, rfl⟩ | ⟨hnew, hmem, hsame⟩
    · exact ⟨receipts_mono hs (h.left t hold).1, (h.left t hold).2.step hs⟩
    · exact ⟨receipts_mono hs (h.putting d hd), hput.past hputs⟩
    · refine ⟨hmem, hnew.used, fun hid => ?_⟩
      exact hnew.mints.1 (hput.used _ (hsame ▸ hid))

-- ---------------------------------------------------------------------------
-- The reports
-- ---------------------------------------------------------------------------

/-- The traces a failure of `traceId` is about: itself, and the one it is a replay of. -/
def Concerns (s : State F) (traceId source : String) : Prop :=
  source = traceId ∨ ∃ t ∈ s.receipts, t.traceId = traceId ∧ t.final.cacheSource = some source

/-- Where a report stands, as much of what it concerns is gone. -/
def Review.Holds (s : State F) : Review → Prop
  | .checked rep => traceExists s.rows rep.tenant rep.traceId
  | .retracting rep todo => rep.traceId ∈ s.used ∧ (∀ source ∈ todo, Past s source) ∧
      ∀ source, Concerns s rep.traceId source → source ∈ todo ∨ Gone s source
  | .appending rep => rep.verdict = .fail →
      rep.traceId ∈ s.used ∧ ∀ source, Concerns s rep.traceId source → Gone s source

theorem Concerns.before (hs : Step env s e s') (hused : traceId ∈ s.used)
    (h : Concerns s' traceId source) : Concerns s traceId source := by
  rcases h with rfl | ⟨t, ht, rfl, hsource⟩
  · exact .inl rfl
  · refine .inr ⟨t, ?_, rfl, hsource⟩
    rcases receipts_step hs with heq | ⟨t', heq, hnew⟩
    · exact heq ▸ ht
    · rcases List.mem_append.mp (heq ▸ ht) with hold | hlast
      · exact hold
      · obtain rfl := List.mem_singleton.mp hlast
        exact absurd hused hnew.mints.1

theorem rows_step (hs : Step env s e s') : ∃ more, s'.rows = s.rows ++ more := by
  cases hs with
  | write => exact ⟨_, rfl⟩
  | _ => exact ⟨[], (List.append_nil _).symm⟩

theorem traceExists_append {rows more : List (Trace F)} (h : traceExists rows tenant traceId) :
    traceExists (rows ++ more) tenant traceId := by
  unfold traceExists traceRow at h ⊢
  rw [List.find?_append, Option.isSome_or, h]
  rfl

/-- What holds of a review goes on to hold while others take their steps. -/
theorem Review.Holds.step {r : Review} (h : r.Holds s) (hs : Step env s e s') : r.Holds s' := by
  cases r with
  | checked rep =>
    obtain ⟨more, hrows⟩ := rows_step hs
    have hexists : traceExists s'.rows rep.tenant rep.traceId := hrows ▸ traceExists_append h
    exact hexists
  | retracting rep todo =>
    obtain ⟨hused, htodo, hconcerns⟩ := h
    refine ⟨used_step hs hused, fun source hsource => (htodo source hsource).step hs, ?_⟩
    exact fun source hsource => (hconcerns source (hsource.before hs hused)).imp_right (·.step hs)
  | appending rep =>
    intro hfail
    obtain ⟨hused, hgone⟩ := h hfail
    refine ⟨used_step hs hused, fun source hsource => ?_⟩
    exact (hgone source (hsource.before hs hused)).step hs

/-- What a report retracts is what it concerns, and is past. -/
theorem toRetract_spec (hfiled : Filed env s) (hsent : Sent s) {rep : Report}
    (h : traceExists s.rows rep.tenant rep.traceId) :
    (Review.retracting rep (env.toRetract s.rows rep)).Holds s := by
  obtain ⟨t, hrow⟩ := Option.isSome_iff_exists.mp h
  have hid : t.tenantId = rep.tenant ∧ t.traceId = rep.traceId := by
    simpa using List.find?_some hrow
  obtain ⟨hreceipt, hpast⟩ := hsent.left t (.inr (.inr (List.mem_of_find?_eq_some hrow)))
  have hreported : env.parseUuid rep.traceId = some rep.traceId :=
    hid.2 ▸ hfiled.canonical t hreceipt
  have horigin : traceCacheSource s.rows rep.tenant rep.traceId = t.final.cacheSource := by
    simp [traceCacheSource, hrow]
  have hmem : ∀ source, source ∈ env.toRetract s.rows rep ↔
      source = rep.traceId ∨ t.final.cacheSource = some source := by
    intro source
    simp [Env.toRetract, hreported, horigin]
  refine ⟨hid.2 ▸ hpast.1, fun source hsource => ?_, fun source hsource => .inl ?_⟩
  · rcases (hmem source).mp hsource with rfl | hcache
    · exact hid.2 ▸ hpast
    · exact hfiled.sources t hreceipt source hcache
  · rw [hmem]
    rcases hsource with rfl | ⟨t', ht', hsame, hcache⟩
    · exact .inl rfl
    · have heq : t' = t :=
        List.inj_on_of_nodup_map hfiled.ids ht' hreceipt (hsame.trans hid.2.symm)
      exact .inr (heq ▸ hcache)

/-- A retraction leaves nothing of its trace, which is past. -/
theorem gone_retract (h : Past s source) (hcache : s'.cache = retract s.cache source)
    (hthreads : s'.threads = s.threads) (hused : s'.used = s.used) : Gone s' source where
  past := by
    refine ⟨hused ▸ h.1, ?_⟩
    rw [State.putIds, hthreads]
    exact h.2
  entries item hitem := (mem_retract.mp (hcache ▸ hitem)).2

theorem reviews_step (hfiled : Filed env s) (hsent : Sent s) (h : ∀ r ∈ s.reviews, r.Holds s)
    (hs : Step env s e s') : ∀ r ∈ s'.reviews, r.Holds s' := by
  have hkeep : ∀ r ∈ s.reviews, r.Holds s' := fun r hr => (h r hr).step hs
  intro r hr
  cases hs with
  | check hexists =>
    rcases List.mem_append.mp hr with hold | hlast
    · exact hkeep r hold
    · cases List.mem_singleton.mp hlast
      exact hexists
  | reviewFail hreviews hfail =>
    rcases mem_moved hr with rfl | hold
    · have hexists : (Review.checked _).Holds s := h _ (hreviews ▸ List.mem_append_cons_self)
      exact (toRetract_spec hfiled hsent hexists).step (.reviewFail hreviews hfail)
    · exact hkeep r (hreviews ▸ hold)
  | review hreviews hverdict =>
    rcases mem_moved hr with rfl | hold
    · exact fun hfail => absurd hfail hverdict
    · exact hkeep r (hreviews ▸ hold)
  | retract hreviews =>
    rcases mem_moved hr with rfl | hold
    · obtain ⟨hused, htodo, hconcerns⟩ := hkeep _ (hreviews ▸ List.mem_append_cons_self)
      refine ⟨hused, fun source hsource => htodo source (List.mem_cons_of_mem _ hsource), ?_⟩
      intro source hsource
      rcases hconcerns source hsource with hmem | hgone
      · rcases List.mem_cons.mp hmem with rfl | hmem
        · exact .inr (gone_retract (s := s) (htodo _ List.mem_cons_self) rfl rfl rfl)
        · exact .inl hmem
      · exact .inr hgone
    · exact hkeep r (hreviews ▸ hold)
  | retracted hreviews =>
    rcases mem_moved hr with rfl | hold
    · intro hfail
      obtain ⟨hused, htodo, hconcerns⟩ := hkeep _ (hreviews ▸ List.mem_append_cons_self)
      exact ⟨hused, fun source hsource => (hconcerns source hsource).resolve_left (by simp)⟩
    · exact hkeep r (hreviews ▸ hold)
  | accept hreviews => exact hkeep r (hreviews ▸ mem_done hr)
  | _ => exact hkeep r hr

/-- What every state of a run satisfies. -/
structure Settled (env : Env F) (s : State F) : Prop where
  puts : PutOnce s
  filed : Filed env s
  sent : Sent s
  reviews : ∀ r ∈ s.reviews, r.Holds s

theorem Run.settled (h : Run env events s) : Settled env s := by
  induction h with
  | start hfresh =>
    exact ⟨.start hfresh, .start hfresh, .start hfresh, fun r hr => by simp [hfresh.reviews] at hr⟩
  | step _ hs ih =>
    exact ⟨ih.puts.step hs, ih.filed.step ih.puts hs, ih.sent.step ih.puts hs,
      reviews_step ih.filed ih.sent ih.reviews hs⟩

/-- The states that a run goes on to. -/
def Reaches (env : Env F) : State F → State F → Prop :=
  Relation.ReflTransGen fun s s' => ∃ e, Step env s e s'

theorem Gone.reaches (h : Gone s traceId) (hlater : Reaches env s s') : Gone s' traceId := by
  induction hlater with
  | refl => exact h
  | tail _ hs ih =>
    obtain ⟨e, hs⟩ := hs
    exact ih.step hs

/-- Once a failure is accepted, no lookup returns what its trace proved, nor what the trace it
is a replay of did. -/
theorem failure_retracts (hrun : Run env events s) (haccept : Step env s (.accept rep) s')
    (hfail : rep.verdict = .fail) (hconcerns : Concerns s rep.traceId source)
    (hlater : Reaches env s' s'') (hget : env.cache.getByKey s''.cache key now = some entry) :
    entry.source ≠ source := by
  have hgone : Gone s source := by
    cases haccept with
    | accept hreviews =>
      exact (hrun.settled.reviews _ (hreviews ▸ List.mem_append_cons_self) hfail).2 source hconcerns
  exact ((hgone.step haccept).reaches hlater).entries _ (mem_of_getByKey hget)

/-- The receipt of the second request. -/
def sampleReplay (resp : ModelResponse) : Trace ℚ :=
  cacheHitTrace (sampleEnv.ctx (sampleRequest "chat") sampleDecision.route)
    (.new resp sampleDecision.trace 0) "b" "now"

def sampleFailure : Report := ⟨"t", "b", .fail⟩

def filedState (resp : ModelResponse) : State ℚ :=
  { putState resp with
    offered := [sampleReplay resp]
    rows := [sampleReplay resp]
    used := ["b", sampleDecision.trace.traceId]
    receipts := [sampleDecision.trace, sampleReplay resp] }

def reviewing (resp : ModelResponse) (cache : Entries ℚ) (r : Review) : State ℚ :=
  { filedState resp with cache, reviews := [r] }

/-- The report on the replay has retracted it, and the decision it goes back to. -/
def retractedState (resp : ModelResponse) : State ℚ :=
  reviewing resp (retract (retract (putState resp).cache "b") "a") (.appending sampleFailure)

theorem sample_retracted (hresp : sampleDecision.answer = some resp) :
    ∃ events, Run sampleEnv events (retractedState resp) := by
  have hlive : sampleEnv.cache.live 0 (Entry.new resp sampleDecision.trace 0) = true := rfl
  have hget : sampleEnv.cache.getByKey (putState resp).cache
      (sampleEnv.key sampleDecision.req sampleDecision.route) 0 =
      some (.new resp sampleDecision.trace 0) := by
    rw [← key_decision sample_decides]
    exact getByKey_putByKey hlive
  have hmints : (putState resp).Mints sampleEnv "b" := ⟨show "b" ∉ ["a"] by decide, rfl⟩
  have hhit := (sample_put hresp).step (.hit 0 "now" none rfl hget hmints rfl)
  have hoffer := hhit.step (.offer (sampleReplay resp) rfl)
  have hwrite : Run sampleEnv _ (filedState resp) := hoffer.step (.write List.mem_cons_self)
  have hexists : traceExists (filedState resp).rows sampleFailure.tenant sampleFailure.traceId :=
    rfl
  have hone (cache : Entries ℚ) (r : Review) :
      (reviewing resp cache r).reviews = [] ++ r :: [] := rfl
  let cache := (putState resp).cache
  have hcheck : Run sampleEnv _ (reviewing resp cache (.checked sampleFailure)) :=
    hwrite.step (.check hexists)
  have hreview := hcheck.step (.reviewFail (hone _ _) rfl)
  have hreported : Run sampleEnv _ (reviewing resp (retract cache "b")
      (.retracting sampleFailure ["a"])) := hreview.step (.retract (hone _ _))
  have horigin : Run sampleEnv _ (reviewing resp (retract (retract cache "b") "a")
      (.retracting sampleFailure [])) := hreported.step (.retract (hone _ _))
  exact ⟨_, horigin.step (.retracted (hone _ _))⟩

/-- A failure of the replay is accepted, and the first decision is not replayed again. -/
theorem failure_retracts_sample :
    ∃ resp s', Step sampleEnv (retractedState resp) (.accept sampleFailure) s' ∧
      ∀ key now entry, sampleEnv.cache.getByKey s'.cache key now = some entry →
        entry.source ≠ sampleDecision.trace.traceId := by
  obtain ⟨resp, hresp⟩ : ∃ resp, sampleDecision.answer = some resp :=
    Option.isSome_iff_exists.mp (by decide +kernel)
  obtain ⟨events, hrun⟩ := sample_retracted hresp
  have hone : (retractedState resp).reviews = [] ++ .appending sampleFailure :: [] := rfl
  have haccept : Step sampleEnv (retractedState resp) (.accept sampleFailure) _ := .accept hone
  have hreplay : Concerns (retractedState resp) sampleFailure.traceId
      sampleDecision.trace.traceId :=
    .inr ⟨sampleReplay resp, List.mem_cons_of_mem _ List.mem_cons_self, rfl, rfl⟩
  refine ⟨resp, _, haccept, fun key now entry hlookup => ?_⟩
  exact failure_retracts hrun haccept rfl hreplay .refl hlookup

end Firstpass.ResponseCache
