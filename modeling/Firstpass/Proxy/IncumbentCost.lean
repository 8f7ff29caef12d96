import Firstpass.Proxy.Credits

/-!
# The cost of the incumbent

Of a trace's receipt an entry is credited with the incumbent's cost when it is served, and
again at startup, when the entry remembers the trace. Of a record it is credited unless
the record is its own or names a trace that it remembers.
-/

namespace Firstpass.Monitor

open Select

variable {F : Type} [Field F] [LinearOrder F]

/-- An incumbent's receipt of the site, whatever its fingerprint. -/
def Receipt.isIncumbent (site : Site F) (t : Receipt F) : Bool :=
  match t.experiment with
  | none => false
  | some rec => decide (rec.arm = .incumbent ∧ site.IsAt t.tenantId t.route)

theorem remember_isIncumbent (site : Site F) (e : Entry F) (t : Receipt F) :
    e.remember site t = if t.isIncumbent site then e.rememberCosted t.traceId else e := by
  rw [Entry.remember, Receipt.isIncumbent]
  cases t.experiment with
  | none => rfl
  | some rec => simp only [decide_eq_true_eq]

theorem incumbent_credits_le (site : Site F) (t : Receipt F) (traceId : Uuid) :
    costsOf .incumbent traceId (t.credits site) ≤
      if t.isIncumbent site ∧ t.traceId = traceId then 1 else 0 := by
  rw [Receipt.credits, Receipt.isIncumbent]
  cases t.experiment with
  | none => exact Nat.zero_le _
  | some rec =>
    by_cases hsite : site.IsAt t.tenantId t.route
    · by_cases hfp : rec.fingerprint = site.fingerprint
      · simp [costsOf, Credit.isCostOf, List.countP_cons, hsite, hfp]
      · simp [costsOf, hfp]
    · simp [costsOf, hsite]

theorem incumbent_localPairCredits (e : Entry F) (x y usd : F) (id traceId : Uuid) :
    costsOf .incumbent traceId (e.localPairCredits x y usd id) = 0 := by
  rw [Entry.localPairCredits]
  split
  · rfl
  · exact incumbent_pairCredits x y usd id traceId

theorem incumbent_voteCredits (sessionHash : String → UInt64) (site : Site F)
    (traces : List (Receipt F)) (e : Entry F) (o : Uuid × Verdict) (traceId : Uuid) :
    costsOf .incumbent traceId (e.voteCredits sessionHash site traces o) = 0 := by
  rw [Entry.voteCredits]
  split
  · rfl
  · exact costsOf_outcomeCredits ..

theorem incumbent_rowCredits (site : Site F) (e : Entry F) (row : ExperimentPairRow F)
    (traceId : Uuid) : costsOf .incumbent traceId (e.rowCredits site row) = 0 := by
  rw [Entry.rowCredits]
  split
  · exact incumbent_pairCredits ..
  · rfl

theorem incumbent_localCredits (d : Deployment F) (e : Entry F) {l : Local F}
    (hl : ∀ t, l ≠ .tally (.serve t)) (traceId : Uuid) :
    costsOf .incumbent traceId (e.localCredits d l) = 0 := by
  cases l with
  | tally t =>
    cases t with
    | serve t => exact absurd rfl (hl t)
    | health chError chTruncated => rfl
  | pair x y usd id => exact incumbent_localPairCredits e x y usd id traceId
  | outcome arm sessionId verdict =>
    simp only [Entry.localCredits]
    split
    · rfl
    · exact costsOf_outcomeCredits ..

/-- Only a record of another replica is credited with an incumbent's cost, and only if the
trace is not among those whose cost was counted from a receipt. -/
theorem incumbent_logCredits (e : Entry F) (replicaId : Uuid) (record : Option (LogRecord F))
    {traceId : Uuid} (hid : traceId ≠ Uuid.nil) :
    costsOf .incumbent traceId (e.logCredits replicaId record) = 0 ∨
    costsOf .incumbent traceId (e.logCredits replicaId record) = 1 ∧
      ∃ r, record = some (.pair r) ∧ r.incumbentTraceId = traceId ∧ r.replicaId ≠ replicaId ∧
        traceId ∉ e.locallyCosted := by
  cases record with
  | none => exact .inl rfl
  | some record =>
    cases record with
    | outcome arm x key usd => exact .inl (costsOf_outcomeCredits ..)
    | pair r =>
      rw [Entry.logCredits, costsOf_append, incumbent_localPairCredits, Nat.zero_add]
      split
      · exact .inl rfl
      · next hnew =>
        rw [Entry.remoteCredits]
        split
        · exact .inl rfl
        · next hcosted =>
          by_cases hsame : r.incumbentTraceId = traceId
          · subst hsame
            refine .inr ⟨?_, r, rfl, rfl, fun hown => hnew (.inr hown),
              fun hmem => hcosted ⟨hid, hmem⟩⟩
            simp [costsOf, Credit.isCostOf]
          · exact .inl (by simp [costsOf, Credit.isCostOf, hsame])

-- ---------------------------------------------------------------------------
-- The traces whose cost was counted from a receipt
-- ---------------------------------------------------------------------------

theorem locallyCosted_serve (site : Site F) (e : Entry F) (t : Receipt F) :
    (e.serve site t).locallyCosted = e.locallyCosted := by
  obtain ⟨f, g, h, -, heq⟩ := serve_eq site t
  rw [heq]
  rfl

theorem locallyCosted_applyLocal (d : Deployment F) (e : Entry F) (l : Local F) :
    (e.applyLocal d l).locallyCosted = e.locallyCosted := by
  cases l with
  | tally t =>
    cases t with
    | serve t => exact locallyCosted_serve d.site e t
    | health chError chTruncated =>
      exact (Blind.tallyHealth .challenger chError chTruncated).locallyCosted e
  | pair x y usd id => exact locallyCosted_applyPairLocally e x y usd id
  | outcome arm sessionId verdict =>
    simp only [Entry.applyLocal]
    split
    · rfl
    · exact (Blind.observeOutcome _ _ _).locallyCosted e

theorem locallyCosted_applyLogPair (e : Entry F) (replicaId : Uuid) (r : PairRecord F) :
    (e.applyLogPair replicaId r).locallyCosted = e.locallyCosted ∨
      (e.applyLogPair replicaId r).locallyCosted = e.locallyCosted.erase r.incumbentTraceId := by
  rw [applyLogPair_eq]
  split
  · exact .inl (locallyCosted_applyPairLocally ..)
  · rw [Entry.tallyRemote, (Blind.tallyHealth .challenger r.chError r.chTruncated).locallyCosted,
      ← locallyCosted_applyPairLocally e r.xInc r.xCh r.challengerCostUsd r.traceId]
    split
    · exact .inr rfl
    · exact .inl rfl

/-- Reading a record takes out the trace that it names, and no other. -/
theorem locallyCosted_consume (e : Entry F) (replicaId : Uuid) (n : Nat)
    (record : Option (LogRecord F)) :
    (e.consume replicaId n record).locallyCosted = e.locallyCosted ∨
    ∃ r, record = some (.pair r) ∧
      (e.consume replicaId n record).locallyCosted = e.locallyCosted.erase r.incumbentTraceId := by
  cases record with
  | none => exact .inl rfl
  | some record =>
    cases record with
    | outcome arm x key usd => exact .inl ((Blind.applyLogOutcome arm x key).locallyCosted e)
    | pair r =>
      refine (locallyCosted_applyLogPair e replicaId r).imp id fun herase => ⟨r, rfl, herase⟩

-- ---------------------------------------------------------------------------
-- Startup
-- ---------------------------------------------------------------------------

omit [Field F] [LinearOrder F] in
theorem costsOf_feed_le {α : Type} {arm : Arm} {traceId : Uuid}
    {credits : Entry F → α → List (Credit F)} {p : α → Bool}
    (hp : ∀ e x, costsOf arm traceId (credits e x) ≤ if p x then 1 else 0)
    (f : Entry F → α → Entry F) (a : Account F) (xs : List α) :
    costsOf arm traceId (a.feed credits f xs).ledger ≤
      costsOf arm traceId a.ledger + xs.countP p := by
  induction xs generalizing a with
  | nil => exact le_rfl
  | cons x xs ih =>
    have hx := hp a.entry x
    refine (ih (a.credit (credits a.entry x) (f a.entry x))).trans ?_
    rw [Account.credit, costsOf_append, List.countP_cons]
    omega

omit [Field F] [LinearOrder F] in
theorem costsOf_feed_zero {α : Type} {arm : Arm} {traceId : Uuid}
    {credits : Entry F → α → List (Credit F)}
    (hzero : ∀ e x, costsOf arm traceId (credits e x) = 0)
    (f : Entry F → α → Entry F) (a : Account F) (xs : List α) :
    costsOf arm traceId (a.feed credits f xs).ledger = costsOf arm traceId a.ledger := by
  refine foldl_frame (fun a => costsOf arm traceId a.ledger) (fun a x => ?_) xs a
  rw [Account.credit, costsOf_append, hzero, Nat.add_zero]

theorem incumbent_bootAccount_le (d : Deployment F) (b : Boot F) (traceId : Uuid) :
    costsOf .incumbent traceId (bootAccount d b).ledger ≤
      b.traces.countP fun t => t.isIncumbent d.site ∧ t.traceId = traceId := by
  rw [bootAccount, costsOf_feed_zero fun e row => incumbent_rowCredits d.site e row traceId,
    costsOf_feed_zero fun e o => incumbent_voteCredits d.sessionHash d.site b.traces e o traceId]
  refine (costsOf_feed_le (fun e t => ?_) _ _ b.traces).trans (Nat.zero_add _).le
  simpa only [decide_eq_true_eq] using incumbent_credits_le d.site t traceId

theorem locallyCosted_replayOutcome (sessionHash : String → UInt64) (site : Site F)
    (traces : List (Receipt F)) (e : Entry F) (o : Uuid × Verdict) :
    (e.replayOutcome sessionHash site traces o).locallyCosted = e.locallyCosted := by
  simp only [Entry.replayOutcome, Entry.feedback]
  repeat' split
  all_goals first | rfl | exact (Blind.observeOutcome _ _ _).locallyCosted e

theorem locallyCosted_replayRow (site : Site F) (e : Entry F) (row : ExperimentPairRow F) :
    (e.replayRow site row).locallyCosted = e.locallyCosted := by
  simp only [Entry.replayRow]
  split_ifs
  · exact (Blind.replayPair row).locallyCosted e
  · rfl
  · rfl

def Entry.replayTrace (site : Site F) (e : Entry F) (t : Receipt F) : Entry F :=
  (e.serve site t).remember site t

theorem locallyCosted_bootEntry (d : Deployment F) (b : Boot F) :
    (bootEntry d b).locallyCosted =
      (b.traces.foldl (Entry.replayTrace d.site) (.new d.site.params)).locallyCosted := by
  rw [bootEntry_eq, Entry.replay,
    foldl_frame Entry.locallyCosted fun e row => locallyCosted_replayRow d.site e row,
    foldl_frame Entry.locallyCosted fun e o =>
      locallyCosted_replayOutcome d.sessionHash d.site b.traces e o]
  rfl

/-- A trace is remembered while there is room. -/
theorem locallyCosted_replayTrace (site : Site F) (e : Entry F) (t : Receipt F) :
    (e.replayTrace site t).locallyCosted =
      if t.isIncumbent site ∧ e.locallyCosted.card < maxTrackedSessions then
        insert t.traceId e.locallyCosted
      else e.locallyCosted := by
  rw [Entry.replayTrace, remember_isIncumbent, Entry.rememberCosted, locallyCosted_serve]
  by_cases hinc : t.isIncumbent site = true
  · by_cases hroom : e.locallyCosted.card < maxTrackedSessions
    · simp only [hinc, hroom, and_self, if_true]
    · simp only [hinc, hroom, and_false, if_true, if_false, locallyCosted_serve]
  · rw [if_neg hinc, if_neg fun h => hinc h.1, locallyCosted_serve]

theorem subset_replayTrace (site : Site F) (e : Entry F) (t : Receipt F) :
    e.locallyCosted ⊆ (e.replayTrace site t).locallyCosted := by
  rw [locallyCosted_replayTrace]
  split
  · exact Finset.subset_insert t.traceId e.locallyCosted
  · exact Finset.Subset.refl _

theorem subset_foldl_replayTrace (site : Site F) (traces : List (Receipt F)) (e : Entry F) :
    e.locallyCosted ⊆ (traces.foldl (Entry.replayTrace site) e).locallyCosted := by
  induction traces generalizing e with
  | nil => exact Finset.Subset.refl _
  | cons t traces ih => exact (subset_replayTrace site e t).trans (ih _)

/-- The first receipts of incumbents are remembered, as many as there is room for. -/
theorem mem_foldl_replayTrace (site : Site F) {traces : List (Receipt F)} {e : Entry F}
    {t : Receipt F} (ht : t ∈ (traces.filter (·.isIncumbent site)).take
      (maxTrackedSessions - e.locallyCosted.card)) :
    t.traceId ∈ (traces.foldl (Entry.replayTrace site) e).locallyCosted := by
  induction traces generalizing e with
  | nil => simp at ht
  | cons u traces ih =>
    rw [List.foldl_cons]
    by_cases hinc : u.isIncumbent site = true
    · rw [List.filter_cons_of_pos hinc] at ht
      by_cases hroom : e.locallyCosted.card < maxTrackedSessions
      · obtain ⟨n, hn⟩ : ∃ n, maxTrackedSessions - e.locallyCosted.card = n + 1 :=
          ⟨_, (Nat.succ_pred (Nat.sub_ne_zero_of_lt hroom)).symm⟩
        have hcosted := locallyCosted_replayTrace site e u
        rw [if_pos ⟨hinc, hroom⟩] at hcosted
        rw [hn, List.take_succ_cons] at ht
        rcases List.mem_cons.mp ht with rfl | ht
        · exact subset_foldl_replayTrace site traces _
            (hcosted ▸ Finset.mem_insert_self t.traceId e.locallyCosted)
        · refine ih (List.take_subset_take_left _ ?_ ht)
          have hcard := Finset.card_insert_le u.traceId e.locallyCosted
          rw [hcosted]
          omega
      · rw [Nat.sub_eq_zero_of_le (Nat.le_of_not_lt hroom), List.take_zero] at ht
        cases ht
    · have hsame : (e.replayTrace site u).locallyCosted = e.locallyCosted := by
        rw [locallyCosted_replayTrace, if_neg fun h => hinc h.1]
      rw [List.filter_cons_of_neg hinc] at ht
      exact ih (hsame ▸ ht)

theorem of_mem_foldl_replayTrace (site : Site F) {traces : List (Receipt F)} {e : Entry F}
    {traceId : Uuid} (h : traceId ∈ (traces.foldl (Entry.replayTrace site) e).locallyCosted) :
    traceId ∈ e.locallyCosted ∨ ∃ t ∈ traces, t.traceId = traceId := by
  induction traces generalizing e with
  | nil => exact .inl h
  | cons u traces ih =>
    rcases ih h with h | ⟨t, ht, hid⟩
    · rw [locallyCosted_replayTrace] at h
      split at h
      · rcases Finset.mem_insert.mp h with h | h
        · exact .inr ⟨u, List.mem_cons_self, h.symm⟩
        · exact .inl h
      · exact .inl h
    · exact .inr ⟨t, List.mem_cons_of_mem u ht, hid⟩

/-- Startup finds at most one receipt of the trace, and remembers it if it is an incumbent's. -/
def Boot.Remembers (d : Deployment F) (b : Boot F) (traceId : Uuid) : Prop :=
  b.traces.countP (·.traceId = traceId) ≤ 1 ∧
    ∀ t ∈ b.traces.filter (·.isIncumbent d.site), t.traceId = traceId →
      t ∈ (b.traces.filter (·.isIncumbent d.site)).take maxTrackedSessions

/-- What startup counts of a trace it counts once, and remembers. -/
theorem Boot.Remembers.boot {d : Deployment F} {b : Boot F} {traceId : Uuid}
    (h : b.Remembers d traceId) :
    costsOf .incumbent traceId (bootAccount d b).ledger ≤ 1 ∧
      (0 < costsOf .incumbent traceId (bootAccount d b).ledger →
        traceId ∈ (bootEntry d b).locallyCosted) := by
  have hle := incumbent_bootAccount_le d b traceId
  refine ⟨hle.trans (le_trans (List.countP_mono_left fun t _ ht => ?_) h.1), fun hpos => ?_⟩
  · exact decide_eq_true (of_decide_eq_true ht).2
  obtain ⟨t, ht, hp⟩ := List.countP_pos_iff.mp (hpos.trans_le hle)
  obtain ⟨hinc, rfl⟩ := of_decide_eq_true hp
  rw [locallyCosted_bootEntry]
  refine mem_foldl_replayTrace d.site ?_
  exact h.2 t (List.mem_filter.mpr ⟨ht, hinc⟩) rfl

end Firstpass.Monitor
