import Firstpass.Proxy.CacheStore

/-!
# The store over a run

However puts, gets and retractions follow one another, the store keeps to its bound, and what
is found is the last answer put under its key, not retracted since.
-/

namespace Firstpass.ResponseCache

variable {F : Type}

-- ---------------------------------------------------------------------------
-- Runs
-- ---------------------------------------------------------------------------

/-- A call of the store. A put goes by what its entry says of the source and the time. -/
inductive Call (F : Type)
  | put (key source : String) (entry : Entry F) (now : Instant)
  | get (key : String) (now : Instant)
  | retract (source : String)

namespace VerifiedCache

variable (c : VerifiedCache)

def call (o : Iteration F) (entries : Entries F) : Call F → Entries F
  | .put key _ entry _ => c.putByKey o entries key entry
  | .get _ _ => entries
  | .retract source => ResponseCache.retract entries source

/-- The calls on an empty store, each with the order it iterates the map in. -/
def run (calls : List (Call F × Iteration F)) : Entries F :=
  calls.foldl (fun entries (call, o) => c.call o entries call) ∅

end VerifiedCache

/-- The answer was put under the key, and since then neither replaced nor retracted. -/
def Standing (calls : List (Call F)) (key : String) (entry : Entry F) : Prop :=
  ∃ before source now after, calls = before ++ .put key source entry now :: after ∧
    .retract entry.source ∉ after ∧
    ∀ source' entry' now', .put key source' entry' now' ∉ after

/-- What stands after a retraction of its source was put after it. -/
theorem Standing.put_after_retract {calls later : List (Call F)} {key : String} {entry : Entry F}
    (h : Standing (calls ++ .retract entry.source :: later) key entry) :
    ∃ source now, .put key source entry now ∈ later := by
  obtain ⟨before, source, now, after, heq, hretract, -⟩ := h
  rcases List.append_eq_append_iff.mp heq with ⟨mid, rfl, hmid⟩ | ⟨mid, rfl, hmid⟩
  · cases mid with
    | nil => cases hmid
    | cons first mid =>
      cases hmid
      exact ⟨source, now, by simp⟩
  · cases mid with
    | nil => cases hmid
    | cons first mid =>
      cases hmid
      simp at hretract

-- ---------------------------------------------------------------------------
-- One call
-- ---------------------------------------------------------------------------

namespace VerifiedCache

variable {c : VerifiedCache} {o : Iteration F} {entries : Entries F} {item : Item F}

theorem run_concat (calls : List (Call F × Iteration F)) (call : Call F) (o : Iteration F) :
    c.run (calls ++ [(call, o)]) = c.call o (c.run calls) call := by
  simp [run]

/-- An eviction of a full map takes at least one of its keys. -/
theorem oldest_evicts (hmax : 1 ≤ c.maxEntries) (hfull : c.maxEntries ≤ entries.entries.length) :
    (entries.eraseAll (c.oldest o entries)).entries.length < entries.entries.length := by
  have hperm : (oldestFirst (o.order entries.entries)).Perm entries.entries :=
    (List.perm_insertionSort _ _).trans (o.perm _)
  cases hsorted : oldestFirst (o.order entries.entries) with
  | nil =>
    have hlen := hperm.length_eq
    rw [hsorted, List.length_nil] at hlen
    omega
  | cons first rest =>
    have hfirst : first ∈ entries.entries := hperm.subset (hsorted ▸ List.mem_cons_self)
    have htake : max c.maxEntries 2 / 2 = (max c.maxEntries 2 / 2 - 1) + 1 := by omega
    refine AList.length_eraseAll_lt (a := first.1) ?_ (List.mem_map_of_mem hfirst)
    rw [oldest, hsorted, htake, List.take_succ_cons, List.map_cons]
    exact List.mem_cons_self

theorem length_putByKey_le (hmax : 1 ≤ c.maxEntries)
    (hbound : entries.entries.length ≤ c.maxEntries) (key : String) (entry : Entry F) :
    (c.putByKey o entries key entry).entries.length ≤ c.maxEntries := by
  have hretain : (entries.retain fun e => c.live entry.stored e.2).entries.length ≤
      entries.entries.length := List.length_filter_le _ _
  refine (AList.length_insert_le _ _ _).trans ?_
  dsimp only
  split_ifs with hfull hstill
  · have hevicts := oldest_evicts (o := o) hmax hstill
    omega
  · exact not_le.mp hstill
  · exact not_le.mp hfull

/-- What was under the key is replaced. -/
theorem mem_putByKey_iff_of_key {key : String} {entry : Entry F}
    (h : item ∈ (c.putByKey o entries key entry).entries) (hkey : item.1 = key) :
    item = ⟨key, entry⟩ := by
  obtain ⟨key', old⟩ := item
  cases hkey
  have hlookup := AList.mem_lookup_iff.mpr h
  rw [putByKey, AList.lookup_insert] at hlookup
  cases hlookup
  rfl

theorem length_call_le (hmax : 1 ≤ c.maxEntries) (hbound : entries.entries.length ≤ c.maxEntries)
    (call : Call F) : (c.call o entries call).entries.length ≤ c.maxEntries := by
  cases call with
  | put key source entry now => exact length_putByKey_le hmax hbound key entry
  | get key now => exact hbound
  | retract source => exact (List.length_filter_le _ _).trans hbound

theorem standing_call {calls : List (Call F)}
    (h : ∀ item ∈ entries.entries, Standing calls item.1 item.2) (call : Call F) :
    ∀ item ∈ (c.call o entries call).entries, Standing (calls ++ [call]) item.1 item.2 := by
  intro item hitem
  -- an older answer stays standing where this call neither replaces nor retracts it
  have hkeep (hold : item ∈ entries.entries) (hretract : call ≠ .retract item.2.source)
      (hput : ∀ source entry now, call ≠ .put item.1 source entry now) :
      Standing (calls ++ [call]) item.1 item.2 := by
    obtain ⟨before, source, now, after, rfl, hnoretract, hnoput⟩ := h item hold
    refine ⟨before, source, now, after ++ [call], by simp, ?_, fun source' entry' now' => ?_⟩
    · simpa using ⟨hnoretract, hretract.symm⟩
    · simpa using ⟨hnoput source' entry' now', (hput source' entry' now').symm⟩
  cases call with
  | put key source entry now =>
    by_cases hkey : item.1 = key
    · obtain rfl := mem_putByKey_iff_of_key hitem hkey
      exact ⟨calls, source, now, [], rfl, by simp, by simp⟩
    · rcases mem_putByKey hitem with rfl | hold
      · exact absurd rfl hkey
      · refine hkeep hold (by simp) fun source' entry' now' heq => hkey ?_
        cases heq
        rfl
  | get key now => exact hkeep hitem (by simp) (by simp)
  | retract source =>
    obtain ⟨hold, hsource⟩ := mem_retract.mp hitem
    refine hkeep hold (fun heq => hsource ?_) (by simp)
    cases heq
    rfl

-- ---------------------------------------------------------------------------
-- Whole runs
-- ---------------------------------------------------------------------------

theorem length_run_le (hmax : 1 ≤ c.maxEntries) (calls : List (Call F × Iteration F)) :
    (c.run calls).entries.length ≤ c.maxEntries := by
  induction calls using List.reverseRecOn with
  | nil => exact Nat.zero_le _
  | append_singleton calls next ih =>
    obtain ⟨call, o⟩ := next
    rw [run_concat]
    exact length_call_le hmax ih call

theorem standing_run (calls : List (Call F × Iteration F)) :
    ∀ item ∈ (c.run calls).entries, Standing (calls.map Prod.fst) item.1 item.2 := by
  induction calls using List.reverseRecOn with
  | nil => rintro item ⟨⟩
  | append_singleton calls next ih =>
    obtain ⟨call, o⟩ := next
    rw [run_concat, List.map_append]
    exact standing_call ih call

/-- The store never holds more than its bound. A get finds only what was put under that very
key, is not expired and has been neither replaced nor retracted since. A retraction removes the
answers of its source and no others, and only a later put brings one back. -/
theorem cache_bounded (c : VerifiedCache) (hmax : 1 ≤ c.maxEntries)
    (calls : List (Call F × Iteration F)) :
    (c.run calls).entries.length ≤ c.maxEntries ∧
    (∀ key now entry, c.getByKey (c.run calls) key now = some entry →
      now - entry.stored < c.ttl ∧ Standing (calls.map Prod.fst) key entry) ∧
    (∀ source o item, item ∈ (c.run (calls ++ [(.retract source, o)])).entries ↔
      item ∈ (c.run calls).entries ∧ item.2.source ≠ source) ∧
    ∀ source o later key now entry,
      c.getByKey (c.run (calls ++ (.retract source, o) :: later)) key now = some entry →
      entry.source = source → ∃ source' now', .put key source' entry now' ∈ later.map Prod.fst := by
  refine ⟨length_run_le hmax calls, fun key now entry hget => ?_, fun source o item => ?_, ?_⟩
  · obtain ⟨-, hlive⟩ := Option.filter_eq_some_iff.mp hget
    exact ⟨by simpa [live] using hlive, standing_run calls _ (mem_of_getByKey hget)⟩
  · rw [run_concat]
    exact mem_retract
  · rintro source o later key now entry hget rfl
    have hstanding := standing_run _ _ (mem_of_getByKey hget)
    rw [List.map_append, List.map_cons] at hstanding
    exact hstanding.put_after_retract

def inPlace : Iteration ℚ := ⟨id, List.Perm.refl⟩

def proven (source : String) (stored : Instant) : Entry ℚ :=
  ⟨⟨"acme/large", "ok", 1, 0, 0, 1, .null⟩, source, 1, stored⟩

/-- A store of one answer, and two puts. -/
def twoPuts : List (Call ℚ × Iteration ℚ) :=
  [(.put "k" "a" (proven "a" 1) 1, inPlace), (.put "j" "b" (proven "b" 2) 2, inPlace)]

theorem cache_bounded_one :
    (run ⟨900, 1⟩ twoPuts).entries.length ≤ 1 ∧
    (3 - (proven "b" 2).stored < 900 ∧ Standing (twoPuts.map Prod.fst) "j" (proven "b" 2)) ∧
    (⟨"j", proven "b" 2⟩ ∈ (run ⟨900, 1⟩ (twoPuts ++ [(.retract "b", inPlace)])).entries ↔
      ⟨"j", proven "b" 2⟩ ∈ (run ⟨900, 1⟩ twoPuts).entries ∧ (proven "b" 2).source ≠ "b") := by
  obtain ⟨hbound, hget, hretract, -⟩ := cache_bounded ⟨900, 1⟩ (by decide) twoPuts
  exact ⟨hbound, hget "j" 3 (proven "b" 2) (by rfl), hretract "b" inPlace ⟨"j", proven "b" 2⟩⟩

end VerifiedCache

end Firstpass.ResponseCache
