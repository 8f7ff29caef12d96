import Firstpass.Lib.MapEviction
import Firstpass.Proxy.VerifiedCache

/-!
# The store of verified answers

The in-process store: a map of bounded size, from a key to an answer and the decision that
proved it. What a lookup returns was put under its key, and a put brings one entry.

The map is iterated in an arbitrary order. Left out: the shared store, and a poisoned lock,
which no call here can leave.
-/

namespace Firstpass.ResponseCache

variable {F : Type}

/-- A monotonic time. -/
abbrev Instant := Nat

/-- An answer that passed, kept for replay. -/
structure Entry (F : Type) where
  response : ModelResponse
  /-- The decision that proved it. -/
  source : String
  originalCostUsd : F
  stored : Instant

def Entry.new [F64 F] (response : ModelResponse) (trace : Trace F) (now : Instant) : Entry F :=
  ⟨response, trace.traceId, trace.final.totalCostUsd, now⟩

/-- `key` -/
def composeKey (tenant promptHash : String) (ladder : List String) : String :=
  tenant ++ "|" ++ promptHash ++ "|" ++ ">".intercalate ladder

abbrev Entries (F : Type) := AList fun _ : String => Entry F

abbrev Item (F : Type) := Σ _ : String, Entry F

/-- The order a map is iterated in. -/
structure Iteration (F : Type) where
  order : List (Item F) → List (Item F)
  perm : ∀ items, (order items).Perm items

def oldestFirst (items : List (Item F)) : List (Item F) :=
  items.insertionSort fun a b => a.2.stored ≤ b.2.stored

structure VerifiedCache where
  ttl : Nat
  maxEntries : Nat

namespace VerifiedCache

variable (c : VerifiedCache) (o : Iteration F)

def live (now : Instant) (e : Entry F) : Bool := now - e.stored < c.ttl

def getByKey (entries : Entries F) (key : String) (now : Instant) : Option (Entry F) :=
  (entries.lookup key).filter (c.live now)

/-- The keys an eviction takes from a map that is still full without its expired entries. -/
def oldest (entries : Entries F) : List String :=
  ((oldestFirst (o.order entries.entries)).take (max c.maxEntries 2 / 2)).map Sigma.fst

def putByKey (entries : Entries F) (key : String) (entry : Entry F) : Entries F :=
  let entries :=
    if c.maxEntries ≤ entries.entries.length then
      let entries := entries.retain fun e => c.live entry.stored e.2
      if c.maxEntries ≤ entries.entries.length then entries.eraseAll (c.oldest o entries)
      else entries
    else entries
  entries.insert key entry

end VerifiedCache

/-- Drop every entry proven by `source`. -/
def retract (entries : Entries F) (source : String) : Entries F :=
  entries.retain fun e => e.2.source ≠ source

-- ---------------------------------------------------------------------------
-- Where the entries come from
-- ---------------------------------------------------------------------------

variable {c : VerifiedCache} {o : Iteration F} {entries : Entries F} {key : String}
  {entry : Entry F}

theorem mem_of_getByKey (h : c.getByKey entries key now = some entry) :
    ⟨key, entry⟩ ∈ entries.entries := by
  obtain ⟨hlookup, -⟩ := Option.filter_eq_some_iff.mp h
  exact AList.mem_lookup_iff.mp hlookup

/-- A put evicts, and brings one entry. -/
theorem mem_putByKey {item : Item F} (h : item ∈ (c.putByKey o entries key entry).entries) :
    item = ⟨key, entry⟩ ∨ item ∈ entries.entries := by
  rcases AList.mem_entries_insert h with rfl | hrest
  · exact .inl rfl
  · refine .inr ?_
    dsimp only at hrest
    split_ifs at hrest
    · exact (AList.mem_entries_retain.mp ((AList.entries_eraseAll_sublist _ _).subset hrest)).1
    · exact (AList.mem_entries_retain.mp hrest).1
    · exact hrest

/-- What is put is found, until it expires. -/
theorem getByKey_putByKey (h : c.live now entry = true) :
    c.getByKey (c.putByKey o entries key entry) key now = some entry := by
  unfold VerifiedCache.getByKey VerifiedCache.putByKey
  rw [AList.lookup_insert, Option.filter_some_pos h]

@[simp] theorem mem_retract {item : Item F} {source : String} :
    item ∈ (retract entries source).entries ↔
      item ∈ entries.entries ∧ item.2.source ≠ source := by
  simp [retract]

end Firstpass.ResponseCache
