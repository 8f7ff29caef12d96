import Firstpass.Lib.MapEviction
import Mathlib.Data.List.Induction

/-!
# Session promotion

A session that needed a higher rung starts there on its next turns, until a probe
passes below it. The pins of the sessions live in a map of bounded size, behind two
APIs: `record` and `decide`, and the ones that go through `load` and `store`.

The map is iterated in an arbitrary order. Left out: the shared store, and a poisoned
lock, which no call here can leave.
-/

namespace Firstpass.Affinity

def u32Max : Nat := 4294967295

def saturatingSucc (n : Nat) : Nat := min (n + 1) u32Max

/-- A monotonic time, and the difference of two, which is zero where it would be negative. -/
abbrev Instant := Nat

structure Pin where
  rung : Nat
  failures : Nat
  sinceProbe : Nat
  seen : Instant
  deriving DecidableEq

inductive Decision
  | cold
  | promoted (rung : Nat)
  | probe (rung : Nat)
  deriving DecidableEq

def Decision.startRung : Decision → Nat
  | .cold => 0
  | .promoted r => r
  | .probe r => r

structure SessionPromotion where
  afterFailures : Nat
  probeEvery : Nat
  maxSessions : Nat

/-- The decision from a pin alone. -/
def decidePin (pin : Option Pin) (cfg : SessionPromotion) : Decision :=
  match pin with
  | none => .cold
  | some pin =>
    if pin.failures < cfg.afterFailures ∨ pin.rung = 0 then .cold
    else if max cfg.probeEvery 1 ≤ pin.sinceProbe then .probe (pin.rung - 1)
    else .promoted pin.rung

def promotionKey (tenant session : String) : String := tenant ++ "|" ++ session

def Pin.fresh (now : Instant) : Pin := ⟨0, 0, 0, now⟩

/-- How a request that ended changes the pin of its session, in both APIs. -/
def Pin.touch (pin : Pin) (servedRung : Nat) (escalated : Bool) (now : Instant) : Pin :=
  if escalated then
    { rung := max pin.rung servedRung
      failures := saturatingSucc pin.failures
      sinceProbe := 0
      seen := now }
  else if servedRung < pin.rung then ⟨servedRung, 0, 0, now⟩
  else { pin with sinceProbe := saturatingSucc pin.sinceProbe, seen := now }

abbrev Pins := AList fun _ : String => Pin

abbrev Entry := Σ _ : String, Pin

def Pins.len (pins : Pins) : Nat := pins.entries.length

def Pins.retain (pins : Pins) (p : Entry → Bool) : Pins :=
  ⟨pins.entries.filter p, pins.nodupKeys.sublist List.filter_sublist⟩

/-- The order a map is iterated in. -/
structure Iteration where
  order : List Entry → List Entry
  perm : ∀ entries, (order entries).Perm entries

structure SessionPromoter where
  cfg : SessionPromotion
  ttl : Nat

def oldestFirst (entries : List Entry) : List Entry :=
  entries.insertionSort fun a b => a.2.seen ≤ b.2.seen

namespace SessionPromoter

variable (p : SessionPromoter) (o : Iteration)

def live (now : Instant) (pin : Pin) : Bool := now - pin.seen < p.ttl

/-- The keys an eviction takes from a map that is still full without its expired pins. -/
def oldest (pins : Pins) : List String :=
  ((oldestFirst (o.order pins.entries)).take (max p.cfg.maxSessions 2 / 2)).map Sigma.fst

def evictIfNeeded (pins : Pins) (now : Instant) : Pins :=
  if pins.len < p.cfg.maxSessions then pins
  else
    let pins := pins.retain fun e => p.live now e.2
    if p.cfg.maxSessions ≤ pins.len then
      (p.oldest o pins).foldl (fun pins key => pins.erase key) pins
    else pins

def load (pins : Pins) (key : String) (now : Instant) : Option Pin :=
  (pins.lookup key).filter (p.live now)

def store (pins : Pins) (key : String) (pin : Pin) (now : Instant) : Pins :=
  let pins :=
    if p.cfg.maxSessions ≤ pins.len then
      let pins := pins.retain fun e => p.live now e.2
      if p.cfg.maxSessions ≤ pins.len then
        (p.oldest o pins).foldl (fun pins key => pins.erase key) pins
      else pins
    else pins
  pins.insert key pin

def decideAsync (pins : Pins) (tenant session : String) (now : Instant) : Decision :=
  decidePin (p.load pins (promotionKey tenant session) now) p.cfg

def recordAsync (pins : Pins) (tenant session : String) (servedRung : Nat) (escalated : Bool)
    (now : Instant) : Pins :=
  let key := promotionKey tenant session
  let pin := (p.load pins key now).getD (.fresh now)
  p.store o pins key (pin.touch servedRung escalated now) now

def decide (pins : Pins) (tenant session : String) (now : Instant) : Decision :=
  match pins.lookup (promotionKey tenant session) with
  | some pin => if p.live now pin then decidePin (some pin) p.cfg else .cold
  | none => .cold

def record (pins : Pins) (tenant session : String) (servedRung : Nat) (escalated : Bool)
    (now : Instant) : Pins :=
  let key := promotionKey tenant session
  let pins := p.evictIfNeeded o pins now
  let expired := (pins.lookup key).any fun pin => !p.live now pin
  let pins := if expired then pins.erase key else pins
  let entry := (pins.lookup key).getD (.fresh now)
  pins.insert key (entry.touch servedRung escalated now)

end SessionPromoter

-- ---------------------------------------------------------------------------
-- Runs
-- ---------------------------------------------------------------------------

inductive Call
  | record (tenant session : String) (servedRung : Nat) (escalated : Bool) (now : Instant)
  | decide (tenant session : String) (now : Instant)

def Call.now : Call → Instant
  | .record _ _ _ _ now => now
  | .decide _ _ now => now

/-- The pins, and what the calls so far decided. -/
structure Table where
  pins : Pins
  decisions : List Decision

def Table.new : Table := ⟨∅, []⟩

namespace SessionPromoter

variable (p : SessionPromoter) (o : Iteration)

def syncCall (t : Table) : Call → Table
  | .record tenant session servedRung escalated now =>
    { t with pins := p.record o t.pins tenant session servedRung escalated now }
  | .decide tenant session now =>
    { t with decisions := t.decisions ++ [p.decide t.pins tenant session now] }

def asyncCall (t : Table) : Call → Table
  | .record tenant session servedRung escalated now =>
    { t with pins := p.recordAsync o t.pins tenant session servedRung escalated now }
  | .decide tenant session now =>
    { t with decisions := t.decisions ++ [p.decideAsync t.pins tenant session now] }

def sync (calls : List Call) : Table := calls.foldl (p.syncCall o) .new

def async (calls : List Call) : Table := calls.foldl (p.asyncCall o) .new

end SessionPromoter

/-- The same decisions, and the same pins. -/
structure Agree (t t' : Table) : Prop where
  decisions : t.decisions = t'.decisions
  pins : t.pins.entries.Perm t'.pins.entries

/-- A pin that a record changes as it would a fresh one. -/
def Pin.Blank (pin : Pin) (servedRung : Nat) (escalated : Bool) : Prop :=
  pin.failures = 0 ∧ if escalated then pin.rung ≤ servedRung else pin.rung = 0 ∧ pin.sinceProbe = 0

namespace SessionPromoter

variable (p : SessionPromoter) (o : Iteration)

/-- The keys that a record evicts, live as they are. -/
def victims (pins : Pins) (now : Instant) : List String :=
  if pins.len < p.cfg.maxSessions then []
  else
    let pins := pins.retain fun e => p.live now e.2
    if p.cfg.maxSessions ≤ pins.len then p.oldest o pins else []

/-- The record does not evict the pin of its own session, or the pin is blank. -/
def Spares (pins : Pins) : Call → Prop
  | .record tenant session servedRung escalated now =>
    promotionKey tenant session ∈ p.victims o pins now →
      ∀ pin ∈ p.load pins (promotionKey tenant session) now, pin.Blank servedRung escalated
  | .decide .. => True

end SessionPromoter

-- ---------------------------------------------------------------------------
-- The map
-- ---------------------------------------------------------------------------

theorem touch_eq_iff (pin : Pin) (servedRung : Nat) (escalated : Bool) (now : Instant) :
    pin.touch servedRung escalated now = (Pin.fresh now).touch servedRung escalated now ↔
      pin.Blank servedRung escalated := by
  obtain ⟨rung, failures, sinceProbe, seen⟩ := pin
  have hsucc (n : Nat) : saturatingSucc n = saturatingSucc 0 ↔ n = 0 := by
    simp only [saturatingSucc, u32Max]
    omega
  cases escalated with
  | true => simp [Pin.touch, Pin.fresh, Pin.Blank, hsucc, and_comm]
  | false =>
    by_cases hrung : servedRung < rung
    · have hpos : rung ≠ 0 := by omega
      simp [Pin.touch, Pin.fresh, Pin.Blank, hrung, hpos, saturatingSucc, u32Max]
    · simp [Pin.touch, Pin.fresh, Pin.Blank, hrung, hsucc, and_left_comm]

namespace Pins

variable {pins pins' : Pins}

theorem perm_iff : pins.entries.Perm pins'.entries ↔ ∀ key, pins.lookup key = pins'.lookup key := by
  constructor
  · intro h key
    exact AList.perm_lookup h
  · intro h
    refine List.lookup_ext pins.nodupKeys pins'.nodupKeys fun key pin => ?_
    have hkey : pins.entries.dlookup key = pins'.entries.dlookup key := h key
    rw [hkey]

theorem lookup_retain (pins : Pins) (keep : Entry → Bool) (key : String) :
    (pins.retain keep).lookup key = (pins.lookup key).filter fun pin => keep ⟨key, pin⟩ :=
  AList.lookup_retain pins keep key

theorem lookup_eraseAll (pins : Pins) (keys : List String) (key : String) :
    (keys.foldl (fun pins key => pins.erase key) pins).lookup key =
      if key ∈ keys then none else pins.lookup key :=
  AList.lookup_eraseAll pins keys key

/-- The pins were last seen at different ones of these times. -/
structure Stamped (pins : Pins) (times : List Instant) : Prop where
  nodup : (pins.entries.map fun e => e.2.seen).Nodup
  among : ∀ e ∈ pins.entries, e.2.seen ∈ times

theorem Stamped.sublist (h : pins.Stamped times) (hsub : pins'.entries.Sublist pins.entries) :
    pins'.Stamped times where
  nodup := (hsub.map _).nodup h.nodup
  among e he := h.among e (hsub.subset he)

theorem Stamped.insert (h : pins.Stamped times) (hnow : pin.seen ∉ times) (key : String) :
    Stamped (AList.insert key pin pins) (times ++ [pin.seen]) where
  nodup := by
    have herase : Stamped (pins.erase key) times := h.sublist (List.kerase_sublist key pins.entries)
    refine List.nodup_cons.mpr ⟨fun hmem => ?_, herase.nodup⟩
    obtain ⟨e, he, hseen⟩ := List.mem_map.mp hmem
    have hold : e.2.seen ∈ times := herase.among e he
    rw [hseen] at hold
    exact hnow hold
  among e he := by
    rcases List.mem_cons.mp he with rfl | he
    · simp
    · exact List.mem_append_left _ (h.among e ((List.kerase_sublist key pins.entries).subset he))

end Pins

theorem oldestFirst_perm {entries entries' : List Entry} (h : entries.Perm entries')
    (hnodup : (entries.map fun e => e.2.seen).Nodup) :
    oldestFirst entries = oldestFirst entries' := by
  let older : Entry → Entry → Prop := fun a b => a.2.seen ≤ b.2.seen
  have : Std.Total older := ⟨fun a b => Nat.le_total a.2.seen b.2.seen⟩
  have : IsTrans Entry older := ⟨fun a b c => Nat.le_trans⟩
  have hperm : (oldestFirst entries).Perm (oldestFirst entries') :=
    ((List.perm_insertionSort older entries).trans h).trans
      (List.perm_insertionSort older entries').symm
  refine hperm.eq_of_pairwise (fun a b ha hb hab hba => ?_)
    (List.pairwise_insertionSort older entries) (List.pairwise_insertionSort older entries')
  have hmem : a ∈ entries := (List.perm_insertionSort older entries).subset ha
  have hmem' : b ∈ entries := h.symm.subset ((List.perm_insertionSort older entries').subset hb)
  exact List.inj_on_of_nodup_map hnodup hmem hmem' (Nat.le_antisymm hab hba)

-- ---------------------------------------------------------------------------
-- One call
-- ---------------------------------------------------------------------------

namespace SessionPromoter

variable {p : SessionPromoter} {o o' : Iteration} {pins pins' : Pins}

theorem store_eq (pins : Pins) (key : String) (pin : Pin) (now : Instant) :
    p.store o pins key pin now = (p.evictIfNeeded o pins now).insert key pin := by
  unfold store evictIfNeeded
  by_cases h : p.cfg.maxSessions ≤ pins.len
  · simp [h, not_lt.mpr h]
  · simp [h, not_le.mp h]

theorem evict_sublist (p : SessionPromoter) (o : Iteration) (pins : Pins) (now : Instant) :
    (p.evictIfNeeded o pins now).entries.Sublist pins.entries := by
  unfold evictIfNeeded
  split
  · exact .refl _
  · simp only
    split
    · exact (AList.entries_eraseAll_sublist _ _).trans List.filter_sublist
    · exact List.filter_sublist

/-- What an eviction leaves of a key that is live: all but the victims. -/
theorem load_evict (p : SessionPromoter) (o : Iteration) (pins : Pins) (key : String)
    (now : Instant) :
    p.load (p.evictIfNeeded o pins now) key now =
      if key ∈ p.victims o pins now then none else p.load pins key now := by
  unfold load evictIfNeeded victims
  split
  · simp
  · simp only
    split
    · rw [Pins.lookup_eraseAll, Pins.lookup_retain]
      split
      · rfl
      · simp
    · simp [Pins.lookup_retain]

theorem oldest_perm (h : pins.entries.Perm pins'.entries) (hs : pins.Stamped times) :
    p.oldest o pins = p.oldest o' pins' := by
  have hperm : (o.order pins.entries).Perm (o'.order pins'.entries) :=
    (o.perm _).trans (h.trans (o'.perm _).symm)
  have hnodup : ((o.order pins.entries).map fun e => e.2.seen).Nodup :=
    ((o.perm pins.entries).map _).nodup_iff.mpr hs.nodup
  unfold oldest
  rw [oldestFirst_perm hperm hnodup]

/-- Without ties the iteration order makes no difference to an eviction. -/
theorem evict_perm (h : pins.entries.Perm pins'.entries) (hs : pins.Stamped times) :
    (p.evictIfNeeded o pins now).entries.Perm (p.evictIfNeeded o' pins' now).entries := by
  have hlen : pins.len = pins'.len := h.length_eq
  have hretain : (pins.retain fun e => p.live now e.2).entries.Perm
      (pins'.retain fun e => p.live now e.2).entries := h.filter _
  have hlive : (pins.retain fun e => p.live now e.2).len =
      (pins'.retain fun e => p.live now e.2).len := hretain.length_eq
  have hold : p.oldest o (pins.retain fun e => p.live now e.2) =
      p.oldest o' (pins'.retain fun e => p.live now e.2) :=
    oldest_perm hretain (hs.sublist List.filter_sublist)
  unfold evictIfNeeded
  rw [hlen]
  split
  · exact h
  · simp only [hlive, hold]
    split
    · rw [Pins.perm_iff]
      intro key
      rw [Pins.lookup_eraseAll, Pins.lookup_eraseAll, Pins.perm_iff.mp hretain key]
    · exact hretain

theorem load_perm (h : pins.entries.Perm pins'.entries) (key : String) (now : Instant) :
    p.load pins key now = p.load pins' key now := by
  unfold load
  rw [AList.perm_lookup h]

theorem decide_eq_decideAsync (pins : Pins) (tenant session : String) (now : Instant) :
    p.decide pins tenant session now = p.decideAsync pins tenant session now := by
  unfold decide decideAsync load
  cases pins.lookup (promotionKey tenant session) with
  | none => rfl
  | some pin => cases hlive : p.live now pin <;> simp [Option.filter, hlive, decidePin]

theorem lookup_recordAsync (pins : Pins) (tenant session : String) (servedRung : Nat)
    (escalated : Bool) (now : Instant) (key : String) :
    (p.recordAsync o pins tenant session servedRung escalated now).lookup key =
      if key = promotionKey tenant session then
        some (((p.load pins key now).getD (.fresh now)).touch servedRung escalated now)
      else (p.evictIfNeeded o pins now).lookup key := by
  unfold recordAsync
  simp only [store_eq]
  split
  · rename_i heq
    rw [heq, AList.lookup_insert]
  · rename_i hne
    rw [AList.lookup_insert_ne hne]

theorem lookup_record (pins : Pins) (tenant session : String) (servedRung : Nat)
    (escalated : Bool) (now : Instant) (key : String) :
    (p.record o pins tenant session servedRung escalated now).lookup key =
      if key = promotionKey tenant session then
        some (((p.load (p.evictIfNeeded o pins now) key now).getD (.fresh now)).touch
          servedRung escalated now)
      else (p.evictIfNeeded o pins now).lookup key := by
  unfold record load
  by_cases heq : key = promotionKey tenant session
  · rw [if_pos heq, heq, AList.lookup_insert]
    cases hpin : (p.evictIfNeeded o pins now).lookup (promotionKey tenant session) with
    | none => simp [hpin]
    | some pin => cases hlive : p.live now pin <;> simp [hpin, hlive, Option.filter]
  · rw [if_neg heq, AList.lookup_insert_ne heq]
    split
    · rw [AList.lookup_erase_ne heq]
    · rfl

theorem record_stamped (h : pins.Stamped times) (hnow : now ∉ times) (tenant session : String)
    (servedRung : Nat) (escalated : Bool) :
    (p.record o pins tenant session servedRung escalated now).Stamped (times ++ [now]) := by
  have htouch (pin : Pin) : (pin.touch servedRung escalated now).seen = now := by
    unfold Pin.touch
    split
    · rfl
    · split <;> rfl
  have hsub : ∀ pins' : Pins, pins'.entries.Sublist (p.evictIfNeeded o pins now).entries →
      ∀ pin : Pin, Pins.Stamped (AList.insert (promotionKey tenant session)
        (pin.touch servedRung escalated now) pins') (times ++ [now]) := by
    intro pins' hsub pin
    have hpins : pins'.Stamped times := h.sublist (hsub.trans (evict_sublist p o pins now))
    have hseen : (pin.touch servedRung escalated now).seen ∉ times := by rwa [htouch]
    have hinsert := hpins.insert hseen (promotionKey tenant session)
    rwa [htouch] at hinsert
  unfold SessionPromoter.record
  refine hsub _ ?_ _
  split
  · exact List.kerase_sublist _ _
  · exact .refl _

/-- The two records of a session agree if and only if the synchronous one spares its pin. -/
theorem record_perm_iff (h : pins.entries.Perm pins'.entries) (hs : pins.Stamped times)
    (tenant session : String) (servedRung : Nat) (escalated : Bool) (now : Instant) :
    (p.record o pins tenant session servedRung escalated now).entries.Perm
        (p.recordAsync o' pins' tenant session servedRung escalated now).entries ↔
      p.Spares o pins (.record tenant session servedRung escalated now) := by
  have hother : ∀ key, (p.evictIfNeeded o pins now).lookup key =
      (p.evictIfNeeded o' pins' now).lookup key := Pins.perm_iff.mp (evict_perm h hs)
  have hself : (((p.load (p.evictIfNeeded o pins now) (promotionKey tenant session) now).getD
        (.fresh now)).touch servedRung escalated now =
      ((p.load pins' (promotionKey tenant session) now).getD (.fresh now)).touch
        servedRung escalated now) ↔
      p.Spares o pins (.record tenant session servedRung escalated now) := by
    rw [load_evict, ← load_perm h]
    by_cases hvictim : promotionKey tenant session ∈ p.victims o pins now
    · cases hload : p.load pins (promotionKey tenant session) now with
      | none => simp [Spares, hvictim, hload]
      | some pin =>
        simp only [Spares, hvictim, hload, if_true, Option.getD_none, Option.getD_some,
          true_implies, Option.mem_some_iff, forall_eq']
        rw [eq_comm]
        exact touch_eq_iff pin servedRung escalated now
    · simp [Spares, hvictim]
  rw [Pins.perm_iff, ← hself]
  constructor
  · intro hall
    have hkey := hall (promotionKey tenant session)
    rw [lookup_record, lookup_recordAsync, if_pos rfl, if_pos rfl] at hkey
    exact Option.some.inj hkey
  · intro hkey key
    rw [lookup_record, lookup_recordAsync]
    by_cases heq : key = promotionKey tenant session
    · rw [if_pos heq, if_pos heq, heq, hkey]
    · rw [if_neg heq, if_neg heq]
      exact hother key

/-- One call keeps agreement if and only if it spares its own pin. -/
theorem agree_call_iff (h : Agree t t') (hs : t.pins.Stamped times) (c : Call) :
    Agree (p.syncCall o t c) (p.asyncCall o' t' c) ↔ p.Spares o t.pins c := by
  cases c with
  | record tenant session servedRung escalated now =>
    rw [← record_perm_iff h.pins hs]
    exact ⟨fun hagree => hagree.pins, fun hpins => ⟨h.decisions, hpins⟩⟩
  | decide tenant session now =>
    refine iff_of_true ⟨?_, h.pins⟩ trivial
    have hload := load_perm (p := p) h.pins (promotionKey tenant session) now
    simp only [syncCall, asyncCall, decide_eq_decideAsync, decideAsync, hload, h.decisions]

-- ---------------------------------------------------------------------------
-- Whole runs
-- ---------------------------------------------------------------------------

theorem stamped_sync (p : SessionPromoter) (o : Iteration) (calls : List Call)
    (hnow : (calls.map Call.now).Nodup) :
    (p.sync o calls).pins.Stamped (calls.map Call.now) := by
  induction calls using List.reverseRecOn with
  | nil => exact ⟨.nil, by simp [sync, Table.new]⟩
  | append_singleton calls c ih =>
    rw [List.map_append, List.nodup_append'] at hnow
    obtain ⟨hcalls, _, hfresh⟩ := hnow
    have hpins := ih hcalls
    have hc : c.now ∉ calls.map Call.now := fun hmem => hfresh hmem (by simp)
    simp only [sync, List.foldl_append, List.map_append]
    cases c with
    | record tenant session servedRung escalated now =>
      exact record_stamped hpins hc tenant session servedRung escalated
    | decide tenant session now =>
      exact ⟨hpins.nodup, fun e he => List.mem_append_left _ (hpins.among e he)⟩

/-- The two APIs agree all along a run if and only if no record evicts the pin of its own
session, unless that pin is blank. -/
theorem promoters_agree_iff (p : SessionPromoter) (o o' : Iteration) (calls : List Call)
    (hnow : (calls.map Call.now).Nodup) :
    (∀ first, first <+: calls → Agree (p.sync o first) (p.async o' first)) ↔
      ∀ first c, first ++ [c] <+: calls → p.Spares o (p.sync o first).pins c := by
  have hstep : ∀ first c, first ++ [c] <+: calls → Agree (p.sync o first) (p.async o' first) →
      (Agree (p.sync o (first ++ [c])) (p.async o' (first ++ [c])) ↔
        p.Spares o (p.sync o first).pins c) := by
    intro first c hprefix hagree
    have hfirst : first <+: calls := (List.prefix_append first [c]).trans hprefix
    have hstamped := stamped_sync p o first ((hfirst.sublist.map _).nodup hnow)
    simp only [sync, async, List.foldl_append] at hstamped hagree ⊢
    exact agree_call_iff hagree hstamped c
  constructor
  · intro hall first c hprefix
    have hfirst : first <+: calls := (List.prefix_append first [c]).trans hprefix
    exact (hstep first c hprefix (hall first hfirst)).mp (hall _ hprefix)
  · intro hspares first
    induction first using List.reverseRecOn with
    | nil => exact fun _ => ⟨rfl, .refl _⟩
    | append_singleton first c ih =>
      intro hprefix
      have hfirst : first <+: calls := (List.prefix_append first [c]).trans hprefix
      exact (hstep first c hprefix (ih hfirst)).mpr (hspares first c hprefix)

/-- The order of the entries as they are. -/
def asStored : Iteration := ⟨id, fun _ => .refl _⟩

/-- Two sessions fill the map, and the older of the two is promoted on its second escalation. -/
def fullRun : List Call :=
  [.record "t" "a" 1 true 1, .record "t" "b" 1 true 2, .record "t" "a" 1 true 3,
    .decide "t" "a" 4]

def promoter (maxSessions : Nat) : SessionPromoter where
  cfg := { afterFailures := 2, probeEvery := 3, maxSessions }
  ttl := 1800

theorem promoters_agree_roomy :
    (∀ first, first <+: fullRun →
      Agree ((promoter 100).sync asStored first) ((promoter 100).async asStored first)) ↔
      ∀ first c, first ++ [c] <+: fullRun →
        (promoter 100).Spares asStored ((promoter 100).sync asStored first).pins c :=
  promoters_agree_iff (promoter 100) asStored asStored fullRun (by decide)

/-- The synchronous record evicts the pin of its own session and starts it afresh. -/
theorem promoters_disagree :
    ((promoter 2).sync asStored fullRun).decisions = [.cold] ∧
      ((promoter 2).async asStored fullRun).decisions = [.promoted 1] ∧
      ¬ Agree ((promoter 2).sync asStored fullRun) ((promoter 2).async asStored fullRun) := by
  refine ⟨by decide, by decide, fun h => ?_⟩
  exact absurd h.decisions (by decide)

end SessionPromoter

end Firstpass.Affinity
