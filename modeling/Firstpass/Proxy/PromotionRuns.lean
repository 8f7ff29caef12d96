import Firstpass.Proxy.Affinity

/-!
# What a promotion rests on

Along a run of the synchronous API a session is promoted on its own escalations only, counted
since its last release, expiry or eviction, and a promoted session that stays is probed before
long. Sessions whose keys collide are left out.
-/

namespace Firstpass.Affinity

-- ---------------------------------------------------------------------------
-- The records of one session
-- ---------------------------------------------------------------------------

namespace Call

variable (tenant session : String)

def key : Call → String
  | .record t s _ _ _ => promotionKey t s
  | .decide t s _ => promotionKey t s

def isFor : Call → Bool
  | .record t s _ _ _ => t = tenant ∧ s = session
  | .decide t s _ => t = tenant ∧ s = session

/-- The rung that an escalated record of the session was served from. -/
def escalatedRung : Call → Option Nat
  | .record t s servedRung true _ => if t = tenant ∧ s = session then some servedRung else none
  | _ => none

def escalations (calls : List Call) : List Nat := calls.filterMap (escalatedRung tenant session)

def isRecordOf : Call → Bool
  | .record t s _ _ _ => t = tenant ∧ s = session
  | .decide .. => false

/-- A record of the session is of a request that rung `r` served without escalating. -/
def AtRung (r : Nat) : Call → Prop
  | .record t s servedRung escalated _ =>
    t = tenant ∧ s = session → escalated = false ∧ servedRung = r
  | .decide .. => True

/-- No other session of these calls has the key of this one. -/
def Separate (calls : List Call) : Prop :=
  ∀ c ∈ calls, c.key = promotionKey tenant session → c.isFor tenant session = true

end Call

open Call

namespace SessionPromoter

variable (p : SessionPromoter) (o : Iteration) (tenant session : String)

def pinsCall (pins : Pins) : Call → Pins
  | .record t s servedRung escalated now => p.record o pins t s servedRung escalated now
  | .decide .. => pins

def pinsAfter (calls : List Call) : Pins := (p.sync o calls).pins

/-- What a call leaves of the escalations that count for the session. A record finds the pin, or
finds it evicted or expired, and it may release it. -/
def keep (pins : Pins) (since : List Nat) : Call → List Nat
  | .decide .. => since
  | .record t s servedRung escalated now =>
    let evicted := p.evictIfNeeded o pins now
    if t = tenant ∧ s = session then
      match p.load evicted (promotionKey tenant session) now with
      | none => if escalated then [servedRung] else []
      | some pin =>
        if escalated then since ++ [servedRung]
        else if servedRung < pin.rung then [] else since
    else if (evicted.lookup (promotionKey tenant session)).isSome then since
    else []

def sinceFrom (pins : Pins) (since : List Nat) : List Call → List Nat
  | [] => since
  | c :: calls => sinceFrom (p.pinsCall o pins c) (p.keep o tenant session pins since c) calls

/-- The rungs of the session's escalated records since its last release, expiry or eviction. -/
def since (calls : List Call) : List Nat := p.sinceFrom o tenant session ∅ [] calls

/-- At this call the session is neither expired nor evicted. -/
def Stays (pins : Pins) (key : String) : Call → Prop
  | .record _ _ _ _ now => (p.load pins key now).isSome ∧ key ∉ p.victims o pins now
  | .decide .. => True

/-- The session stays along the calls, from these pins on. -/
def StaysAlong (key : String) : Pins → List Call → Prop
  | _, [] => True
  | pins, c :: calls => p.Stays o pins key c ∧ StaysAlong key (p.pinsCall o pins c) calls

-- ---------------------------------------------------------------------------
-- One call after another
-- ---------------------------------------------------------------------------

variable {p o tenant session} {calls : List Call} {pins : Pins}

theorem syncCall_pins (t : Table) (c : Call) :
    (p.syncCall o t c).pins = p.pinsCall o t.pins c := by
  cases c <;> rfl

theorem pinsAfter_append (calls more : List Call) :
    p.pinsAfter o (calls ++ more) = more.foldl (p.pinsCall o) (p.pinsAfter o calls) := by
  induction more using List.reverseRecOn with
  | nil => simp
  | append_singleton more c ih =>
    rw [List.foldl_append, ← ih, ← List.append_assoc]
    simp only [pinsAfter, sync, List.foldl_append, List.foldl_cons, List.foldl_nil]
    exact syncCall_pins _ c

theorem sinceFrom_concat (pins : Pins) (since : List Nat) (calls : List Call) (c : Call) :
    p.sinceFrom o tenant session pins since (calls ++ [c]) =
      p.keep o tenant session (calls.foldl (p.pinsCall o) pins)
        (p.sinceFrom o tenant session pins since calls) c := by
  induction calls generalizing pins since with
  | nil => rfl
  | cons c' calls ih => exact ih _ _

theorem since_concat (calls : List Call) (c : Call) :
    p.since o tenant session (calls ++ [c]) =
      p.keep o tenant session (p.pinsAfter o calls) (p.since o tenant session calls) c := by
  have hpins : p.pinsAfter o calls = calls.foldl (p.pinsCall o) ∅ := pinsAfter_append [] calls
  rw [hpins]
  exact sinceFrom_concat ∅ [] calls c

theorem lookup_of_evict {key : String} {now : Instant} {pin : Pin}
    (h : (p.evictIfNeeded o pins now).lookup key = some pin) : pins.lookup key = some pin :=
  AList.mem_lookup_iff.mpr ((evict_sublist p o pins now).subset (AList.mem_lookup_iff.mp h))

theorem lookup_of_load {key : String} {now : Instant} {pin : Pin}
    (h : p.load pins key now = some pin) : pins.lookup key = some pin :=
  (Option.filter_eq_some_iff.mp h).1

-- ---------------------------------------------------------------------------
-- The evidence of a pin
-- ---------------------------------------------------------------------------

/-- The failures of a pin are escalations that count, and some escalation reached its rung. -/
structure Rests (pin : Pin) (since all : List Nat) : Prop where
  failures : pin.failures ≤ since.length
  rung : 0 < pin.rung → ∃ served ∈ all, pin.rung ≤ served

theorem Rests.fresh (now : Instant) (since all : List Nat) : Rests (.fresh now) since all :=
  ⟨Nat.zero_le _, fun h => absurd h (Nat.lt_irrefl 0)⟩

theorem Rests.escalate {pin : Pin} {since all : List Nat} (h : Rests pin since all)
    (servedRung : Nat) (now : Instant) :
    Rests (pin.touch servedRung true now) (since ++ [servedRung]) (all ++ [servedRung]) where
  failures := by
    have hsucc : saturatingSucc pin.failures ≤ pin.failures + 1 := Nat.min_le_left _ _
    have hle := h.failures
    simp only [Pin.touch, List.length_append, List.length_singleton, if_true]
    omega
  rung := by
    rintro -
    rcases Nat.lt_or_ge servedRung pin.rung with hlt | hge
    · obtain ⟨served, hmem, hle⟩ := h.rung (Nat.zero_lt_of_lt hlt)
      refine ⟨served, List.mem_append_left _ hmem, ?_⟩
      simpa [Pin.touch, Nat.max_eq_left hlt.le] using hle
    · refine ⟨servedRung, by simp, ?_⟩
      simp [Pin.touch, hge]

/-- A release forgets the failures, and what is served at the pin changes no evidence. -/
theorem Rests.settle {pin : Pin} {since all : List Nat} (h : Rests pin since all)
    (servedRung : Nat) (now : Instant) :
    Rests (pin.touch servedRung false now) (if servedRung < pin.rung then [] else since) all := by
  simp only [Pin.touch, Bool.false_eq_true, if_false]
  split_ifs with hbelow
  · refine ⟨le_rfl, fun _ => ?_⟩
    obtain ⟨served, hmem, hle⟩ := h.rung (Nat.zero_lt_of_lt hbelow)
    exact ⟨served, hmem, hbelow.le.trans hle⟩
  · exact ⟨h.failures, h.rung⟩

theorem escalations_concat (calls : List Call) (c : Call) :
    escalations tenant session (calls ++ [c]) =
      escalations tenant session calls ++ (c.escalatedRung tenant session).toList := by
  cases h : c.escalatedRung tenant session <;> simp [escalations, h]

theorem separate_append {more : List Call} :
    Separate tenant session (calls ++ more) ↔
      Separate tenant session calls ∧ Separate tenant session more := by
  simp only [Separate, List.mem_append]
  constructor
  · intro h
    exact ⟨fun c hc => h c (.inl hc), fun c hc => h c (.inr hc)⟩
  · rintro ⟨hcalls, hmore⟩ c (hc | hc)
    · exact hcalls c hc
    · exact hmore c hc

/-- The pin of a session always rests on the escalations that count for it. -/
theorem rests (hown : Separate tenant session calls) :
    ∀ pin, (p.pinsAfter o calls).lookup (promotionKey tenant session) = some pin →
      Rests pin (p.since o tenant session calls) (escalations tenant session calls) := by
  induction calls using List.reverseRecOn with
  | nil => rintro pin ⟨⟩
  | append_singleton calls c ih =>
    obtain ⟨hcalls, hc⟩ := separate_append.mp hown
    have ih := ih hcalls
    intro pin hpin
    rw [pinsAfter_append] at hpin
    rw [since_concat, escalations_concat]
    cases c with
    | decide t s now => simpa [keep, escalatedRung] using ih pin hpin
    | record t s servedRung escalated now =>
      simp only [List.foldl_cons, List.foldl_nil, pinsCall, lookup_record] at hpin
      by_cases hkey : promotionKey tenant session = promotionKey t s
      · have hfor := hc _ List.mem_cons_self hkey.symm
        obtain ⟨rfl, rfl⟩ : t = tenant ∧ s = session := by simpa [isFor] using hfor
        rw [if_pos rfl] at hpin
        cases hload : p.load (p.evictIfNeeded o (p.pinsAfter o calls) now) (promotionKey t s) now
          with
        | none =>
          rw [hload] at hpin
          cases hpin
          have hfresh : Rests (.fresh now) [] (escalations t s calls) := .fresh now _ _
          cases escalated with
          | true => simpa [keep, hload, escalatedRung] using hfresh.escalate servedRung now
          | false => simpa [keep, hload, escalatedRung] using hfresh.settle servedRung now
        | some old =>
          rw [hload] at hpin
          cases hpin
          have hold := ih old (lookup_of_evict (lookup_of_load hload))
          cases escalated with
          | true => simpa [keep, hload, escalatedRung] using hold.escalate servedRung now
          | false => simpa [keep, hload, escalatedRung] using hold.settle servedRung now
      · rw [if_neg hkey] at hpin
        have hother : ¬(t = tenant ∧ s = session) := by
          rintro ⟨rfl, rfl⟩
          exact hkey rfl
        have hrung : (Call.record t s servedRung escalated now).escalatedRung tenant session =
            none := by
          cases escalated <;> simp [escalatedRung, hother]
        simpa [keep, hother, hpin, hrung] using ih pin (lookup_of_evict hpin)

/-- What a promoted decision or a probe says of the pin it was read from. -/
theorem pin_of_decide {now : Instant} {r : Nat}
    (h : p.decide pins tenant session now = .promoted r ∨
      0 < r ∧ p.decide pins tenant session now = .probe (r - 1)) :
    ∃ pin, pins.lookup (promotionKey tenant session) = some pin ∧ pin.rung = r ∧ 0 < r ∧
      p.cfg.afterFailures ≤ pin.failures := by
  cases hpin : pins.lookup (promotionKey tenant session) with
  | none => simp [decide, hpin] at h
  | some pin =>
    have hlive : p.live now pin = true := by
      cases hlive : p.live now pin
      · simp [decide, hpin, hlive] at h
      · rfl
    have hearned : ¬(pin.failures < p.cfg.afterFailures ∨ pin.rung = 0) := by
      intro hcold
      simp [decide, hpin, hlive, decidePin, hcold] at h
    simp only [decide, hpin, hlive, if_true, decidePin, hearned, if_false] at h
    obtain ⟨hfailures, hrung⟩ := not_or.mp hearned
    refine ⟨pin, rfl, ?_, ?_, not_lt.mp hfailures⟩ <;> split at h <;> simp at h <;> omega

-- ---------------------------------------------------------------------------
-- A session that stays
-- ---------------------------------------------------------------------------

variable {more : List Call} {r count : Nat} {pin : Pin}

/-- A pin promoted to rung `r`, with that many records served at it since its last probe. -/
structure Held (p : SessionPromoter) (r count : Nat) (pin : Pin) : Prop where
  rung : pin.rung = r
  failures : p.cfg.afterFailures ≤ pin.failures
  sinceProbe : min count u32Max ≤ pin.sinceProbe

theorem Held.settle (h : p.Held r count pin) (now : Instant) :
    p.Held r (count + 1) (pin.touch r false now) := by
  obtain ⟨hrung, hfailures, hprobe⟩ := h
  refine ⟨?_, ?_, ?_⟩ <;> simp only [Pin.touch, hrung, Bool.false_eq_true, if_false, lt_irrefl]
  · exact hfailures
  · simp only [saturatingSucc]
    omega

theorem lookup_evict_of_stays {t s : String} {servedRung : Nat} {escalated : Bool} {now : Instant}
    {key : String} (h : p.Stays o pins key (.record t s servedRung escalated now))
    (hpin : pins.lookup key = some pin) :
    p.load (p.evictIfNeeded o pins now) key now = some pin := by
  obtain ⟨hlive, hkept⟩ := h
  obtain ⟨pin', hload⟩ := Option.isSome_iff_exists.mp hlive
  have hsame : some pin' = some pin := (lookup_of_load hload).symm.trans hpin
  rw [load_evict, if_neg hkept, hload, hsame]

theorem held_call {c : Call} (hown : c.key = promotionKey tenant session →
      c.isFor tenant session = true)
    (hstays : p.Stays o pins (promotionKey tenant session) c) (hat : c.AtRung tenant session r)
    (hpin : pins.lookup (promotionKey tenant session) = some pin) (hheld : p.Held r count pin) :
    ∃ pin', (p.pinsCall o pins c).lookup (promotionKey tenant session) = some pin' ∧
      p.Held r (count + if c.isRecordOf tenant session then 1 else 0) pin' := by
  cases c with
  | decide t s now => exact ⟨pin, hpin, hheld⟩
  | record t s servedRung escalated now =>
    have hload := lookup_evict_of_stays hstays hpin
    simp only [pinsCall, lookup_record, hload, Option.getD_some]
    by_cases hfor : t = tenant ∧ s = session
    · obtain ⟨rfl, rfl⟩ := hfor
      obtain ⟨rfl, rfl⟩ := hat ⟨rfl, rfl⟩
      exact ⟨_, if_pos rfl, by simpa [isRecordOf] using hheld.settle now⟩
    · have hkey : promotionKey tenant session ≠ promotionKey t s := by
        intro hkey
        exact hfor (by simpa [isFor] using hown hkey.symm)
      refine ⟨pin, ?_, by simpa [isRecordOf, hfor] using hheld⟩
      rw [if_neg hkey]
      exact lookup_of_load hload

/-- As long as it stays, the pin stays promoted and counts the records served at it. -/
theorem held_run (hown : Separate tenant session more)
    (hstays : p.StaysAlong o (promotionKey tenant session) pins more)
    (hat : ∀ c ∈ more, c.AtRung tenant session r)
    (hpin : pins.lookup (promotionKey tenant session) = some pin) (hheld : p.Held r count pin) :
    ∃ pin', (more.foldl (p.pinsCall o) pins).lookup (promotionKey tenant session) = some pin' ∧
      p.Held r (count + more.countP (isRecordOf tenant session)) pin' := by
  induction more generalizing pins pin count with
  | nil => exact ⟨pin, hpin, hheld⟩
  | cons c more ih =>
    obtain ⟨hc, hmore⟩ := hstays
    obtain ⟨pin', hpin', hheld'⟩ :=
      held_call (hown c List.mem_cons_self) hc (hat c List.mem_cons_self) hpin hheld
    obtain ⟨last, hlast, hheld⟩ := ih (fun c hc => hown c (List.mem_cons_of_mem _ hc)) hmore
      (fun c hc => hat c (List.mem_cons_of_mem _ hc)) hpin' hheld'
    refine ⟨last, hlast, ?_⟩
    rw [List.countP_cons]
    simpa [Nat.add_assoc, Nat.add_comm, Nat.add_left_comm] using hheld

theorem probe_of_held (hprobe : p.cfg.probeEvery ≤ u32Max) (hheld : p.Held r count pin)
    (hpos : 0 < r) (hcount : max p.cfg.probeEvery 1 ≤ count)
    (hpin : pins.lookup (promotionKey tenant session) = some pin) {now : Instant}
    (hlive : (p.load pins (promotionKey tenant session) now).isSome) :
    p.decide pins tenant session now = .probe (r - 1) := by
  obtain ⟨hrung, hfailures, hsince⟩ := hheld
  have hdue : max p.cfg.probeEvery 1 ≤ pin.sinceProbe := by
    have hmax : max p.cfg.probeEvery 1 ≤ u32Max := max_le hprobe (by decide)
    exact (le_min hcount hmax).trans hsince
  obtain ⟨pin', hload⟩ := Option.isSome_iff_exists.mp hlive
  have hsame : pin' = pin := Option.some.inj ((lookup_of_load hload).symm.trans hpin)
  have hnow : p.live now pin = true := hsame ▸ (Option.filter_eq_some_iff.mp hload).2
  simp [decide, hpin, hnow, decidePin, hdue, hrung, hfailures, hpos.ne']

/-- A record served below the pin releases the session to the rung that worked. -/
theorem release_of_held (hheld : p.Held r count pin)
    (hpin : (p.pinsAfter o calls).lookup (promotionKey tenant session) = some pin) {served : Nat}
    (hbelow : served < r) {now : Instant}
    (hstays : p.Stays o (p.pinsAfter o calls) (promotionKey tenant session)
      (.record tenant session served false now)) :
    (p.pinsAfter o (calls ++ [.record tenant session served false now])).lookup
        (promotionKey tenant session) = some ⟨served, 0, 0, now⟩ ∧
      p.since o tenant session (calls ++ [.record tenant session served false now]) = [] := by
  have hload := lookup_evict_of_stays hstays hpin
  have hlt : served < pin.rung := hheld.rung ▸ hbelow
  constructor
  · simp only [pinsAfter_append, List.foldl_cons, List.foldl_nil, pinsCall, lookup_record, hload]
    simp [Pin.touch, hlt]
  · simp [since_concat, keep, hload, hlt]

/-- Two escalations promote the session, three records at its pin bring the probe, and what the
probe serves at rung 0 releases it. -/
def earned : List Call := [.record "t" "a" 1 true 1, .record "t" "a" 1 true 2]

def atPin : List Call :=
  [.record "t" "a" 1 false 3, .record "t" "a" 1 false 4, .record "t" "a" 1 false 5]

end SessionPromoter

end Firstpass.Affinity
