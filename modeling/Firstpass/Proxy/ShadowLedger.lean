import Mathlib.Algebra.BigOperators.Group.List.Basic
import Mathlib.Algebra.Order.BigOperators.Group.List
import Mathlib.Algebra.Order.Group.Int
import Mathlib.Logic.Function.Basic

/-!
# The shadow-spend ledger

What shadow evaluations have cost a tenant and a route today, under a daily cap.
A check and a debit are separate: evaluations sample the clock, check, run, and
debit later, with the time they sampled or a later one.

Amounts are exact. A poisoned lock, which no call here can leave, is left out.
-/

namespace Firstpass.Shadow

variable {F : Type} [AddCommMonoid F] [LinearOrder F]

/-- A tenant and a route. -/
abbrev Key := String × Nat

/-- Whole seconds since the epoch. -/
abbrev Timestamp := Int

def dayOf (ts : Timestamp) : Int := ts / 86400

theorem dayOf_le {first second : Timestamp} (h : first ≤ second) : dayOf first ≤ dayOf second :=
  Int.ediv_le_ediv (by decide) h

structure ShadowLedger (F : Type) where
  inner : Key → Option (Int × F)

namespace ShadowLedger

def new : ShadowLedger F := ⟨fun _ => none⟩

/-- The entry of a key on a day, fresh where the one on record is of another day. -/
def entry (l : ShadowLedger F) (key : Key) (today : Int) : Int × F :=
  let e := (l.inner key).getD (today, 0)
  if e.1 ≠ today then (today, 0) else e

def put (l : ShadowLedger F) (key : Key) (e : Int × F) : ShadowLedger F :=
  ⟨Function.update l.inner key (some e)⟩

def maySpend (l : ShadowLedger F) (key : Key) (maxUsdPerDay : F) (now : Timestamp) :
    ShadowLedger F × Bool :=
  if maxUsdPerDay ≤ 0 then (l, false)
  else
    let e := l.entry key (dayOf now)
    (l.put key e, e.2 < maxUsdPerDay)

/-- `usd` is `none` where the float is not finite. -/
def debit (l : ShadowLedger F) (key : Key) (usd : Option F) (now : Timestamp) : ShadowLedger F :=
  match usd with
  | none => l
  | some usd =>
    if usd ≤ 0 then l
    else
      let e := l.entry key (dayOf now)
      l.put key (e.1, e.2 + usd)

def seed (l : ShadowLedger F) (key : Key) (usd : Option F) (recorded now : Timestamp) :
    ShadowLedger F :=
  if dayOf recorded = dayOf now then l.debit key usd now else l

def spentToday (l : ShadowLedger F) (key : Key) (now : Timestamp) : F :=
  match l.inner key with
  | some (day, spent) => if day = dayOf now then spent else 0
  | none => 0

end ShadowLedger

/-- What a debit adds: an amount that is not finite, or not positive, adds nothing. -/
def charge : Option F → F
  | none => 0
  | some usd => if usd ≤ 0 then 0 else usd

theorem charge_nonneg (usd : Option F) : 0 ≤ charge usd := by
  cases usd with
  | none => exact le_rfl
  | some usd =>
    simp only [charge]
    split
    · exact le_rfl
    · rename_i h
      exact le_of_not_ge h

/-- What the debits of a list that `p` selects add. -/
def charges (p : α → Prop) [DecidablePred p] (usd : α → Option F) (xs : List α) : F :=
  ((xs.filter p).map fun x => charge (usd x)).sum

-- ---------------------------------------------------------------------------
-- Evaluations in flight
-- ---------------------------------------------------------------------------

/-- An evaluation, the time it sampled, and what it will have cost when it ends. -/
structure Evaluation (F : Type) where
  key : Key
  sampled : Timestamp
  usd : Option F

structure StoredRow (F : Type) where
  key : Key
  recorded : Timestamp
  usd : Option F

structure Debit (F : Type) where
  key : Key
  stamp : Timestamp
  usd : Option F

/-- The ledger and the clock; the evaluations that have sampled it, those that were let
start, and the rows not seeded yet. The debits are kept for the statements and read by
nothing here. -/
structure State (F : Type) where
  ledger : ShadowLedger F
  clock : Timestamp
  sampled : List (Evaluation F)
  inFlight : List (Evaluation F)
  unseeded : List (StoredRow F)
  debits : List (Debit F)

inductive Move (F : Type)
  | tick (secs : Nat)
  | sample (key : Key) (usd : Option F)
  | check (k : Nat)
  | debit (k : Nat) (stamp : Timestamp)
  | drop (k : Nat)
  | seed (k : Nat) (now : Timestamp)

namespace State

def start (clock : Timestamp) (rows : List (StoredRow F)) : State F :=
  ⟨.new, clock, [], [], rows, []⟩

def debited (s : State F) (key : Key) (usd : Option F) (stamp : Timestamp) : State F :=
  { s with
    ledger := s.ledger.debit key usd stamp
    debits := s.debits ++ [⟨key, stamp, usd⟩] }

variable (cap : Key → F) (s : State F)

def step : Move F → State F
  | .tick secs => { s with clock := s.clock + secs }
  | .sample key usd => { s with sampled := s.sampled ++ [⟨key, s.clock, usd⟩] }
  | .check k =>
    match s.sampled[k]? with
    | none => s
    | some e =>
      let checked := s.ledger.maySpend e.key (cap e.key) e.sampled
      { s with
        ledger := checked.1
        sampled := s.sampled.eraseIdx k
        inFlight := if checked.2 then s.inFlight ++ [e] else s.inFlight }
  -- `evaluate_shadow` stamps with the time it sampled, `spawn_paired_challenger` anew
  | .debit k stamp =>
    match s.inFlight[k]? with
    | none => s
    | some e =>
      if e.sampled ≤ stamp ∧ stamp ≤ s.clock then
        { s.debited e.key e.usd stamp with inFlight := s.inFlight.eraseIdx k }
      else s
  -- an evaluation that ends without a debit
  | .drop k => { s with inFlight := s.inFlight.eraseIdx k }
  | .seed k now =>
    match s.unseeded[k]? with
    | none => s
    | some r =>
      if s.clock < now then s
      else
        { s with
          ledger := s.ledger.seed r.key r.usd r.recorded now
          unseeded := s.unseeded.eraseIdx k
          debits := if dayOf r.recorded = dayOf now then s.debits ++ [⟨r.key, now, r.usd⟩]
            else s.debits }

def run (moves : List (Move F)) : State F := moves.foldl (step cap) s

/-- The debits and seeds of a key that are stamped with a day. -/
def total (key : Key) (day : Int) : F :=
  charges (fun d => d.key = key ∧ dayOf d.stamp = day) Debit.usd s.debits

def inFlightUsd (key : Key) : F := charges (fun e => e.key = key) Evaluation.usd s.inFlight

def unseededUsd (key : Key) : F := charges (fun r => r.key = key) StoredRow.usd s.unseeded

/-- The `k`-th evaluation is let start. -/
def Starts (k : Nat) (e : Evaluation F) : Prop :=
  s.sampled[k]? = some e ∧ (s.ledger.maySpend e.key (cap e.key) e.sampled).2 = true

/-- No day later than that of `stamp` is on record for the key. -/
def InTime (key : Key) (stamp : Timestamp) : Prop :=
  ∀ e ∈ s.ledger.inner key, e.1 ≤ dayOf stamp

instance : Decidable (s.InTime key stamp) :=
  inferInstanceAs (Decidable (∀ e ∈ s.ledger.inner key, e.1 ≤ dayOf stamp))

/-- The entry of no key goes back a day with this move: one that touches it comes in time. -/
def Forward : Move F → Prop
  | .check k => ∀ e ∈ s.sampled[k]?, 0 < cap e.key → s.InTime e.key e.sampled
  | .debit k stamp => ∀ e ∈ s.inFlight[k]?, 0 < charge e.usd → s.InTime e.key stamp
  | .seed k now => ∀ r ∈ s.unseeded[k]?, dayOf r.recorded = dayOf now → 0 < charge r.usd →
      s.InTime r.key now
  | _ => True

instance (m : Move F) : Decidable (s.Forward cap m) :=
  match m with
  | .check k => inferInstanceAs (Decidable (∀ e ∈ s.sampled[k]?, _ → s.InTime e.key e.sampled))
  | .debit k stamp => inferInstanceAs (Decidable (∀ e ∈ s.inFlight[k]?, _ → s.InTime e.key stamp))
  | .seed k now => inferInstanceAs (Decidable (∀ r ∈ s.unseeded[k]?, _ → _ → s.InTime r.key now))
  | .tick _ => .isTrue trivial
  | .sample _ _ => .isTrue trivial
  | .drop _ => .isTrue trivial

/-- Every move of the run is a forward one. -/
def Orderly : State F → List (Move F) → Prop
  | _, [] => True
  | s, m :: moves => s.Forward cap m ∧ Orderly (s.step cap m) moves

instance decidableOrderly (s : State F) (moves : List (Move F)) :
    Decidable (s.Orderly cap moves) :=
  match moves with
  | [] => .isTrue trivial
  | m :: moves =>
    have := decidableOrderly (s.step cap m) moves
    inferInstanceAs (Decidable (s.Forward cap m ∧ (s.step cap m).Orderly cap moves))

end State

-- ---------------------------------------------------------------------------
-- The entry of a key
-- ---------------------------------------------------------------------------

/-- The entry on record, against the totals of its key: that of its day, with nothing
stamped with a later day. -/
def Recorded (total : Int → F) (today : Int) : Option (Int × F) → Prop
  | none => ∀ day, total day = 0
  | some (day, spent) => spent = total day ∧ day ≤ today ∧ ∀ later, day < later → total later = 0

omit [LinearOrder F] in
theorem Recorded.later {total : Int → F} {e : Option (Int × F)} (h : Recorded total today e)
    (hle : ∀ x, e = some x → x.1 ≤ day) : ∀ later, day < later → total later = 0 := by
  intro later hlater
  cases e with
  | none => exact h later
  | some x => exact h.2.2 later (lt_of_le_of_lt (hle x rfl) hlater)

omit [LinearOrder F] in
theorem Recorded.mono {total : Int → F} {e : Option (Int × F)} (h : Recorded total today e)
    (hle : today ≤ tomorrow) : Recorded total tomorrow e := by
  cases e with
  | none => exact h
  | some x => exact ⟨h.1, h.2.1.trans hle, h.2.2⟩

namespace ShadowLedger

variable {l : ShadowLedger F} {key : Key}

omit [LinearOrder F] in
/-- With no later day on record, the entry of a day holds its total. -/
theorem entry_eq {total : Int → F} (h : Recorded total today (l.inner key))
    (hle : ∀ x, l.inner key = some x → x.1 ≤ day) : l.entry key day = (day, total day) := by
  unfold entry
  cases he : l.inner key with
  | none =>
    rw [he] at h
    simp [h day]
  | some x =>
    obtain ⟨recorded, spent⟩ := x
    rw [he] at h
    obtain ⟨hspent, _, hlater⟩ := h
    have hday : recorded ≤ day := hle _ he
    rcases eq_or_lt_of_le hday with heq | hlt
    · simp [← heq, hspent]
    · simp [ne_of_lt hlt, hlater day hlt]

omit [LinearOrder F] in
theorem spentToday_eq {total : Int → F} (h : Recorded total (dayOf now) (l.inner key)) :
    l.spentToday key now = total (dayOf now) := by
  unfold spentToday
  cases he : l.inner key with
  | none =>
    rw [he] at h
    exact (h _).symm
  | some x =>
    obtain ⟨recorded, spent⟩ := x
    rw [he] at h
    obtain ⟨hspent, hday, hlater⟩ := h
    rcases eq_or_lt_of_le hday with heq | hlt
    · simp [heq, hspent]
    · simp [ne_of_lt hlt, hlater _ hlt]

omit [AddCommMonoid F] [LinearOrder F] in
theorem put_self : (l.put key e).inner key = some e := by simp [put]

omit [AddCommMonoid F] [LinearOrder F] in
theorem put_ne (h : other ≠ key) : (l.put key e).inner other = l.inner other := by
  simp [put, h]

/-- A stamp of an earlier day than the one on record erases what that day has spent. -/
theorem debit_erases (he : l.inner key = some (day, spent)) (hlt : dayOf stamp < day)
    (hpos : 0 < usd) (hnow : dayOf now = day) :
    (l.debit key (some usd) stamp).spentToday key now = 0 := by
  have hne : day ≠ dayOf stamp := (ne_of_lt hlt).symm
  have hfresh : l.entry key (dayOf stamp) = (dayOf stamp, 0) := by simp [entry, he, hne]
  simp [debit, not_le.mpr hpos, hfresh, spentToday, put_self, hnow, hne.symm]

end ShadowLedger

section charges
variable {p : α → Prop} [DecidablePred p] {usd : α → Option F}

theorem charges_append (xs : List α) (x : α) :
    charges p usd (xs ++ [x]) = charges p usd xs + if p x then charge (usd x) else 0 := by
  simp only [charges, List.filter_append, List.map_append, List.sum_append]
  split <;> simp_all

theorem charges_eraseIdx {xs : List α} (h : xs[k]? = some x) :
    charges p usd xs = (if p x then charge (usd x) else 0) + charges p usd (xs.eraseIdx k) := by
  induction xs generalizing k with
  | nil => simp at h
  | cons y ys ih =>
    cases k with
    | zero =>
      obtain rfl : y = x := by simpa using h
      simp only [charges, List.eraseIdx_zero, List.tail_cons, List.filter_cons]
      split <;> simp_all
    | succ k =>
      have hys := ih (k := k) (by simpa using h)
      simp only [charges, List.eraseIdx_cons_succ, List.filter_cons] at hys ⊢
      split
      · simp only [List.map_cons, List.sum_cons, hys, add_left_comm]
      · exact hys

variable [IsOrderedAddMonoid F]

theorem charges_sublist {xs ys : List α} (h : xs.Sublist ys) :
    charges p usd xs ≤ charges p usd ys := by
  refine ((h.filter _).map _).sum_le_sum fun a ha => ?_
  obtain ⟨x, _, rfl⟩ := List.mem_map.mp ha
  exact charge_nonneg _

theorem charges_imp {q : α → Prop} [DecidablePred q] (h : ∀ x, p x → q x) (xs : List α) :
    charges p usd xs ≤ charges q usd xs := by
  have hsub : (xs.filter fun x => decide (p x)).Sublist (xs.filter fun x => decide (q x)) :=
    List.monotone_filter_right xs fun x hx => by simpa using h x (by simpa using hx)
  refine (hsub.map _).sum_le_sum fun a ha => ?_
  obtain ⟨x, _, rfl⟩ := List.mem_map.mp ha
  exact charge_nonneg _

end charges

namespace State

variable {cap : Key → F} {s : State F}

/-- The invariant: every entry is recorded, and no evaluation sampled a later time than
it is. -/
structure Sound (s : State F) : Prop where
  recorded : ∀ key, Recorded (s.total key) (dayOf s.clock) (s.ledger.inner key)
  sampled : ∀ e ∈ s.sampled, e.sampled ≤ s.clock

theorem Sound.start (clock : Timestamp) (rows : List (StoredRow F)) : (start clock rows).Sound where
  recorded _ _ := rfl
  sampled := by simp [State.start]

theorem Sound.entry_eq (h : s.Sound) (ht : s.InTime key stamp) :
    s.ledger.entry key (dayOf stamp) = (dayOf stamp, s.total key (dayOf stamp)) :=
  ShadowLedger.entry_eq (h.recorded key) ht

theorem Sound.maySpend (h : s.Sound) (ht : s.InTime key stamp) :
    (s.ledger.maySpend key maxUsdPerDay stamp).2 = true ↔
      0 < maxUsdPerDay ∧ s.total key (dayOf stamp) < maxUsdPerDay := by
  unfold ShadowLedger.maySpend
  split
  · rename_i hle
    simp [not_lt.mpr hle]
  · rename_i hpos
    simp [h.entry_eq ht, not_le.mp hpos]

/-- A state in which the entry of one key is put for the day of a stamp, with the
total that this state has. -/
theorem Sound.put {t : State F} (h : s.Sound) (ht : s.InTime key stamp) (hstamp : stamp ≤ s.clock)
    (hclock : t.clock = s.clock) (hsampled : ∀ e ∈ t.sampled, e ∈ s.sampled)
    (hledger : t.ledger = s.ledger.put key (dayOf stamp, t.total key (dayOf stamp)))
    (hother : ∀ other day, other ≠ key → t.total other day = s.total other day)
    (hdays : ∀ day, day ≠ dayOf stamp → t.total key day = s.total key day) : t.Sound where
  recorded other := by
    rw [hledger, hclock]
    by_cases hkey : other = key
    · rw [hkey, ShadowLedger.put_self]
      refine ⟨rfl, dayOf_le hstamp, fun later hlater => ?_⟩
      rw [hdays later (ne_of_gt hlater)]
      exact (h.recorded key).later ht later hlater
    · rw [ShadowLedger.put_ne hkey, funext (hother other · hkey)]
      exact h.recorded other
  sampled e he := by
    rw [hclock]
    exact h.sampled e (hsampled e he)

/-- A state whose ledger and totals are those of a sound one. -/
theorem Sound.frame {t : State F} (h : s.Sound) (hclock : s.clock ≤ t.clock)
    (hsampled : ∀ e ∈ t.sampled, e.sampled ≤ t.clock) (hledger : t.ledger = s.ledger)
    (htotal : ∀ key day, t.total key day = s.total key day) : t.Sound where
  recorded key := by
    rw [hledger, funext (htotal key)]
    exact (h.recorded key).mono (dayOf_le hclock)
  sampled := hsampled

theorem total_debited (s : State F) (key other : Key) (usd : Option F) (stamp : Timestamp)
    (day : Int) :
    (s.debited key usd stamp).total other day =
      s.total other day + if key = other ∧ dayOf stamp = day then charge usd else 0 := by
  simp only [total, debited, charges_append]

theorem Sound.debited (h : s.Sound) (hdue : 0 < charge usd → s.InTime key stamp)
    (hstamp : stamp ≤ s.clock) : (s.debited key usd stamp).Sound := by
  have htotal other day := total_debited s key other usd stamp day
  by_cases hcharge : charge usd = 0
  · have hledger : s.ledger.debit key usd stamp = s.ledger := by
      cases usd with
      | none => rfl
      | some usd =>
        simp only [charge] at hcharge
        split at hcharge
        · rename_i hle
          simp [ShadowLedger.debit, hle]
        · simp [ShadowLedger.debit, hcharge]
    refine h.frame le_rfl h.sampled hledger fun other day => ?_
    rw [htotal, hcharge, ite_self, add_zero]
  · have ht : s.InTime key stamp := hdue (lt_of_le_of_ne (charge_nonneg usd) (Ne.symm hcharge))
    have hledger : s.ledger.debit key usd stamp =
        s.ledger.put key (dayOf stamp, s.total key (dayOf stamp) + charge usd) := by
      cases usd with
      | none => exact absurd rfl hcharge
      | some usd =>
        simp only [charge] at hcharge ⊢
        split at hcharge
        · exact absurd rfl hcharge
        · rename_i hpos
          simp [ShadowLedger.debit, hpos, h.entry_eq ht]
    refine h.put ht hstamp rfl (fun _ he => he) ?_ (fun other day hne => ?_) fun day hne => ?_
    · rw [htotal, if_pos ⟨rfl, rfl⟩]
      exact hledger
    · rw [htotal, if_neg fun hk => hne hk.1.symm, add_zero]
    · rw [htotal, if_neg fun hd => hne hd.2.symm, add_zero]

theorem Sound.checked (h : s.Sound) (he : s.sampled[k]? = some e)
    (hdue : 0 < cap e.key → s.InTime e.key e.sampled) : (s.step cap (.check k)).Sound := by
  have hmem : ∀ x ∈ s.sampled.eraseIdx k, x ∈ s.sampled := fun x hx => List.mem_of_mem_eraseIdx hx
  have hstamp : e.sampled ≤ s.clock := h.sampled e (List.mem_of_getElem? he)
  simp only [step, he, ShadowLedger.maySpend]
  split
  · exact h.frame le_rfl (fun x hx => h.sampled x (hmem x hx)) rfl fun _ _ => rfl
  · rename_i hpos
    have ht : s.InTime e.key e.sampled := hdue (not_le.mp hpos)
    refine h.put ht hstamp rfl hmem ?_ (fun _ _ _ => rfl) fun _ _ => rfl
    rw [h.entry_eq ht]
    rfl

theorem Sound.step (h : s.Sound) (hm : s.Forward cap m) : (s.step cap m).Sound := by
  cases m with
  | tick secs =>
    have hclock : s.clock ≤ s.clock + secs := Int.le_add_of_nonneg_right (Int.natCast_nonneg secs)
    exact h.frame hclock (fun e he => (h.sampled e he).trans hclock) rfl fun _ _ => rfl
  | sample key usd =>
    refine h.frame le_rfl (fun e he => ?_) rfl fun _ _ => rfl
    rcases List.mem_append.mp he with he | he
    · exact h.sampled e he
    · rw [List.mem_singleton.mp he]
      exact le_rfl
  | check k =>
    cases he : s.sampled[k]? with
    | none => simpa [State.step, he] using h
    | some e => exact h.checked he (hm e he)
  | debit k stamp =>
    cases he : s.inFlight[k]? with
    | none => simpa [State.step, he] using h
    | some e =>
      simp only [State.step, he]
      split
      · rename_i hstamp
        have hdebited : (s.debited e.key e.usd stamp).Sound := h.debited (hm e he) hstamp.2
        exact hdebited.frame le_rfl hdebited.sampled rfl fun _ _ => rfl
      · exact h
  | drop k => exact h.frame le_rfl h.sampled rfl fun _ _ => rfl
  | seed k now =>
    cases hr : s.unseeded[k]? with
    | none => simpa [State.step, hr] using h
    | some r =>
      simp only [State.step, hr]
      split
      · exact h
      · rename_i hnow
        by_cases hday : dayOf r.recorded = dayOf now
        · have hdebited : (s.debited r.key r.usd now).Sound :=
            h.debited (hm r hr hday) (not_lt.mp hnow)
          simp only [ShadowLedger.seed, hday, if_true]
          exact hdebited.frame le_rfl hdebited.sampled rfl fun _ _ => rfl
        · simp only [ShadowLedger.seed, hday, if_false]
          exact h.frame le_rfl h.sampled rfl fun _ _ => rfl

theorem Sound.run (h : s.Sound) (hm : s.Orderly cap moves) : (s.run cap moves).Sound := by
  induction moves generalizing s with
  | nil => exact h
  | cons m moves ih => exact ih (h.step hm.1) hm.2

/-- The move is stamped with the time of the clock. -/
def Fresh (s : State F) : Move F → Prop
  | .check k => ∀ e ∈ s.sampled[k]?, e.sampled = s.clock
  | .debit _ stamp => stamp = s.clock
  | .seed _ now => now = s.clock
  | _ => True

theorem Sound.inTime (h : s.Sound) : s.InTime key s.clock := by
  intro e he
  have hrecorded := h.recorded key
  rw [he] at hrecorded
  exact hrecorded.2.1

theorem Sound.forward (h : s.Sound) (hm : s.Fresh m) : s.Forward cap m := by
  cases m with
  | check k =>
    intro e he _
    rw [hm e he]
    exact h.inTime
  | debit k stamp =>
    intro e _ _
    rw [show stamp = s.clock from hm]
    exact h.inTime
  | seed k now =>
    intro r _ _ _
    rw [show now = s.clock from hm]
    exact h.inTime
  | tick => trivial
  | sample => trivial
  | drop => trivial

/-- Times that are sampled where they are used never go back a day. -/
theorem Sound.orderly (h : s.Sound) (hfresh : ∀ first m second, moves = first ++ m :: second →
    (s.run cap first).Fresh m) : s.Orderly cap moves := by
  induction moves generalizing s with
  | nil => trivial
  | cons m moves ih =>
    have hm : s.Forward cap m := h.forward (hfresh [] m moves rfl)
    refine ⟨hm, ih (h.step hm) fun first next second heq => ?_⟩
    exact hfresh (m :: first) next second (congrArg (m :: ·) heq)

-- ---------------------------------------------------------------------------
-- What a day can still spend
-- ---------------------------------------------------------------------------

/-- The evaluations in flight that can still debit a day. -/
def pendingUsd (s : State F) (key : Key) (day : Int) : F :=
  charges (fun e => e.key = key ∧ dayOf e.sampled ≤ day) Evaluation.usd s.inFlight

/-- What a day has spent and can still spend, if nothing starts. -/
def exposure (s : State F) (key : Key) (day : Int) : F :=
  s.total key day + s.pendingUsd key day + s.unseededUsd key

/-- No evaluation that could debit a day starts once the day has reached the cap. -/
theorem Sound.no_start (h : s.Sound) (hdue : 0 < cap key → s.InTime key stamp)
    (hday : dayOf stamp ≤ day) (hcap : cap key ≤ s.total key day) :
    (s.ledger.maySpend key (cap key) stamp).2 = false := by
  rcases le_or_gt (cap key) 0 with hzero | hpos
  · simp [ShadowLedger.maySpend, hzero]
  rw [Bool.eq_false_iff]
  intro hstart
  have ht : s.InTime key stamp := hdue hpos
  obtain ⟨_, hlt⟩ := (h.maySpend ht).mp hstart
  rcases eq_or_lt_of_le hday with heq | hlater
  · rw [heq] at hlt
    exact not_lt.mpr hcap hlt
  · rw [(h.recorded key).later ht day hlater] at hcap
    exact not_lt.mpr hcap hpos

theorem Sound.starts (h : s.Sound) (hm : s.Forward cap (.check k)) (hs : s.Starts cap k e) :
    s.total e.key (dayOf s.clock) < cap e.key := by
  obtain ⟨he, hspend⟩ := hs
  have hstamp : e.sampled ≤ s.clock := h.sampled e (List.mem_of_getElem? he)
  by_contra hcap
  have hstop := h.no_start (hm e he) (dayOf_le hstamp) (not_lt.mp hcap)
  rw [hstop] at hspend
  cases hspend

section exposure
variable [IsOrderedAddMonoid F]

theorem total_step (s : State F) (m : Move F) (key : Key) (day : Int) :
    s.total key day ≤ (s.step cap m).total key day := by
  have happend (d : Debit F) : s.total key day ≤
      ({ s with debits := s.debits ++ [d] } : State F).total key day :=
    charges_sublist (List.sublist_append_left ..)
  cases m with
  | tick => exact le_rfl
  | sample => exact le_rfl
  | check k =>
    simp only [step]
    split <;> exact le_rfl
  | debit k stamp =>
    simp only [step]
    split
    · exact le_rfl
    · split
      · exact happend _
      · exact le_rfl
  | drop => exact le_rfl
  | seed k now =>
    simp only [step]
    split
    · exact le_rfl
    · split
      · exact le_rfl
      · split
        · exact happend _
        · exact le_rfl

theorem exposure_debit (he : s.inFlight[k]? = some e) (hle : e.sampled ≤ stamp) (key : Key)
    (day : Int) :
    ({ s.debited e.key e.usd stamp with inFlight := s.inFlight.eraseIdx k } : State F).exposure
      key day ≤ s.exposure key day := by
  have htotal := total_debited s e.key key e.usd stamp day
  have hpending : s.pendingUsd key day = _ := charges_eraseIdx he
  have hcharge : (if e.key = key ∧ dayOf stamp = day then charge e.usd else 0) ≤
      if e.key = key ∧ dayOf e.sampled ≤ day then charge e.usd else 0 := by
    split
    · rename_i h
      rw [if_pos ⟨h.1, h.2 ▸ dayOf_le hle⟩]
    · split
      · exact charge_nonneg _
      · exact le_rfl
  have hsum : s.total key day + (if e.key = key ∧ dayOf stamp = day then charge e.usd else 0) +
      charges (fun e => e.key = key ∧ dayOf e.sampled ≤ day) Evaluation.usd
        (s.inFlight.eraseIdx k) ≤ s.total key day + s.pendingUsd key day := by
    rw [hpending, add_assoc]
    exact add_le_add_right (add_le_add_left hcharge _) _
  exact add_le_add_left ((add_le_add_left htotal.le _).trans hsum) _

theorem exposure_seed (hr : s.unseeded[k]? = some r) (key : Key) (day : Int) :
    ({ s with
      ledger := s.ledger.seed r.key r.usd r.recorded now
      unseeded := s.unseeded.eraseIdx k
      debits := if dayOf r.recorded = dayOf now then s.debits ++ [⟨r.key, now, r.usd⟩]
        else s.debits } : State F).exposure key day ≤ s.exposure key day := by
  have hunseeded : s.unseededUsd key = _ := charges_eraseIdx hr
  have htotal : charges (fun d => d.key = key ∧ dayOf d.stamp = day) Debit.usd
      (if dayOf r.recorded = dayOf now then s.debits ++ [⟨r.key, now, r.usd⟩] else s.debits) ≤
        s.total key day + if r.key = key then charge r.usd else 0 := by
    have hrow : 0 ≤ if r.key = key then charge r.usd else 0 := by
      split
      · exact charge_nonneg _
      · exact le_rfl
    split
    · rw [charges_append]
      refine add_le_add_right ?_ _
      split
      · rename_i h
        rw [if_pos h.1]
      · exact hrow
    · exact le_add_of_nonneg_right hrow
  unfold exposure
  rw [hunseeded, ← add_assoc, add_right_comm (s.total key day)]
  exact add_le_add_left (add_le_add_left htotal _) _

theorem exposure_step (h : s.Sound) (hm : s.Forward cap m)
    (hcap : cap key ≤ (s.step cap m).total key day) :
    (s.step cap m).exposure key day ≤ s.exposure key day := by
  cases m with
  | tick => exact le_rfl
  | sample => exact le_rfl
  | check k =>
    cases he : s.sampled[k]? with
    | none => simp [step, he]
    | some e =>
      simp only [step, he] at hcap ⊢
      have hpending : charges (fun e => e.key = key ∧ dayOf e.sampled ≤ day) Evaluation.usd
          (if (s.ledger.maySpend e.key (cap e.key) e.sampled).2 then s.inFlight ++ [e]
            else s.inFlight) ≤ s.pendingUsd key day := by
        split
        · rename_i hstart
          have hfree : ¬(e.key = key ∧ dayOf e.sampled ≤ day) := by
            rintro ⟨rfl, hday⟩
            rw [h.no_start (hm e he) hday hcap] at hstart
            cases hstart
          rw [charges_append, if_neg hfree, add_zero]
          exact le_rfl
        · exact le_rfl
      exact add_le_add_left (add_le_add_right hpending _) _
  | debit k stamp =>
    cases he : s.inFlight[k]? with
    | none => simp [step, he]
    | some e =>
      simp only [step, he]
      split
      · rename_i hstamp
        exact exposure_debit he hstamp.1 key day
      · exact le_rfl
  | drop k =>
    have hpending : (s.step cap (.drop k)).pendingUsd key day ≤ s.pendingUsd key day :=
      charges_sublist (List.eraseIdx_sublist s.inFlight k)
    exact add_le_add_left (add_le_add_right hpending _) _
  | seed k now =>
    cases hr : s.unseeded[k]? with
    | none => simp [step, hr]
    | some r =>
      simp only [step, hr]
      split
      · exact le_rfl
      · exact exposure_seed hr key day

/-- Once a day has reached the cap, what it can spend does not grow. -/
theorem exposure_run (h : s.Sound) (hm : s.Orderly cap moves) (hcap : cap key ≤ s.total key day) :
    (s.run cap moves).exposure key day ≤ s.exposure key day := by
  induction moves generalizing s with
  | nil => exact le_rfl
  | cons m moves ih =>
    have hstep : cap key ≤ (s.step cap m).total key day := hcap.trans (total_step s m key day)
    exact (ih (h.step hm.1) hm.2 hstep).trans (exposure_step h hm.1 hstep)

theorem total_le_exposure (s : State F) (key : Key) (day : Int) :
    s.total key day ≤ s.exposure key day := by
  have hpending : 0 ≤ s.pendingUsd key day := charges_sublist (List.nil_sublist s.inFlight)
  have hunseeded : 0 ≤ s.unseededUsd key := charges_sublist (List.nil_sublist s.unseeded)
  exact (le_add_of_nonneg_right hpending).trans (le_add_of_nonneg_right hunseeded)

theorem exposure_le (s : State F) (key : Key) (day : Int) :
    s.exposure key day ≤ s.total key day + s.inFlightUsd key + s.unseededUsd key :=
  add_le_add_left (add_le_add_right (charges_imp (fun _ h => h.1) s.inFlight) _) _

end exposure

-- ---------------------------------------------------------------------------
-- The cap of a day
-- ---------------------------------------------------------------------------

/-- What the ledger is for, at a point of a run that goes on with `moves`: the spend on
record today is that of its debits and seeds; no evaluation starts at the cap; and a day
that reaches the cap goes over it by no more than what is in flight, with the rows that
are still to be seeded. -/
structure Capped (cap : Key → F) (s : State F) (moves : List (Move F)) : Prop where
  onRecord : ∀ key, s.ledger.spentToday key s.clock = s.total key (dayOf s.clock)
  starts : ∀ k rest e, moves = .check k :: rest → s.Starts cap k e →
    s.total e.key (dayOf s.clock) < cap e.key
  overshoot : ∀ m rest key day, moves = m :: rest → s.total key day < cap key →
    cap key ≤ (s.step cap m).total key day →
      (s.run cap moves).total key day ≤ cap key + s.inFlightUsd key + s.unseededUsd key

variable [IsOrderedAddMonoid F]

theorem Sound.capped (h : s.Sound) (hm : s.Orderly cap moves) : s.Capped cap moves where
  onRecord key := ShadowLedger.spentToday_eq (h.recorded key)
  starts := by
    rintro k rest e rfl hs
    exact h.starts hm.1 hs
  overshoot := by
    rintro m rest key day rfl hunder hcap
    calc (s.run cap (m :: rest)).total key day
        ≤ (s.run cap (m :: rest)).exposure key day := total_le_exposure _ key day
      _ ≤ (s.step cap m).exposure key day := exposure_run (h.step hm.1) hm.2 hcap
      _ ≤ s.exposure key day := exposure_step h hm.1 hcap
      _ ≤ s.total key day + s.inFlightUsd key + s.unseededUsd key := exposure_le s key day
      _ ≤ cap key + s.inFlightUsd key + s.unseededUsd key :=
        add_le_add_left (add_le_add_left hunder.le _) _

omit [IsOrderedAddMonoid F] in
theorem Orderly.append (h : s.Orderly cap (first ++ second)) :
    s.Orderly cap first ∧ (s.run cap first).Orderly cap second := by
  induction first generalizing s with
  | nil => exact ⟨trivial, h⟩
  | cons m first ih =>
    obtain ⟨hm, hrest⟩ := h
    obtain ⟨hfirst, hsecond⟩ := ih hrest
    exact ⟨⟨hm, hfirst⟩, hsecond⟩

/-- Two evaluations before and after midnight, and a third check: the first debits last,
with the time it sampled. -/
def staleRun : List (Move ℤ) :=
  [.sample ("t", 0) (some 1), .check 0, .tick 86400, .sample ("t", 0) (some 5), .check 0,
    .debit 1 8726400, .debit 0 8640000, .sample ("t", 0) (some 5)]

end State

end Firstpass.Shadow
