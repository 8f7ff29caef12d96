import Mathlib.Data.List.Induction
import Mathlib.Data.List.Infix
import Mathlib.Order.Nat

/-!
# Consumers of an append-only log

Several processes consume one log. Each has a cursor, reads the log from a
snapshot of it without holding its lock, and applies what it read later, when
other reads may have moved the cursor. Entries below the cursor are skipped.

`advance_inductive`: what consuming the entry at the cursor preserves, a slice of the log
preserves; `run_along` has it of a run whose other actions meet a condition. `Covers`:
what becomes of a state that also takes entries ahead of its cursor.
-/

namespace Firstpass.CursorLog

variable {ι σ α Λ β : Type}

/-- A process: its cursor, what it does with the entry at a position, what else it
may perform, and how it boots. -/
structure Consumer (σ α Λ β : Type) where
  cursor : σ → Nat
  consume : σ → Nat → α → σ
  perform : Λ → σ → σ
  boot : β → σ
  cursor_consume : ∀ s a, cursor (consume s (cursor s) a) = cursor s + 1
  cursor_perform : ∀ l s, cursor (perform l s) = cursor s
  cursor_boot : ∀ b, cursor (boot b) = 0

namespace Consumer

variable (c : Consumer σ α Λ β)

/-- Apply a batch that was read from position `n` on. -/
def batch (s : σ) (n : Nat) : List α → σ
  | [] => s
  | a :: as => batch (if n < c.cursor s then s else c.consume s n a) (n + 1) as

/-- Consume entries where the cursor stands. -/
def advance (s : σ) (as : List α) : σ := as.foldl (fun s a => c.consume s (c.cursor s) a) s

theorem cursor_advance (s : σ) (as : List α) :
    c.cursor (c.advance s as) = c.cursor s + as.length := by
  induction as generalizing s with
  | nil => rfl
  | cons a as ih =>
    rw [advance, List.foldl_cons, ← advance, ih, c.cursor_consume, List.length_cons]
    omega

/-- A stale batch does what its unread part does. -/
theorem batch_eq_advance {s : σ} {n : Nat} (h : n ≤ c.cursor s) (as : List α) :
    c.batch s n as = c.advance s (as.drop (c.cursor s - n)) := by
  induction as generalizing s n with
  | nil => simp [batch, advance]
  | cons a as ih =>
    rw [batch]
    by_cases hlt : n < c.cursor s
    · have hdrop : c.cursor s - n = c.cursor s - (n + 1) + 1 := by omega
      rw [if_pos hlt, ih hlt, hdrop, List.drop_succ_cons]
    · obtain rfl : n = c.cursor s := by omega
      rw [if_neg hlt, ih (c.cursor_consume s a).ge, c.cursor_consume, Nat.sub_self, Nat.sub_self]
      rfl

/-- What consuming the entry at the cursor preserves, a slice of the log preserves. -/
theorem advance_inductive {log : List α} {P : σ → Prop}
    (hconsume : ∀ s a, log[c.cursor s]? = some a → P s → P (c.consume s (c.cursor s) a))
    {s : σ} {as : List α} (h : as <+: log.drop (c.cursor s)) (hs : P s) : P (c.advance s as) := by
  induction as generalizing s with
  | nil => exact hs
  | cons a as ih =>
    obtain ⟨rest, hrest⟩ := h
    have ha : log[c.cursor s]? = some a := by
      have hhead := congrArg (·[0]?) hrest
      simpa [List.getElem?_drop] using hhead.symm
    refine ih ⟨rest, ?_⟩ (hconsume s a ha hs)
    rw [c.cursor_consume, ← List.drop_drop, ← hrest]
    rfl

end Consumer

-- ---------------------------------------------------------------------------
-- Runs
-- ---------------------------------------------------------------------------

/-- A read that is under way: the snapshot it started from and, once the log has
answered, the entries from there on. -/
structure Fetch (α : Type) where
  offset : Nat
  batch : Option (List α)

structure Process (σ α : Type) where
  state : σ
  fetches : List (Fetch α)

structure System (ι σ α : Type) where
  log : List α
  process : ι → Process σ α

inductive Action (ι α Λ β : Type)
  | append (a : α)
  | begin (i : ι)
  | load (i : ι) (k : Nat)
  | apply (i : ι) (k : Nat)
  | abort (i : ι) (k : Nat)
  | act (i : ι) (l : Λ)
  | restart (i : ι) (b : β)

def Action.owner : Action ι α Λ β → Option ι
  | .append _ => none
  | .begin i => some i
  | .load i _ => some i
  | .apply i _ => some i
  | .abort i _ => some i
  | .act i _ => some i
  | .restart i _ => some i

def Fetch.load (f : Fetch α) (log : List α) : Fetch α :=
  match f.batch with
  | none => { f with batch := some (log.drop f.offset) }
  | some _ => f

namespace Consumer

variable (c : Consumer σ α Λ β)

def applyFetch (p : Process σ α) (k : Nat) : Process σ α :=
  match p.fetches[k]? with
  | some ⟨offset, some batch⟩ => ⟨c.batch p.state offset batch, p.fetches.eraseIdx k⟩
  | _ => p

/-- One move, seen by the process it is a move of. -/
def moveOne (log : List α) (p : Process σ α) : Action ι α Λ β → Process σ α
  | .append _ => p
  | .begin _ => { p with fetches := p.fetches ++ [⟨c.cursor p.state, none⟩] }
  | .load _ k => { p with fetches := p.fetches.modify k (·.load log) }
  | .apply _ k => c.applyFetch p k
  | .abort _ k => { p with fetches := p.fetches.eraseIdx k }
  | .act _ l => { p with state := c.perform l p.state }
  | .restart _ b => ⟨c.boot b, []⟩

/-- The reads of a process are of the log, from no further than its cursor. -/
structure Ok (log : List α) (p : Process σ α) : Prop where
  cursor_le : c.cursor p.state ≤ log.length
  offset_le : ∀ f ∈ p.fetches, f.offset ≤ c.cursor p.state
  slice : ∀ f ∈ p.fetches, ∀ b, f.batch = some b → b <+: log.drop f.offset

/-- What a move of a process does to its state. -/
inductive Moved (log : List α) (s : σ) : Action ι α Λ β → σ → Prop
  | same : (∀ i l, a ≠ .act i l) → (∀ i b, a ≠ .restart i b) → Moved log s a s
  | read : as <+: log.drop (c.cursor s) → Moved log s (.apply i k) (c.advance s as)
  | act : Moved log s (.act i l) (c.perform l s)
  | restart : Moved log s (.restart i b) (c.boot b)

theorem Ok.apply {log : List α} {p : Process σ α} (hok : c.Ok log p) (k : Nat) :
    c.applyFetch p k = p ∨ ∃ as, as <+: log.drop (c.cursor p.state) ∧
      c.applyFetch p k = ⟨c.advance p.state as, p.fetches.eraseIdx k⟩ := by
  rw [applyFetch]
  split
  · next offset batch hget =>
    have hmem := List.mem_of_getElem? hget
    have hle := hok.offset_le _ hmem
    have hslice := (hok.slice _ hmem batch rfl).drop (c.cursor p.state - offset)
    rw [List.drop_drop, Nat.add_sub_cancel' hle] at hslice
    exact .inr ⟨_, hslice, by rw [c.batch_eq_advance hle]⟩
  · exact .inl rfl

theorem Ok.moved {log : List α} {p : Process σ α} (hok : c.Ok log p) (a : Action ι α Λ β) :
    Moved c log p.state a (c.moveOne log p a).state := by
  cases a with
  | append e => exact .same nofun nofun
  | begin i => exact .same nofun nofun
  | load i k => exact .same nofun nofun
  | abort i k => exact .same nofun nofun
  | act i l => exact .act
  | restart i b => exact .restart
  | apply i k =>
    simp only [moveOne]
    rcases hok.apply c k with h | ⟨as, has, h⟩
    · rw [h]
      exact .same nofun nofun
    · rw [h]
      exact .read has

theorem length_le_of_prefix {log as : List α} {n : Nat} (hn : n ≤ log.length)
    (h : as <+: log.drop n) : n + as.length ≤ log.length := by
  have := h.length_le
  rw [List.length_drop] at this
  omega

theorem Ok.moveOne {log : List α} {p : Process σ α} (hok : c.Ok log p) (a : Action ι α Λ β) :
    c.Ok log (c.moveOne log p a) := by
  cases a with
  | append e => exact hok
  | begin i =>
    refine ⟨hok.cursor_le, fun f hf => ?_, fun f hf b hb => ?_⟩
    · rcases List.mem_append.mp hf with hf | hf
      · exact hok.offset_le f hf
      · rw [List.mem_singleton.mp hf]
        exact le_rfl
    · rcases List.mem_append.mp hf with hf | hf
      · exact hok.slice f hf b hb
      · rw [List.mem_singleton.mp hf] at hb
        cases hb
  | load i k =>
    have hfetch : ∀ f ∈ p.fetches.modify k (·.load log),
        f ∈ p.fetches ∨ ∃ f' ∈ p.fetches, f = f'.load log := by
      intro f hf
      obtain ⟨n, hn⟩ := List.mem_iff_getElem?.mp hf
      rw [List.getElem?_modify] at hn
      cases hget : p.fetches[n]? with
      | none => simp [hget] at hn
      | some f' =>
        have hmem := List.mem_of_getElem? hget
        by_cases hk : k = n
        · exact .inr ⟨f', hmem, by simpa [hget, hk] using hn.symm⟩
        · exact .inl (by simp [hget, hk] at hn; exact hn ▸ hmem)
    refine ⟨hok.cursor_le, fun f hf => ?_, fun f hf b hb => ?_⟩
    · rcases hfetch f hf with hf | ⟨f', hf', rfl⟩
      · exact hok.offset_le f hf
      · rw [Fetch.load]
        split <;> exact hok.offset_le f' hf'
    · rcases hfetch f hf with hf | ⟨f', hf', rfl⟩
      · exact hok.slice f hf b hb
      · rw [Fetch.load] at hb ⊢
        split at hb
        · cases hb
          exact List.prefix_refl _
        · exact hok.slice f' hf' b hb
  | apply i k =>
    simp only [Consumer.moveOne]
    rcases hok.apply c k with h | ⟨as, has, h⟩
    · rw [h]
      exact hok
    · rw [h]
      refine ⟨?_, fun f hf => ?_, fun f hf => hok.slice f (List.mem_of_mem_eraseIdx hf)⟩
      · rw [c.cursor_advance]
        exact length_le_of_prefix hok.cursor_le has
      · rw [c.cursor_advance]
        exact Nat.le_add_right_of_le (hok.offset_le f (List.mem_of_mem_eraseIdx hf))
  | abort i k =>
    exact ⟨hok.cursor_le, fun f hf => hok.offset_le f (List.mem_of_mem_eraseIdx hf),
      fun f hf => hok.slice f (List.mem_of_mem_eraseIdx hf)⟩
  | act i l =>
    refine ⟨?_, fun f hf => ?_, hok.slice⟩
    · exact (c.cursor_perform l p.state).trans_le hok.cursor_le
    · exact (hok.offset_le f hf).trans_eq (c.cursor_perform l p.state).symm
  | restart i b =>
    exact ⟨(c.cursor_boot b).trans_le (Nat.zero_le _), nofun, nofun⟩

theorem Ok.mono {log log' : List α} {p : Process σ α} (hok : c.Ok log p) (h : log <+: log') :
    c.Ok log' p :=
  ⟨hok.cursor_le.trans h.length_le, hok.offset_le,
    fun f hf b hb => (hok.slice f hf b hb).trans (h.drop f.offset)⟩

variable [DecidableEq ι]

def step (sys : System ι σ α) (a : Action ι α Λ β) : System ι σ α where
  log := match a with
    | .append e => sys.log ++ [e]
    | _ => sys.log
  process := fun i =>
    if a.owner = some i then c.moveOne sys.log (sys.process i) a else sys.process i

def run (sys : System ι σ α) (actions : List (Action ι α Λ β)) : System ι σ α :=
  actions.foldl c.step sys

theorem run_concat (sys : System ι σ α) (actions : List (Action ι α Λ β)) (a : Action ι α Λ β) :
    c.run sys (actions ++ [a]) = c.step (c.run sys actions) a := by
  simp [run]

theorem run_append (sys : System ι σ α) (first second : List (Action ι α Λ β)) :
    c.run sys (first ++ second) = c.run (c.run sys first) second := List.foldl_append

theorem step_log (sys : System ι σ α) (a : Action ι α Λ β) : sys.log <+: (c.step sys a).log := by
  cases a with
  | append e => exact List.prefix_append _ _
  | _ => exact List.prefix_refl _

theorem run_log (sys : System ι σ α) (actions : List (Action ι α Λ β)) :
    sys.log <+: (c.run sys actions).log := by
  induction actions using List.reverseRecOn with
  | nil => exact List.prefix_refl _
  | append_singleton actions a ih =>
    rw [c.run_concat]
    exact ih.trans (c.step_log _ a)

theorem step_ok {sys : System ι σ α} (hok : ∀ i, c.Ok sys.log (sys.process i))
    (a : Action ι α Λ β) (i : ι) : c.Ok (c.step sys a).log ((c.step sys a).process i) := by
  refine Ok.mono c ?_ (c.step_log sys a)
  simp only [step]
  split
  · exact (hok i).moveOne c a
  · exact hok i

theorem run_ok {sys : System ι σ α} (hok : ∀ i, c.Ok sys.log (sys.process i))
    (actions : List (Action ι α Λ β)) (i : ι) :
    c.Ok (c.run sys actions).log ((c.run sys actions).process i) := by
  induction actions using List.reverseRecOn generalizing i with
  | nil => exact hok i
  | append_singleton actions a ih =>
    rw [c.run_concat]
    exact c.step_ok ih a i

/-- What a move of the system does to the state of one process. -/
theorem step_moved {sys : System ι σ α} {i : ι} (hok : c.Ok sys.log (sys.process i))
    (a : Action ι α Λ β) :
    a.owner ≠ some i ∧ ((c.step sys a).process i).state = (sys.process i).state ∨
      a.owner = some i ∧
        Moved c sys.log (sys.process i).state a ((c.step sys a).process i).state := by
  by_cases howner : a.owner = some i
  · simp only [step, howner, if_true]
    exact .inr ⟨trivial, hok.moved c a⟩
  · simp only [step, howner, if_false]
    exact .inl ⟨howner, trivial⟩

/-- The cursor of a process goes back only when the process restarts. -/
theorem cursor_run_le {sys : System ι σ α} (hok : ∀ i, c.Ok sys.log (sys.process i)) {i : ι}
    {actions : List (Action ι α Λ β)} (hno : ∀ b, .restart i b ∉ actions) :
    c.cursor (sys.process i).state ≤ c.cursor ((c.run sys actions).process i).state := by
  induction actions using List.reverseRecOn with
  | nil => exact le_rfl
  | append_singleton actions a ih =>
    refine (ih fun b hb => hno b (List.mem_append_left _ hb)).trans ?_
    rw [c.run_concat]
    rcases c.step_moved (c.run_ok hok actions i) a with ⟨-, hsame⟩ | ⟨howner, hmoved⟩
    · exact (congrArg c.cursor hsame).ge
    · generalize ((c.step (c.run sys actions) a).process i).state = s at hmoved ⊢
      cases hmoved with
      | same _ _ => exact le_rfl
      | read has =>
        rw [c.cursor_advance]
        exact Nat.le_add_right _ _
      | act => exact (c.cursor_perform _ _).ge
      | restart =>
        cases howner
        exact (hno _ (List.mem_append_right _ (List.mem_singleton_self _))).elim

end Consumer

-- ---------------------------------------------------------------------------
-- Entries taken ahead of the cursor
-- ---------------------------------------------------------------------------

/-- What a state holds of the log. An entry carries at most one item; to accept an item
that is settled changes nothing, and a settled item stays settled. -/
structure View (α ν ε : Type) where
  item : α → Option ε
  accept : ν → ε → ν
  settled : ν → ε → Prop
  accept_settled : ∀ v e, settled v e → accept v e = v
  settled_accept : ∀ v e e', settled v e → settled (accept v e') e

namespace View

variable {ν ε : Type} (w : View α ν ε) {log : List α} {v₀ : ν}

def itemAt (log : List α) (n : Nat) : Option ε := log[n]?.bind w.item

def acceptEntry (v : ν) (a : α) : ν :=
  match w.item a with
  | none => v
  | some e => w.accept v e

/-- The first `n` entries, accepted in order. -/
def held (v₀ : ν) (log : List α) (n : Nat) : ν := (log.take n).foldl w.acceptEntry v₀

theorem held_succ (v₀ : ν) (log : List α) (n : Nat) :
    w.held v₀ log (n + 1) = match w.itemAt log n with
      | none => w.held v₀ log n
      | some e => w.accept (w.held v₀ log n) e := by
  rw [held, List.take_add_one, List.foldl_append, itemAt]
  cases hget : log[n]? with
  | none => rfl
  | some a => rfl

/-- An item may be accepted ahead of the cursor `n`: it is settled, or it is remembered
once accepted, and every unread entry before it is settled. -/
def InOrder (log : List α) (n : Nat) (v : ν) (e : ε) : Prop :=
  w.settled v e ∨ (∀ v, w.settled (w.accept v e) e) ∧
    ∃ m, w.itemAt log m = some e ∧
      ∀ k e', n ≤ k → k < m → w.itemAt log k = some e' → w.settled v e'

/-- Items accepted one after the other, each of them in order. -/
def InOrderAll (log : List α) (n : Nat) : ν → List ε → Prop
  | _, [] => True
  | v, e :: es => w.InOrder log n v e ∧ InOrderAll log n (w.accept v e) es

/-- The state `v` holds a prefix of the log, and what of it the cursor `n` has yet to
pass is settled. -/
def Covers (log : List α) (v₀ : ν) (n : Nat) (v : ν) : Prop :=
  ∃ m, n ≤ m ∧ m ≤ log.length ∧ v = w.held v₀ log m ∧
    ∀ k e, n ≤ k → k < m → w.itemAt log k = some e → w.settled v e

theorem settled_held {n : Nat} {e : ε} (hkept : ∀ v, w.settled (w.accept v e) e) {m : Nat}
    (hm : m < n) (he : w.itemAt log m = some e) : w.settled (w.held v₀ log n) e := by
  induction n with
  | zero => exact absurd hm (Nat.not_lt_zero m)
  | succ n ih =>
    rw [held_succ]
    rcases Nat.lt_succ_iff_lt_or_eq.mp hm with hlt | rfl
    · split
      · exact ih hlt
      · exact w.settled_accept _ _ _ (ih hlt)
    · rw [he]
      exact hkept _

/-- Entries whose items are settled add nothing. -/
theorem held_settled {v : ν} {n m : Nat} (hnm : n ≤ m) (hv : v = w.held v₀ log n)
    (hsettled : ∀ k e, n ≤ k → k < m → w.itemAt log k = some e → w.settled v e) :
    v = w.held v₀ log m := by
  induction m, hnm using Nat.le_induction with
  | base => exact hv
  | succ m hnm ih =>
    have hheld := ih fun k e hk hkm => hsettled k e hk (Nat.lt_succ_of_lt hkm)
    rw [held_succ]
    split
    · exact hheld
    · next e he =>
      rw [← hheld, w.accept_settled v e (hsettled m e hnm (Nat.lt_succ_self m) he)]

theorem Covers.boot : w.Covers log v₀ 0 v₀ :=
  ⟨0, le_rfl, Nat.zero_le _, rfl, fun _ _ _ hk => absurd hk (Nat.not_lt_zero _)⟩

theorem Covers.consume {n : Nat} {v : ν} (h : w.Covers log v₀ n v) {a : α}
    (ha : log[n]? = some a) : w.Covers log v₀ (n + 1) (w.acceptEntry v a) := by
  obtain ⟨m, hle, hlen, hheld, hsettled⟩ := h
  have hitem : w.itemAt log n = w.item a := by rw [itemAt, ha, Option.bind_some]
  rcases Nat.eq_or_lt_of_le hle with rfl | hn
  · -- the cursor stands where the held prefix ends: the prefix grows by the entry
    refine ⟨n + 1, le_rfl, (List.getElem?_eq_some_iff.mp ha).1, ?_, fun k e hk hkn => by omega⟩
    rw [held_succ, hitem, hheld, acceptEntry]
  · -- the entry was taken ahead of the cursor
    have hsame : w.acceptEntry v a = v := by
      rw [acceptEntry]
      cases he : w.item a with
      | none => rfl
      | some e => exact w.accept_settled _ _ (hsettled _ e le_rfl hn (hitem.trans he))
    rw [hsame]
    exact ⟨m, hn, hlen, hheld, fun k e hk => hsettled k e (Nat.le_of_succ_le hk)⟩

theorem Covers.early {n : Nat} {v : ν} (h : w.Covers log v₀ n v) {e : ε}
    (horder : w.InOrder log n v e) : w.Covers log v₀ n (w.accept v e) := by
  by_cases hnew : w.settled v e
  · rwa [w.accept_settled _ _ hnew]
  · obtain ⟨m, hle, hlen, hheld, hsettled⟩ := h
    obtain ⟨hkept, l, hl, hbefore⟩ := horder.resolve_left hnew
    have hml : m ≤ l := by
      by_contra hlm
      exact hnew (hheld ▸ w.settled_held hkept (Nat.lt_of_not_le hlm) hl)
    have hheld' : v = w.held v₀ log l :=
      w.held_settled hml hheld fun k e' hk hkl => hbefore k e' (hle.trans hk) hkl
    refine ⟨l + 1, by omega, ?_, ?_, fun k e' hk hkl he' => ?_⟩
    · obtain ⟨a, ha, -⟩ := Option.bind_eq_some_iff.mp hl
      exact (List.getElem?_eq_some_iff.mp ha).1
    · rw [held_succ, hl, hheld']
    · rcases Nat.lt_succ_iff_lt_or_eq.mp hkl with hlt | rfl
      · exact w.settled_accept _ _ _ (hbefore k e' hk hlt he')
      · obtain rfl : e' = e := Option.some.inj (he'.symm.trans hl)
        exact hkept _

theorem Covers.earlyAll {n : Nat} {v : ν} (h : w.Covers log v₀ n v) {es : List ε}
    (horder : w.InOrderAll log n v es) : w.Covers log v₀ n (es.foldl w.accept v) := by
  induction es generalizing v with
  | nil => exact h
  | cons e es ih => exact ih (h.early w horder.1) horder.2

theorem Covers.done {v : ν} (h : w.Covers log v₀ log.length v) :
    v = log.foldl w.acceptEntry v₀ := by
  obtain ⟨m, hle, hlen, hheld, -⟩ := h
  obtain rfl : m = log.length := by omega
  rwa [held, List.take_length] at hheld

end View

-- ---------------------------------------------------------------------------
-- Runs that meet a condition
-- ---------------------------------------------------------------------------

namespace Consumer

variable [DecidableEq ι] (c : Consumer σ α Λ β)

/-- Every action of the run meets `ok` in the state before it. -/
def Along (ok : System ι σ α → Action ι α Λ β → Prop) (sys : System ι σ α) :
    List (Action ι α Λ β) → Prop
  | [] => True
  | a :: actions => ok sys a ∧ Along ok (c.step sys a) actions

theorem along_of_forall {ok : System ι σ α → Action ι α Λ β → Prop} (h : ∀ sys a, ok sys a)
    (sys : System ι σ α) (actions : List (Action ι α Λ β)) : c.Along ok sys actions := by
  induction actions generalizing sys with
  | nil => trivial
  | cons a actions ih => exact ⟨h sys a, ih (c.step sys a)⟩

theorem run_along {log : List α} {ok : System ι σ α → Action ι α Λ β → Prop} {P : σ → Prop}
    (hconsume : ∀ s a, log[c.cursor s]? = some a → P s → P (c.consume s (c.cursor s) a))
    (hact : ∀ sys i l, ok sys (.act i l) → P (sys.process i).state →
      P (c.perform l (sys.process i).state))
    (hboot : ∀ sys i b, ok sys (.restart i b) → P (c.boot b))
    {sys : System ι σ α} {actions : List (Action ι α Λ β)}
    (hok : ∀ i, c.Ok sys.log (sys.process i)) (hlog : (c.run sys actions).log <+: log)
    (halong : c.Along ok sys actions) (hP : ∀ i, P (sys.process i).state) (i : ι) :
    P ((c.run sys actions).process i).state := by
  induction actions generalizing sys with
  | nil => exact hP i
  | cons a actions ih =>
    refine ih (fun i => c.step_ok hok a i) hlog halong.2 fun i => ?_
    rcases c.step_moved (hok i) a with ⟨-, hsame⟩ | ⟨howner, hmoved⟩
    · rw [hsame]
      exact hP i
    · generalize ((c.step sys a).process i).state = s at hmoved ⊢
      cases hmoved with
      | same _ _ => exact hP i
      | read has =>
        have hsys : sys.log <+: log :=
          (c.step_log sys _).trans ((c.run_log _ actions).trans hlog)
        exact c.advance_inductive hconsume (has.trans (hsys.drop _)) (hP i)
      | act =>
        cases howner
        exact hact sys _ _ halong.1 (hP _)
      | restart => exact hboot sys _ _ halong.1

end Consumer

end Firstpass.CursorLog
