import Mathlib.Data.Option.Basic
import Mathlib.Logic.Function.Basic

/-!
# A server of keys that expire

A key holds a text or a set of texts, and may have a time at which it is gone. The server executes
one command after the other, whoever sends them. A command on a key of the other kind fails, and
changes nothing.

Left out: a server that drops a key before its time.
-/

namespace ExpiringKeys

inductive Content
  | text (body : String)
  | members (ms : List String)

structure Slot where
  content : Content
  expires : Option Nat

structure Server where
  now : Nat
  slots : String → Option Slot

inductive Command
  | setex (key : String) (ttl : Nat) (body : String)
  | sadd (key member : String)
  | expire (key : String) (ttl : Nat)
  | del (keys : List String)

def Slot.live (now : Nat) (slot : Slot) : Bool := slot.expires.all fun t => now < t

namespace Server

variable (s : Server)

def find (key : String) : Option Slot := (s.slots key).filter (Slot.live s.now)

def get (key : String) : Option String :=
  match s.find key with
  | some ⟨.text body, _⟩ => some body
  | _ => none

def smembers (key : String) : List String :=
  match s.find key with
  | some ⟨.members ms, _⟩ => ms
  | _ => []

def set (key : String) (slot : Slot) : Server :=
  { s with slots := Function.update s.slots key (some slot) }

def exec : Command → Server
  -- A time to live of zero is refused.
  | .setex key ttl body => if ttl = 0 then s else s.set key ⟨.text body, some (s.now + ttl)⟩
  | .sadd key member =>
    match s.find key with
    | none => s.set key ⟨.members [member], none⟩
    | some ⟨.members ms, expires⟩ => s.set key ⟨.members (ms.insert member), expires⟩
    | some ⟨.text _, _⟩ => s
  | .expire key ttl =>
    match s.find key with
    | none => s
    | some slot => s.set key { slot with expires := some (s.now + ttl) }
  | .del keys => { s with slots := fun key => if key ∈ keys then none else s.slots key }

/-- Time passes. -/
def tick (n : Nat) : Server := { s with now := s.now + n }

end Server

-- ---------------------------------------------------------------------------
-- What a key holds afterwards
-- ---------------------------------------------------------------------------

section
variable {s : Server} {key k : String} {slot : Slot}

theorem find_eq_some : s.find key = some slot ↔ s.slots key = some slot ∧ slot.live s.now := by
  simp [Server.find, Option.filter_eq_some_iff]

theorem get_eq_some {body : String} :
    s.get key = some body ↔ ∃ expires, s.find key = some ⟨.text body, expires⟩ := by
  unfold Server.get
  constructor
  · intro h
    split at h
    · next heq => exact ⟨_, Option.some.inj h ▸ heq⟩
    · cases h
  · rintro ⟨expires, h⟩
    rw [h]

/-- What is found later was there before. -/
theorem find_tick {n : Nat} (h : (s.tick n).find key = some slot) : s.find key = some slot := by
  obtain ⟨hslot, hlive⟩ := find_eq_some.mp h
  refine find_eq_some.mpr ⟨hslot, ?_⟩
  obtain ⟨content, expires⟩ := slot
  cases expires with
  | none => rfl
  | some t =>
    have hlt : s.now + n < t := of_decide_eq_true hlive
    exact decide_eq_true (Nat.lt_of_le_of_lt (Nat.le_add_right ..) hlt)

@[simp] theorem slots_set_self : (s.set key slot).slots key = some slot :=
  Function.update_self ..

theorem slots_set_ne (h : k ≠ key) : (s.set key slot).slots k = s.slots k :=
  Function.update_of_ne h ..

theorem slots_del {keys : List String} :
    (s.exec (.del keys)).slots k = if k ∈ keys then none else s.slots k := rfl

theorem slots_of_del {keys : List String} (h : (s.exec (.del keys)).slots k = some slot) :
    s.slots k = some slot := by
  rw [slots_del] at h
  split at h
  · cases h
  · exact h

theorem find_del {keys : List String} :
    (s.exec (.del keys)).find k = if k ∈ keys then none else s.find k := by
  rw [Server.find, slots_del]
  split
  · rfl
  · rfl

theorem exec_sadd_none {member : String} (h : s.find key = none) :
    s.exec (.sadd key member) = s.set key ⟨.members [member], none⟩ := by
  rw [Server.exec, h]

theorem exec_expire_some {ttl : Nat} (h : s.find key = some slot) :
    s.exec (.expire key ttl) = s.set key { slot with expires := some (s.now + ttl) } := by
  rw [Server.exec, h]

theorem get_setex {ttl : Nat} (httl : ttl ≠ 0) (body : String) :
    (s.exec (.setex key ttl body)).get key = some body := by
  rw [Server.exec, if_neg httl]
  refine get_eq_some.mpr ⟨some (s.now + ttl), find_eq_some.mpr ⟨slots_set_self, ?_⟩⟩
  exact decide_eq_true (Nat.lt_add_of_pos_right (Nat.pos_of_ne_zero httl))

/-- The keys that a command writes. -/
def Command.keys : Command → List String
  | .setex key _ _ => [key]
  | .sadd key _ => [key]
  | .expire key _ => [key]
  | .del keys => keys

@[simp] theorem now_exec (c : Command) : (s.exec c).now = s.now := by
  cases c with
  | setex key ttl body =>
    rw [Server.exec]
    split <;> rfl
  | sadd key member =>
    rw [Server.exec]
    split <;> rfl
  | expire key ttl =>
    rw [Server.exec]
    split <;> rfl
  | del keys => rfl

/-- Other keys are left as they are. -/
theorem slots_exec_ne {c : Command} (h : k ∉ c.keys) : (s.exec c).slots k = s.slots k := by
  cases c with
  | setex key ttl body =>
    rw [Server.exec]
    split
    · rfl
    · exact slots_set_ne (by simpa [Command.keys] using h)
  | sadd key member =>
    have hne : k ≠ key := by simpa [Command.keys] using h
    rw [Server.exec]
    split
    · exact slots_set_ne hne
    · exact slots_set_ne hne
    · rfl
  | expire key ttl =>
    rw [Server.exec]
    split
    · rfl
    · exact slots_set_ne (by simpa [Command.keys] using h)
  | del keys => exact if_neg h

/-- What a key holds after a command: what it held, or what the command has written there. -/
theorem slots_exec {c : Command} (h : (s.exec c).slots k = some slot) :
    s.slots k = some slot ∨
    (∃ ttl body, c = .setex k ttl body ∧ slot = ⟨.text body, some (s.now + ttl)⟩) ∨
    (∃ member ms, c = .sadd k member ∧ slot.content = .members ms ∧
      ∀ m ∈ ms, m = member ∨ ∃ old expires, s.slots k = some ⟨.members old, expires⟩ ∧ m ∈ old) ∨
    (∃ ttl old, c = .expire k ttl ∧ s.slots k = some old ∧
      slot = { old with expires := some (s.now + ttl) }) := by
  by_cases hk : k ∈ c.keys
  swap
  · exact .inl (slots_exec_ne hk ▸ h)
  cases c with
  | setex key ttl body =>
    obtain rfl : k = key := by simpa [Command.keys] using hk
    rw [Server.exec] at h
    split at h
    · exact .inl h
    · rw [slots_set_self] at h
      exact .inr (.inl ⟨ttl, body, rfl, (Option.some.inj h).symm⟩)
  | sadd key member =>
    obtain rfl : k = key := by simpa [Command.keys] using hk
    rw [Server.exec] at h
    split at h
    · rw [slots_set_self] at h
      obtain rfl := Option.some.inj h
      exact .inr (.inr (.inl ⟨member, [member], rfl, rfl, by simp⟩))
    · next ms expires hfind =>
      rw [slots_set_self] at h
      obtain rfl := Option.some.inj h
      refine .inr (.inr (.inl ⟨member, ms.insert member, rfl, rfl, fun m hm => ?_⟩))
      rcases List.mem_insert_iff.mp hm with rfl | hm
      · exact .inl rfl
      · exact .inr ⟨ms, expires, (find_eq_some.mp hfind).1, hm⟩
    · exact .inl h
  | expire key ttl =>
    obtain rfl : k = key := by simpa [Command.keys] using hk
    rw [Server.exec] at h
    split at h
    · exact .inl h
    · next old hfind =>
      rw [slots_set_self] at h
      exact .inr (.inr (.inr ⟨ttl, old, rfl, (find_eq_some.mp hfind).1, (Option.some.inj h).symm⟩))
  | del keys =>
    rw [slots_del] at h
    split at h
    · cases h
    · exact .inl h

end

end ExpiringKeys
