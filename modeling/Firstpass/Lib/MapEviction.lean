import Mathlib.Data.List.AList
import Mathlib.Data.List.Sort

/-!
# Maps that lose entries

Keeping the entries of a map that satisfy a test, and erasing a list of keys: what is left
was there before.
-/

namespace AList

variable {α : Type*} {β : α → Type*}

def retain (s : AList β) (keep : Sigma β → Bool) : AList β :=
  ⟨s.entries.filter keep, s.nodupKeys.sublist List.filter_sublist⟩

@[simp] theorem mem_entries_retain {s : AList β} {keep : Sigma β → Bool} {e : Sigma β} :
    e ∈ (s.retain keep).entries ↔ e ∈ s.entries ∧ keep e := List.mem_filter

variable [DecidableEq α]

theorem lookup_retain (s : AList β) (keep : Sigma β → Bool) (a : α) :
    (s.retain keep).lookup a = (s.lookup a).filter fun b => keep ⟨a, b⟩ := by
  refine Option.ext fun b => ?_
  rw [Option.filter_eq_some_iff]
  change b ∈ (s.retain keep).lookup a ↔ b ∈ s.lookup a ∧ _
  rw [mem_lookup_iff, mem_lookup_iff]
  exact List.mem_filter

def eraseAll (s : AList β) (keys : List α) : AList β := keys.foldl (fun s a => s.erase a) s

theorem lookup_eraseAll (s : AList β) (keys : List α) (a : α) :
    (s.eraseAll keys).lookup a = if a ∈ keys then none else s.lookup a := by
  induction keys generalizing s with
  | nil => rfl
  | cons key keys ih =>
    rw [eraseAll, List.foldl_cons, ← eraseAll, ih]
    by_cases heq : a = key
    · subst heq
      simp [lookup_erase]
    · simp [heq, lookup_erase_ne heq]

theorem entries_eraseAll_sublist (s : AList β) (keys : List α) :
    (s.eraseAll keys).entries.Sublist s.entries := by
  induction keys generalizing s with
  | nil => exact .refl _
  | cons key keys ih => exact (ih (s.erase key)).trans (List.kerase_sublist key s.entries)

/-- Erasing a key that is there makes the map smaller. -/
theorem length_eraseAll_lt {s : AList β} {keys : List α} {a : α} (hkey : a ∈ keys) (ha : a ∈ s) :
    (s.eraseAll keys).entries.length < s.entries.length := by
  have hsub := entries_eraseAll_sublist s keys
  refine lt_of_le_of_ne hsub.length_le fun hlen => ?_
  have hsame : s.eraseAll keys = s := AList.ext (hsub.eq_of_length hlen)
  have hlookup := lookup_eraseAll s keys a
  rw [if_pos hkey, hsame, lookup_eq_none] at hlookup
  exact hlookup ha

theorem length_insert_le (s : AList β) (a : α) (b : β a) :
    (s.insert a b).entries.length ≤ s.entries.length + 1 :=
  Nat.succ_le_succ (List.kerase_sublist a s.entries).length_le

/-- An insertion adds the one entry. -/
theorem mem_entries_insert {s : AList β} {a : α} {b : β a} {e : Sigma β}
    (h : e ∈ (s.insert a b).entries) : e = ⟨a, b⟩ ∨ e ∈ s.entries := by
  rcases List.mem_cons.mp h with rfl | he
  · exact .inl rfl
  · exact .inr ((List.kerase_sublist a s.entries).subset he)

end AList
