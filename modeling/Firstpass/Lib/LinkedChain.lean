import Mathlib.Data.List.Forall2
import Mathlib.Data.List.Induction

/-!
# Hash-linked lists

A list of records where each names the hash of the one before it. The hash is
a relation, so that it may be undefined on a record.

`Linked.unique`: where the hash commits to the content of a record, the last
hash of a chain commits to the whole chain.
-/

namespace Firstpass.LinkedChain

/-- `Linked link hash g rs e`: the first record of `rs` links to `g`, each
other one to the hash of its predecessor, and `e` is the hash of the last. -/
inductive Linked (link : R → H) (hash : R → H → Prop) : H → List R → H → Prop
  | nil : Linked link hash g [] g
  | cons : link r = g → hash r h → Linked link hash h rs e → Linked link hash g (r :: rs) e

/-- The hash commits to the content of the records of `S`, and never to `g`. -/
structure Commits (link : R → H) (hash : R → H → Prop) (same : R → R → Prop) (g : H)
    (S : R → Prop) : Prop where
  content : S r → S r' → hash r h → hash r' h → same r r'
  sameLink : S r → S r' → same r r' → link r = link r'
  fresh : S r → ¬ hash r g

variable {link : R → H} {hash : R → H → Prop}

theorem linked_nil_iff : Linked link hash g [] e ↔ e = g := by
  constructor
  · rintro ⟨⟩; rfl
  · rintro rfl; exact .nil

theorem linked_cons_iff : Linked link hash g (r :: rs) e ↔
    link r = g ∧ ∃ h, hash r h ∧ Linked link hash h rs e := by
  constructor
  · rintro (_ | ⟨hl, hh, ht⟩); exact ⟨hl, _, hh, ht⟩
  · rintro ⟨hl, h, hh, ht⟩; exact .cons hl hh ht

theorem linked_append_iff : Linked link hash g (rs ++ rs') e ↔
    ∃ m, Linked link hash g rs m ∧ Linked link hash m rs' e := by
  induction rs generalizing g with
  | nil => simp [linked_nil_iff]
  | cons r rs ih =>
    simp only [List.cons_append, linked_cons_iff, ih]
    constructor
    · rintro ⟨hl, h, hh, m, hm, he⟩; exact ⟨m, ⟨hl, h, hh, hm⟩, he⟩
    · rintro ⟨m, ⟨hl, h, hh, hm⟩, he⟩; exact ⟨hl, h, hh, m, hm, he⟩

theorem linked_concat_iff : Linked link hash g (rs ++ [r]) e ↔
    Linked link hash g rs (link r) ∧ hash r e := by
  simp only [linked_append_iff, linked_cons_iff, linked_nil_iff]
  constructor
  · rintro ⟨m, hm, rfl, h, hh, rfl⟩; exact ⟨hm, hh⟩
  · rintro ⟨hm, hh⟩; exact ⟨_, hm, rfl, _, hh, rfl⟩

theorem Linked.functional (hf : ∀ r h h', hash r h → hash r h' → h = h')
    (hl : Linked link hash g rs e) (hl' : Linked link hash g rs e') : e = e' := by
  induction hl with
  | nil => exact (linked_nil_iff.mp hl').symm
  | cons _ hh _ ih =>
    obtain ⟨_, _, hh', ht'⟩ := linked_cons_iff.mp hl'
    obtain rfl := hf _ _ _ hh hh'
    exact ih ht'

/-- Two chains from `g` with the same last hash are the same chain. The
induction goes from the last record to the first: equal hashes give equal
contents, equal contents the same link, and the link is the hash before. -/
theorem Linked.unique (hc : Commits link hash same g S) (hs : ∀ r ∈ rs, S r)
    (hs' : ∀ r ∈ rs', S r) (hl : Linked link hash g rs e) (hl' : Linked link hash g rs' e) :
    List.Forall₂ same rs rs' := by
  induction rs using List.reverseRecOn generalizing rs' e with
  | nil =>
    obtain rfl := linked_nil_iff.mp hl
    cases rs' using List.reverseRecOn with
    | nil => exact .nil
    | append_singleton front r =>
      exact absurd (linked_concat_iff.mp hl').2 (hc.fresh (hs' r (by simp)))
  | append_singleton front r ih =>
    obtain ⟨hfront, hr⟩ := linked_concat_iff.mp hl
    cases rs' using List.reverseRecOn with
    | nil =>
      obtain rfl := linked_nil_iff.mp hl'
      exact absurd hr (hc.fresh (hs r (by simp)))
    | append_singleton front' r' =>
      obtain ⟨hfront', hr'⟩ := linked_concat_iff.mp hl'
      have hsame := hc.content (hs r (by simp)) (hs' r' (by simp)) hr hr'
      rw [← hc.sameLink (hs r (by simp)) (hs' r' (by simp)) hsame] at hfront'
      have hinit := ih (fun x hx => hs x (by simp [hx])) (fun x hx => hs' x (by simp [hx]))
        hfront hfront'
      exact List.rel_append hinit (.cons hsame .nil)

/-- A record at the end of a chain never hashes to its own link: the chain
would end there both with the record and without it. -/
theorem Linked.not_fixed (hc : Commits link hash same g S) (hs : ∀ x ∈ rs, S x) (hr : S r)
    (hl : Linked link hash g rs (link r)) : ¬ hash r (link r) := by
  intro hh
  have hsr : ∀ x ∈ rs ++ [r], S x := by
    intro x hx
    cases List.mem_append.mp hx with
    | inl hx =>
      exact hs x hx
    | inr hx =>
      exact List.mem_singleton.mp hx ▸ hr
  have hboth := Linked.unique hc hs hsr hl (linked_concat_iff.mpr ⟨hl, hh⟩)
  simpa using hboth.length_eq

end Firstpass.LinkedChain
