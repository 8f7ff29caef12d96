import Firstpass.Core.Json
import Mathlib.Data.List.Perm.Basic
import Mathlib.Data.List.Lex
import Mathlib.Data.List.Sort
import Mathlib.Logic.Relation

/-!
# Canonical JSON is canonical

`canonicalize_eq_iff`: two values whose objects have distinct keys have the
same canonical form exactly when one is the other with the keys of some of its
objects permuted.
-/

namespace Firstpass.Json

@[elab_as_elim]
theorem Value.ind {P : Value → Prop} (null : P .null) (bool : ∀ b, P (.bool b))
    (number : ∀ n, P (.number n)) (string : ∀ s, P (.string s))
    (array : ∀ elems, (∀ v ∈ elems, P v) → P (.array elems))
    (object : ∀ fields, (∀ f ∈ fields, P f.2) → P (.object fields)) : ∀ v, P v
  | .null => null
  | .bool b => bool b
  | .number n => number n
  | .string s => string s
  | .array elems => array elems fun v _ => Value.ind null bool number string array object v
  | .object fields => object fields fun f _ => Value.ind null bool number string array object f.2
termination_by v => sizeOf v
decreasing_by
  all_goals simp_wf
  · have := List.sizeOf_lt_of_mem ‹_›; omega
  · rename_i hf
    have := List.sizeOf_lt_of_mem hf
    cases f; simp_all; omega

-- ---------------------------------------------------------------------------
-- Key order
-- ---------------------------------------------------------------------------

/-- Each object of the value has each key once, as every `serde_json` map. -/
inductive UniqueKeys : Value → Prop
  | null : UniqueKeys .null
  | bool : UniqueKeys (.bool b)
  | number : UniqueKeys (.number n)
  | string : UniqueKeys (.string s)
  | array : (∀ v ∈ elems, UniqueKeys v) → UniqueKeys (.array elems)
  | object : (fields.map Prod.fst).Nodup → (∀ f ∈ fields, UniqueKeys f.2) →
      UniqueKeys (.object fields)

/-- One reordering of the keys of one object, at any depth. -/
inductive Reorder : Value → Value → Prop
  | here : fields.Perm fields' → Reorder (.object fields) (.object fields')
  | elem : Reorder v w → Reorder (.array (front ++ v :: back)) (.array (front ++ w :: back))
  | field : Reorder v w →
      Reorder (.object (front ++ (k, v) :: back)) (.object (front ++ (k, w) :: back))

/-- Equality up to the order of keys inside objects. -/
def EqUpToKeyOrder : Value → Value → Prop := Relation.ReflTransGen Reorder

theorem Reorder.symm (h : Reorder v w) : Reorder w v := by
  induction h with
  | here h => exact .here h.symm
  | elem _ ih => exact .elem ih
  | field _ ih => exact .field ih

theorem EqUpToKeyOrder.refl (v : Value) : EqUpToKeyOrder v v := Relation.ReflTransGen.refl

theorem EqUpToKeyOrder.symm (h : EqUpToKeyOrder v w) : EqUpToKeyOrder w v := by
  induction h with
  | refl => exact .refl v
  | tail _ h ih => exact ih.head h.symm

theorem EqUpToKeyOrder.trans (h : EqUpToKeyOrder u v) (h' : EqUpToKeyOrder v w) :
    EqUpToKeyOrder u w := Relation.ReflTransGen.trans h h'

theorem canonicalizeElems_eq (elems : List Value) :
    canonicalizeElems elems = elems.map canonicalize := by
  induction elems with
  | nil => rfl
  | cons v vs ih => simp [canonicalizeElems, ih]

theorem canonicalizeFields_eq (fields : List (String × Value)) :
    canonicalizeFields fields = fields.map fun f => (f.1, canonicalize f.2) := by
  induction fields with
  | nil => rfl
  | cons f fs ih => simp [canonicalizeFields, ih]

@[simp] theorem canonicalize_array (elems : List Value) :
    canonicalize (.array elems) = .array (elems.map canonicalize) := by
  simp [canonicalize, canonicalizeElems_eq]

@[simp] theorem canonicalize_object (fields : List (String × Value)) :
    canonicalize (.object fields) =
      .object (btreeCollect (fields.map fun f => (f.1, canonicalize f.2))) := by
  simp [canonicalize, canonicalizeFields_eq]

theorem btreeInsert_perm (val : Value) (h : key ∉ sorted.map Prod.fst) :
    (btreeInsert key val sorted).Perm ((key, val) :: sorted) := by
  induction sorted with
  | nil => exact .refl _
  | cons f rest ih =>
    obtain ⟨k, v⟩ := f
    simp only [List.map_cons, List.mem_cons, not_or] at h
    simp only [btreeInsert]
    split
    · exact .refl _
    · rw [if_neg h.1]
      exact ((ih h.2).cons _).trans (.swap ..)

theorem btreeInsert_sorted (h : sorted.Pairwise fun f g => f.1 < g.1) :
    (btreeInsert key val sorted).Pairwise fun f g => f.1 < g.1 := by
  induction sorted with
  | nil => simp [btreeInsert]
  | cons f rest ih =>
    obtain ⟨k, v⟩ := f
    obtain ⟨hk, hrest⟩ := List.pairwise_cons.mp h
    simp only [btreeInsert]
    split
    next hlt =>
      refine List.pairwise_cons.mpr ⟨fun g hg => ?_, h⟩
      rcases List.mem_cons.mp hg with rfl | hg
      · exact hlt
      · exact hlt.trans (hk g hg)
    next hlt =>
      split
      next heq => exact List.pairwise_cons.mpr ⟨fun g hg => heq ▸ hk g hg, hrest⟩
      next hne =>
        have hgt : k < key := lt_of_le_of_ne (not_lt.mp hlt) (Ne.symm hne)
        refine List.pairwise_cons.mpr ⟨fun g hg => ?_, ih hrest⟩
        have hmem : g.1 = key ∨ g ∈ rest := by
          clear ih hk hrest h hlt hne hgt
          induction rest with
          | nil => simp [btreeInsert] at hg; simp [hg]
          | cons f' rest ih =>
            simp only [btreeInsert] at hg
            grind
        rcases hmem with rfl | hg
        · exact hgt
        · exact hk g hg

theorem btreeCollect_sorted (fields : List (String × Value)) :
    (btreeCollect fields).Pairwise fun f g => f.1 < g.1 := by
  unfold btreeCollect
  have key : ∀ sorted : List (String × Value), sorted.Pairwise (fun f g => f.1 < g.1) →
      (fields.foldl (fun sorted f => btreeInsert f.1 f.2 sorted) sorted).Pairwise
        fun f g => f.1 < g.1 := by
    induction fields with
    | nil => intro sorted h; exact h
    | cons f fs ih => intro sorted h; exact ih _ (btreeInsert_sorted h)
  exact key [] .nil

theorem btreeCollect_perm (h : (fields.map Prod.fst).Nodup) :
    (btreeCollect fields).Perm fields := by
  unfold btreeCollect
  have key : ∀ sorted : List (String × Value), ((fields ++ sorted).map Prod.fst).Nodup →
      (fields.foldl (fun sorted f => btreeInsert f.1 f.2 sorted) sorted).Perm
        (fields ++ sorted) := by
    clear h
    induction fields with
    | nil => intro sorted _; exact .refl _
    | cons f fs ih =>
      intro sorted h
      have hmid : (fs ++ (f :: sorted)).Perm (f :: fs ++ sorted) := List.perm_middle
      have hf : f.1 ∉ sorted.map Prod.fst := by
        simp only [List.cons_append, List.map_cons, List.nodup_cons, List.map_append] at h
        exact fun hm => h.1 (List.mem_append_right _ hm)
      have hins := btreeInsert_perm f.2 hf
      have hperm : (fs ++ btreeInsert f.1 f.2 sorted).Perm (f :: fs ++ sorted) :=
        (hins.append_left fs).trans hmid
      exact (ih _ ((hperm.map Prod.fst).nodup_iff.mpr h)).trans hperm
  simpa using key [] (by simpa using h)

theorem btreeCollect_eq_of_perm (hp : fields.Perm fields') (h : (fields.map Prod.fst).Nodup) :
    btreeCollect fields = btreeCollect fields' := by
  have h' : (fields'.map Prod.fst).Nodup := (hp.map Prod.fst).nodup_iff.mp h
  refine List.Perm.eq_of_pairwise (fun f g _ _ hfg hgf => absurd hgf (lt_asymm hfg))
    (btreeCollect_sorted _) (btreeCollect_sorted _) ?_
  exact ((btreeCollect_perm h).trans hp).trans (btreeCollect_perm h').symm

theorem Reorder.canonicalize_eq (h : Reorder v w) (hu : UniqueKeys v) :
    UniqueKeys w ∧ canonicalize v = canonicalize w := by
  induction h with
  | @here fields fields' hp =>
    cases hu with
    | object hn hf =>
      refine ⟨.object ((hp.map _).nodup_iff.mp hn) fun f hmem => hf f (hp.mem_iff.mpr hmem), ?_⟩
      simp only [canonicalize_object]
      congr 1
      exact btreeCollect_eq_of_perm (hp.map _) (by simpa [List.map_map, Function.comp_def] using hn)
  | @elem v w front back _ ih =>
    cases hu with
    | array he =>
      obtain ⟨hw, heq⟩ := ih (he v (by simp))
      refine ⟨.array fun u hmem => ?_, by simp [heq]⟩
      simp only [List.mem_append, List.mem_cons] at hmem
      rcases hmem with hmem | rfl | hmem
      · exact he u (by simp [hmem])
      · exact hw
      · exact he u (by simp [hmem])
  | @field v w front k back _ ih =>
    cases hu with
    | object hn hf =>
      obtain ⟨hw, heq⟩ := ih (hf (k, v) (by simp))
      refine ⟨.object (by simpa using hn) fun g hmem => ?_, by simp [heq]⟩
      simp only [List.mem_append, List.mem_cons] at hmem
      rcases hmem with hmem | rfl | hmem
      · exact hf g (by simp [hmem])
      · exact hw
      · exact hf g (by simp [hmem])

theorem EqUpToKeyOrder.canonicalize_eq (h : EqUpToKeyOrder v w) (hu : UniqueKeys v) :
    UniqueKeys w ∧ canonicalize v = canonicalize w := by
  induction h with
  | refl => exact ⟨hu, rfl⟩
  | tail _ hr ih =>
    obtain ⟨hw, heq⟩ := hr.canonicalize_eq ih.1
    exact ⟨hw, ih.2.trans heq⟩

theorem eqUpToKeyOrder_elem (front back : List Value) (h : EqUpToKeyOrder v w) :
    EqUpToKeyOrder (.array (front ++ v :: back)) (.array (front ++ w :: back)) := by
  induction h with
  | refl => exact .refl _
  | tail _ hr ih => exact ih.tail (.elem hr)

theorem eqUpToKeyOrder_field (k : String) (front back : List (String × Value))
    (h : EqUpToKeyOrder v w) :
    EqUpToKeyOrder (.object (front ++ (k, v) :: back)) (.object (front ++ (k, w) :: back)) := by
  induction h with
  | refl => exact .refl _
  | tail _ hr ih => exact ih.tail (.field hr)

theorem eqUpToKeyOrder_array (front : List Value)
    (h : ∀ v ∈ elems, EqUpToKeyOrder v (canonicalize v)) :
    EqUpToKeyOrder (.array (front ++ elems)) (.array (front ++ elems.map canonicalize)) := by
  induction elems generalizing front with
  | nil => exact .refl _
  | cons v vs ih =>
    have hhead := eqUpToKeyOrder_elem front vs (h v (by simp))
    have htail := ih (front ++ [canonicalize v]) fun u hu => h u (by simp [hu])
    simp only [List.append_assoc, List.singleton_append] at htail
    exact hhead.trans htail

theorem eqUpToKeyOrder_object (front : List (String × Value))
    (h : ∀ f ∈ fields, EqUpToKeyOrder f.2 (canonicalize f.2)) :
    EqUpToKeyOrder (.object (front ++ fields))
      (.object (front ++ fields.map fun f => (f.1, canonicalize f.2))) := by
  induction fields generalizing front with
  | nil => exact .refl _
  | cons f fs ih =>
    have hhead := eqUpToKeyOrder_field f.1 front fs (h f (by simp))
    have htail := ih (front ++ [(f.1, canonicalize f.2)]) fun g hg => h g (by simp [hg])
    simp only [List.append_assoc, List.singleton_append] at htail
    exact hhead.trans htail

theorem eqUpToKeyOrder_canonicalize (hu : UniqueKeys v) : EqUpToKeyOrder v (canonicalize v) := by
  induction v using Value.ind with
  | null => exact .refl _
  | bool => exact .refl _
  | number => exact .refl _
  | string => exact .refl _
  | array elems ih =>
    cases hu with
    | array he =>
      simpa using eqUpToKeyOrder_array [] fun v hv => ih v hv (he v hv)
  | object fields ih =>
    cases hu with
    | object hn hf =>
      have hinner := eqUpToKeyOrder_object [] fun f hmem => ih f hmem (hf f hmem)
      rw [canonicalize_object]
      refine hinner.trans (.single (.here ?_))
      exact (btreeCollect_perm (by simpa [List.map_map, Function.comp_def] using hn)).symm

theorem canonicalize_eq_iff (hv : UniqueKeys v) (hw : UniqueKeys w) :
    canonicalize v = canonicalize w ↔ EqUpToKeyOrder v w := by
  constructor
  · intro h
    have hcw := (eqUpToKeyOrder_canonicalize hw).symm
    rw [← h] at hcw
    exact (eqUpToKeyOrder_canonicalize hv).trans hcw
  · intro h
    exact (h.canonicalize_eq hv).2

-- ---------------------------------------------------------------------------
-- Reading a field
-- ---------------------------------------------------------------------------

theorem lookup_eq_some_iff {fields : List (String × Value)} (h : (fields.map Prod.fst).Nodup) :
    fields.lookup key = some v ↔ (key, v) ∈ fields := by
  induction fields with
  | nil => simp
  | cons f fs ih =>
    obtain ⟨k, u⟩ := f
    obtain ⟨hk, hfs⟩ := List.nodup_cons.mp h
    by_cases he : key = k
    · subst he
      have hno : (key, v) ∉ fs := fun hm => hk (List.mem_map.mpr ⟨_, hm, rfl⟩)
      simp [hno, eq_comm]
    · simp [List.lookup_cons, beq_eq_false_iff_ne.mpr he, ih hfs, he]

theorem get_canonicalize (hu : UniqueKeys v) (key : String) :
    (canonicalize v).get key = (v.get key).map canonicalize := by
  cases hu with
  | @object fields hn _ =>
    have hmap : ((fields.map fun f => (f.1, canonicalize f.2)).map Prod.fst).Nodup := by
      simpa [List.map_map, Function.comp_def] using hn
    have hperm := btreeCollect_perm hmap
    have hsorted := (hperm.map Prod.fst).nodup_iff.mpr hmap
    rw [canonicalize_object]
    ext w
    simp only [Value.get, Option.map_eq_some_iff, lookup_eq_some_iff hsorted,
      lookup_eq_some_iff hn, hperm.mem_iff, List.mem_map, Prod.mk.injEq, Prod.exists]
    constructor
    · rintro ⟨k, u, hm, rfl, rfl⟩; exact ⟨u, hm, rfl⟩
    · rintro ⟨u, hm, rfl⟩; exact ⟨key, u, hm, rfl, rfl⟩
  | array => simp [Value.get]
  | _ => rfl

end Firstpass.Json
