import Firstpass.Core.JsonLaws
import Firstpass.Core.JsonObject
import Firstpass.Core.JsonParse

/-!
# JSON documents

What `serde_json` reads a text as: the entries of an object go into a map, in key order and each
key once. A document is a value it can read: its text is read as that value, its parts are
documents, and what is put together of documents is one.
-/

namespace Firstpass.Json

variable {float : List Char → Option FloatText} {depth : Nat}

/-- `serde_json::from_str`, to a value. -/
def readText (float : List Char → Option FloatText) (text : String) : Option Value :=
  (fromStr float text).map canonicalize

/-- A value that is read as it is, with no more than `depth` arrays and objects inside each
other. -/
structure Document (float : List Char → Option FloatText) (depth : Nat) (v : Value) : Prop where
  canonical : canonicalize v = v
  readable : Readable float depth v

theorem readText_toText {v : Value} (h : Document float maxDepth v) :
    readText float v.toText = some v := by
  rw [readText, Value.toText, fromStr_print h.readable, Option.map_some, h.canonical]

-- ---------------------------------------------------------------------------
-- Sorted maps
-- ---------------------------------------------------------------------------

abbrev Sorted (fields : Fields) : Prop := fields.Pairwise fun f g => f.1 < g.1

theorem sorted_of_keys {fields : Fields} (keys : List String) (h : fields.map Prod.fst = keys)
    (hkeys : keys.Pairwise (· < ·)) : Sorted fields := by
  subst h
  exact List.pairwise_map.mp hkeys

theorem nodup_of_sorted {fields : Fields} (h : Sorted fields) : (fields.map Prod.fst).Nodup :=
  List.pairwise_map.mpr (h.imp fun hlt => ne_of_lt hlt)

theorem btreeCollect_of_sorted {fields : Fields} (h : Sorted fields) :
    btreeCollect fields = fields :=
  List.Perm.eq_of_pairwise (fun _ _ _ _ hfg hgf => absurd hgf (lt_asymm hfg))
    (btreeCollect_sorted fields) h (btreeCollect_perm (nodup_of_sorted h))

theorem mem_btreeInsert {f : String × Value} {key : String} {val : Value} {fields : Fields}
    (h : f ∈ btreeInsert key val fields) : f = (key, val) ∨ f ∈ fields := by
  induction fields with
  | nil => exact Or.inl (List.mem_singleton.mp h)
  | cons g fields ih =>
    obtain ⟨k, v⟩ := g
    rw [btreeInsert] at h
    split_ifs at h with hlt heq
    · exact List.mem_cons.mp h
    · rcases List.mem_cons.mp h with h | h
      · exact Or.inl h
      · exact Or.inr (List.mem_cons_of_mem _ h)
    · rcases List.mem_cons.mp h with rfl | h
      · exact Or.inr List.mem_cons_self
      · exact (ih h).imp id (List.mem_cons_of_mem _)

theorem mem_btreeCollect {f : String × Value} {fields : Fields} (h : f ∈ btreeCollect fields) :
    f ∈ fields := by
  suffices hfold : ∀ sorted : Fields,
      f ∈ fields.foldl (fun sorted g => btreeInsert g.1 g.2 sorted) sorted →
        f ∈ sorted ∨ f ∈ fields by
    exact (hfold [] h).resolve_left List.not_mem_nil
  clear h
  induction fields with
  | nil => exact fun sorted h => Or.inl h
  | cons g fields ih =>
    intro sorted h
    rcases ih _ h with h | h
    · rcases mem_btreeInsert h with rfl | h
      · exact Or.inr List.mem_cons_self
      · exact Or.inl h
    · exact Or.inr (List.mem_cons_of_mem g h)

@[simp] theorem btreeInsert_btreeInsert (key : String) (val val' : Value) (fields : Fields) :
    btreeInsert key val (btreeInsert key val' fields) = btreeInsert key val fields := by
  induction fields with
  | nil => simp [btreeInsert]
  | cons f fields ih =>
    obtain ⟨k, v⟩ := f
    by_cases hlt : key < k
    · simp [btreeInsert, hlt]
    · by_cases heq : key = k
      · simp [btreeInsert, heq]
      · simp [btreeInsert, hlt, heq, ih]

theorem setKey_setKey (v val val' : Value) (key : String) :
    (v.setKey key val').setKey key val = v.setKey key val := by
  cases v with
  | object fields => simp [Value.setKey]
  | _ => rfl

/-- To insert what is there already changes nothing. -/
theorem btreeInsert_of_lookup {key : String} {val : Value} {fields : Fields} (hs : Sorted fields)
    (h : fields.lookup key = some val) : btreeInsert key val fields = fields := by
  induction fields with
  | nil => cases h
  | cons f fields ih =>
    obtain ⟨k, v⟩ := f
    obtain ⟨hk, hs⟩ := List.pairwise_cons.mp hs
    by_cases heq : key = k
    · subst heq
      obtain rfl : v = val := by simpa using h
      simp [btreeInsert]
    · have hrest : fields.lookup key = some val := by
        simpa [List.lookup_cons, beq_false_of_ne heq] using h
      have hmem : (key, val) ∈ fields := (lookup_eq_some_iff (nodup_of_sorted hs)).mp hrest
      have hlt : ¬key < k := lt_asymm (hk _ hmem)
      rw [btreeInsert, if_neg hlt, if_neg heq, ih hs hrest]

-- ---------------------------------------------------------------------------
-- Canonical values
-- ---------------------------------------------------------------------------

theorem map_eq_self {α : Type} {f : α → α} {xs : List α} : xs.map f = xs ↔ ∀ x ∈ xs, f x = x := by
  simpa using List.map_inj_left (f := f) (g := id) (l := xs)

theorem canonicalize_idem (v : Value) : canonicalize (canonicalize v) = canonicalize v := by
  induction v using Value.ind with
  | array elems ih => simpa using ih
  | object fields ih =>
    have hfields : (btreeCollect (fields.map fun f => (f.1, canonicalize f.2))).map
        (fun f => (f.1, canonicalize f.2)) =
          btreeCollect (fields.map fun f => (f.1, canonicalize f.2)) := by
      refine map_eq_self.mpr fun f hf => ?_
      obtain ⟨g, hg, rfl⟩ := List.mem_map.mp (mem_btreeCollect hf)
      rw [ih g hg]
    rw [canonicalize_object, canonicalize_object, hfields,
      btreeCollect_of_sorted (btreeCollect_sorted _)]
  | _ => rfl

theorem canonical_elem {elems : List Value} (h : canonicalize (.array elems) = .array elems)
    {v : Value} (hv : v ∈ elems) : canonicalize v = v := by
  rw [canonicalize_array] at h
  exact map_eq_self.mp (Value.array.inj h) v hv

theorem canonical_fields {fields : Fields} (h : canonicalize (.object fields) = .object fields) :
    Sorted fields ∧ ∀ f ∈ fields, canonicalize f.2 = f.2 := by
  rw [canonicalize_object] at h
  have hcollect := Value.object.inj h
  constructor
  · rw [← hcollect]
    exact btreeCollect_sorted _
  · intro f hf
    rw [← hcollect] at hf
    obtain ⟨g, _, rfl⟩ := List.mem_map.mp (mem_btreeCollect hf)
    exact canonicalize_idem g.2

theorem canonical_object {fields : Fields} (hs : Sorted fields)
    (h : ∀ f ∈ fields, canonicalize f.2 = f.2) :
    canonicalize (.object fields) = .object fields := by
  have hfields : (fields.map fun f => (f.1, canonicalize f.2)) = fields :=
    map_eq_self.mpr fun f hf => by rw [h f hf]
  rw [canonicalize_object, hfields, btreeCollect_of_sorted hs]

-- ---------------------------------------------------------------------------
-- Parts of documents
-- ---------------------------------------------------------------------------

theorem Readable.succ {v : Value} (h : Readable float depth v) : Readable float (depth + 1) v := by
  induction depth generalizing v with
  | zero =>
    cases v with
    | array elems => exact h.elim
    | object fields => exact h.elim
    | _ => exact h
  | succ depth ih =>
    cases v with
    | array elems => exact fun v hv => ih (h v hv)
    | object fields => exact fun f hf => ih (h f hf)
    | _ => exact h

theorem Document.succ {v : Value} (h : Document float depth v) : Document float (depth + 1) v :=
  ⟨h.canonical, h.readable.succ⟩

theorem Document.mono {v : Value} (h : Document float depth v) {n : Nat} (hn : depth ≤ n) :
    Document float n v := by
  induction n, hn using Nat.le_induction with
  | base => exact h
  | succ n _ ih => exact ih.succ

theorem Document.elem {elems : List Value} (h : Document float (depth + 1) (.array elems))
    {v : Value} (hv : v ∈ elems) : Document float depth v :=
  ⟨canonical_elem h.canonical hv, h.readable v hv⟩

theorem Document.sorted {fields : Fields} (h : Document float depth (.object fields)) :
    Sorted fields := (canonical_fields h.canonical).1

theorem Document.field {fields : Fields} (h : Document float (depth + 1) (.object fields))
    {f : String × Value} (hf : f ∈ fields) : Document float depth f.2 :=
  ⟨(canonical_fields h.canonical).2 f hf, h.readable f hf⟩

theorem Document.get {v w : Value} (h : Document float (depth + 1) v) {key : String}
    (hw : v.get key = some w) : Document float depth w := by
  cases v with
  | object fields => exact h.field ((lookup_eq_some_iff (nodup_of_sorted h.sorted)).mp hw)
  | _ => cases hw

theorem Document.pointer {path : List String} {v w : Value}
    (h : Document float (depth + path.length) v) (hw : v.pointer path = some w) :
    Document float depth w := by
  induction path generalizing v with
  | nil =>
    cases hw
    exact h
  | cons token path ih =>
    cases v with
    | object fields =>
      obtain ⟨u, hu, hrest⟩ := Option.bind_eq_some_iff.mp hw
      have hget : (Value.object fields).get token = some u := hu
      exact ih (h.get hget) hrest
    | array elems =>
      obtain ⟨u, hu, hrest⟩ := Option.bind_eq_some_iff.mp hw
      obtain ⟨i, _, hi⟩ := Option.bind_eq_some_iff.mp hu
      exact ih (h.elem (List.mem_of_getElem? hi)) hrest
    | _ => cases hw

theorem Document.array {elems : List Value} (h : ∀ v ∈ elems, Document float depth v) :
    Document float (depth + 1) (.array elems) := by
  refine ⟨?_, fun v hv => (h v hv).readable⟩
  rw [canonicalize_array, map_eq_self.mpr fun v hv => (h v hv).canonical]

theorem Document.object {fields : Fields} (hs : Sorted fields)
    (h : ∀ f ∈ fields, Document float depth f.2) : Document float (depth + 1) (.object fields) :=
  ⟨canonical_object hs fun f hf => (h f hf).canonical, fun f hf => (h f hf).readable⟩

theorem Document.setKey {v val : Value} (h : Document float (depth + 1) v) (key : String)
    (hval : Document float depth val) : Document float (depth + 1) (v.setKey key val) := by
  cases v with
  | object fields =>
    refine .object (btreeInsert_sorted h.sorted) fun f hf => ?_
    rcases mem_btreeInsert hf with rfl | hf
    · exact hval
    · exact h.field hf
  | _ => exact h

@[simp] theorem document_null : Document float depth .null := ⟨rfl, by cases depth <;> trivial⟩

@[simp] theorem document_bool (b : Bool) : Document float depth (.bool b) :=
  ⟨rfl, by cases depth <;> trivial⟩

@[simp] theorem document_string (s : String) : Document float depth (.string s) :=
  ⟨rfl, by cases depth <;> trivial⟩

-- ---------------------------------------------------------------------------
-- What is read is a document
-- ---------------------------------------------------------------------------

section
variable {value : List Char → Option (Value × List Char)} {text rest : List Char}

theorem readElems_mem {n : Nat} {vs : List Value} (h : readElems value n text = some (vs, rest)) :
    ∀ v ∈ vs, ∃ x y, value x = some (v, y) := by
  induction n generalizing text vs rest with
  | zero => cases h
  | succ n ih =>
    obtain ⟨⟨v, y⟩, hv, hrest⟩ := Option.bind_eq_some_iff.mp h
    dsimp only at hrest
    split at hrest
    · obtain ⟨rfl, rfl⟩ := Prod.mk.inj (Option.some.inj hrest)
      rintro w hw
      obtain rfl := List.mem_singleton.mp hw
      exact ⟨text, y, hv⟩
    · obtain ⟨⟨ws, z⟩, hws, heq⟩ := Option.map_eq_some_iff.mp hrest
      obtain ⟨rfl, rfl⟩ := Prod.mk.inj heq
      rintro w hw
      rcases List.mem_cons.mp hw with rfl | hw
      · exact ⟨text, y, hv⟩
      · exact ih hws w hw
    · cases hrest

theorem readField_value {f : String × Value} (h : readField value text = some (f, rest)) :
    ∃ x y, value x = some (f.2, y) := by
  rw [readField] at h
  split at h
  · obtain ⟨key, _, hkey⟩ := Option.bind_eq_some_iff.mp h
    split at hkey
    · next x _ =>
      obtain ⟨⟨v, y⟩, hv, heq⟩ := Option.map_eq_some_iff.mp hkey
      obtain ⟨rfl, rfl⟩ := Prod.mk.inj heq
      exact ⟨x, y, hv⟩
    · cases hkey
  · cases h

theorem readFields_mem {n : Nat} {fs : Fields} (h : readFields value n text = some (fs, rest)) :
    ∀ f ∈ fs, ∃ x y, value x = some (f.2, y) := by
  induction n generalizing text fs rest with
  | zero => cases h
  | succ n ih =>
    obtain ⟨⟨f, y⟩, hf, hrest⟩ := Option.bind_eq_some_iff.mp h
    dsimp only at hrest
    split at hrest
    · obtain ⟨rfl, rfl⟩ := Prod.mk.inj (Option.some.inj hrest)
      rintro g hg
      obtain rfl := List.mem_singleton.mp hg
      exact readField_value hf
    · obtain ⟨⟨gs, z⟩, hgs, heq⟩ := Option.map_eq_some_iff.mp hrest
      obtain ⟨rfl, rfl⟩ := Prod.mk.inj heq
      rintro g hg
      rcases List.mem_cons.mp hg with rfl | hg
      · exact readField_value hf
      · exact ih hgs g hg
    · cases hrest

end

/-- The text of a float that was read is read as that float again. -/
def FloatsReadBack (float : List Char → Option FloatText) : Prop :=
  ∀ token x, float token = some x → float x.text = some x

theorem readNumber_fits (hfloat : FloatsReadBack float) {token : List Char} {n : Number}
    (h : readNumber float token = some n) : n.Fits float := by
  have hread : ∀ {n}, (float token).map Number.float = some n → n.Fits float := by
    intro n hn
    obtain ⟨x, hx, rfl⟩ := Option.map_eq_some_iff.mp hn
    exact hfloat token x hx
  dsimp only [readNumber] at h
  split_ifs at h with _ _ _ _ hneg hpos
  · obtain rfl := Option.some.inj h
    exact Nat.lt_of_lt_of_le (Nat.sub_lt hneg.1 Nat.one_pos) hneg.2
  · exact hread h
  · obtain rfl := Option.some.inj h
    exact hpos
  · exact hread h
  · exact hread h

theorem expect_eq_some {literal text rest : List Char} {v w : Value}
    (h : expect literal text v = some (w, rest)) : v = w := by
  obtain ⟨_, _, heq⟩ := Option.map_eq_some_iff.mp h
  exact (Prod.mk.inj heq).1

/-- By induction on the depth: the elements and the fields are read one level deeper. -/
theorem readValue_readable (hfloat : FloatsReadBack float) {text rest : List Char} {v : Value}
    (h : readValue float depth text = some (v, rest)) : Readable float depth v := by
  induction depth generalizing text rest v with
  | zero =>
    rw [readValue] at h
    split at h
    · cases h
    split_ifs at h
    · rw [← expect_eq_some h]
      trivial
    · rw [← expect_eq_some h]
      trivial
    · rw [← expect_eq_some h]
      trivial
    · obtain ⟨s, _, heq⟩ := Option.map_eq_some_iff.mp h
      rw [← (Prod.mk.inj heq).1]
      trivial
    · obtain ⟨n, hn, heq⟩ := Option.map_eq_some_iff.mp h
      rw [← (Prod.mk.inj heq).1]
      exact readNumber_fits hfloat hn
  | succ depth ih =>
    rw [readValue] at h
    split at h
    · cases h
    split_ifs at h
    · rw [← expect_eq_some h]
      trivial
    · rw [← expect_eq_some h]
      trivial
    · rw [← expect_eq_some h]
      trivial
    · obtain ⟨s, _, heq⟩ := Option.map_eq_some_iff.mp h
      rw [← (Prod.mk.inj heq).1]
      trivial
    · dsimp only at h
      split at h
      · rw [← (Prod.mk.inj (Option.some.inj h)).1]
        exact fun v hv => by cases hv
      · obtain ⟨⟨vs, y⟩, hvs, heq⟩ := Option.map_eq_some_iff.mp h
        rw [← (Prod.mk.inj heq).1]
        intro v hv
        obtain ⟨x, y, hread⟩ := readElems_mem hvs v hv
        exact ih hread
    · dsimp only at h
      split at h
      · rw [← (Prod.mk.inj (Option.some.inj h)).1]
        exact fun f hf => by cases hf
      · obtain ⟨⟨fs, y⟩, hfs, heq⟩ := Option.map_eq_some_iff.mp h
        rw [← (Prod.mk.inj heq).1]
        intro f hf
        obtain ⟨x, y, hread⟩ := readFields_mem hfs f hf
        exact ih hread
    · obtain ⟨n, hn, heq⟩ := Option.map_eq_some_iff.mp h
      rw [← (Prod.mk.inj heq).1]
      exact readNumber_fits hfloat hn

theorem readable_canonicalize {v : Value} (h : Readable float depth v) :
    Readable float depth (canonicalize v) := by
  induction depth generalizing v with
  | zero =>
    cases v with
    | array elems => exact h.elim
    | object fields => exact h.elim
    | _ => exact h
  | succ depth ih =>
    cases v with
    | array elems =>
      rw [canonicalize_array]
      intro v hv
      obtain ⟨w, hw, rfl⟩ := List.mem_map.mp hv
      exact ih (h w hw)
    | object fields =>
      rw [canonicalize_object]
      intro f hf
      obtain ⟨g, hg, rfl⟩ := List.mem_map.mp (mem_btreeCollect hf)
      exact ih (h g hg)
    | _ => exact h

theorem document_of_readText (hfloat : FloatsReadBack float) {text : String} {v : Value}
    (h : readText float text = some v) : Document float maxDepth v := by
  obtain ⟨w, hw, rfl⟩ := Option.map_eq_some_iff.mp h
  obtain ⟨⟨w', rest⟩, hread, heq⟩ := Option.bind_eq_some_iff.mp hw
  dsimp only at heq
  split at heq
  · obtain rfl := Option.some.inj heq
    exact ⟨canonicalize_idem w', readable_canonicalize (readValue_readable hfloat hread)⟩
  · cases heq

end Firstpass.Json
