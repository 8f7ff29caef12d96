import Firstpass.Core.JsonDocument

/-!
# The canonical text as an identity

It does not see the order of keys, tells any other two values apart, and is its
own canonical text once it is read back. The reader takes no more than 127
arrays and objects inside each other, the writer any number of them.
-/

namespace Firstpass.Json

/-- A value as `serde_json` holds it: a key once in each object, integers of 64
bits, and floats that the reader takes for themselves. -/
inductive Held (float : List Char → Option FloatText) : Value → Prop
  | null : Held float .null
  | bool {b : Bool} : Held float (.bool b)
  | number {n : Number} : n.Fits float → Held float (.number n)
  | string {s : String} : Held float (.string s)
  | array {elems : List Value} : (∀ v ∈ elems, Held float v) → Held float (.array elems)
  | object {fields : List (String × Value)} : (fields.map Prod.fst).Nodup →
      (∀ f ∈ fields, Held float f.2) → Held float (.object fields)

/-- No more than `depth` arrays and objects are inside each other. -/
def Nested : Nat → Value → Prop
  | 0, .array _ => False
  | 0, .object _ => False
  | depth + 1, .array elems => ∀ v ∈ elems, Nested depth v
  | depth + 1, .object fields => ∀ f ∈ fields, Nested depth f.2
  | _, _ => True

variable {float : List Char → Option FloatText} {v w : Value} {depth : Nat}

theorem Held.uniqueKeys (h : Held float v) : UniqueKeys v := by
  induction h with
  | null => exact .null
  | bool => exact .bool
  | number _ => exact .number
  | string => exact .string
  | array _ ih => exact .array ih
  | object hnodup _ ih => exact .object hnodup ih

theorem Held.readable (h : Held float v) (hdepth : Nested depth v) : Readable float depth v := by
  induction h generalizing depth with
  | null => cases depth <;> trivial
  | bool => cases depth <;> trivial
  | number hfits => cases depth <;> exact hfits
  | string => cases depth <;> trivial
  | array _ ih =>
    cases depth with
    | zero => exact hdepth
    | succ depth => exact fun v hv => ih v hv (hdepth v hv)
  | object _ _ ih =>
    cases depth with
    | zero => exact hdepth
    | succ depth => exact fun f hf => ih f hf (hdepth f hf)

theorem canonicalJson_canonicalize (v : Value) : canonicalJson (canonicalize v) = canonicalJson v := by
  rw [canonicalJson, canonicalize_idem, canonicalJson]

/-- The text of a value within the limit is read as its canonical form. -/
theorem fromStr_canonicalJson (hv : Held float v) (hdepth : Nested maxDepth v) :
    fromStr float (canonicalJson v) = some (canonicalize v) :=
  fromStr_print (readable_canonicalize (hv.readable hdepth))

theorem canonicalJson_canonical (hv : Held float v) :
    (∀ w, EqUpToKeyOrder v w → canonicalJson w = canonicalJson v) ∧
    (Nested maxDepth v →
      ∃ u, fromStr float (canonicalJson v) = some u ∧ canonicalJson u = canonicalJson v) ∧
    ∀ w, Held float w → canonicalJson v = canonicalJson w → EqUpToKeyOrder v w := by
  refine ⟨fun w hperm => ?_, fun hdepth => ?_, fun w hw heq => ?_⟩
  · rw [canonicalJson, canonicalJson, (hperm.canonicalize_eq hv.uniqueKeys).2]
  · exact ⟨_, fromStr_canonicalJson hv hdepth, canonicalJson_canonicalize v⟩
  · exact (canonicalJson_eq_iff hv.uniqueKeys hw.uniqueKeys).mp heq

theorem canonicalJson_canonical_sample :
    canonicalJson (.object [("a", .null), ("b", .bool true)]) =
      canonicalJson (.object [("b", .bool true), ("a", .null)]) := by
  have hheld : Held (fun _ => none) (.object [("b", .bool true), ("a", .null)]) := by
    refine .object (by simp) ?_
    simp only [List.forall_mem_cons]
    exact ⟨.bool, .null, by simp⟩
  exact (canonicalJson_canonical hheld).1 _ (.single (.here (List.Perm.swap _ _ [])))

/-- An empty array inside `n` others. -/
def nest : Nat → Value
  | 0 => .array []
  | n + 1 => .array [nest n]

theorem held_nest (n : Nat) : Held float (nest n) := by
  induction n with
  | zero => exact .array (by simp)
  | succ n ih => exact .array (by simpa using ih)

/-- The text of 128 arrays inside each other is not read. -/
theorem nested_unread : ¬ ∀ (float : List Char → Option FloatText) (v : Value), Held float v →
    ∃ u, fromStr float (canonicalJson v) = some u ∧ canonicalJson u = canonicalJson v := by
  intro hread
  obtain ⟨u, hu, -⟩ := hread (fun _ => none) (nest 127) (held_nest 127)
  have hnone : (readValue (fun _ => none) maxDepth (print (canonicalize (nest 127)))).isNone := by
    decide +kernel
  rw [fromStr, canonicalJson, String.toList_ofList, Option.isNone_iff_eq_none.mp hnone] at hu
  cases hu

end Firstpass.Json
