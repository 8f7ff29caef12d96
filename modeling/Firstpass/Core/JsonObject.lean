import Firstpass.Core.Json

/-!
# Editing JSON objects

The accessors of `serde_json::Value` and the edits of its map, with what each
leaves at the other keys.
-/

namespace Firstpass.Json

abbrev Fields := List (String × Value)

def Value.isNull : Value → Bool
  | .null => true
  | _ => false

def Value.asBool : Value → Option Bool
  | .bool b => some b
  | _ => none

def Value.asArray : Value → Option (List Value)
  | .array elems => some elems
  | _ => none

def Value.asObject : Value → Option Fields
  | .object fields => some fields
  | _ => none

def Value.asU64 : Value → Option Nat
  | .number (.posInt n) => some n
  | _ => none

/-- The compact text of a value as it stands. -/
def Value.toText (v : Value) : String := String.ofList (print v)

def removeKey (key : String) (fields : Fields) : Fields := fields.filter fun f => f.1 ≠ key

/-- Assignment at a key of an object. -/
def Value.setKey (v : Value) (key : String) (val : Value) : Value :=
  match v with
  | .object fields => .object (btreeInsert key val fields)
  | _ => v

@[simp] theorem lookup_btreeInsert (key : String) (val : Value) (fields : Fields) :
    (btreeInsert key val fields).lookup key = some val := by
  induction fields with
  | nil => simp [btreeInsert]
  | cons f fields ih =>
    obtain ⟨k, v⟩ := f
    rw [btreeInsert]
    split_ifs with hlt heq
    · simp
    · simp
    · have hne : (key == k) = false := beq_false_of_ne heq
      rw [List.lookup_cons, hne]
      exact ih

theorem lookup_btreeInsert_ne {key other : String} (h : other ≠ key) (val : Value)
    (fields : Fields) : (btreeInsert key val fields).lookup other = fields.lookup other := by
  have hkey : (other == key) = false := beq_false_of_ne h
  induction fields with
  | nil => simp [btreeInsert, List.lookup_cons, hkey]
  | cons f fields ih =>
    obtain ⟨k, v⟩ := f
    rw [btreeInsert]
    split_ifs with hlt heq
    · rw [List.lookup_cons, hkey]
    · subst heq
      rw [List.lookup_cons, List.lookup_cons, hkey]
    · rw [List.lookup_cons, List.lookup_cons, ih]

theorem get_setKey_ne {key other : String} (h : other ≠ key) (v val : Value) :
    (v.setKey key val).get other = v.get other := by
  cases v with
  | object fields => exact lookup_btreeInsert_ne h val fields
  | _ => rfl

theorem isSome_asObject {v : Value} : v.asObject.isSome ↔ ∃ fields, v = .object fields := by
  cases v <;> simp [Value.asObject]

theorem isSome_asObject_of_get {v w : Value} {key : String} (h : v.get key = some w) :
    v.asObject.isSome := by
  cases v with
  | object fields => rfl
  | _ => cases h

/-- An assignment is read back from an object. -/
theorem get_setKey {v : Value} (h : v.asObject.isSome) (key : String) (val : Value) :
    (v.setKey key val).get key = some val := by
  obtain ⟨fields, rfl⟩ := isSome_asObject.mp h
  exact lookup_btreeInsert key val fields

theorem isSome_asObject_setKey {v : Value} (h : v.asObject.isSome) (key : String) (val : Value) :
    (v.setKey key val).asObject.isSome := by
  obtain ⟨fields, rfl⟩ := isSome_asObject.mp h
  rfl

@[simp] theorem removeKey_btreeInsert (key : String) (val : Value) (fields : Fields) :
    removeKey key (btreeInsert key val fields) = removeKey key fields := by
  induction fields with
  | nil => simp [btreeInsert, removeKey]
  | cons f fields ih =>
    obtain ⟨k, v⟩ := f
    by_cases hlt : key < k
    · simp [btreeInsert, hlt, removeKey]
    · by_cases heq : key = k
      · simp [btreeInsert, heq, removeKey]
      · simp_all [btreeInsert, removeKey, List.filter_cons]

theorem lookup_removeKey_ne {key other : String} (h : other ≠ key) (fields : Fields) :
    (removeKey key fields).lookup other = fields.lookup other := by
  induction fields with
  | nil => rfl
  | cons f fields ih =>
    obtain ⟨k, v⟩ := f
    rw [removeKey] at ih ⊢
    by_cases hk : k = key
    · have hother : (other == k) = false := beq_false_of_ne (hk ▸ h)
      rw [List.filter_cons_of_neg (by simp [hk]), ih, List.lookup_cons, hother]
    · rw [List.filter_cons_of_pos (by simp [hk]), List.lookup_cons, List.lookup_cons, ih]

/-- Edits at other keys leave a key as it was. -/
theorem lookup_foldl_removeKey {keys : List String} {key : String} (h : key ∉ keys)
    (fields : Fields) : (keys.foldl (fun fs k => removeKey k fs) fields).lookup key =
      fields.lookup key := by
  induction keys generalizing fields with
  | nil => rfl
  | cons k keys ih =>
    obtain ⟨hk, hkeys⟩ := not_or.mp (mt List.mem_cons.mpr h)
    rw [List.foldl_cons, ih hkeys, lookup_removeKey_ne hk]

-- ---------------------------------------------------------------------------
-- Pointers
-- ---------------------------------------------------------------------------

theorem pointer_cons {key : String} (hkey : parseIndex key = none) (v : Value)
    (rest : List String) : v.pointer (key :: rest) = (v.get key).bind (Value.pointer · rest) := by
  cases v <;> simp [Value.pointer, Value.get, hkey]

theorem pointer_key {key : String} (hkey : parseIndex key = none) (v : Value) :
    v.pointer [key] = v.get key := by
  rw [pointer_cons hkey]
  cases v.get key <;> rfl

theorem pointer_append (path rest : List String) (v : Value) :
    v.pointer (path ++ rest) = (v.pointer path).bind (Value.pointer · rest) := by
  induction path generalizing v with
  | nil => rfl
  | cons token path ih =>
    cases v with
    | object fields =>
      simp only [List.cons_append, Value.pointer, ih, Option.bind_assoc]
    | array elems =>
      simp only [List.cons_append, Value.pointer, ih, Option.bind_assoc]
    | _ => rfl

end Firstpass.Json
