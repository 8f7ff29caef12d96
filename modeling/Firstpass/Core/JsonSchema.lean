import Firstpass.Core.JsonLaws
import Firstpass.Core.JsonObject
import Mathlib.Algebra.Order.Field.Rat

/-!
# JSON Schema

What a schema means, for the keywords `type`, `enum`, `pattern`, `required`, `properties`,
`additionalProperties` and `items`. A schema is a boolean or an object of keywords; other
keywords say nothing here.

The number a float's text stands for and the regular expressions are parameters. A pattern that
the engine does not take says nothing either.
-/

namespace Firstpass.JsonSchema

open Json

variable (float : FloatText → ℚ) (engine : String → Option (String → Bool))

-- ---------------------------------------------------------------------------
-- Equality
-- ---------------------------------------------------------------------------

def valueOf : Number → ℚ
  | .posInt n => n
  | .negInt n => -(n + 1)
  | .float x => float x

mutual
/-- Equality of values, by an equality of their numbers. Objects hold their members in map
order. -/
def alike (number : Number → Number → Bool) : Value → Value → Bool
  | .null, .null => true
  | .bool b, .bool c => b == c
  | .number m, .number n => number m n
  | .string s, .string t => s == t
  | .array vs, .array ws => alikeElems number vs ws
  | .object fs, .object gs => alikeFields number fs gs
  | _, _ => false
def alikeElems (number : Number → Number → Bool) : List Value → List Value → Bool
  | [], [] => true
  | v :: vs, w :: ws => alike number v w && alikeElems number vs ws
  | _, _ => false
def alikeFields (number : Number → Number → Bool) :
    List (String × Value) → List (String × Value) → Bool
  | [], [] => true
  | (k, v) :: fs, (l, w) :: gs => k == l && alike number v w && alikeFields number fs gs
  | _, _ => false
end

/-- JSON Schema compares numbers by their values. -/
def equal (v w : Value) : Bool := alike (fun m n => valueOf float m == valueOf float n) v w

mutual
theorem alike_mono {number number' : Number → Number → Bool}
    (h : ∀ m n, number m n = true → number' m n = true) :
    ∀ v w, alike number v w = true → alike number' v w = true
  | .null, .null, _ => rfl
  | .bool _, .bool _, hb => hb
  | .number m, .number n, hn => h m n hn
  | .string _, .string _, hs => hs
  | .array vs, .array ws, he => alikeElems_mono h vs ws he
  | .object fs, .object gs, hf => alikeFields_mono h fs gs hf
theorem alikeElems_mono {number number' : Number → Number → Bool}
    (h : ∀ m n, number m n = true → number' m n = true) :
    ∀ vs ws, alikeElems number vs ws = true → alikeElems number' vs ws = true
  | [], [], _ => rfl
  | v :: vs, w :: ws, he => by
    obtain ⟨hv, hvs⟩ := Bool.and_eq_true_iff.mp he
    exact Bool.and_eq_true_iff.mpr ⟨alike_mono h v w hv, alikeElems_mono h vs ws hvs⟩
theorem alikeFields_mono {number number' : Number → Number → Bool}
    (h : ∀ m n, number m n = true → number' m n = true) :
    ∀ fs gs, alikeFields number fs gs = true → alikeFields number' fs gs = true
  | [], [], _ => rfl
  | (k, v) :: fs, (l, w) :: gs, hf => by
    simp only [alikeFields, Bool.and_eq_true] at hf ⊢
    obtain ⟨⟨hk, hv⟩, hfs⟩ := hf
    exact ⟨⟨hk, alike_mono h v w hv⟩, alikeFields_mono h fs gs hfs⟩
end

-- ---------------------------------------------------------------------------
-- Schemas
-- ---------------------------------------------------------------------------

inductive TypeName
  | object
  | array
  | string
  | integer
  | number
  | boolean
  | null

def TypeName.text : TypeName → String
  | .object => "object"
  | .array => "array"
  | .string => "string"
  | .integer => "integer"
  | .number => "number"
  | .boolean => "boolean"
  | .null => "null"

/-- What a `type` keyword may be. -/
inductive IsType : Value → Prop
  | name (ty : TypeName) : IsType (.string ty.text)
  | names (types : List TypeName) : IsType (.array (types.map fun ty => .string ty.text))

/-- A boolean, or an object whose keywords have the form they need. -/
inductive IsSchema : Value → Prop
  | bool (b : Bool) : IsSchema (.bool b)
  | keywords (fields : Fields)
      (type : ∀ t, fields.lookup "type" = some t → IsType t)
      (enum : ∀ e, fields.lookup "enum" = some e → ∃ variants, e = .array variants)
      (pattern : ∀ p, fields.lookup "pattern" = some p → ∃ text, p = .string text)
      (required : ∀ r, fields.lookup "required" = some r →
        ∃ names : List String, r = .array (names.map .string))
      (isObject : ∀ p, fields.lookup "properties" = some p → ∃ props, p = .object props)
      (properties : ∀ props, fields.lookup "properties" = some (.object props) →
        ∀ prop ∈ props, IsSchema prop.2)
      (additional : ∀ a, fields.lookup "additionalProperties" = some a → IsSchema a)
      (items : ∀ i, fields.lookup "items" = some i → IsSchema i) : IsSchema (.object fields)

-- ---------------------------------------------------------------------------
-- What a value has to meet
-- ---------------------------------------------------------------------------

inductive HasType : Value → TypeName → Prop
  | object (fields : Fields) : HasType (.object fields) .object
  | array (elems : List Value) : HasType (.array elems) .array
  | string (s : String) : HasType (.string s) .string
  | integer {n : Number} (h : ∃ z : ℤ, valueOf float n = z) : HasType (.number n) .integer
  | number (n : Number) : HasType (.number n) .number
  | boolean (b : Bool) : HasType (.bool b) .boolean
  | null : HasType .null .null

/-- The names that a `type` keyword lists. -/
def typesOf : Value → List String
  | .string name => [name]
  | .array types => types.filterMap Value.asStr
  | _ => []

/-- The properties a schema names. -/
def declared (schema : Value) : List String :=
  match (schema.get "properties").bind Value.asObject with
  | some props => props.map Prod.fst
  | none => []

/-- The value meets what the keywords say of it alone. -/
structure Meets (same : Value → Value → Bool) (v schema : Value) : Prop where
  type : ∀ t, schema.get "type" = some t → ∃ ty : TypeName, ty.text ∈ typesOf t ∧ HasType float v ty
  pattern : ∀ pat text test, schema.get "pattern" = some (.string pat) → v = .string text →
    engine pat = some test → test text = true
  enum : ∀ variants, schema.get "enum" = some (.array variants) →
    ∃ listed ∈ variants, same listed v = true
  required : ∀ names fields, schema.get "required" = some (.array names) → v = .object fields →
    ∀ name, .string name ∈ names → name ∈ fields.map Prod.fst
  closed : ∀ fields, schema.get "additionalProperties" = some (.bool false) → v = .object fields →
    ∀ key ∈ fields.map Prod.fst, key ∈ declared schema

/-- Which subschemas apply to which parts of a value. What `additionalProperties: false` asks is
asked of the object itself. -/
inductive Applies : Value → Value → Value → Value → Prop
  | here (v schema : Value) : Applies v schema v schema
  | property {fields props : Fields} {schema child sub part partSchema : Value} {name : String}
      (hchild : fields.lookup name = some child)
      (hprops : schema.get "properties" = some (.object props)) (hsub : (name, sub) ∈ props)
      (h : Applies child sub part partSchema) : Applies (.object fields) schema part partSchema
  | additional {fields : Fields} {schema child extra part partSchema : Value} {key : String}
      (hchild : (key, child) ∈ fields) (hkey : key ∉ declared schema)
      (hextra : schema.get "additionalProperties" = some extra) (hopen : extra ≠ .bool false)
      (h : Applies child extra part partSchema) : Applies (.object fields) schema part partSchema
  | item {elems : List Value} {schema elem items part partSchema : Value} (helem : elem ∈ elems)
      (hitems : schema.get "items" = some items) (h : Applies elem items part partSchema) :
      Applies (.array elems) schema part partSchema

/-- Every part meets the keywords that apply to it. -/
def MeetsKeywords (same : Value → Value → Bool) (v schema : Value) : Prop :=
  ∀ part partSchema, Applies v schema part partSchema → Meets float engine same part partSchema

/-- The schema `false` applies to some part. -/
def Forbids (v schema : Value) : Prop := ∃ part, Applies v schema part (.bool false)

/-- The value conforms to the schema. -/
def Conforms (v schema : Value) : Prop :=
  MeetsKeywords float engine (equal float) v schema ∧ ¬Forbids v schema

-- ---------------------------------------------------------------------------
-- Where subschemas apply
-- ---------------------------------------------------------------------------

variable {float engine} {same : Value → Value → Bool} {P : Value → Value → Prop}

/-- A boolean schema has no subschemas. -/
theorem Applies.of_bool {v part partSchema : Value} {b : Bool}
    (h : Applies v (.bool b) part partSchema) : part = v ∧ partSchema = .bool b := by
  cases h with
  | here => exact ⟨rfl, rfl⟩
  | property _ hprops => cases hprops
  | additional _ _ hextra => cases hextra
  | item _ hitems => cases hitems

theorem forall_applies_object {fields : Fields} {schema : Value} :
    (∀ part partSchema, Applies (.object fields) schema part partSchema → P part partSchema) ↔
      P (.object fields) schema ∧
      (∀ extra, schema.get "additionalProperties" = some extra → extra ≠ .bool false →
        ∀ member ∈ fields, member.1 ∉ declared schema →
          ∀ part partSchema, Applies member.2 extra part partSchema → P part partSchema) ∧
      ∀ props, schema.get "properties" = some (.object props) → ∀ prop ∈ props, ∀ child,
        fields.lookup prop.1 = some child →
          ∀ part partSchema, Applies child prop.2 part partSchema → P part partSchema := by
  constructor
  · intro h
    refine ⟨h _ _ (.here _ _), ?_, ?_⟩
    · rintro extra hextra hopen ⟨key, child⟩ hchild hkey part partSchema happlies
      exact h _ _ (.additional hchild hkey hextra hopen happlies)
    · rintro props hprops ⟨name, sub⟩ hsub child hchild part partSchema happlies
      exact h _ _ (.property hchild hprops hsub happlies)
  · rintro ⟨hhere, hadditional, hproperty⟩ part partSchema happlies
    cases happlies with
    | here => exact hhere
    | property hchild hprops hsub happlies =>
      exact hproperty _ hprops _ hsub _ hchild _ _ happlies
    | additional hchild hkey hextra hopen happlies =>
      exact hadditional _ hextra hopen _ hchild hkey _ _ happlies

theorem forall_applies_array {elems : List Value} {schema : Value} :
    (∀ part partSchema, Applies (.array elems) schema part partSchema → P part partSchema) ↔
      P (.array elems) schema ∧ ∀ items, schema.get "items" = some items → ∀ elem ∈ elems,
        ∀ part partSchema, Applies elem items part partSchema → P part partSchema := by
  constructor
  · intro h
    refine ⟨h _ _ (.here _ _), ?_⟩
    intro items hitems elem helem part partSchema happlies
    exact h _ _ (.item helem hitems happlies)
  · rintro ⟨hhere, hitem⟩ part partSchema happlies
    cases happlies with
    | here => exact hhere
    | item helem hitems happlies => exact hitem _ hitems _ helem _ _ happlies

/-- A value without parts is asked only what its schema says of it. -/
theorem forall_applies_leaf {v schema : Value} (harray : v.asArray = none)
    (hobject : v.asObject = none) :
    (∀ part partSchema, Applies v schema part partSchema → P part partSchema) ↔ P v schema := by
  constructor
  · intro h
    exact h _ _ (.here _ _)
  · intro hhere part partSchema happlies
    cases happlies with
    | here => exact hhere
    | property => cases hobject
    | additional => cases hobject
    | item => cases harray

theorem meets_bool (v : Value) (b : Bool) : Meets float engine same v (.bool b) where
  type _ h := by cases h
  pattern _ _ _ h := by cases h
  enum _ h := by cases h
  required _ _ h := by cases h
  closed _ h := by cases h

theorem meetsKeywords_bool (v : Value) (b : Bool) :
    MeetsKeywords float engine same v (.bool b) := by
  intro part partSchema h
  obtain ⟨rfl, rfl⟩ := h.of_bool
  exact meets_bool part b

/-- A finer equality meets no more. -/
theorem Meets.mono {same' : Value → Value → Bool} {v schema : Value}
    (hle : ∀ v w, same v w = true → same' v w = true) (h : Meets float engine same v schema) :
    Meets float engine same' v schema := by
  refine { h with enum := fun variants henum => ?_ }
  obtain ⟨listed, hmem, hsame⟩ := h.enum variants henum
  exact ⟨listed, hmem, hle _ _ hsame⟩

end Firstpass.JsonSchema
