import Firstpass.Core.JsonSchema

/-!
# The schema validator

`schema_violation` looks for the first violation of a schema. It compares the values of an `enum`
as `serde_json` does, where an integer is never equal to a float, and reads a boolean schema as
one that says nothing.
-/

namespace Firstpass.SchemaCheck

open Json JsonSchema

variable (float : FloatText → ℚ) (engine : String → Option (String → Bool))
  (debug : String → String)

-- ---------------------------------------------------------------------------
-- The validator
-- ---------------------------------------------------------------------------

/-- A float is an integer here if it has no fractional part. -/
def isInteger : Value → Bool
  | .number (.posInt _) => true
  | .number (.negInt _) => true
  | .number (.float x) => (float x).den == 1
  | _ => false

def isNumber : Value → Bool
  | .number _ => true
  | _ => false

/-- An unknown name does not fail. -/
def typeMatches (v : Value) (ty : String) : Bool :=
  match ty with
  | "object" => v.asObject.isSome
  | "array" => v.asArray.isSome
  | "string" => v.asStr.isSome
  | "integer" => isInteger float v
  | "number" => isNumber v
  | "boolean" => v.asBool.isSome
  | "null" => v.isNull
  | _ => true

def typeViolation (value schema : Value) (path : String) : Option String :=
  match schema.get "type" with
  | none => none
  | some typeKw =>
    let ok := match typeKw with
      | .string ty => typeMatches float value ty
      | .array types => (types.filterMap Value.asStr).any (typeMatches float value)
      | _ => true
    if ok then none else some (path ++ " has wrong type")

/-- A pattern the engine does not compile is skipped. -/
def patternViolation (value schema : Value) (path : String) : Option String :=
  match schema.get "pattern", value with
  | some (.string pat), .string text =>
    match engine pat with
    | some isMatch =>
      if isMatch text then none else some (path ++ ": does not match pattern " ++ pat)
    | none => none
  | _, _ => none

/-- Equality of numbers in `serde_json`. -/
def sameNumber : Number → Number → Bool
  | .posInt m, .posInt n => m == n
  | .negInt m, .negInt n => m == n
  | .float x, .float y => float x == float y
  | _, _ => false

def same (v w : Value) : Bool := alike (sameNumber float) v w

def enumViolation (value schema : Value) (path : String) : Option String :=
  match schema.get "enum" with
  | some (.array variants) =>
    if variants.any (same float · value) then none
    else some (path ++ " is not one of the allowed enum values")
  | _ => none

/-- The checks of a part of the value. -/
abbrev Check := Value → String → Option String

def requiredViolation (keys : List String) (schema : Value) (path : String) : Option String :=
  match schema.get "required" with
  | some (.array req) => (req.filterMap Value.asStr).findSome? fun field =>
    if field ∈ keys then none else some (path ++ "." ++ debug field ++ " is required but missing")
  | _ => none

def additionalViolation (children : List (String × Check)) (schema : Value) (path : String) :
    Option String :=
  if (schema.get "additionalProperties").bind Value.asBool = some false then
    children.findSome? fun (key, _) =>
      if key ∈ declared schema then none
      else some (path ++ "." ++ debug key ++
        " is an additional property not allowed by the schema")
  else
    match (schema.get "additionalProperties").filter fun v => v.asObject.isSome with
    | some extra => children.findSome? fun (key, check) =>
      if key ∈ declared schema then none else check extra (path ++ "." ++ key)
    | none => none

def propertiesViolation (children : List (String × Check)) (schema : Value) (path : String) :
    Option String :=
  match (schema.get "properties").bind Value.asObject with
  | some props => props.findSome? fun (name, subschema) =>
    (children.lookup name).bind fun check => check subschema (path ++ "." ++ name)
  | none => none

/-- The checks of an object, given those of its members. -/
def objectViolation (children : List (String × Check)) (schema : Value) (path : String) :
    Option String :=
  (requiredViolation debug (children.map Prod.fst) schema path).orElse fun _ =>
    (additionalViolation debug children schema path).orElse fun _ =>
      propertiesViolation children schema path

/-- The checks of the value itself. -/
def ownViolation (value schema : Value) (path : String) : Option String :=
  (typeViolation float value schema path).orElse fun _ =>
    (patternViolation engine value schema path).orElse fun _ =>
      enumViolation float value schema path

mutual
/-- `schema_violation` -/
def schemaViolation : Value → Value → String → Option String
  | .object fields, schema, path =>
    (ownViolation float engine (.object fields) schema path).orElse fun _ =>
      objectViolation debug (memberChecks fields) schema path
  | .array elems, schema, path =>
    (ownViolation float engine (.array elems) schema path).orElse fun _ =>
      (schema.get "items").bind fun items => elemsViolation elems items path 0
  | .null, schema, path => ownViolation float engine .null schema path
  | .bool b, schema, path => ownViolation float engine (.bool b) schema path
  | .number n, schema, path => ownViolation float engine (.number n) schema path
  | .string s, schema, path => ownViolation float engine (.string s) schema path
def memberChecks : List (String × Value) → List (String × Check)
  | [] => []
  | (key, child) :: rest =>
    (key, fun schema path => schemaViolation child schema path) :: memberChecks rest
def elemsViolation : List Value → Value → String → Nat → Option String
  | [], _, _, _ => none
  | elem :: rest, items, path, i =>
    (schemaViolation elem items (path ++ "[" ++ toString i ++ "]")).orElse fun _ =>
      elemsViolation rest items path (i + 1)
end

-- ---------------------------------------------------------------------------
-- What each check finds
-- ---------------------------------------------------------------------------

variable {float engine debug}

theorem orElse_eq_none {α : Type} {x : Option α} {y : Unit → Option α} :
    x.orElse y = none ↔ x = none ∧ y () = none := by
  cases x <;> simp

theorem isInteger_iff {v : Value} : isInteger float v = true ↔ HasType float v .integer := by
  constructor
  · intro h
    cases v with
    | number n =>
      refine .integer ?_
      cases n with
      | posInt n => exact ⟨n, by simp [valueOf]⟩
      | negInt n => exact ⟨-(n + 1), by simp [valueOf]⟩
      | float x => exact ⟨(float x).num, ((Rat.den_eq_one_iff _).mp (beq_iff_eq.mp h)).symm⟩
    | _ => cases h
  · rintro @⟨⟩
    rename_i n hz
    obtain ⟨z, hz⟩ := hz
    cases n with
    | float x =>
      have hfloat : float x = z := hz
      simp [isInteger, hfloat]
    | _ => rfl

theorem typeMatches_iff {v : Value} {ty : TypeName} :
    typeMatches float v ty.text = true ↔ HasType float v ty := by
  cases ty with
  | integer => exact isInteger_iff
  | _ =>
    constructor
    · intro h
      cases v <;> first | constructor | cases h
    · rintro ⟨⟩
      rfl

theorem typeViolation_eq_none {v schema : Value} {path : String}
    (htype : ∀ t, schema.get "type" = some t → IsType t) :
    typeViolation float v schema path = none ↔ ∀ t, schema.get "type" = some t →
      ∃ ty : TypeName, ty.text ∈ typesOf t ∧ HasType float v ty := by
  unfold typeViolation
  cases hget : schema.get "type" with
  | none => simp
  | some t =>
    cases htype t hget with
    | name ty =>
      have hname : ∀ ty' : TypeName, ty'.text = ty.text ↔ ty' = ty := by
        intro ty'
        cases ty <;> cases ty' <;> simp [TypeName.text]
      simp [typesOf, typeMatches_iff, hname]
    | names types =>
      have htext : (types.map fun ty => Value.string ty.text).filterMap Value.asStr =
          types.map TypeName.text := by
        simp [List.filterMap_map, Function.comp_def, Value.asStr]
      have hany : (types.map TypeName.text).any (typeMatches float v) = true ↔
          ∃ ty : TypeName, ty.text ∈ types.map TypeName.text ∧ HasType float v ty := by
        rw [List.any_eq_true]
        constructor
        · rintro ⟨name, hname, hmatches⟩
          obtain ⟨ty, hty, rfl⟩ := List.mem_map.mp hname
          exact ⟨ty, hname, typeMatches_iff.mp hmatches⟩
        · rintro ⟨ty, hname, hty⟩
          exact ⟨_, hname, typeMatches_iff.mpr hty⟩
      simp only [typesOf, htext, Option.some.injEq, forall_eq', ← hany]
      split <;> simp_all

theorem patternViolation_eq_none {v schema : Value} {path : String} :
    patternViolation engine v schema path = none ↔
      ∀ pat text test, schema.get "pattern" = some (.string pat) → v = .string text →
        engine pat = some test → test text = true := by
  unfold patternViolation
  split
  · next pat text hget =>
    have hthis : (∀ pat' text' test, schema.get "pattern" = some (.string pat') →
        Value.string text = .string text' → engine pat' = some test → test text' = true) ↔
          ∀ test, engine pat = some test → test text = true := by
      constructor
      · exact fun h test htest => h pat text test hget rfl htest
      · rintro h pat' text' test hpat ⟨⟩ htest
        cases hget.symm.trans hpat
        exact h test htest
    rw [hthis]
    split
    · next test htest => simp [htest]
    · next hskip => simp [hskip]
  · next hother =>
    refine iff_of_true rfl ?_
    rintro pat text test hget rfl
    exact absurd rfl (hother pat text hget)

theorem enumViolation_eq_none {v schema : Value} {path : String} :
    enumViolation float v schema path = none ↔
      ∀ variants, schema.get "enum" = some (.array variants) →
        ∃ listed ∈ variants, same float listed v = true := by
  unfold enumViolation
  split
  · next variants hget => simp [hget]
  · next hother => simpa using fun variants h => absurd h (hother variants)

theorem requiredViolation_eq_none {keys : List String} {schema : Value} {path : String} :
    requiredViolation debug keys schema path = none ↔
      ∀ names, schema.get "required" = some (.array names) →
        ∀ name, .string name ∈ names → name ∈ keys := by
  have hmem : ∀ (names : List Value) (name : String),
      name ∈ names.filterMap Value.asStr ↔ .string name ∈ names := by
    intro names name
    constructor
    · intro h
      obtain ⟨v, hv, hstr⟩ := List.mem_filterMap.mp h
      cases v <;> cases hstr
      exact hv
    · intro h
      exact List.mem_filterMap.mpr ⟨_, h, rfl⟩
  unfold requiredViolation
  split
  · next names hget => simp [hget, hmem]
  · next hother => simpa using fun names h => absurd h (hother names)

-- ---------------------------------------------------------------------------
-- The parts of a value
-- ---------------------------------------------------------------------------

theorem memberChecks_eq (fields : Fields) : memberChecks float engine debug fields =
    fields.map fun f => (f.1, fun schema path =>
      schemaViolation float engine debug f.2 schema path) := by
  induction fields with
  | nil => rfl
  | cons f fields ih => rw [memberChecks, ih]; rfl

theorem lookup_memberChecks (fields : Fields) (name : String) :
    (memberChecks float engine debug fields).lookup name =
      (fields.lookup name).map fun child schema path =>
        schemaViolation float engine debug child schema path := by
  rw [memberChecks_eq]
  induction fields with
  | nil => rfl
  | cons f fields ih =>
    obtain ⟨key, child⟩ := f
    simp only [List.map_cons, List.lookup_cons]
    cases name == key with
    | true => rfl
    | false => exact ih

/-- The validator finds nothing in a part if and only if the keywords are met there. -/
def Decides (float : FloatText → ℚ) (engine : String → Option (String → Bool))
    (debug : String → String) (v : Value) : Prop :=
  ∀ schema, IsSchema schema → ∀ path, schemaViolation float engine debug v schema path = none ↔
    MeetsKeywords float engine (same float) v schema

variable {fields : Fields} {schema : Value}

/-- What the checks rely on of a schema that is an object. -/
structure Keyworded (schema : Value) : Prop where
  type : ∀ t, schema.get "type" = some t → IsType t
  additional : ∀ a, schema.get "additionalProperties" = some a → IsSchema a
  properties : ∀ props, schema.get "properties" = some (.object props) →
    ∀ prop ∈ props, IsSchema prop.2
  items : ∀ i, schema.get "items" = some i → IsSchema i

theorem bool_or_keyworded (h : IsSchema schema) : (∃ b, schema = .bool b) ∨ Keyworded schema := by
  cases h with
  | bool b => exact .inl ⟨b, rfl⟩
  | keywords members htype _ _ _ _ hproperties hadditional hitems =>
    exact .inr ⟨htype, hadditional, hproperties, hitems⟩

theorem elemsViolation_eq_none {elems : List Value} {items : Value} (hitems : IsSchema items)
    (helems : ∀ elem ∈ elems, Decides float engine debug elem) (path : String) (i : Nat) :
    elemsViolation float engine debug elems items path i = none ↔
      ∀ elem ∈ elems, MeetsKeywords float engine (same float) elem items := by
  induction elems generalizing i with
  | nil => simp [elemsViolation]
  | cons elem elems ih =>
    obtain ⟨helem, helems⟩ := List.forall_mem_cons.mp helems
    rw [elemsViolation, orElse_eq_none, helem items hitems, ih helems, List.forall_mem_cons]

theorem additionalViolation_eq_none
    (hfields : ∀ f ∈ fields, Decides float engine debug f.2) (hs : Keyworded schema)
    (path : String) :
    additionalViolation debug (memberChecks float engine debug fields) schema path = none ↔
      (schema.get "additionalProperties" = some (.bool false) →
        ∀ key ∈ fields.map Prod.fst, key ∈ declared schema) ∧
      ∀ extra, schema.get "additionalProperties" = some extra → extra ≠ .bool false →
        ∀ f ∈ fields, f.1 ∉ declared schema →
          MeetsKeywords float engine (same float) f.2 extra := by
  rw [additionalViolation, memberChecks_eq]
  cases hget : schema.get "additionalProperties" with
  | none => simp
  | some extra =>
    cases hs.additional extra hget with
    | bool b =>
      cases b with
      | true => simp [Value.asBool, Value.asObject, Option.filter, meetsKeywords_bool]
      | false => simp [Value.asBool, List.findSome?_map]
    | keywords members =>
      have hmember : ∀ f ∈ fields, ∀ path,
          schemaViolation float engine debug f.2 (.object members) path = none ↔
            MeetsKeywords float engine (same float) f.2 (.object members) :=
        fun f hf path => hfields f hf _ (hs.additional _ hget) path
      simp only [Option.bind_some, Value.asBool, Option.filter, Value.asObject]
      simp +contextual [List.findSome?_map, hmember]

theorem propertiesViolation_eq_none
    (hfields : ∀ f ∈ fields, Decides float engine debug f.2) (hs : Keyworded schema)
    (path : String) :
    propertiesViolation (memberChecks float engine debug fields) schema path = none ↔
      ∀ props, schema.get "properties" = some (.object props) → ∀ prop ∈ props, ∀ child,
        fields.lookup prop.1 = some child →
          MeetsKeywords float engine (same float) child prop.2 := by
  unfold propertiesViolation
  cases hget : (schema.get "properties").bind Value.asObject with
  | none =>
    refine iff_of_true rfl fun props hprops => ?_
    rw [hprops] at hget
    cases hget
  | some props =>
    obtain ⟨p, hp, hobject⟩ := Option.bind_eq_some_iff.mp hget
    cases p <;> cases hobject
    simp only [hp, Option.some.injEq, Value.object.injEq, forall_eq', List.findSome?_eq_none_iff,
      lookup_memberChecks]
    refine forall_congr' fun prop => forall_congr' fun hprop => ?_
    cases hchild : fields.lookup prop.1 with
    | none => simp
    | some child =>
      obtain ⟨front, back, hfields', -⟩ := List.lookup_eq_some_iff.mp hchild
      have hmem : (prop.1, child) ∈ fields := by simp [hfields']
      simpa using hfields _ hmem _ (hs.properties props hp prop hprop) _

/-- What the checks of the value itself find. -/
theorem ownViolation_eq_none (hs : Keyworded schema) {v : Value} {path : String} :
    ownViolation float engine v schema path = none ↔
      (∀ t, schema.get "type" = some t →
        ∃ ty : TypeName, ty.text ∈ typesOf t ∧ HasType float v ty) ∧
      (∀ pat text test, schema.get "pattern" = some (.string pat) → v = .string text →
        engine pat = some test → test text = true) ∧
      ∀ variants, schema.get "enum" = some (.array variants) →
        ∃ listed ∈ variants, same float listed v = true := by
  rw [ownViolation, orElse_eq_none, orElse_eq_none, typeViolation_eq_none hs.type,
    patternViolation_eq_none, enumViolation_eq_none]

/-- A value that is no object meets its keywords if its own checks find nothing. -/
theorem meets_iff (hs : Keyworded schema) {v : Value} (hobject : v.asObject = none)
    {path : String} : Meets float engine (same float) v schema ↔
      ownViolation float engine v schema path = none := by
  rw [ownViolation_eq_none hs]
  constructor
  · exact fun h => ⟨h.type, h.pattern, h.enum⟩
  · rintro ⟨htype, hpattern, henum⟩
    refine ⟨htype, hpattern, henum, ?_, ?_⟩
    · rintro names fields - rfl
      cases hobject
    · rintro fields - rfl
      cases hobject

/-- Of a boolean schema nothing is checked. -/
theorem violation_bool (v : Value) (b : Bool) (path : String) :
    schemaViolation float engine debug v (.bool b) path = none := by
  have hnone : ∀ w : Value, ownViolation float engine w (.bool b) path = none := fun _ => rfl
  cases v with
  | array elems => rw [schemaViolation, hnone]; rfl
  | object fields => rw [schemaViolation, hnone]; rfl
  | _ => exact hnone _

theorem violation_leaf (hs : Keyworded schema) {v : Value} (harray : v.asArray = none)
    (hobject : v.asObject = none) (path : String) :
    ownViolation float engine v schema path = none ↔
      MeetsKeywords float engine (same float) v schema := by
  rw [MeetsKeywords, forall_applies_leaf harray hobject, meets_iff hs hobject]

theorem violation_array (hs : Keyworded schema) {elems : List Value}
    (ih : ∀ elem ∈ elems, Decides float engine debug elem) (path : String) :
    schemaViolation float engine debug (.array elems) schema path = none ↔
      MeetsKeywords float engine (same float) (.array elems) schema := by
  have hparts : ((schema.get "items").bind fun items =>
      elemsViolation float engine debug elems items path 0) = none ↔
        ∀ items, schema.get "items" = some items → ∀ elem ∈ elems,
          MeetsKeywords float engine (same float) elem items := by
    cases hget : schema.get "items" with
    | none => simp
    | some items => simp [elemsViolation_eq_none (hs.items items hget) ih]
  rw [schemaViolation, orElse_eq_none, hparts, ← meets_iff hs rfl, MeetsKeywords,
    forall_applies_array]
  rfl

theorem violation_object (hs : Keyworded schema)
    (ih : ∀ f ∈ fields, Decides float engine debug f.2) (path : String) :
    schemaViolation float engine debug (.object fields) schema path = none ↔
      MeetsKeywords float engine (same float) (.object fields) schema := by
  have hkeys : (memberChecks float engine debug fields).map Prod.fst = fields.map Prod.fst := by
    simp [memberChecks_eq]
  rw [schemaViolation, orElse_eq_none, ownViolation_eq_none hs, objectViolation,
    orElse_eq_none, orElse_eq_none, hkeys, requiredViolation_eq_none,
    additionalViolation_eq_none ih hs, propertiesViolation_eq_none ih hs, MeetsKeywords,
    forall_applies_object]
  constructor
  · rintro ⟨⟨htype, hpattern, henum⟩, hrequired, ⟨hclosed, hextra⟩, hprops⟩
    refine ⟨⟨htype, hpattern, henum, ?_, ?_⟩, hextra, hprops⟩
    · rintro names _ hget ⟨⟩
      exact hrequired names hget
    · rintro _ hget ⟨⟩
      exact hclosed hget
  · rintro ⟨hmeets, hextra, hprops⟩
    refine ⟨⟨hmeets.type, hmeets.pattern, hmeets.enum⟩, ?_, ⟨?_, hextra⟩, hprops⟩
    · exact fun names hget => hmeets.required names fields hget rfl
    · exact fun hget => hmeets.closed fields hget rfl

theorem decides_of {v : Value} (h : ∀ schema, Keyworded schema → ∀ path,
    schemaViolation float engine debug v schema path = none ↔
      MeetsKeywords float engine (same float) v schema) : Decides float engine debug v := by
  intro schema hschema path
  obtain ⟨b, rfl⟩ | hs := bool_or_keyworded hschema
  · exact iff_of_true (violation_bool v b path) (meetsKeywords_bool v b)
  · exact h schema hs path

theorem decides (v : Value) : Decides float engine debug v := by
  induction v using Value.ind with
  | array elems ih => exact decides_of fun schema hs path => violation_array hs ih path
  | object fields ih => exact decides_of fun schema hs path => violation_object hs ih path
  | _ => exact decides_of fun schema hs path => violation_leaf hs rfl rfl path

-- ---------------------------------------------------------------------------
-- When the validator is right
-- ---------------------------------------------------------------------------

/-- Some `enum` lists a part that it applies to, but writes a number of it in the other form: an
integer for a float, or a float for an integer. -/
def Respelled (float : FloatText → ℚ) (v schema : Value) : Prop :=
  ∃ part partSchema variants, Applies v schema part partSchema ∧
    partSchema.get "enum" = some (.array variants) ∧
    (∃ listed ∈ variants, equal float listed part = true) ∧
    ∀ listed ∈ variants, same float listed part = false

theorem equal_of_same {v w : Value} (h : same float v w = true) : equal float v w = true := by
  refine alike_mono (fun m n hnumber => ?_) v w h
  cases m <;> cases n <;> simp_all [sameNumber, valueOf]

/-- The equality of `serde_json` misses what is respelled and nothing else. -/
theorem meetsKeywords_same_iff {v : Value} : MeetsKeywords float engine (same float) v schema ↔
    MeetsKeywords float engine (equal float) v schema ∧ ¬Respelled float v schema := by
  constructor
  · refine fun h => ⟨fun part partSchema happlies => ?_, ?_⟩
    · exact (h part partSchema happlies).mono fun _ _ => equal_of_same
    · rintro ⟨part, partSchema, variants, happlies, henum, -, hnone⟩
      obtain ⟨listed, hlisted, hsame⟩ := (h part partSchema happlies).enum variants henum
      rw [hnone listed hlisted] at hsame
      cases hsame
  · rintro ⟨hmeets, hspelled⟩ part partSchema happlies
    have hpart := hmeets part partSchema happlies
    refine { hpart with enum := fun variants henum => ?_ }
    by_contra hnone
    simp only [not_exists, not_and, Bool.not_eq_true] at hnone
    exact hspelled ⟨part, partSchema, variants, happlies, henum, hpart.enum variants henum, hnone⟩

/-- The validator agrees with JSON Schema if and only if some keyword is not met, or neither a
schema `false` applies to a part nor an `enum` lists a part in other numbers only, or both do. -/
theorem schema_violation_iff (hs : IsSchema schema) (v : Value) (path : String) :
    (schemaViolation float engine debug v schema path = none ↔ Conforms float engine v schema) ↔
      (MeetsKeywords float engine (equal float) v schema →
        (Forbids v schema ↔ Respelled float v schema)) := by
  rw [decides v schema hs path, meetsKeywords_same_iff, Conforms]
  tauto

/-- The text of the float `1.0`. -/
def onePointZero : FloatText where
  text := ['1', '.', '0']
  numeric := by simp [isNumberChar]
  fractional := by decide

def countSchema : Value :=
  .object [("enum", .array [.number (.posInt 1), .number (.posInt 2)]),
    ("type", .string "integer")]

def forbidSchema : Value := .object [("properties", .object [("x", .bool false)])]

theorem isSchema_countSchema : IsSchema countSchema := by
  refine .keywords _ ?_ ?_ ?_ ?_ ?_ ?_ ?_ ?_
  · rintro t ⟨⟩
    exact .name .integer
  · rintro e ⟨⟩
    exact ⟨_, rfl⟩
  all_goals rintro _ ⟨⟩

/-- To a number only its own schema applies. -/
theorem not_forbids_number (n : Number) : ¬Forbids (.number n) countSchema := by
  rintro ⟨part, happlies⟩
  cases happlies

theorem schema_violation_iff_two :
    schemaViolation (fun _ => 1) (fun _ => none) id (.number (.posInt 2)) countSchema "root" =
      none ↔ Conforms (fun _ => 1) (fun _ => none) (.number (.posInt 2)) countSchema := by
  refine (schema_violation_iff isSchema_countSchema _ _).mpr fun _ => ?_
  refine iff_of_false (not_forbids_number _) ?_
  rintro ⟨part, partSchema, variants, happlies, henum, -, hnone⟩
  cases happlies
  cases henum
  exact absurd (hnone (.number (.posInt 2)) (by simp)) (by decide)

/-- The float `1.0` conforms to an enum of the integers 1 and 2 and is rejected; a value with a
member that `false` forbids does not conform and is accepted. -/
theorem schema_misjudged :
    ¬(schemaViolation (fun _ => 1) (fun _ => none) id (.number (.float onePointZero)) countSchema
      "root" = none ↔
        Conforms (fun _ => 1) (fun _ => none) (.number (.float onePointZero)) countSchema) ∧
    ¬(schemaViolation (fun _ => 1) (fun _ => none) id (.object [("x", .null)]) forbidSchema
      "root" = none ↔
        Conforms (fun _ => 1) (fun _ => none) (.object [("x", .null)]) forbidSchema) := by
  constructor
  · have hconforms :
        Conforms (fun _ => 1) (fun _ => none) (.number (.float onePointZero)) countSchema := by
      refine ⟨(forall_applies_leaf rfl rfl).mpr ⟨?_, ?_, ?_, ?_, ?_⟩, not_forbids_number _⟩
      · rintro t ⟨⟩
        exact ⟨.integer, by simp [typesOf, TypeName.text], .integer ⟨1, by simp [valueOf]⟩⟩
      · rintro pat text test ⟨⟩
      · rintro variants ⟨⟩
        exact ⟨.number (.posInt 1), by simp, by decide⟩
      · rintro names fields ⟨⟩
      · rintro fields ⟨⟩
    exact fun h => absurd (h.mpr hconforms) (by decide)
  · have hforbids : Forbids (.object [("x", .null)]) forbidSchema :=
      ⟨.null, .property rfl rfl List.mem_cons_self (.here .null (.bool false))⟩
    exact fun h => (h.mp (by decide)).2 hforbids

end Firstpass.SchemaCheck
