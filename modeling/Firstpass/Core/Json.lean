import Mathlib.Data.List.Basic
import Mathlib.Data.String.Basic

/-!
# JSON values and their canonical text

`Value` is what `serde_json` builds: objects keep their members in map order,
each key once. `canonicalize` sorts the keys at every depth and `print` is the
compact writer, so `canonicalJson` is the text a record is hashed over.

A finite float is kept as the shortest round-trip text the writer gives it,
which is one text for each float.
-/

namespace Firstpass.Json

def isNumberChar (c : Char) : Bool :=
  c.isDigit || c == '-' || c == '+' || c == '.' || c == 'e'

/-- The text of a finite float: number characters only, and never the text
of an integer. -/
structure FloatText where
  text : List Char
  numeric : ∀ c ∈ text, isNumberChar c = true
  fractional : '.' ∈ text ∨ 'e' ∈ text
  deriving DecidableEq

/-- `serde_json::Number`. `negInt n` is the integer `-(n + 1)`. -/
inductive Number
  | posInt (n : Nat)
  | negInt (n : Nat)
  | float (x : FloatText)
  deriving DecidableEq

inductive Value
  | null
  | bool (b : Bool)
  | number (n : Number)
  | string (s : String)
  | array (elems : List Value)
  | object (fields : List (String × Value))

instance : Inhabited Value := ⟨.null⟩

def Value.asStr : Value → Option String
  | .string s => some s
  | _ => none

def Value.get (v : Value) (key : String) : Option Value :=
  match v with
  | .object fields => fields.lookup key
  | _ => none

/-- An array index in a JSON pointer: digits, with no leading zero. -/
def parseIndex (token : String) : Option Nat :=
  let cs := token.toList
  if cs = [] ∨ ¬ cs.all Char.isDigit ∨ (cs.head? = some '0' ∧ cs.length ≠ 1) then none
  else some (cs.foldl (fun n c => 10 * n + (c.toNat - '0'.toNat)) 0)

def Value.pointer (v : Value) : List String → Option Value
  | [] => some v
  | token :: rest =>
    match v with
    | .object fields => (fields.lookup token).bind fun w => Value.pointer w rest
    | .array elems => ((parseIndex token).bind (elems[·]?)).bind fun w => Value.pointer w rest
    | _ => none

-- ---------------------------------------------------------------------------
-- Canonical key order
-- ---------------------------------------------------------------------------

/-- `BTreeMap::insert` on the entries in key order. -/
def btreeInsert (key : String) (val : Value) : List (String × Value) → List (String × Value)
  | [] => [(key, val)]
  | (k, v) :: rest =>
    if key < k then (key, val) :: (k, v) :: rest
    else if key = k then (key, val) :: rest
    else (k, v) :: btreeInsert key val rest

def btreeCollect (fields : List (String × Value)) : List (String × Value) :=
  fields.foldl (fun sorted f => btreeInsert f.1 f.2 sorted) []

mutual
def canonicalize : Value → Value
  | .object fields => .object (btreeCollect (canonicalizeFields fields))
  | .array elems => .array (canonicalizeElems elems)
  | .null => .null
  | .bool b => .bool b
  | .number n => .number n
  | .string s => .string s
def canonicalizeElems : List Value → List Value
  | [] => []
  | v :: vs => canonicalize v :: canonicalizeElems vs
def canonicalizeFields : List (String × Value) → List (String × Value)
  | [] => []
  | (k, v) :: rest => (k, canonicalize v) :: canonicalizeFields rest
end

-- ---------------------------------------------------------------------------
-- The compact writer
-- ---------------------------------------------------------------------------

def Number.print : Number → List Char
  | .posInt n => Nat.toDigits 10 n
  | .negInt n => '-' :: Nat.toDigits 10 (n + 1)
  | .float x => x.text

/-- The escapes of `serde_json`: two short forms for the delimiters, five for
common controls, `\u00xx` for the other controls. -/
def escapeChar (c : Char) : List Char :=
  if c = '"' then ['\\', '"']
  else if c = '\\' then ['\\', '\\']
  else if c.toNat = 8 then ['\\', 'b']
  else if c.toNat = 9 then ['\\', 't']
  else if c.toNat = 10 then ['\\', 'n']
  else if c.toNat = 12 then ['\\', 'f']
  else if c.toNat = 13 then ['\\', 'r']
  else if c.toNat < 32 then
    ['\\', 'u', '0', '0', Nat.digitChar (c.toNat / 16), Nat.digitChar (c.toNat % 16)]
  else [c]

def printString (s : String) : List Char := '"' :: s.toList.flatMap escapeChar ++ ['"']

mutual
def print : Value → List Char
  | .null => ['n', 'u', 'l', 'l']
  | .bool true => ['t', 'r', 'u', 'e']
  | .bool false => ['f', 'a', 'l', 's', 'e']
  | .number n => n.print
  | .string s => printString s
  | .array [] => ['[', ']']
  | .array (v :: vs) => '[' :: print v ++ printElems vs
  | .object [] => ['{', '}']
  | .object ((k, v) :: rest) => '{' :: printString k ++ ':' :: print v ++ printFields rest
def printElems : List Value → List Char
  | [] => [']']
  | v :: vs => ',' :: print v ++ printElems vs
def printFields : List (String × Value) → List Char
  | [] => ['}']
  | (k, v) :: rest => ',' :: printString k ++ ':' :: print v ++ printFields rest
end

/-- The canonical text of a value: keys sorted at every depth, no whitespace. -/
def canonicalJson (v : Value) : String := String.ofList (print (canonicalize v))

example : canonicalJson (.object [("b", .array [.bool true]), ("a", .number (.negInt 2))]) =
    "\x7b\"a\":-3,\"b\":[true]\x7d" := by decide +kernel

end Firstpass.Json
