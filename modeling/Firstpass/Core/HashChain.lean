import Firstpass.Core.Json

/-!
# The audit hash chain

A record carries the hash of the record before it and is hashed over its
canonical JSON, its own `prev_hash` included. SHA-256 is the parameter
`sha256Hex`; what is proved about it is in `HashChainLaws`.
-/

namespace Firstpass.HashChain

open Json (Value)

inductive Error
  | badModelRef (reference : String)
  | unknownModel (model : String)
  | chainBroken (index : Nat) (detail : String)
  | json (detail : String)
  deriving DecidableEq

/-- The `prev_hash` of the first record in a chain: 64 hex zeros. -/
def genesisHash : String := "0000000000000000000000000000000000000000000000000000000000000000"

/-- `serde_json::to_value`, which may refuse a record. -/
class Serialize (T : Type) where
  toValue : T → Except String Value

class Chained (T : Type) where
  prevHash : T → String

export Serialize (toValue)
export Chained (prevHash)

def canonicalJson [Serialize T] (value : T) : Except Error String := do
  let v ← (toValue value).mapError .json
  return Json.canonicalJson v

def recordHash [Serialize T] (sha256Hex : String → String) (record : T) : Except Error String := do
  let text ← canonicalJson record
  return sha256Hex text

def linkMismatch (expected found : String) : String :=
  "prev_hash link mismatch: expected " ++ expected ++ ", found " ++ found

def verifyFrom [Serialize T] [Chained T] (sha256Hex : String → String) (i : Nat)
    (expectedPrev : String) : List T → Except Error Unit
  | [] => .ok ()
  | rec :: rest =>
    if prevHash rec ≠ expectedPrev then
      .error (.chainBroken i (linkMismatch expectedPrev (prevHash rec)))
    else do
      let hash ← recordHash sha256Hex rec
      verifyFrom sha256Hex (i + 1) hash rest

def verifyChain [Serialize T] [Chained T] (sha256Hex : String → String) (records : List T)
    (genesis : String) : Except Error Unit :=
  verifyFrom sha256Hex 0 genesis records

end Firstpass.HashChain
