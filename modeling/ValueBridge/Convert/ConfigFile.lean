import ValueBridge.Convert.Config
import ValueBridge.Toml.Document
/-!
# Configuration files

A configuration is a TOML document with up to three known keys; other keys do not matter.  A key that is absent has its
default, and a depth of zero is refused here, since no collection could be converted with it.
-/
namespace ValueBridge.Config

open Toml (Value)

/-- Whether a value has no content, as the name of a choice may have. -/
def isEmptyValue : Value → Bool
  | .array items => items.isEmpty
  | .table _ fields => fields.isEmpty
  | _ => false

/-- A choice is its name, or a table whose one key is the name. -/
def blobLengthOf? : Value → Option BlobLength
  | .string s => BlobLength.ofName? s
  | .table _ [(name, v)] => if isEmptyValue v then BlobLength.ofName? name else none
  | _ => none

def booleanOf? : Value → Option Bool
  | .boolean b => some b
  | _ => none

def naturalOf? : Value → Option Nat
  | .integer n => if 0 ≤ n then some n.toNat else none
  | _ => none

/-- The value of a key, or the default if the key is absent. -/
def keyed {α : Type} (fields : Toml.Fields) (key : String) (read? : Value → Option α) (default : α) : Option α :=
  match fields.lookup key with
  | some v => read? v
  | none => some default

def ofFields? (fields : Toml.Fields) : Option Config := do
  let defaults : Config := {}
  let blobLength ← keyed fields "blob_length" blobLengthOf? defaults.blobLength
  let strictNumericWidth ← keyed fields "strict_numeric_width" booleanOf? defaults.strictNumericWidth
  let maxDepth ← keyed fields "max_depth" naturalOf? defaults.maxDepth
  return ⟨blobLength, strictNumericWidth, maxDepth⟩

def ofToml (s : String) : Except ConvertError Config :=
  match (Toml.ofText? s).bind ofFields? with
  | some c => if c.maxDepth = 0 then .error ⟨.zeroMaxDepth, []⟩ else .ok c
  | none => .error ⟨.malformedConfig, []⟩

end ValueBridge.Config
