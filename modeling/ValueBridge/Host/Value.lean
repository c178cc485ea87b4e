import ValueBridge.Graph.Element
import ValueBridge.Number.DecimalText
import ValueBridge.Time.Instant
import ValueBridge.Time.Duration
import ValueBridge.Uuid
/-!
# Host values

A host value is detached from the engine.  Its leaves are scalars: one kind for every width of number, decimals of any
precision, instants and durations.  Lists, structs and maps keep their order; a map is a list of pairs, as its keys may
be any values, and neither it nor a struct need have distinct keys.
-/
namespace ValueBridge

/-! ## Scalars -/

/-- A value without parts, other than null. -/
inductive Scalar where
  | bool (b : Bool)
  | int (width : IntWidth) (n : IntOf width)
  | float (x : Binary32)
  | double (x : Binary64)
  | decimal (d : Decimal)
  | string (s : String)
  | blob (bytes : List UInt8)
  | uuid (u : Uuid)
  | timestamp (t : Instant)
  | duration (d : Duration)
  | id (i : InternalId)
deriving DecidableEq, Repr

def IntWidth.kindName : IntWidth → String
  | int8 => "int8"
  | int16 => "int16"
  | int32 => "int32"
  | int64 => "int64"
  | uint8 => "uint8"
  | uint16 => "uint16"
  | uint32 => "uint32"
  | uint64 => "uint64"

def Scalar.kindName : Scalar → String
  | bool _ => "bool"
  | int w _ => w.kindName
  | float _ => "float"
  | double _ => "double"
  | decimal _ => "decimal"
  | string _ => "string"
  | blob _ => "blob"
  | uuid _ => "uuid"
  | timestamp _ => "timestamp"
  | duration _ => "duration"
  | id _ => "internal id"

/-! ## Values -/

inductive HostValue where
  | null
  | scalar (s : Scalar)
  | list (items : List HostValue)
  | struct (fields : List (String × HostValue))
  | map (entries : List (HostValue × HostValue))
  | node (n : Node HostValue)
  | rel (r : Rel HostValue)
  | path (p : Path HostValue)
deriving Repr

namespace HostValue

instance : Inhabited HostValue := ⟨null⟩

def isNull : HostValue → Bool
  | null => true
  | _ => false

/-- The kind of a value, as error messages name it. -/
def kindName : HostValue → String
  | null => "null"
  | scalar s => s.kindName
  | list _ => "list"
  | struct _ => "struct"
  | map _ => "map"
  | node _ => "node"
  | rel _ => "relationship"
  | path _ => "recursive relationship"

def text? : HostValue → Option String
  | scalar (.string s) => some s
  | _ => none

/-- The value of an integer of any width, if it fits 64 bits with a sign. -/
def int64? : HostValue → Option (IntOf .int64)
  | scalar (.int _ n) => Ranged.ofInt? n.val
  | _ => none

def items? : HostValue → Option (List HostValue)
  | list items => some items
  | _ => none

/-- The first field of a struct that has the name. -/
def field? : HostValue → String → Option HostValue
  | struct fields, name => fields.lookup name
  | _, _ => none

/-- The first field or property that has the name. -/
def lookup? : HostValue → String → Option HostValue
  | node n, name => n.property? name
  | rel r, name => r.property? name
  | v, name => v.field? name

end HostValue

end ValueBridge
