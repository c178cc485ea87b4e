import ValueBridge.Number.Ranged
/-!
# Type tags

The closed set of tags by which the engine tells its values apart, with their numeric codes and spellings.
-/
namespace ValueBridge

/-- The tag of an engine value's type. -/
inductive Tag where
  | any | node | rel | path | serial | bool
  | int64 | int32 | int16 | int8 | uint64 | uint32 | uint16 | uint8 | int128
  | double | float
  | date | timestamp | timestampSec | timestampMs | timestampNs | timestampTz
  | interval | decimal | internalId | string | blob
  | list | array | struct | map | union | pointer | uuid
deriving DecidableEq, Repr

namespace Tag

/-- Every tag, in the order of the codes. -/
def all : List Tag :=
  [any, node, rel, path, serial, bool, int64, int32, int16, int8, uint64, uint32, uint16, uint8, int128, double, float,
    date, timestamp, timestampSec, timestampMs, timestampNs, timestampTz, interval, decimal, internalId, string, blob,
    list, array, struct, map, union, pointer, uuid]

/-- The tags of the values that stand for one instant. -/
def temporal : List Tag := [date, timestamp, timestampSec, timestampMs, timestampNs, timestampTz]

/-- The code by which the engine knows a tag. -/
def code : Tag → Nat
  | any => 0 | node => 10 | rel => 11 | path => 12 | serial => 13 | bool => 22
  | int64 => 23 | int32 => 24 | int16 => 25 | int8 => 26
  | uint64 => 27 | uint32 => 28 | uint16 => 29 | uint8 => 30 | int128 => 31
  | double => 32 | float => 33
  | date => 34 | timestamp => 35 | timestampSec => 36 | timestampMs => 37 | timestampNs => 38 | timestampTz => 39
  | interval => 40 | decimal => 41 | internalId => 42 | string => 50 | blob => 51
  | list => 52 | array => 53 | struct => 54 | map => 55 | union => 56 | pointer => 58 | uuid => 59

def ofCode? (n : Nat) : Option Tag := all.find? (·.code == n)

/-- The engine's spelling. -/
def name : Tag → String
  | any => "ANY" | node => "NODE" | rel => "REL" | path => "RECURSIVE_REL" | serial => "SERIAL" | bool => "BOOL"
  | int64 => "INT64" | int32 => "INT32" | int16 => "INT16" | int8 => "INT8"
  | uint64 => "UINT64" | uint32 => "UINT32" | uint16 => "UINT16" | uint8 => "UINT8" | int128 => "INT128"
  | double => "DOUBLE" | float => "FLOAT"
  | date => "DATE" | timestamp => "TIMESTAMP" | timestampSec => "TIMESTAMP_SEC" | timestampMs => "TIMESTAMP_MS"
  | timestampNs => "TIMESTAMP_NS" | timestampTz => "TIMESTAMP_TZ"
  | interval => "INTERVAL" | decimal => "DECIMAL" | internalId => "INTERNAL_ID" | string => "STRING" | blob => "BLOB"
  | list => "LIST" | array => "ARRAY" | struct => "STRUCT" | map => "MAP" | union => "UNION"
  | pointer => "POINTER" | uuid => "UUID"

def ofName? (s : String) : Option Tag := all.find? (·.name == s)

/-- Whether values of the tag have parts that are values. -/
def isComposite : Tag → Bool
  | list | array | struct | map | union | node | rel | path => true
  | _ => false

/-- A set of tags as `[INT64, SERIAL]`. -/
def setText (tags : List Tag) : String := "[" ++ ", ".intercalate (tags.map name) ++ "]"

theorem mem_all (t : Tag) : t ∈ all := by cases t <;> decide

theorem ofCode?_code (t : Tag) : ofCode? t.code = some t := by cases t <;> decide

end Tag

/-- The tag of the integers of one width. -/
def IntWidth.tag : IntWidth → Tag
  | int8 => .int8
  | int16 => .int16
  | int32 => .int32
  | int64 => .int64
  | uint8 => .uint8
  | uint16 => .uint16
  | uint32 => .uint32
  | uint64 => .uint64

end ValueBridge
