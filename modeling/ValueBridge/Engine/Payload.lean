import ValueBridge.Host.Value
import ValueBridge.Type.Logical
/-!
# Scalar payloads of the engine

A payload is what the engine stores for a value without parts.  The engine has more tags than the host has kinds: six
tags for an instant, an automatic counter beside the 64-bit integers, 128-bit integers beside the decimals.
-/
namespace ValueBridge

/-! ## Temporal payloads -/

/-- An instant as the engine keeps it, in days or in one of the units of a timestamp. -/
inductive Temporal where
  | date (days : IntOf .int32)
  | timestamp (micros : IntOf .int64)
  | timestampTz (micros : IntOf .int64)
  | timestampMs (millis : IntOf .int64)
  | timestampNs (nanos : IntOf .int64)
  | timestampSec (seconds : IntOf .int64)
deriving DecidableEq, Repr

def Temporal.tag : Temporal → Tag
  | date _ => .date
  | timestamp _ => .timestamp
  | timestampTz _ => .timestampTz
  | timestampMs _ => .timestampMs
  | timestampNs _ => .timestampNs
  | timestampSec _ => .timestampSec

/-! ## Payloads -/

inductive Payload where
  | bool (b : Bool)
  | int (width : IntWidth) (n : IntOf width)
  | serial (n : IntOf .int64)
  | int128 (n : Int128)
  | float (x : Binary32)
  | double (x : Binary64)
  | decimal (text : String) (precision scale : Nat)
  | string (s : String)
  | blob (bytes : List UInt8)
  | uuid (text : String)
  | temporal (t : Temporal)
  | interval (i : Interval)
  | id (i : InternalId)
deriving DecidableEq, Repr

namespace Payload

def tag : Payload → Tag
  | bool _ => .bool
  | int w _ => w.tag
  | serial _ => .serial
  | int128 _ => .int128
  | float _ => .float
  | double _ => .double
  | decimal .. => .decimal
  | string _ => .string
  | blob _ => .blob
  | uuid _ => .uuid
  | temporal t => t.tag
  | interval _ => .interval
  | id _ => .internalId

/-- A decimal states its precision and scale; any other type is its tag alone. -/
def type : Payload → LogicalType
  | decimal _ p s => .decimal p s
  | p => .plain p.tag

theorem tag_type (p : Payload) : p.type.tag = p.tag := by cases p <;> rfl

end Payload

end ValueBridge
