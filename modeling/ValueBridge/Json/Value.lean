import ValueBridge.Fields
import ValueBridge.Number.Binary
/-!
# JSON values

A JSON number is an integer between -2^63 and 2^64 - 1 or a finite double.  An object built by `Json.ofFields` has its
keys in ascending order, each once, and the last value given for a key is the one it keeps.
-/
namespace ValueBridge

namespace Json

inductive Number where
  | int (n : Ranged (-2 ^ 63) (2 ^ 64 - 1))
  | double (x : Binary64) (finite : x.isFinite = true)
deriving DecidableEq

end Json

inductive Json where
  | null
  | bool (b : Bool)
  | number (n : Json.Number)
  | string (s : String)
  | array (items : List Json)
  | object (fields : List (String × Json))

namespace Json

instance : Inhabited Json := ⟨null⟩

/-- An integer of one of the host's widths. -/
def ofInt {w : IntWidth} (n : IntOf w) : Json := number (.int (n.widen w.lo_ge w.hi_le))

/-- A double; infinities and what is no number become null. -/
def ofDouble (x : Binary64) : Json :=
  if h : x.isFinite = true then number (.double x h) else null

/-! ## Objects -/

def ofFields (fields : List (String × Json)) : Json := object (Fields.latest fields)

end Json

end ValueBridge
