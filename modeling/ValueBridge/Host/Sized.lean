import ValueBridge.Host.Value
import ValueBridge.Json.Document
import ValueBridge.Json.Printer
import ValueBridge.Type.Tag
/-!
# Numbers with a stated width

A JSON number does not say which width it wants.  A sized number does, and so stands for one host value
(`Sized.host`).  It is read from an object with the one field `value`, or from an array of one element, at a given width.
An integer width takes no number with a point or an exponent, and none outside its range; a float width takes any number.
-/
namespace ValueBridge

/-- The widths that a sized number can state. -/
inductive SizedKind where
  | bool
  | int (width : IntWidth)
  | float
  | double
deriving DecidableEq, Repr

/-- A number, or a truth value, of a stated width. -/
inductive Sized where
  | bool (b : Bool)
  | int (width : IntWidth) (n : IntOf width)
  | float (x : Binary32)
  | double (x : Binary64)
deriving DecidableEq, Repr

namespace Sized

def kind : Sized → SizedKind
  | bool _ => .bool
  | int w _ => .int w
  | float _ => .float
  | double _ => .double

def scalar : Sized → Scalar
  | bool b => .bool b
  | int w n => .int w n
  | float x => .float x
  | double x => .double x

/-- The host value that a sized number stands for. -/
def host (n : Sized) : HostValue := .scalar n.scalar

end Sized

namespace SizedKind

def tag : SizedKind → Tag
  | bool => .bool
  | int w => w.tag
  | float => .float
  | double => .double

/-! ## Reading -/

/-- The single nearest to a number.  An integer is rounded once; a numeral with a point is first read as a double. -/
def singleOf : Json.Number → Binary32
  | .int n => .nearest (decide (n.val < 0)) n.val.natAbs 1
  | .double x _ => x.narrow

def doubleOf : Json.Number → Binary64
  | .int n => .nearest (decide (n.val < 0)) n.val.natAbs 1
  | .double x _ => x

def ofNumber? : SizedKind → Json.Number → Option Sized
  | int w, .int n => (Ranged.ofInt? n.val).map (.int w)
  | float, n => some (.float (singleOf n))
  | double, n => some (.double (doubleOf n))
  | _, _ => none

def ofValue? : SizedKind → Json.Document → Option Sized
  | bool, .bool b => some (.bool b)
  | kind, .number n => n.number?.bind kind.ofNumber?
  | _, _ => none

/-- The field that holds the number. -/
def fieldName : String := "value"

/-- The one value whose name is `value`, among fields that all have a name. -/
def soleValue? (fields : List (Option String × Json.Document)) : Option Json.Document :=
  if fields.any (·.1.isNone) then none
  else match fields.filter (·.1 == some fieldName) with
    | [(_, v)] => some v
    | _ => none

def ofDocument? (kind : SizedKind) : Json.Document → Option Sized
  | .object fields => (soleValue? fields).bind kind.ofValue?
  | .array [v] => kind.ofValue? v
  | _ => none

def ofText? (kind : SizedKind) (s : String) : Option Sized := (Json.Document.ofText? s).bind kind.ofDocument?

variable {kind : SizedKind} {n : Sized}

theorem kind_of_ofNumber? {x : Json.Number} (h : kind.ofNumber? x = some n) : n.kind = kind := by
  unfold ofNumber? at h
  split at h
  · obtain ⟨i, -, rfl⟩ := Option.map_eq_some_iff.1 h
    rfl
  all_goals cases h <;> rfl

theorem kind_of_ofValue? {d : Json.Document} (h : kind.ofValue? d = some n) : n.kind = kind := by
  unfold ofValue? at h
  split at h
  · cases h
    rfl
  · obtain ⟨x, -, hx⟩ := Option.bind_eq_some_iff.1 h
    exact kind_of_ofNumber? hx
  · cases h

/-- **A number that is read at a width has that width.** -/
theorem kind_of_ofText? {s : String} (h : kind.ofText? s = some n) : n.kind = kind := by
  obtain ⟨d, -, hd⟩ := Option.bind_eq_some_iff.1 h
  unfold ofDocument? at hd
  split at hd
  · obtain ⟨v, -, hv⟩ := Option.bind_eq_some_iff.1 hd
    exact kind_of_ofValue? hv
  · exact kind_of_ofValue? hd
  · cases hd

end SizedKind

/-! ## Writing -/

namespace Sized

/-- The text of the number itself, a single with its own shortest digits. -/
def numberText : Sized → String
  | bool b => (Json.bool b).text
  | int _ n => (Json.ofInt n).text
  | float x => Json.singleText x
  | double x => Json.doubleText x

/-- A sized number as an object with the field `value`. -/
def text (n : Sized) : String := "\x7b" ++ Json.quoted SizedKind.fieldName ++ ":" ++ n.numberText ++ "\x7d"

end Sized

end ValueBridge
