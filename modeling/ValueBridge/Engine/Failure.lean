import ValueBridge.Type.Logical
/-!
# Failures of engine calls

Every cause for which the engine refuses a call, and its wording.  A failure travels as a numeric code and a message;
`reported` is one that came from outside with a code and message of its own.
-/
namespace ValueBridge

/-- A value that the engine holds, by its serial number. -/
structure Handle where
  id : Nat
deriving DecidableEq, Repr

namespace Handle

/-- The serial number in 64 bits, as it is handed out.  It tells handles apart while fewer than 2⁶⁴ have been issued. -/
def number (h : Handle) : UInt64 := .ofNat h.id

def text (h : Handle) : String := s!"#{h.id}"

/-- The text by which the owner of a handle shows it. -/
def ownerText (h : Handle) : String := s!"OwnedValue \x7b raw: RawValue({h.id}) \x7d"

end Handle

/-- The shape that an accessor asks for. -/
inductive Form where
  | scalar | list | struct | map | node | rel | path
deriving DecidableEq, Repr

def Form.name : Form → String
  | scalar => "scalar"
  | list => "list"
  | struct => "struct"
  | map => "map"
  | node => "node"
  | rel => "relationship"
  | path => "recursive relationship"

/-- A sequence whose elements must have a common type. -/
inductive SequenceForm where
  | list | array
deriving DecidableEq, Repr

def SequenceForm.name : SequenceForm → String
  | list => "list"
  | array => "array"

inductive Failure where
  | invalidHandle (h : Handle)
  | tableFull (live : Nat)
  | notA (form : Form) (type : LogicalType)
  | outOfRange (index count : Nat)
  | malformedUuid (text : String)
  | decimalBounds (precision scale : Nat)
  | emptySequence (form : SequenceForm)
  | emptyStruct
  | emptyMap
  | mixedElements (form : SequenceForm) (types : List LogicalType)
  | mixedKeys
  | mixedValues
  | unevenMap (keys values : Nat)
  | noMember (name : String)
  | memberType (name : String) (declared found : LogicalType)
  | unboundParameter (name : String)
  | unknownStatement (statement : String)
  | reported (code : Int) (message : String)
deriving DecidableEq, Repr

namespace Failure

/-- The engine's own failures have code 1. -/
def code : Failure → Int
  | reported code _ => code
  | _ => 1

def message : Failure → String
  | invalidHandle h => s!"invalid handle {h.text}"
  | tableFull live => s!"handle table full ({live} live handles)"
  | notA form type => "value of type " ++ type.text ++ " is not a " ++ form.name
  | outOfRange index count => s!"index {index} out of range for {count} elements"
  | malformedUuid text => "invalid UUID string: " ++ text
  | decimalBounds precision scale => s!"decimal precision {precision} / scale {scale} out of range (max 38)"
  | emptySequence form => "cannot create " ++ form.name ++ " from zero elements"
  | emptyStruct => "cannot create struct with zero fields"
  | emptyMap => "cannot create map from zero entries"
  | mixedElements form types =>
    form.name ++ " elements must be of the same type: " ++ ", ".intercalate (types.map LogicalType.text)
  | mixedKeys => "map keys must be of the same type"
  | mixedValues => "map values must be of the same type"
  | unevenMap keys values => s!"map has {keys} keys but {values} values"
  | noMember name => "union has no member '" ++ name ++ "'"
  | memberType name declared found => "union member '" ++ name ++ "' is " ++ declared.text ++ ", got " ++ found.text
  | unboundParameter name => "parameter " ++ name ++ " not found"
  | unknownStatement statement => "unknown statement: " ++ statement
  | reported _ message => message

/-- A failure as it is shown. -/
def text (e : Failure) : String := s!"engine status {e.code}: {e.message}"

end Failure

end ValueBridge
