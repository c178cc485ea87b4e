import ValueBridge.Engine.Failure
import ValueBridge.Engine.Payload
import ValueBridge.Type.Join
/-!
# Conversion errors

A conversion fails for one cause, at one place.  The cause has a kind, by which callers branch, and a message; the
place is a list of steps into the value, the outermost first.  Three kinds carry their place in the message; for the
other three the message says everything, and the place is not kept.
-/
namespace ValueBridge

/-! ## Kinds -/

inductive ErrorKind where
  | nullValue | typeMismatch | unsupportedType | emptyCollection | heterogeneousType | conversionFailed
deriving DecidableEq, Repr

namespace ErrorKind

def text : ErrorKind → String
  | nullValue => "null value"
  | typeMismatch => "type mismatch"
  | unsupportedType => "unsupported type"
  | emptyCollection => "empty collection"
  | heterogeneousType => "heterogeneous type"
  | conversionFailed => "conversion failed"

/-- Whether errors of the kind say where they arose. -/
def keepsPlace : ErrorKind → Bool
  | unsupportedType | heterogeneousType | conversionFailed => true
  | _ => false

end ErrorKind

inductive CollectionKind where
  | list | struct | map
deriving DecidableEq, Repr

def CollectionKind.name : CollectionKind → String
  | list => "list"
  | struct => "struct"
  | map => "map"

/-! ## Causes -/

inductive Cause where
  | nullValue
  | typeMismatch (expected : List Tag) (found : Tag)
  | emptyCollection (kind : CollectionKind)
  | noEncoding (kindName : String)
  | noDecoder (tag : Tag)
  | unsizedNumber (text : String)
  | heterogeneous (kind : CollectionKind) (why : Failure)
  | engine (why : Failure)
  | tooDeep (maxDepth : Nat)
  | payloadMismatch (expected : List Tag) (found : Tag)
  | timestampOutOfRange (count : Int)
  | intervalOverflow (i : Interval)
  | durationOverflow (d : Duration)
  | decimalTooLong (d : Decimal) (digits : Int)
  | malformedDecimal (text : String)
  | malformedUuid (text : String)
  | malformedConfig
  | zeroMaxDepth
  | unsupported (message : String)
  | mixed (message : String)
  | failed (message : String)
deriving DecidableEq, Repr

namespace Cause

def kind : Cause → ErrorKind
  | nullValue => .nullValue
  | typeMismatch .. => .typeMismatch
  | emptyCollection _ => .emptyCollection
  | noEncoding _ | noDecoder _ | unsizedNumber _ | unsupported _ => .unsupportedType
  | heterogeneous .. | mixed _ => .heterogeneousType
  | _ => .conversionFailed

/-- The message without the place. -/
def message : Cause → String
  | nullValue => "value is null"
  | typeMismatch expected found => s!"received {found.name} type when expecting {Tag.setText expected}"
  | emptyCollection kind => s!"cannot construct an engine {kind.name} from zero elements"
  | noEncoding kindName => kindName ++ " values are query results and cannot be encoded"
  | noDecoder tag => s!"no decoder for engine type {tag.name}"
  | unsizedNumber text => "generic number " ++ text ++ " has no fixed engine width; use a width wrapper"
  | heterogeneous kind why =>
    s!"failed to construct an engine {kind.name}; make sure all elements are of the same type ({why.message})"
  | engine why => why.text
  | tooDeep maxDepth => s!"value nested deeper than max_depth ({maxDepth})"
  | payloadMismatch expected found =>
    s!"engine returned a {found.name} payload where {Tag.setText expected} was expected"
  | timestampOutOfRange count => s!"timestamp {count} out of range"
  | intervalOverflow i => s!"interval {i.fieldsText} overflows a duration"
  | durationOverflow d => s!"duration {d.toText} overflows an interval"
  | decimalTooLong d digits => s!"decimal {d.toText} needs {digits} digits, engine maximum is {maxPrecision}"
  | malformedDecimal text => "invalid decimal: " ++ text
  | malformedUuid text => "invalid uuid: " ++ text
  | malformedConfig => "invalid codec config: TOML document not accepted"
  | zeroMaxDepth => "invalid codec config: max_depth must be > 0"
  | unsupported message | mixed message | failed message => message

end Cause

/-! ## Places and errors -/

/-- One step into a value. -/
inductive Place where
  | element (index : Nat)
  | field (name : String)
  | mapEntry (index : Nat)
  | property (name : String)
  | column (name : String)
  | named (text : String)
deriving DecidableEq, Repr

def Place.text : Place → String
  | element index => s!"element {index}"
  | field name => "field '" ++ name ++ "'"
  | mapEntry index => s!"map entry {index}"
  | property name => "property '" ++ name ++ "'"
  | column name => "column '" ++ name ++ "'"
  | named text => text

structure ConvertError where
  cause : Cause
  places : List Place := []
deriving DecidableEq, Repr

namespace ConvertError

def kind (e : ConvertError) : ErrorKind := e.cause.kind

/-- The error as seen from one step further out. -/
def within (place : Place) (e : ConvertError) : ConvertError :=
  if e.kind.keepsPlace then { e with places := place :: e.places } else e

/-- A message with the steps that lead to it in front. -/
def located (places : List Place) (message : String) : String :=
  places.foldr (fun place text => place.text ++ ": " ++ text) message

def message (e : ConvertError) : String :=
  match e.kind with
  | .unsupportedType => "unsupported type: " ++ located e.places e.cause.message
  | _ => located e.places e.cause.message

theorem cause_within (place : Place) (e : ConvertError) : (e.within place).cause = e.cause := by
  unfold within
  split <;> rfl

theorem kind_within (place : Place) (e : ConvertError) : (e.within place).kind = e.kind :=
  congrArg Cause.kind (cause_within place e)

end ConvertError

end ValueBridge
