import ValueBridge.Convert.Error
/-!
# Errors of statements

What can go wrong between a statement and the values of its rows: a parameter cannot be encoded, the engine refuses the
statement, a cell cannot be decoded, or there is no such column.
-/
namespace ValueBridge

inductive QueryError where
  | conversion (e : ConvertError)
  | engine (why : Failure)
  | bind (name : String) (e : ConvertError)
  | columnOutOfRange (index count : Nat)
  | unknownColumn (name : String)
deriving DecidableEq, Repr

namespace QueryError

/-- The kind of the conversion error behind this one, if there is one. -/
def kind? : QueryError → Option ErrorKind
  | conversion e | bind _ e => some e.kind
  | _ => none

/-- The conversion error behind this one, as seen from one step further out. -/
def within (place : Place) : QueryError → QueryError
  | conversion e => conversion (e.within place)
  | bind name e => bind name (e.within place)
  | e => e

def message : QueryError → String
  | conversion e => "conversion error: " ++ e.message
  | engine why => "engine error: " ++ why.text
  | bind name e => "cannot bind parameter $" ++ name ++ ": " ++ e.message
  | columnOutOfRange index count => s!"column {index} out of range for {count} columns"
  | unknownColumn name => "no column named '" ++ name ++ "'"

end QueryError

end ValueBridge
