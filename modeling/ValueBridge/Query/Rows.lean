import ValueBridge.Convert.Source
import ValueBridge.Convert.Target
import ValueBridge.Query.Error
/-!
# Running statements

The parameters of a statement are encoded in order, the statement is run, and the parameters are released, whether it
succeeded or not.  The rows that come back own their cells: a row that is taken owns its own, and those still to be
taken own the rest, until they are released.
-/
namespace ValueBridge

/-- A computation of statements and rows on an engine with state `σ`. -/
abbrev Query (σ : Type) := EStateM QueryError σ

/-- One row of a result. -/
structure Row where
  columns : List String
  cells : List Handle
deriving DecidableEq, Repr

/-- The rows of a result that are still to be taken. -/
structure Rows where
  columns : List String
  rows : List (List Handle)
deriving DecidableEq, Repr

namespace Rows

def size (r : Rows) : Nat := r.rows.length

/-- The next row, and what is left after it. -/
def next? (r : Rows) : Option (Row × Rows) :=
  match r.rows with
  | [] => none
  | cells :: rest => some (⟨r.columns, cells⟩, { r with rows := rest })

/-- Up to `n` rows, and what is left after them. -/
def take (n : Nat) (r : Rows) : List Row × Rows :=
  ((r.rows.take n).map (⟨r.columns, ·⟩), { r with rows := r.rows.drop n })

/-- The cells that are still owned. -/
def cells (r : Rows) : List Handle := r.rows.flatten

end Rows

namespace Query

open ValueBridge.Convert (releasing orReleasing)

variable {σ : Type} [Engine σ]

/-! ## Execution -/

/-- Encodes the parameters in order; the first that fails names the error. -/
def bindAll (c : Config) : List (String × Source) → Query σ (List (String × Handle))
  | [] => pure []
  | (name, s) :: rest => do
    let h ← (s.build c : Convert σ Handle).adaptExcept (QueryError.bind name)
    let bound ← orReleasing [h] (bindAll c rest)
    return (name, h) :: bound

def execute (c : Config) (statement : String) (parameters : List (String × Source)) : Query σ Rows := do
  let bound ← bindAll c parameters
  let run : Query σ ResultSet := (Engine.call (.execute statement bound)).adaptExcept QueryError.engine
  let result ← releasing (bound.map Prod.snd) run
  return ⟨result.columns, result.rows⟩

end Query

/-! ## Cells -/

namespace Row

variable {σ : Type} [Engine σ]

/-- The name of a column, or a question mark where a row is longer than the columns. -/
def columnName (r : Row) (index : Nat) : String := r.columns.getD index "?"

def cell? (r : Row) (index : Nat) : Except QueryError Handle :=
  match r.cells[index]? with
  | some h => .ok h
  | none => .error (.columnOutOfRange index r.cells.length)

/-- A cell read in some way; its errors name the column. -/
def cellBy {α : Type} (read : Handle → Convert σ α) (r : Row) (index : Nat) : Query σ α :=
  match r.cell? index with
  | .ok h => (read h).adaptExcept fun e => (QueryError.conversion e).within (.column (r.columnName index))
  | .error e => throw e

/-- A cell by its own tag. -/
def value (c : Config) (r : Row) (index : Nat) : Query σ HostValue := cellBy (Read.value c) r index

def get (c : Config) (t : Target) (r : Row) (index : Nat) : Query σ t.Value := cellBy (t.read c) r index

/-- The cell of the first column that has the name. -/
def getByName (c : Config) (t : Target) (r : Row) (name : String) : Query σ t.Value :=
  match r.columns.findIdx? (· == name) with
  | some index => r.get c t index
  | none => throw (.unknownColumn name)

/-- Every cell in the order of the columns, up to the first that fails. -/
def toList (c : Config) (r : Row) : Query σ (List HostValue) :=
  (List.range r.cells.length).mapM (r.value c)

/-- Every cell with the name of its column. -/
def toPairs (c : Config) (r : Row) : Query σ (List (String × HostValue)) :=
  (List.range r.cells.length).mapM fun index => return (r.columnName index, ← r.value c index)

end Row

end ValueBridge
