import ValueBridge.Engine.Interface
import ValueBridge.Text.Blank
/-!
# The engine in memory

The live handles are a list, the newest first.  Handles are numbered as they are issued, and the number of live handles
has a limit, which turns a leak into a visible failure.  Destroying a handle that is not live is counted.  A statement is
either an echo, `RETURN $a, $b`, whose one row holds the bound parameters, or one whose rows were registered before.
-/
namespace ValueBridge

/-- The rows that a registered statement answers with. -/
structure Fixture where
  columns : List String
  rows : List (List Stored)

/-- The state of the engine.  Both of its counters have 64 bits.  The one for destroyed handles that were not live wraps.
The one for serial numbers is taken without a bound: an engine that issues a handle every nanosecond gets to 2⁶⁴ after
five centuries, and only then would a number come back (`Handle.number`). -/
structure Memory where
  entries : List (Handle × Stored) := []
  next : Nat := 1
  limit : Nat := 1000000
  invalidDestroys : UInt64 := 0
  fixtures : List (String × Fixture) := []

namespace Memory

def live (m : Memory) : Nat := m.entries.length

/-! ## The table -/

/-- A computation that reads the engine and does not change it. -/
def inspect {α : Type} (f : Memory → Except Failure α) : Call Memory α := fun m =>
  match f m with
  | .ok a => .ok a m
  | .error e => .error e m

def find? (m : Memory) (h : Handle) : Except Failure Stored :=
  match m.entries.lookup h with
  | some v => .ok v
  | none => .error (.invalidHandle h)

def get (h : Handle) : Call Memory Stored := inspect (·.find? h)

/-- A new handle for a value, unless the table is full. -/
def insert (v : Stored) : Call Memory Handle := fun m =>
  if m.limit ≤ m.live then .error (.tableFull m.live) m
  else .ok ⟨m.next⟩ { m with entries := (⟨m.next⟩, v) :: m.entries, next := m.next + 1 }

/-- A new handle for a value that the engine's state determines. -/
def insertFrom (f : Memory → Except Failure Stored) : Call Memory Handle := fun m =>
  match f m with
  | .ok v => insert v m
  | .error e => .error e m

def destroy (h : Handle) (m : Memory) : Memory :=
  if (m.entries.lookup h).isSome then { m with entries := m.entries.filter (·.1 != h) }
  else { m with invalidDestroys := m.invalidDestroys + 1 }

def destroyAll (hs : List Handle) (m : Memory) : Memory := hs.foldl (fun m h => destroy h m) m

/-- The values behind several handles; the first that is not live fails. -/
def collect (m : Memory) (hs : List Handle) : Except Failure (List Stored) := hs.mapM m.find?

def collectFields (m : Memory) (fields : List (String × Handle)) : Except Failure (List (String × Stored)) :=
  fields.mapM fun f => (m.find? f.2).map (f.1, ·)

/-! ## Statements -/

/-- The rows for a statement, from now on; the blanks around the statement do not count. -/
def register (statement : String) (columns : List String) (rows : List (List Stored)) (m : Memory) : Memory :=
  let key := trimmed statement
  { m with fixtures := (key, ⟨columns, rows⟩) :: m.fixtures.filter (·.1 != key) }

def echoKeyword : List Char := "RETURN ".toList

/-- The names that an echo asks for, each with its `$`; none if the statement is no echo. -/
def echoNames? (statement : String) : Option (List (List Char)) :=
  let cs := trimList statement.toList
  if echoKeyword.isPrefixOf cs then
    let names := (splitList ',' (cs.drop echoKeyword.length)).map trimList
    if names.all (·.head? == some '$') then some names else none
  else none

/-- Handles for values, one after the other, each found in the state that the handles before it have left; when one
cannot be had, those before it are destroyed again. -/
def insertAll : List (Memory → Except Failure Stored) → Call Memory (List Handle)
  | [] => pure []
  | f :: fs => fun m =>
    match insertFrom f m with
    | .error e m => .error e m
    | .ok h m =>
      match insertAll fs m with
      | .ok hs m => .ok (h :: hs) m
      | .error e m => .error e (destroy h m)

/-- The value bound to a name that is written with its `$`: that of the first parameter of the name. -/
def bound (parameters : List (String × Handle)) (name : List Char) (m : Memory) : Except Failure Stored :=
  match parameters.lookup (String.ofList (name.drop 1)) with
  | none => .error (.unboundParameter (String.ofList name))
  | some h => m.find? h

/-- One row with a copy of each parameter that is asked for. -/
def echo (names : List (List Char)) (parameters : List (String × Handle)) : Call Memory ResultSet := do
  let row ← insertAll (names.map (bound parameters))
  return ⟨names.map String.ofList, [row]⟩

def insertRows : List (List Stored) → Call Memory (List (List Handle))
  | [] => pure []
  | row :: rows => fun m =>
    match insertAll (row.map fun v _ => .ok v) m with
    | .error e m => .error e m
    | .ok hs m =>
      match insertRows rows m with
      | .ok rest m => .ok (hs :: rest) m
      | .error e m => .error e (destroyAll hs m)

def execute (statement : String) (parameters : List (String × Handle)) : Call Memory ResultSet := fun m =>
  match echoNames? statement with
  | some names => echo names parameters m
  | none =>
    match m.fixtures.lookup (trimmed statement) with
    | none => .error (.unknownStatement statement) m
    | some fixture =>
      match insertRows fixture.rows m with
      | .ok rows m => .ok ⟨fixture.columns, rows⟩ m
      | .error e m => .error e m

/-! ## Requests -/

def createMap (keys values : List Handle) (m : Memory) : Except Failure Stored :=
  if keys.length = values.length then
    (m.collect keys).bind fun ks => (m.collect values).bind fun vs => Stored.mapOf? (ks.zip vs)
  else .error (.unevenMap keys.length values.length)

def call : (r : Request) → Call Memory r.Reply
  | .isNull h => inspect fun m => (m.find? h).map Stored.isNull
  | .type h => inspect fun m => (m.find? h).map Stored.type
  | .payload h => inspect fun m => (m.find? h).bind Stored.asPayload
  | .count c h => inspect fun m => (m.find? h).bind (Stored.count? c)
  | .name c h i => inspect fun m => (m.find? h).bind (Stored.name? c · i)
  | .item p h i => insertFrom fun m => (m.find? h).bind (Stored.item? p · i)
  | .role r h => insertFrom fun m => (m.find? h).bind (Stored.role? r)
  | .createNull t => insert (.null t)
  | .createPayload p => insertFrom fun _ => (Stored.checkPayload p).map fun _ => .payload p
  | .createList hs => insertFrom fun m => (m.collect hs).bind Stored.listOf?
  | .createStruct fs => insertFrom fun m => (m.collectFields fs).bind Stored.structOf?
  | .createMap ks vs => insertFrom (createMap ks vs)
  | .execute s ps => execute s ps

instance : Engine Memory := ⟨call, destroy⟩

end Memory

end ValueBridge
