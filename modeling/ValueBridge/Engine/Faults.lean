import ValueBridge.Engine.Memory
/-!
# An engine with faults

The engine in memory, except that chosen calls fail or answer something else.  A fault on an accessor is chosen by the
handle that is read, one on a creation or an execution by its place among the calls of its operation since the start.
Calls that a fault answers count too.  Of several faults that match a call the first one answers.
-/
namespace ValueBridge

/-- What a fault answers: the reply, or where that is a handle, the value behind the new handle. -/
@[reducible] def Operation.Answer : Operation → Type
  | isNull => Bool
  | type => LogicalType
  | payload => Payload
  | count _ => Nat
  | name _ => String
  | item _ | role _ | createNull | createPayload | createList | createStruct | createMap => Stored
  | execute => ResultSet

structure Fault where
  operation : Operation
  position : Nat
  outcome : Except Failure operation.Answer

structure FaultyMemory where
  memory : Memory := {}
  faults : List Fault := []
  /-- The creations and executions so far. -/
  made : List Operation := []

namespace FaultyMemory

def onMemory {α : Type} (c : Call Memory α) : Call FaultyMemory α := fun s =>
  match c s.memory with
  | .ok a m => .ok a { s with memory := m }
  | .error e m => .error e { s with memory := m }

def answer : (op : Operation) → op.Answer → Call Memory op.Reply
  | .isNull, b => pure b
  | .type, t => pure t
  | .payload, p => pure p
  | .count _, n => pure n
  | .name _, s => pure s
  | .item _, v | .role _, v | .createNull, v | .createPayload, v | .createList, v | .createStruct, v | .createMap, v =>
    Memory.insert v
  | .execute, rows => pure rows

/-- The outcome of the first fault that matches. -/
def outcome? (op : Operation) (position : Nat) : List Fault → Option (Except Failure op.Answer)
  | [] => none
  | f :: fs =>
    if h : f.operation = op then
      if f.position = position then some (h ▸ f.outcome) else outcome? op position fs
    else outcome? op position fs

/-- The place by which a fault chooses a call. -/
def position (s : FaultyMemory) (r : Request) : Nat :=
  match r.subject? with
  | some h => h.id
  | none => s.made.count r.operation + 1

/-- The state after a call was made, whoever answers it. -/
def recorded (s : FaultyMemory) (r : Request) : FaultyMemory :=
  match r.subject? with
  | some _ => s
  | none => { s with made := r.operation :: s.made }

def call (r : Request) : Call FaultyMemory r.Reply := fun s =>
  match outcome? r.operation (s.position r) s.faults with
  | none => onMemory (Memory.call r) (s.recorded r)
  | some (.ok a) => onMemory (answer r.operation a) (s.recorded r)
  | some (.error e) => .error e (s.recorded r)

instance : Engine FaultyMemory := ⟨call, fun h s => { s with memory := s.memory.destroy h }⟩

end FaultyMemory

end ValueBridge
