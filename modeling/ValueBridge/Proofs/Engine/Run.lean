import ValueBridge.Proofs.Engine.Reachable
/-!
# Runs of the engine in memory

An action is one call on the engine from outside: a request, a value taken in or looked at, rows registered for a
statement, a handle destroyed.  A run takes one action after the other, whether they succeed or fail.
-/
namespace ValueBridge

/-- The engine at the end of a computation. -/
def Memory.endState {ε α : Type} : EStateM.Result ε Memory α → Memory
  | .ok _ m => m
  | .error _ m => m

section Mapped

variable {ε α β : Type} {p : EStateM ε Memory α} {f : α → β} {m m' : Memory}

theorem Memory.map_ok {b : β} : (f <$> p) m = .ok b m' ↔ ∃ a, p m = .ok a m' ∧ f a = b := by
  simp only [Functor.map, EStateM.map]
  cases p m <;> simp [and_comm]

theorem Memory.map_error {e : ε} : (f <$> p) m = .error e m' ↔ p m = .error e m' := by
  simp only [Functor.map, EStateM.map]
  cases p m <;> simp

theorem Memory.endState_map (f : α → β) (p : EStateM ε Memory α) (m : Memory) :
    Memory.endState ((f <$> p) m) = Memory.endState (p m) := by
  simp only [Functor.map, EStateM.map]
  cases p m <;> rfl

end Mapped

/-- A call on the engine in memory. -/
inductive Action where
  | insert (v : Stored)
  | get (h : Handle)
  | register (statement : String) (columns : List String) (rows : List (List Stored))
  | request (r : Request)
  | destroy (h : Handle)

namespace Action

/-- The call, with the handles that its answer hands out. -/
def perform : Action → Call Memory (List Handle)
  | insert v => ([·]) <$> Memory.insert v
  | get h => (fun _ => []) <$> Memory.get h
  | register statement columns rows => fun m => .ok [] (m.register statement columns rows)
  | request r => r.created <$> Memory.call r
  | destroy h => fun m => .ok [] (m.destroy h)

/-- The values that the caller gives to the engine. -/
def given : Action → List Stored
  | insert v => [v]
  | register _ _ rows => rows.flatten
  | _ => []

/-- The engine after the action, whether it has succeeded or failed. -/
def after (a : Action) (m : Memory) : Memory := Memory.endState (a.perform m)

end Action

namespace Memory

/-- The engine after the actions. -/
def run : List Action → Memory → Memory
  | [], m => m
  | a :: actions, m => run actions (a.after m)

end Memory

end ValueBridge
