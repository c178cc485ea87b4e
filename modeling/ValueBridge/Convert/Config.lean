import ValueBridge.Convert.Error
/-!
# Configuration of a conversion

How blobs end, whether numbers without a width are refused, and how deep values may be nested.  The depth is counted
down: a conversion starts with `maxDepth` levels left, and every value with parts takes one.
-/
namespace ValueBridge

/-- Where a decoded blob ends. -/
inductive BlobLength where
  /-- Before the first zero byte. -/
  | nulTerminated
  /-- At the end of the engine's buffer. -/
  | exact
deriving DecidableEq, Repr

namespace BlobLength

def all : List BlobLength := [nulTerminated, exact]

def name : BlobLength → String
  | nulTerminated => "nul_terminated"
  | exact => "exact"

def ofName? (s : String) : Option BlobLength := all.find? (·.name == s)

end BlobLength

structure Config where
  blobLength : BlobLength := .nulTerminated
  strictNumericWidth : Bool := false
  maxDepth : Nat := 64
deriving DecidableEq, Repr

namespace Config

def tooDeep (c : Config) : ConvertError := ⟨.tooDeep c.maxDepth, []⟩

/-- The levels left inside a value with parts. -/
def descend (c : Config) : (left : Nat) → Except ConvertError Nat
  | 0 => .error c.tooDeep
  | left + 1 => .ok left

/-- The levels left `levels` levels further in, or where that fails the levels that were left. -/
def descendBy (c : Config) (levels left : Nat) : Except (ConvertError × Nat) Nat :=
  if levels ≤ left then .ok (left - levels) else .error (c.tooDeep, 0)

/-- Several levels are taken one after the other. -/
theorem descendBy_succ (c : Config) (levels left : Nat) :
    c.descendBy (levels + 1) left =
      match c.descend left with
      | .ok inner => c.descendBy levels inner
      | .error e => .error (e, left) := by
  cases left with
  | zero => simp [descendBy, descend]
  | succ left => simp [descendBy, descend]

/-- The level that a value is at when `left` levels are left. -/
def depth (c : Config) (left : Nat) : Nat := c.maxDepth - left

end Config

end ValueBridge
