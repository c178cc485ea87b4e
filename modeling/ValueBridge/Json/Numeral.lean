import ValueBridge.Json.Value
/-!
# Reading JSON numbers

A numeral is its sign, the digits before the point, the digits after it if there is one, and the exponent if there is
one.  Without point and exponent it denotes an integer, if that lies in the range of `Json.Number` and is not `-0`;
anything else denotes a double.  The double is found in few steps rather than by exact rounding: the leading digits
that fit 64 bits are rounded to a double, and that is multiplied or divided, with rounding, by the double nearest to a
power of ten.  The result may therefore differ in the last place from the double nearest to the numeral.
-/
namespace ValueBridge.Json

structure Numeral where
  negative : Bool
  whole : List Nat
  fraction : Option (List Nat)
  exponent : Option Int
deriving DecidableEq, Repr

namespace Numeral

/-! ## The significand -/

/-- The leading digits of a numeral that fit 64 bits, and the power of ten of the last of them. -/
structure Significand where
  digits : Nat
  unit : Int
deriving DecidableEq, Repr

def maxSignificand : Nat := 2 ^ 64 - 1

/-- Whether one more digit fits. -/
def Significand.fits (s : Significand) (digit : Nat) : Bool := decide (s.digits * 10 + digit ≤ maxSignificand)

/-- The digits before the point: from the first that does not fit, they only count. -/
def Significand.readWhole (s : Significand) : List Nat → Significand
  | [] => s
  | d :: ds =>
    if s.fits d then Significand.readWhole { s with digits := s.digits * 10 + d } ds
    else { s with unit := s.unit + (ds.length + 1 : Nat) }

/-- The digits after the point: from the first that does not fit, they are dropped. -/
def Significand.readFraction (s : Significand) : List Nat → Significand
  | [] => s
  | d :: ds =>
    if s.fits d then Significand.readFraction ⟨s.digits * 10 + d, s.unit - 1⟩ ds else s

def significand (n : Numeral) : Significand :=
  let s := Significand.readWhole ⟨0, 0⟩ n.whole
  let s := s.readFraction (n.fraction.getD [])
  { s with unit := s.unit + n.exponent.getD 0 }

/-! ## Doubles -/

/-- The exact value of a finite number, without its sign. -/
def ratio? (x : Binary64) : Option (Nat × Nat) :=
  match x.classify with
  | .finite _ m q => some (scaledRatio m q)
  | _ => none

/-- The double nearest to a ratio, again as a ratio, unless it is too large. -/
def rounded? (num den : Nat) : Option (Nat × Nat) := ratio? (Binary64.nearest false num den)

/-- The greatest power of ten that is taken in one step. -/
def maxStep : Nat := 308

/-- Multiplication by the double nearest to a power of ten, with rounding. -/
def timesPower? (x : Nat × Nat) (k : Nat) : Option (Nat × Nat) :=
  (rounded? (10 ^ k) 1).bind fun p => rounded? (x.1 * p.1) (x.2 * p.2)

/-- Division by the double nearest to a power of ten, with rounding. -/
def overPower? (x : Nat × Nat) (k : Nat) : Option (Nat × Nat) :=
  (rounded? (10 ^ k) 1).bind fun p => rounded? (x.1 * p.2) (x.2 * p.1)

/-- Moving a rounded significand to its place: for very small numbers in several steps. -/
def scale? (x : Nat × Nat) (unit : Int) : Option (Nat × Nat) :=
  if x.1 = 0 then some x
  else if unit < -(maxStep : Int) then (overPower? x maxStep).bind fun y => scale? y (unit + (maxStep : Int))
  else if unit < 0 then overPower? x (-unit).toNat
  else if unit ≤ maxStep then timesPower? x unit.toNat
  else none
termination_by (-unit).toNat
decreasing_by simp only [maxStep] at *; omega

/-- The double that a numeral denotes, unless it is too large. -/
def double? (n : Numeral) : Option Binary64 :=
  let s := n.significand
  (rounded? s.digits 1).bind fun x => (scale? x s.unit).map fun y => Binary64.nearest n.negative y.1 y.2

/-! ## Numbers -/

/-- The integer of a numeral without point and exponent. -/
def integer? (n : Numeral) : Option (Ranged (-2 ^ 63) (2 ^ 64 - 1)) :=
  if n.fraction.isSome || n.exponent.isSome then none else
    let magnitude : Nat := n.whole.foldl (fun acc d => acc * 10 + d) 0
    if n.negative then (if magnitude = 0 then none else Ranged.ofInt? (-(magnitude : Int)))
    else Ranged.ofInt? magnitude

/-- The number that a numeral denotes, unless it is too large. -/
def number? (n : Numeral) : Option Number :=
  match n.integer? with
  | some i => some (.int i)
  | none => n.double?.bind fun x => if h : x.isFinite = true then some (.double x h) else none

end Numeral

end ValueBridge.Json
