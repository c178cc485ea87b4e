import ValueBridge.Number.Decimal
/-!
# The text of a decimal

Writing: zero is `0`; a number with more than five zeros between the point and its first digit is written as
`d.dddE-x`; one whose coefficient is followed by more than fifteen zeros as the coefficient and `e+x`; any other
plainly, with every digit of its scale.

Reading: an optional exponent after the first `e` or `E`, at most one point in the rest, and a coefficient of digits
and underscores with at most one sign before it.
-/
namespace ValueBridge

/-! ## Integers in decimal -/

/-- A digit of the decimal system. -/
def decimalDigit? (c : Char) : Option Nat := if c.isDigit then some (c.toNat - '0'.toNat) else none

/-- A non-empty string of digits. -/
def natural? : List Char → Option Nat
  | [] => none
  | cs => cs.foldlM (fun n c => (decimalDigit? c).map (10 * n + ·)) 0

/-- An integer: at most one sign, then digits. -/
def integer? : List Char → Option Int
  | '+' :: cs => (natural? cs).map Int.ofNat
  | '-' :: cs => (natural? cs).map fun n => -(n : Int)
  | cs => (natural? cs).map Int.ofNat

namespace Decimal

/-! ## Writing -/

/-- When a decimal is written with an exponent. -/
structure Layout where
  maxLeadingZeros : Nat
  maxTrailingZeros : Nat

/-- At most five zeros after the point before the first digit, at most fifteen after the coefficient. -/
def plainLayout : Layout := ⟨5, 15⟩

/-- The digits with the point before the last `scale` of them. -/
def pointed (text : List Char) (scale : Nat) : List Char :=
  if text.length ≤ scale then '0' :: '.' :: List.replicate (scale - text.length) '0' ++ text
  else text.take (text.length - scale) ++ '.' :: text.drop (text.length - scale)

/-- A coefficient with one digit before the point, and the exponent. -/
def scientific (text : List Char) (scale : Int) : List Char :=
  let mantissa := match text with
    | first :: next :: rest => first :: '.' :: next :: rest
    | short => short
  mantissa ++ 'E' :: '-' :: Nat.toDigits 10 (scale - text.length + 1).toNat

def magnitudeText (text : List Char) (scale : Int) : List Char :=
  if (plainLayout.maxLeadingZeros : Int) < scale - text.length then scientific text scale
  else if (plainLayout.maxTrailingZeros : Int) < -scale then
    text ++ 'e' :: '+' :: Nat.toDigits 10 (-scale).toNat
  else if scale ≤ 0 then text ++ List.replicate (-scale).toNat '0'
  else pointed text scale.toNat

def toText (d : Decimal) : String :=
  if d.digits = 0 then "0" else
    let sign := if d.digits < 0 then ['-'] else []
    String.ofList (sign ++ magnitudeText (Nat.toDigits 10 d.digits.natAbs) d.scale)

/-! ## Reading -/

/-- The coefficient's digits: underscores may stand anywhere but in front. -/
def coefficientDigits? : List Char → Option Nat
  | [] => none
  | '_' :: _ => none
  | cs => cs.foldlM (fun n c => if c = '_' then some n else (decimalDigit? c).map (10 * n + ·)) 0

def coefficient? : List Char → Option Int
  | '+' :: cs => (coefficientDigits? cs).map Int.ofNat
  | '-' :: cs => (coefficientDigits? cs).map fun n => -(n : Int)
  | cs => (coefficientDigits? cs).map Int.ofNat

/-- The scales that a decimal can have. -/
def scaleInRange (n : Int) : Bool := decide (-2 ^ 63 ≤ n) && decide (n < 2 ^ 63)

/-- The part before the first exponent mark, and the exponent. -/
def splitExponent? (cs : List Char) : Option (List Char × Int) :=
  let isMark (c : Char) : Bool := c == 'e' || c == 'E'
  let base := cs.takeWhile (!isMark ·)
  match cs.dropWhile (!isMark ·) with
  | [] => some (base, 0)
  | _ :: exponent => (integer? exponent).map (base, ·)

def ofText? (s : String) : Option Decimal := do
  let (base, exponent) ← splitExponent? s.toList
  if base.isEmpty then none
  let whole := base.takeWhile (· != '.')
  let fraction := (base.dropWhile (· != '.')).drop 1
  let digits ← coefficient? (whole ++ fraction)
  let scale := (fraction.filter (· != '_')).length - exponent
  if scaleInRange scale then some ⟨digits, scale⟩ else none

end Decimal

end ValueBridge
