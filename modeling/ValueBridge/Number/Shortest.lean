import ValueBridge.Number.Binary
/-!
# The shortest decimal text of a binary number

The digits of a finite number are the fewest that read back as that number; of several such digit strings the one
nearest to the number, and of two equally near ones the even one.  The search is over the decimal grids of 1, 2, … 17
digits: the two neighbours of the value on a grid are tested against the interval of reals that round to the number.
`FloatLayout` says where on the line the digits are written without an exponent.
-/
namespace ValueBridge

/-- The length of a natural's decimal text. -/
def digitCount (n : Nat) : Nat := (Nat.toDigits 10 n).length

/-! ## Digits -/

/-- The decimal exponent of the first digit of `num / den`, for a positive ratio. -/
def leadingExponent (num den : Nat) : Int :=
  if den ≤ num then (digitCount (num / den) : Int) - 1
  else -(digitCount ((den + num - 1) / num - 1) : Int)

/-- The reals that round to one number: from `lo / den` to `hi / den`, ends included when `closed`. -/
structure RoundingInterval where
  lo : Nat
  hi : Nat
  den : Nat
  closed : Bool

namespace RoundingInterval

/-- The interval of the number `m · 2^q`.  It reaches half a unit down and up, and only a quarter down where the
numbers below are twice as dense. -/
def around (f : BinaryFormat) (m : Nat) (q : Int) : RoundingInterval :=
  let down := if m = 2 ^ f.fractionBits ∧ f.minUnit < q then 1 else 2
  let (lo, den) := scaledRatio (4 * m - down) (q - 2)
  let (hi, _) := scaledRatio (4 * m + 2) (q - 2)
  ⟨lo, hi, den, m % 2 == 0⟩

def contains (i : RoundingInterval) (num den : Nat) : Bool :=
  let lo := i.lo * den
  let hi := i.hi * den
  let x := num * i.den
  if i.closed then decide (lo ≤ x) && decide (x ≤ hi) else decide (lo < x) && decide (x < hi)

end RoundingInterval

/-- A digit string as a natural, and the power of ten that its last digit counts. -/
structure DecimalDigits where
  digits : Nat
  unit : Int
deriving DecidableEq, Repr

namespace DecimalDigits

def ratio (d : DecimalDigits) : Nat × Nat := (d.digits * 10 ^ d.unit.toNat, 10 ^ (-d.unit).toNat)

def readsBack (i : RoundingInterval) (d : DecimalDigits) : Bool :=
  let (n, den) := d.ratio
  i.contains n den

/-- The neighbour of `num / den` on the grid of `unit` that reads back and is nearest. -/
def onGrid? (i : RoundingInterval) (num den : Nat) (unit : Int) : Option DecimalDigits :=
  let n := num * 10 ^ (-unit).toNat
  let d := den * 10 ^ unit.toNat
  let below : DecimalDigits := ⟨n / d, unit⟩
  let above : DecimalDigits := ⟨n / d + 1, unit⟩
  let nearest : DecimalDigits := ⟨BinaryFormat.roundHalfEven n d, unit⟩
  if nearest.readsBack i then some nearest
  else if below.readsBack i then some below
  else if above.readsBack i then some above
  else none

/-- Trying grids with `count`, `count + 1`, … digits, at most `tries` of them. -/
def search (i : RoundingInterval) (num den : Nat) (lead : Int) (count : Nat) : Nat → DecimalDigits
  | 0 => ⟨num / den, 0⟩
  | tries + 1 =>
    match onGrid? i num den (lead + 1 - count) with
    | some d => d
    | none => search i num den lead (count + 1) tries

/-- The same number without a zero at the end. -/
def withoutZero (d : DecimalDigits) : DecimalDigits :=
  if d.digits % 10 = 0 then ⟨d.digits / 10, d.unit + 1⟩ else d

/-- The shortest digits of `m · 2^q`, for a positive `m`.  Only a power of ten just above the number is found with a
zero at its end, on the grid of one digit below it. -/
def shortest (f : BinaryFormat) (m : Nat) (q : Int) : DecimalDigits :=
  let (num, den) := scaledRatio m q
  (search (.around f m q) num den (leadingExponent num den) 1 17).withoutZero

end DecimalDigits

/-! ## Layout -/

/-- The decimal exponents of the first digit for which a number is written without an exponent. -/
structure FloatLayout where
  plainFrom : Int
  plainTo : Int
deriving DecidableEq, Repr

namespace FloatLayout

def zeros (n : Nat) : String := String.ofList (List.replicate n '0')

/-- A positive number: plainly, with at least one digit after the point, or as `d.ddde±x`. -/
def render (layout : FloatLayout) (d : DecimalDigits) : String :=
  let text := Nat.toDigits 10 d.digits
  let first : Int := d.unit + text.length - 1
  if layout.plainFrom ≤ first ∧ first ≤ layout.plainTo then
    if first < 0 then "0." ++ zeros (-first - 1).toNat ++ String.ofList text
    else
      let whole := first.toNat + 1
      if text.length ≤ whole then String.ofList text ++ zeros (whole - text.length) ++ ".0"
      else String.ofList (text.take whole) ++ "." ++ String.ofList (text.drop whole)
  else
    let mantissa := match text.drop 1 with
      | [] => String.ofList text
      | rest => String.ofList (text.take 1) ++ "." ++ String.ofList rest
    mantissa ++ (if first < 0 then "e-" else "e+") ++ toString first.natAbs

def renderFinite (layout : FloatLayout) (f : BinaryFormat) (negative : Bool) (m : Nat) (q : Int) : String :=
  (if negative then "-" else "") ++ (if m = 0 then "0.0" else layout.render (.shortest f m q))

end FloatLayout

end ValueBridge
