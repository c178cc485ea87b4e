import ValueBridge.Number.Ranged
/-!
# Binary floating-point numbers

A number of a binary format is kept as its bits, so that two of them are equal exactly when they are bit-identical.
`BinaryFormat.classify` reads the bits as a sign, an integer significand and a power of two; `BinaryFormat.nearest`
goes the other way: it rounds a ratio of naturals to the nearest number of the format, a half to the even neighbour,
and what is too large to the infinity.  All arithmetic is exact, in `Nat` and `Int`.
-/
namespace ValueBridge

/-- The widths of the two fields of a binary format. -/
structure BinaryFormat where
  fractionBits : Nat
  exponentBits : Nat
deriving DecidableEq, Repr

/-- What the bits of a number say: `finite negative m q` is `m · 2^q` with a sign. -/
inductive FloatClass where
  | nan
  | infinite (negative : Bool)
  | finite (negative : Bool) (m : Nat) (q : Int)
deriving DecidableEq, Repr

namespace BinaryFormat

/-- The power of two that the last bit of the smallest numbers counts. -/
def minUnit (f : BinaryFormat) : Int := 2 - (2 ^ (f.exponentBits - 1) : Nat) - f.fractionBits

/-- The exponent field of the infinities and of what is no number. -/
def topExponent (f : BinaryFormat) : Nat := 2 ^ f.exponentBits - 1

def infinityBits (f : BinaryFormat) : Nat := f.topExponent * 2 ^ f.fractionBits

def signBit (f : BinaryFormat) : Nat := 2 ^ (f.fractionBits + f.exponentBits)

def classify (f : BinaryFormat) (bits : Nat) : FloatClass :=
  let fraction := bits % 2 ^ f.fractionBits
  let exponent := bits / 2 ^ f.fractionBits % 2 ^ f.exponentBits
  let negative := bits / f.signBit % 2 == 1
  if exponent = f.topExponent then
    if fraction = 0 then .infinite negative else .nan
  else if exponent = 0 then .finite negative fraction f.minUnit
  else .finite negative (fraction + 2 ^ f.fractionBits) (f.minUnit + (exponent - 1 : Nat))

/-- The quotient of two naturals, rounded to the nearest natural, a half to the even neighbour. -/
def roundHalfEven (num den : Nat) : Nat :=
  let q := num / den
  let twice := 2 * (num % den)
  if twice < den then q else if den < twice then q + 1 else q + q % 2

/-- The bits of the number of the format that is nearest to `num / den`. -/
def nearestMagnitude (f : BinaryFormat) (num den : Nat) : Nat :=
  if num = 0 then 0 else
    let scaled (q : Int) : Nat × Nat := (num * 2 ^ (-q).toNat, den * 2 ^ q.toNat)
    let q := (Nat.log2 num : Int) - Nat.log2 den - (f.fractionBits + 1)
    let wide := scaled q
    let q := if 2 ^ (f.fractionBits + 1) ≤ wide.1 / wide.2 then q + 1 else q
    let q := max q f.minUnit
    let (n, d) := scaled q
    min ((q - f.minUnit).toNat * 2 ^ f.fractionBits + roundHalfEven n d) f.infinityBits

def nearest (f : BinaryFormat) (negative : Bool) (num den : Nat) : Nat :=
  f.nearestMagnitude num den + (if negative then f.signBit else 0)

end BinaryFormat

/-- The value of `m · 2^q` as a ratio of naturals. -/
def scaledRatio (m : Nat) (q : Int) : Nat × Nat := (m * 2 ^ q.toNat, 2 ^ (-q).toNat)

/-! ## The two formats -/

def binary32 : BinaryFormat := ⟨23, 8⟩

def binary64 : BinaryFormat := ⟨52, 11⟩

/-- A single-precision number, as its bits. -/
structure Binary32 where
  bits : UInt32
deriving DecidableEq, Repr

/-- A double-precision number, as its bits. -/
structure Binary64 where
  bits : UInt64
deriving DecidableEq, Repr

namespace Binary32

def classify (x : Binary32) : FloatClass := binary32.classify x.bits.toNat

def nearest (negative : Bool) (num den : Nat) : Binary32 :=
  ⟨UInt32.ofNat (binary32.nearest negative num den)⟩

end Binary32

namespace Binary64

def classify (x : Binary64) : FloatClass := binary64.classify x.bits.toNat

def nearest (negative : Bool) (num den : Nat) : Binary64 :=
  ⟨UInt64.ofNat (binary64.nearest negative num den)⟩

def isFinite (x : Binary64) : Bool :=
  match x.classify with
  | .finite .. => true
  | _ => false

end Binary64

/-! ## Between the formats -/

/-- The number of the format `f` nearest to one of class `c`; what is no number goes to a quiet one. -/
def BinaryFormat.ofClass (f : BinaryFormat) : FloatClass → Nat
  | .nan => f.infinityBits + 2 ^ (f.fractionBits - 1)
  | .infinite negative => f.infinityBits + (if negative then f.signBit else 0)
  | .finite negative m q => let (n, d) := scaledRatio m q; f.nearest negative n d

/-- Every single-precision number is a double-precision number. -/
def Binary32.widen (x : Binary32) : Binary64 := ⟨UInt64.ofNat (binary64.ofClass x.classify)⟩

def Binary64.narrow (x : Binary64) : Binary32 := ⟨UInt32.ofNat (binary32.ofClass x.classify)⟩

/-! ## Equality of values -/

/-- Equality of the numbers that are meant: what is no number differs from itself, and the two zeros are equal. -/
def FloatClass.sameValue : FloatClass → FloatClass → Bool
  | .infinite a, .infinite b => a == b
  | .finite s m q, .finite s' m' q' => (m == 0 && m' == 0) || (s == s' && m == m' && q == q')
  | _, _ => false

def Binary32.sameValue (x y : Binary32) : Bool := x.classify.sameValue y.classify

def Binary64.sameValue (x y : Binary64) : Bool := x.classify.sameValue y.classify

end ValueBridge
