import ValueBridge.Number.Ranged
/-!
# Universally unique identifiers

A UUID is a number of 128 bits.  It is written as 32 lower-case hexadecimal digits in groups of 8, 4, 4, 4 and 12; it
is read from that form in either case, from the digits alone, from the form in braces, and after `urn:uuid:`.
-/
namespace ValueBridge

/-! ## Hexadecimal digits -/

/-- A digit of the hexadecimal system, in either case. -/
def hexDigit? (c : Char) : Option Nat :=
  if c.isDigit then some (c.toNat - '0'.toNat)
  else if 'a' ≤ c ∧ c ≤ 'f' then some (c.toNat - 'a'.toNat + 10)
  else if 'A' ≤ c ∧ c ≤ 'F' then some (c.toNat - 'A'.toNat + 10)
  else none

def isHexDigit (c : Char) : Bool := (hexDigit? c).isSome

/-- The number that hexadecimal digits denote; the empty string denotes 0. -/
def hexNumber? (cs : List Char) : Option Nat :=
  cs.foldlM (fun n c => (hexDigit? c).map (16 * n + ·)) 0

/-- The last `count` hexadecimal digits of a number, in lower case. -/
def hexDigits (count n : Nat) : List Char :=
  match count with
  | 0 => []
  | count + 1 => hexDigits count (n / 16) ++ [Nat.digitChar (n % 16)]

structure Uuid where
  val : Nat
  lt : val < 2 ^ 128
deriving DecidableEq, Repr

namespace Uuid

def ofNumber (n : Nat) : Uuid := ⟨n % 2 ^ 128, Nat.mod_lt _ (by decide)⟩

/-! ## The hyphenated form -/

/-- Hyphens stand at four places of the 36, hexadecimal digits at the others. -/
def isHyphenatedFrom : Nat → List Char → Bool
  | i, [] => i == 36
  | i, c :: cs =>
    (if i = 8 ∨ i = 13 ∨ i = 18 ∨ i = 23 then c == '-' else isHexDigit c) && isHyphenatedFrom (i + 1) cs

def isHyphenated (cs : List Char) : Bool := isHyphenatedFrom 0 cs

def toText (u : Uuid) : String :=
  let ds := hexDigits 32 u.val
  String.ofList (ds.take 8 ++ '-' :: (ds.drop 8).take 4 ++ '-' :: (ds.drop 12).take 4
    ++ '-' :: (ds.drop 16).take 4 ++ '-' :: ds.drop 20)

/-! ## Reading -/

def ofHyphenated? (cs : List Char) : Option Uuid :=
  if isHyphenated cs then (hexNumber? (cs.filter (· != '-'))).map ofNumber else none

def ofDigits? (cs : List Char) : Option Uuid :=
  if cs.length = 32 then (hexNumber? cs).map ofNumber else none

def urnMark : List Char := "urn:uuid:".toList

def ofText? (s : String) : Option Uuid :=
  let cs := s.toList
  match cs with
  | '{' :: rest => if rest.getLast? = some '}' then ofHyphenated? rest.dropLast else none
  | _ =>
    if (cs.take urnMark.length).map Char.toLower = urnMark then ofHyphenated? (cs.drop urnMark.length)
    else (ofDigits? cs).or (ofHyphenated? cs)

end Uuid

end ValueBridge
