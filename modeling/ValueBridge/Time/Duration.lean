import ValueBridge.Number.Shortest
/-!
# Durations and calendar intervals

A duration is a number of nanoseconds of at most 2⁶³ - 1 milliseconds in either direction.  An interval is what the
engine keeps: months, days and microseconds apart; it collapses to one length with 30 days a month, if that length fits
64 bits in microseconds.
-/
namespace ValueBridge

/-- A length of time in nanoseconds. -/
structure Duration where
  nanos : Int
  lo_le : -9223372036854775807000000 ≤ nanos
  le_hi : nanos ≤ 9223372036854775807000000
deriving DecidableEq, Repr

namespace Duration

def ofNanos? (n : Int) : Option Duration :=
  if h : -9223372036854775807000000 ≤ n ∧ n ≤ 9223372036854775807000000 then some ⟨n, h.1, h.2⟩ else none

def ofMicros (n : IntOf .int64) : Duration :=
  ⟨n.val * 1000, by have h := n.lo_le; simp only [IntWidth.lo] at h; omega,
    by have h := n.le_hi; simp only [IntWidth.hi] at h; omega⟩

/-- The whole microseconds, rounded toward zero, if they fit 64 bits. -/
def micros? (d : Duration) : Option (IntOf .int64) := Ranged.ofInt? (d.nanos.tdiv 1000)

/-- The digits after the point of a second, without the zeros at their end. -/
def fractionDigits (nanos : Nat) : List Char :=
  let text := Nat.toDigits 10 nanos
  let all := List.replicate (9 - text.length) '0' ++ text
  (all.reverse.dropWhile (· == '0')).reverse

/-- The ISO 8601 text in seconds: `P0D`, `PT1.5S`, `-PT60S`. -/
def toText (d : Duration) : String :=
  if d.nanos = 0 then "P0D" else
    let n := d.nanos.natAbs
    let fraction := if n % 1000000000 = 0 then "" else "." ++ String.ofList (fractionDigits (n % 1000000000))
    (if d.nanos < 0 then "-" else "") ++ "PT" ++ toString (n / 1000000000) ++ fraction ++ "S"

end Duration

/-- A calendar interval. -/
structure Interval where
  months : IntOf .int32
  days : IntOf .int32
  micros : IntOf .int64
deriving DecidableEq, Repr

namespace Interval

def daysPerMonth : Int := 30

def microsPerDay : Int := 86400 * 1000000

def ofMicros (n : IntOf .int64) : Interval := ⟨⟨0, by decide, by decide⟩, ⟨0, by decide, by decide⟩, n⟩

/-- The whole length in microseconds. -/
def length (i : Interval) : Int := (i.months.val * daysPerMonth + i.days.val) * microsPerDay + i.micros.val

def totalMicros? (i : Interval) : Option (IntOf .int64) := Ranged.ofInt? i.length

def fieldsText (i : Interval) : String :=
  s!"Interval \x7b months: {i.months.val}, days: {i.days.val}, micros: {i.micros.val} \x7d"

end Interval

end ValueBridge
