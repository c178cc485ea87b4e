import ValueBridge.Number.Ranged
/-!
# Instants

An instant is a number of whole seconds since 1970 in UTC, rounded down, and the nanoseconds since that second.  In a
leap second there are a second or more of nanoseconds since the second before it: the seconds do not count leap seconds.
The calendar covers the years from -262143 to 262142; `Instant.ofUnits?` refuses what lies outside.  An instant is
written as RFC 3339 text with no, three, six or nine digits of a second.
-/
namespace ValueBridge

/-- An instant of the calendar.  Any second may be followed by a leap second, as setting the nanoseconds of an instant
takes no account of the second. -/
structure Instant where
  seconds : Int
  nanos : Nat
  lo_le : -8334601228800 ≤ seconds
  le_hi : seconds ≤ 8210266876799
  nanos_lt : nanos < 2000000000
deriving DecidableEq, Repr

namespace Instant

/-- The instant so many nanoseconds after a second.  Only the last second of a minute is followed by a leap second. -/
def ofSeconds? (seconds : Int) (nanos : Nat) : Option Instant :=
  if h : -8334601228800 ≤ seconds ∧ seconds ≤ 8210266876799 ∧
      (nanos < 1000000000 ∨ nanos < 2000000000 ∧ seconds % 60 = 59) then
    some ⟨seconds, nanos, h.1, h.2.1, by omega⟩
  else none

/-- The nanoseconds since 1970, a leap second counted as the second after it. -/
def toNanos (t : Instant) : Int := t.seconds * 1000000000 + t.nanos

/-- `count` units since 1970, of which a second has `perSecond`. -/
def ofUnits? (count : Int) (perSecond : Nat) : Option Instant :=
  ofSeconds? (count / perSecond) ((count % perSecond).toNat * (1000000000 / perSecond))

theorem lo_le_micros (t : Instant) : IntWidth.int64.lo ≤ t.seconds * 1000000 + (t.nanos / 1000 : Nat) := by
  have hlo := t.lo_le
  simp only [IntWidth.lo]
  omega

theorem micros_le_hi (t : Instant) : t.seconds * 1000000 + (t.nanos / 1000 : Nat) ≤ IntWidth.int64.hi := by
  have hhi := t.le_hi
  have hlt := t.nanos_lt
  simp only [IntWidth.hi]
  omega

/-- The whole microseconds since 1970, rounded down, a leap second counted as the second after it. -/
def micros (t : Instant) : IntOf .int64 :=
  ⟨t.seconds * 1000000 + (t.nanos / 1000 : Nat), t.lo_le_micros, t.micros_le_hi⟩

/-! ## Calendar -/

/-- A day of the Gregorian calendar, extended to all years. -/
structure CalendarDay where
  year : Int
  month : Nat
  day : Nat
deriving DecidableEq, Repr

/-- The calendar day that is `days` after 1970-01-01.  Years are counted from March, so that the leap day is the last
of its year, and grouped into eras of 400 years, which all have 146097 days. -/
def CalendarDay.ofDays (days : Int) : CalendarDay :=
  let fromMarch := days + 719468
  let era := fromMarch / 146097
  let dayOfEra := (fromMarch % 146097).toNat
  let yearOfEra := (dayOfEra - dayOfEra / 1460 + dayOfEra / 36524 - dayOfEra / 146096) / 365
  let dayOfYear := dayOfEra - (365 * yearOfEra + yearOfEra / 4 - yearOfEra / 100)
  let monthFromMarch := (5 * dayOfYear + 2) / 153
  let month := if monthFromMarch < 10 then monthFromMarch + 3 else monthFromMarch - 9
  let year := era * 400 + yearOfEra + (if month ≤ 2 then 1 else 0)
  ⟨year, month, dayOfYear - (153 * monthFromMarch + 2) / 5 + 1⟩

/-- The first instant of the calendar. -/
def first : Instant := ⟨-8334601228800, 0, by decide, by decide, by decide⟩

/-- The last instant of the calendar that is in no leap second. -/
def last : Instant := ⟨8210266876799, 999999999, by decide, by decide, by decide⟩

/-- The calendar runs from the first day of the year -262143 to the last day of the year 262142. -/
example : CalendarDay.ofDays (first.seconds / 86400) = ⟨-262143, 1, 1⟩ ∧
    CalendarDay.ofDays (last.seconds / 86400) = ⟨262142, 12, 31⟩ := by decide

/-! ## Text -/

/-- A natural with zeros in front, at least `width` characters long. -/
def padded (width n : Nat) : String :=
  let text := Nat.toDigits 10 n
  String.ofList (List.replicate (width - text.length) '0' ++ text)

/-- Years outside 0 … 9999 carry a sign. -/
def yearText (year : Int) : String :=
  (if year < 0 then "-" else if 9999 < year then "+" else "") ++ padded 4 year.natAbs

/-- The part of a second, with the fewest digits of none, three, six and nine that are exact. -/
def fractionText (nanos : Nat) : String :=
  if nanos = 0 then ""
  else if nanos % 1000000 = 0 then "." ++ padded 3 (nanos / 1000000)
  else if nanos % 1000 = 0 then "." ++ padded 6 (nanos / 1000)
  else "." ++ padded 9 nanos

/-- The text of an instant.  A leap second is written as one second more, with the time of day of the second before. -/
def toText (t : Instant) : String :=
  let day := CalendarDay.ofDays (t.seconds / 86400)
  let clock := (t.seconds % 86400).toNat
  yearText day.year ++ "-" ++ padded 2 day.month ++ "-" ++ padded 2 day.day
    ++ "T" ++ padded 2 (clock / 3600) ++ ":" ++ padded 2 (clock / 60 % 60)
    ++ ":" ++ padded 2 (clock % 60 + t.nanos / 1000000000)
    ++ fractionText (t.nanos % 1000000000) ++ "+00:00"

end Instant

end ValueBridge
