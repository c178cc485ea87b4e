import ValueBridge.Convert.Config
/-!
# Scalars and payloads

The leaves of both directions.  A payload becomes the one scalar that it stands for: every temporal payload an
instant, 128-bit integers decimals, an interval the duration it collapses to.  A scalar becomes one payload: a whole
decimal that fits 128 bits an integer, any other a decimal with its own precision and scale.
-/
namespace ValueBridge

/-! ## From payloads -/

/-- The count of units since 1970, and how many of them a second has. -/
def Temporal.reading : Temporal → Int × Nat
  | date days => (days.val * 86400, 1)
  | timestamp n | timestampTz n => (n.val, 1000000)
  | timestampMs n => (n.val, 1000)
  | timestampNs n => (n.val, 1000000000)
  | timestampSec n => (n.val, 1)

def Temporal.toInstant (t : Temporal) : Except ConvertError Instant :=
  let (count, perSecond) := t.reading
  match Instant.ofUnits? count perSecond with
  | some i => .ok i
  | none => .error ⟨.timestampOutOfRange count, []⟩

def Interval.toDuration (i : Interval) : Except ConvertError Duration :=
  match i.totalMicros? with
  | some n => .ok (.ofMicros n)
  | none => .error ⟨.intervalOverflow i, []⟩

def BlobLength.cut : BlobLength → List UInt8 → List UInt8
  | nulTerminated, bytes => bytes.takeWhile (· != 0)
  | exact, bytes => bytes

namespace Payload

/-- The engine answered with a payload that its tag does not allow. -/
def mismatch (expected : List Tag) (p : Payload) : ConvertError := ⟨.payloadMismatch expected p.tag, []⟩

def toInstant : Payload → Except ConvertError Instant
  | temporal t => t.toInstant
  | p => .error (p.mismatch Tag.temporal)

def toDecimal : Payload → Except ConvertError Decimal
  | decimal text _ _ => match Decimal.ofText? text with
    | some d => .ok d
    | none => .error ⟨.malformedDecimal text, []⟩
  | int128 n => .ok (.ofInt n.val)
  | p => .error (p.mismatch [.decimal, .int128])

def toUuid : Payload → Except ConvertError Uuid
  | uuid text => match Uuid.ofText? text with
    | some u => .ok u
    | none => .error ⟨.malformedUuid text, []⟩
  | p => .error (p.mismatch [.uuid])

def toScalar (blobLength : BlobLength) : Payload → Except ConvertError Scalar
  | bool b => .ok (.bool b)
  | int w n => .ok (.int w n)
  | serial n => .ok (.int .int64 n)
  | float x => .ok (.float x)
  | double x => .ok (.double x)
  | string s => .ok (.string s)
  | blob bytes => .ok (.blob (blobLength.cut bytes))
  | interval i => i.toDuration.map .duration
  | id i => .ok (.id i)
  | int128 n => (int128 n).toDecimal.map .decimal
  | decimal text p s => (decimal text p s).toDecimal.map .decimal
  | uuid text => (uuid text).toUuid.map .uuid
  | temporal t => t.toInstant.map .timestamp

end Payload

/-! ## To payloads -/

namespace Decimal

/-- The decimal payload of a number whose scale is not negative: its precision covers the coefficient and the scale. -/
def toDecimalPayload (d : Decimal) : Except ConvertError Payload :=
  let precision := max (d.width : Int) d.scale
  if (maxPrecision : Int) < precision then .error ⟨.decimalTooLong d precision, []⟩
  else .ok (.decimal d.toText precision.toNat d.scale.toNat)

def toPayload (d : Decimal) : Except ConvertError Payload :=
  let stated := if d.scale < 0 then ofInt d.truncate else d
  if d.isWhole then
    match (Ranged.ofInt? d.truncate : Option Int128) with
    | some n => .ok (.int128 n)
    | none => stated.toDecimalPayload
  else stated.toDecimalPayload

end Decimal

/-- A 128-bit integer restated as a decimal without digits after the point. -/
def restatedInt128 (n : Int) : Except ConvertError Payload := (Decimal.ofInt n).toDecimalPayload

/-- What is finer than a microsecond is dropped, rounding down. -/
def Instant.toPayload (t : Instant) : Payload := .temporal (.timestamp t.micros)

/-- What is finer than a microsecond is dropped, rounding toward zero. -/
def Duration.toPayload (d : Duration) : Except ConvertError Payload :=
  match d.micros? with
  | some n => .ok (.interval (.ofMicros n))
  | none => .error ⟨.durationOverflow d, []⟩

def Uuid.toPayload (u : Uuid) : Payload := .uuid u.toText

def Scalar.toPayload : Scalar → Except ConvertError Payload
  | bool b => .ok (.bool b)
  | int w n => .ok (.int w n)
  | float x => .ok (.float x)
  | double x => .ok (.double x)
  | decimal d => d.toPayload
  | string s => .ok (.string s)
  | blob bytes => .ok (.blob bytes)
  | uuid u => .ok u.toPayload
  | timestamp t => .ok t.toPayload
  | duration d => d.toPayload
  | id i => .ok (.id i)

end ValueBridge
