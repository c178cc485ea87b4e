import ValueBridge.Convert.Read
/-!
# Decoding into a requested type

A target is a type that a value can be decoded into, and `Target.Value` is the type of what comes out.  Every target
names the tags it accepts; a value with another tag is refused before it is read.  An optional target takes null for
absence and asks about the tag only then.  Graph elements keep their properties as host values, as their types differ
from element to element.
-/
namespace ValueBridge

/-! ## Scalar targets -/

inductive ScalarTarget where
  | bool
  | int (width : IntWidth)
  | float
  | double
  | string
  | id
  | interval
  | decimal
  | uuid
  | timestamp
  | duration
  | blob
deriving DecidableEq, Repr

namespace ScalarTarget

@[reducible] def Value : ScalarTarget → Type
  | bool => Bool
  | int w => IntOf w
  | float => Binary32
  | double => Binary64
  | string => String
  | id => InternalId
  | interval => Interval
  | decimal => Decimal
  | uuid => Uuid
  | timestamp => Instant
  | duration => Duration
  | blob => List UInt8

def accepts : ScalarTarget → List Tag
  | bool => [.bool]
  | int .int64 => [.int64, .serial]
  | int w => [w.tag]
  | float => [.float]
  | double => [.double]
  | string => [.string]
  | id => [.internalId]
  | interval | duration => [.interval]
  | decimal => [.decimal, .int128]
  | uuid => [.uuid]
  | timestamp => Tag.temporal
  | blob => [.blob]

/-- The payload of an interval. -/
def intervalOf : Payload → Except ConvertError Interval
  | .interval i => .ok i
  | p => .error (p.mismatch [.interval])

def ofPayload (blobLength : BlobLength) : (t : ScalarTarget) → Payload → Except ConvertError t.Value
  | bool, .bool b => .ok b
  | int w, .int w' n => if h : w' = w then .ok (h ▸ n) else .error ((Payload.int w' n).mismatch (int w).accepts)
  | int .int64, .serial n => .ok n
  | float, .float x => .ok x
  | double, .double x => .ok x
  | string, .string s => .ok s
  | id, .id i => .ok i
  | interval, p => intervalOf p
  | decimal, p => p.toDecimal
  | uuid, p => p.toUuid
  | timestamp, p => p.toInstant
  | duration, p => (intervalOf p).bind Interval.toDuration
  | blob, .blob bytes => .ok (blobLength.cut bytes)
  | t, p => .error (p.mismatch t.accepts)

end ScalarTarget

/-! ## Targets -/

inductive Target where
  | scalar (s : ScalarTarget)
  | node
  | rel
  | path
  | host
  | opt (t : Target)
  | list (t : Target)
  | struct (t : Target)
  | map (key value : Target)
deriving DecidableEq, Repr

namespace Target

@[reducible] def Value : Target → Type
  | scalar s => s.Value
  | node => Node HostValue
  | rel => Rel HostValue
  | path => Path HostValue
  | host => HostValue
  | opt t => Option t.Value
  | list t => List t.Value
  | struct t => List (String × t.Value)
  | map k v => List (k.Value × v.Value)

/-- The tags that a target accepts; `ANY` alone stands for every tag. -/
def accepts : Target → List Tag
  | scalar s => s.accepts
  | node => [.node]
  | rel => [.rel]
  | path => [.path]
  | host => [.any]
  | opt t => t.accepts
  | list _ => [.list, .array]
  | struct _ => [.struct]
  | map _ _ => [.map]

open ValueBridge.Convert Read

variable {σ : Type} [Engine σ]

def scalarOf (c : Config) (s : ScalarTarget) (h : Handle) : Convert σ s.Value := do
  let p ← payloadOf h
  Convert.ofExcept (s.ofPayload c.blobLength p)

def decode (c : Config) : (t : Target) → (left : Nat) → Handle → Convert σ t.Value
  | scalar s, _, h => tagged s.accepts (scalarOf c s) h
  | node, left, h => tagged [.node] (nodeAt c left) h
  | rel, left, h => tagged [.rel] (relAt c left) h
  | path, left, h => tagged [.path] (pathAt c left) h
  | host, left, h => valueAt c left h
  | opt t, left, h => do
    if ← isNull h then return none
    some <$> decode c t left h
  | list t, left, h => tagged [.list, .array] (nested c (fun left => elements (decode c t left)) left) h
  | struct t, left, h => tagged [.struct] (nested c (fun left => fields (decode c t left)) left) h
  | map k v, left, h => tagged [.map] (nested c (fun left => entries (decode c k left) (decode c v left)) left) h

/-- Decoding at the outermost level. -/
def read (c : Config) (t : Target) (h : Handle) : Convert σ t.Value := t.decode c c.maxDepth h

end Target

end ValueBridge
