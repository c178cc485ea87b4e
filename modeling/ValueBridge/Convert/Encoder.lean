import ValueBridge.Convert.Ownership
import ValueBridge.Convert.Scalar
import ValueBridge.Fields
/-!
# Encoders

An encoder builds one engine value, given how many levels of nesting are left, and passes the handle to its caller.
The three collections are combinators: they know nothing about the values they are made of, so that every kind of
source is encoded by the same rules.  The parts are built first; the engine copies them into the collection, and they
are released when it is built or refused.
-/
namespace ValueBridge

/-- Builds a value within the levels that are left; the caller owns the new handle. -/
abbrev Encoder (σ : Type) := (left : Nat) → Convert σ Handle

namespace Encoder

open ValueBridge.Convert (fail createNull createPayload createList createStruct createMap payloadOf tagOf releasing
  orReleasing acquireAll acquirePairs)

variable {σ : Type} [Engine σ]

/-! ## Leaves -/

def ofError (e : ConvertError) : Encoder σ := fun _ => throw e

def ofPayload (p : Payload) : Encoder σ := fun _ => createPayload p

/-- An untyped null, which joins with elements of any type. -/
def null : Encoder σ := fun _ => createNull .any

def ofExcept : Except ConvertError Payload → Encoder σ
  | .ok p => ofPayload p
  | .error e => ofError e

/-! ## Decimals in one collection -/

/-- The decimal that states what a 128-bit integer says. -/
def restated (h : Handle) : Convert σ Handle := do
  match ← payloadOf h with
  | .int128 n => createPayload (← Convert.ofExcept (restatedInt128 n.val))
  | p => throw (p.mismatch [.int128])

/-- Every 128-bit integer is replaced by a decimal.  The replacement exists before the integer is released; on failure
all handles are released. -/
def restateAll : List (Handle × Tag) → Convert σ (List Handle)
  | [] => pure []
  | (h, tag) :: rest =>
    if tag = .int128 then do
      let new ← orReleasing (rest.map Prod.fst) (releasing [h] (restated h))
      let news ← orReleasing [new] (restateAll rest)
      return new :: news
    else do
      let news ← orReleasing [h] (restateAll rest)
      return h :: news

/-- Whole decimals are 128-bit integers of their own.  Beside a decimal with digits after the point they are restated,
so that the engine sees one type. -/
def aligned (hs : List Handle) : Convert σ (List Handle) := do
  let tags ← orReleasing hs (hs.mapM tagOf)
  if tags.contains .decimal && tags.contains .int128 then restateAll (hs.zip tags) else return hs

/-! ## Collections -/

/-- The levels left inside a collection that is not empty. -/
def enter (c : Config) (kind : CollectionKind) (isEmpty : Bool) (left : Nat) : Convert σ Nat :=
  if isEmpty then fail (.emptyCollection kind) else Convert.ofExcept (c.descend left)

def list (c : Config) (items : List (Encoder σ)) : Encoder σ := fun left => do
  let inner ← enter c .list items.isEmpty left
  let parts := items.mapIdx fun i item => (item inner).within (.element i)
  let hs ← acquireAll parts
  let hs ← aligned hs
  releasing hs (createList hs)

/-- Sorted fields give structs with the same names the same type, whatever the order they are given in. -/
def struct (c : Config) (fields : List (String × Encoder σ)) : Encoder σ := fun left => do
  let inner ← enter c .struct fields.isEmpty left
  let sorted := Fields.sorted fields
  let parts := sorted.map fun f => (f.2 inner).within (.field f.1)
  let hs ← acquireAll parts
  releasing hs (createStruct ((sorted.map Prod.fst).zip hs))

def map (c : Config) (entries : List (Encoder σ × Encoder σ)) : Encoder σ := fun left => do
  let inner ← enter c .map entries.isEmpty left
  let parts := entries.mapIdx fun i e => ((e.1 inner).within (.mapEntry i), (e.2 inner).within (.mapEntry i))
  let (keys, values) ← acquirePairs parts
  let keys ← orReleasing values (aligned keys)
  let values ← orReleasing keys (aligned values)
  releasing (keys ++ values) (createMap keys values)

end Encoder

end ValueBridge
