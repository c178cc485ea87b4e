import ValueBridge.Engine.Stored
/-!
# The engine as its callers see it

An engine answers requests about handles and is told which handles are no longer needed.  A request that answers with a
handle has created it: the caller owns it and must destroy it once.  The engine copies the handles that it is given.
Nothing else is known about an engine, so every conversion works with any type of state that has an instance of
`Engine`.
-/
namespace ValueBridge

/-- The rows of a statement; every cell is owned by the caller. -/
structure ResultSet where
  columns : List String
  rows : List (List Handle)
deriving DecidableEq, Repr

/-! ## Requests and replies -/

/-- What a request asks for, without the values that it is asked about. -/
inductive Operation where
  | isNull | type | payload
  | count (c : Counted)
  | name (c : Named)
  | item (i : Item)
  | role (r : Role)
  | createNull | createPayload | createList | createStruct | createMap
  | execute
deriving DecidableEq, Repr

@[reducible] def Operation.Reply : Operation → Type
  | isNull => Bool
  | type => LogicalType
  | payload => Payload
  | count _ => Nat
  | name _ => String
  | item _ | role _ | createNull | createPayload | createList | createStruct | createMap => Handle
  | execute => ResultSet

inductive Request where
  | isNull (h : Handle)
  | type (h : Handle)
  | payload (h : Handle)
  | count (c : Counted) (h : Handle)
  | name (c : Named) (h : Handle) (index : Nat)
  | item (i : Item) (h : Handle) (index : Nat)
  | role (r : Role) (h : Handle)
  | createNull (type : LogicalType)
  | createPayload (p : Payload)
  | createList (items : List Handle)
  | createStruct (fields : List (String × Handle))
  | createMap (keys values : List Handle)
  | execute (statement : String) (parameters : List (String × Handle))
deriving DecidableEq, Repr

namespace Request

def operation : Request → Operation
  | isNull _ => .isNull
  | type _ => .type
  | payload _ => .payload
  | count c _ => .count c
  | name c _ _ => .name c
  | item i _ _ => .item i
  | role r _ => .role r
  | createNull _ => .createNull
  | createPayload _ => .createPayload
  | createList _ => .createList
  | createStruct _ => .createStruct
  | createMap _ _ => .createMap
  | execute _ _ => .execute

/-- The handle that an accessor reads; creations and executions have none. -/
def subject? : Request → Option Handle
  | isNull h | type h | payload h | count _ h | name _ h _ | item _ h _ | role _ h => some h
  | _ => none

@[reducible] def Reply (r : Request) : Type := r.operation.Reply

end Request

/-! ## Engines -/

/-- A computation on the engine's state that may fail.  Its effects stay when it fails. -/
abbrev Call (σ : Type) := EStateM Failure σ

class Engine (σ : Type) where
  call : (r : Request) → Call σ r.Reply
  destroy : Handle → σ → σ

namespace Engine

variable {σ : Type} [Engine σ]

def destroyAll (hs : List Handle) (s : σ) : σ := hs.foldl (fun s h => destroy h s) s

end Engine

end ValueBridge
