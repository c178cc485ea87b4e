import ValueBridge.Number.Ranged
/-!
# Graph elements

Nodes, relationships and paths, over any type of property values: the same three shapes hold the engine's stored
values and the host's values.  Properties keep their order, and a name may occur more than once.
-/
namespace ValueBridge

/-- The engine's identity of a node or relationship. -/
structure InternalId where
  table : IntOf .uint64
  offset : IntOf .uint64
deriving DecidableEq, Repr

namespace InternalId

/-- By table first, then by offset. -/
def order (a b : InternalId) : Ordering :=
  (compare a.table.val b.table.val).then (compare a.offset.val b.offset.val)

def text (i : InternalId) : String := s!"{i.table.val}:{i.offset.val}"

end InternalId

structure Node (α : Type) where
  id : InternalId
  label : String
  properties : List (String × α)
deriving Repr

structure Rel (α : Type) where
  id : InternalId
  source : InternalId
  target : InternalId
  label : String
  properties : List (String × α)
deriving Repr

/-- A path of variable length.  The nodes are those between its ends, so their number is not tied to that of the
relationships. -/
structure Path (α : Type) where
  nodes : List (Node α)
  rels : List (Rel α)
deriving Repr

namespace Node

def property? {α : Type} (n : Node α) (name : String) : Option α := n.properties.lookup name

end Node

namespace Rel

def property? {α : Type} (r : Rel α) (name : String) : Option α := r.properties.lookup name

end Rel

end ValueBridge
