import ValueBridge.Engine.Payload
import ValueBridge.Engine.Failure
import ValueBridge.Type.Join
/-!
# Stored values

The tree behind one handle.  Lists, structs, maps and unions carry their full type, so that the type of a list of nulls
survives copying.  The checking constructors `Stored.listOf?`, `arrayOf?`, `structOf?`, `mapOf?` and `unionOf?` derive
that type; the accessors `count?`, `name?`, `item?` and `role?` take a value apart.
-/
namespace ValueBridge

inductive Stored where
  | null (type : LogicalType)
  | payload (p : Payload)
  | list (type : LogicalType) (items : List Stored)
  | struct (type : LogicalType) (fields : List (String × Stored))
  | map (type : LogicalType) (entries : List (Stored × Stored))
  | union (type : LogicalType) (name : String) (member : Stored)
  | node (n : Node Stored)
  | rel (r : Rel Stored)
  | path (p : Path Stored)
deriving Repr

namespace Stored

instance : Inhabited Stored := ⟨null .any⟩

def type : Stored → LogicalType
  | null t => t
  | payload p => p.type
  | list t _ | struct t _ | map t _ | union t _ _ => t
  | node _ => .plain .node
  | rel _ => .plain .rel
  | path _ => .plain .path

def isNull : Stored → Bool
  | null _ => true
  | _ => false

/-! ## Checking constructors -/

/-- The element type of a sequence: the common type of its items. -/
def elementType (form : SequenceForm) (items : List Stored) : Except Failure LogicalType :=
  if items.isEmpty then .error (.emptySequence form)
  else match LogicalType.joinAll? (items.map type) with
    | some t => .ok t
    | none => .error (.mixedElements form (items.map type))

def listOf? (items : List Stored) : Except Failure Stored :=
  (elementType .list items).map fun t => list (.list t) items

/-- An array has the length of its items in its type. -/
def arrayOf? (items : List Stored) : Except Failure Stored :=
  (elementType .array items).map fun t => list (.array t items.length) items

/-- The fields keep the order in which they are given. -/
def structOf? (fields : List (String × Stored)) : Except Failure Stored :=
  if fields.isEmpty then .error .emptyStruct
  else .ok (struct (.struct (fields.map fun f => (f.1, f.2.type))) fields)

def mapOf? (entries : List (Stored × Stored)) : Except Failure Stored :=
  if entries.isEmpty then .error .emptyMap
  else match LogicalType.joinAll? (entries.map (·.1.type)) with
    | none => .error .mixedKeys
    | some k =>
      match LogicalType.joinAll? (entries.map (·.2.type)) with
      | none => .error .mixedValues
      | some v => .ok (map (.map k v) entries)

/-- A union with the named member active; the member's type must join with the declared one. -/
def unionOf? (members : List (String × LogicalType)) (name : String) (member : Stored) : Except Failure Stored :=
  match members.lookup name with
  | none => .error (.noMember name)
  | some declared =>
    match LogicalType.join? declared member.type with
    | none => .error (.memberType name declared member.type)
    | some _ => .ok (union (.union members) name member)

/-! ## Payload checks -/

/-- A UUID must be in its hyphenated form, a decimal within the engine's precision. -/
def checkPayload : Payload → Except Failure Unit
  | .uuid text => if Uuid.isHyphenated text.toList then .ok () else .error (.malformedUuid text)
  | .decimal _ p s => if maxPrecision < p ∨ p < s then .error (.decimalBounds p s) else .ok ()
  | _ => .ok ()

end Stored

/-! ## Accessors -/

/-- What can be counted. -/
inductive Counted where
  | list | struct | map | nodeProperties | relProperties
deriving DecidableEq, Repr

/-- What has names. -/
inductive Named where
  | struct | nodeProperties | relProperties
deriving DecidableEq, Repr

/-- A part that is found by its index. -/
inductive Item where
  | element | field | key | value | nodeProperty | relProperty
deriving DecidableEq, Repr

/-- A part that is found by its role. -/
inductive Role where
  | nodeId | nodeLabel | relId | relSource | relTarget | relLabel | pathNodes | pathRels
deriving DecidableEq, Repr

namespace Stored

def at? {α : Type} (items : List α) (index : Nat) : Except Failure α :=
  match items[index]? with
  | some a => .ok a
  | none => .error (.outOfRange index items.length)

def notA (form : Form) (v : Stored) : Failure := .notA form v.type

def asNode : Stored → Except Failure (Node Stored)
  | node n => .ok n
  | v => .error (v.notA .node)

def asRel : Stored → Except Failure (Rel Stored)
  | rel r => .ok r
  | v => .error (v.notA .rel)

def asPath : Stored → Except Failure (Path Stored)
  | path p => .ok p
  | v => .error (v.notA .path)

def asItems : Stored → Except Failure (List Stored)
  | list _ items => .ok items
  | v => .error (v.notA .list)

/-- A union is read as a struct whose one field is the active member. -/
def asFields : Stored → Except Failure (List (String × Stored))
  | struct _ fields => .ok fields
  | union _ name member => .ok [(name, member)]
  | v => .error (v.notA .struct)

def asEntries : Stored → Except Failure (List (Stored × Stored))
  | map _ entries => .ok entries
  | v => .error (v.notA .map)

def asPayload : Stored → Except Failure Payload
  | payload p => .ok p
  | v => .error (v.notA .scalar)

def count? (c : Counted) (v : Stored) : Except Failure Nat :=
  match c with
  | .list => v.asItems.map List.length
  | .struct => v.asFields.map List.length
  | .map => v.asEntries.map List.length
  | .nodeProperties => v.asNode.map (·.properties.length)
  | .relProperties => v.asRel.map (·.properties.length)

def name? (c : Named) (v : Stored) (index : Nat) : Except Failure String :=
  match c with
  | .struct => v.asFields.bind fun fs => (at? fs index).map Prod.fst
  | .nodeProperties => v.asNode.bind fun n => (at? n.properties index).map Prod.fst
  | .relProperties => v.asRel.bind fun r => (at? r.properties index).map Prod.fst

def item? (i : Item) (v : Stored) (index : Nat) : Except Failure Stored :=
  match i with
  | .element => v.asItems.bind fun items => at? items index
  | .field => v.asFields.bind fun fs => (at? fs index).map Prod.snd
  | .key => v.asEntries.bind fun es => (at? es index).map Prod.fst
  | .value => v.asEntries.bind fun es => (at? es index).map Prod.snd
  | .nodeProperty => v.asNode.bind fun n => (at? n.properties index).map Prod.snd
  | .relProperty => v.asRel.bind fun r => (at? r.properties index).map Prod.snd

/-- The nodes and the relationships of a path are read as lists. -/
def role? (r : Role) (v : Stored) : Except Failure Stored :=
  match r with
  | .nodeId => v.asNode.map fun n => payload (.id n.id)
  | .nodeLabel => v.asNode.map fun n => payload (.string n.label)
  | .relId => v.asRel.map fun r => payload (.id r.id)
  | .relSource => v.asRel.map fun r => payload (.id r.source)
  | .relTarget => v.asRel.map fun r => payload (.id r.target)
  | .relLabel => v.asRel.map fun r => payload (.string r.label)
  | .pathNodes => v.asPath.map fun p => list (.list (.plain .node)) (p.nodes.map node)
  | .pathRels => v.asPath.map fun p => list (.list (.plain .rel)) (p.rels.map rel)

end Stored

end ValueBridge
