import ValueBridge.Convert.Ownership
import ValueBridge.Convert.Scalar
/-!
# Decoding by the value's own tag

`valueAt` reads any engine value as a host value: null first, then by the tag that the engine reports.  It recurses on
the levels that are left, so it ends whatever the engine answers.  Every part is held while it is read and released
before the next one is asked for; the two parts of a map entry are held together, and so are the two lists of a path.
-/
namespace ValueBridge.Read

open ValueBridge.Convert

variable {σ : Type} [Engine σ] {α β : Type}

/-! ## Collections -/

/-- Elements in the engine's order.  An array has its length in its type; a list is asked for it. -/
def elements (read : Handle → Convert σ α) (h : Handle) : Convert σ (List α) := do
  let count ← match (← typeOf h).arraySize? with
    | some n => pure n
    | none => countOf .list h
  forIndices (fun i => holding (itemOf .element h i) fun part => (read part).within (.element i)) 0 count

/-- The members of a struct, or the properties of a graph element, in the engine's order. -/
def named (counted : Counted) (names : Named) (item : Item) (place : String → Place) (read : Handle → Convert σ α)
    (h : Handle) : Convert σ (List (String × α)) := do
  let count ← countOf counted h
  forIndices (fun i => do
    let name ← nameOf names h i
    holding (itemOf item h i) fun part => return (name, ← (read part).within (place name))) 0 count

def fields (read : Handle → Convert σ α) (h : Handle) : Convert σ (List (String × α)) :=
  named .struct .struct .field .field read h

def entries (key : Handle → Convert σ α) (value : Handle → Convert σ β) (h : Handle) :
    Convert σ (List (α × β)) := do
  let count ← countOf .map h
  forIndices (fun i =>
    holding (itemOf .key h i) fun k => holding (itemOf .value h i) fun v =>
      (do return (← key k, ← value v)).within (.mapEntry i)) 0 count

/-! ## Graph elements -/

def idOf (r : Role) (h : Handle) : Convert σ InternalId :=
  holding (roleOf r h) fun part => do
    match ← payloadOf part with
    | .id i => return i
    | p => throw (p.mismatch [.internalId])

def labelOf (r : Role) (h : Handle) : Convert σ String :=
  holding (roleOf r h) fun part => do
    match ← payloadOf part with
    | .string s => return s
    | p => throw (p.mismatch [.string])

/-- A node, once its level is taken; `read` reads its properties. -/
def node (read : Handle → Convert σ α) (h : Handle) : Convert σ (Node α) := do
  let id ← idOf .nodeId h
  let label ← labelOf .nodeLabel h
  let properties ← named .nodeProperties .nodeProperties .nodeProperty .property read h
  return ⟨id, label, properties⟩

/-- A relationship, once its level is taken. -/
def rel (read : Handle → Convert σ α) (h : Handle) : Convert σ (Rel α) := do
  let id ← idOf .relId h
  let source ← idOf .relSource h
  let target ← idOf .relTarget h
  let label ← labelOf .relLabel h
  let properties ← named .relProperties .relProperties .relProperty .property read h
  return ⟨id, source, target, label, properties⟩

/-- A path, once its level is taken; its two lists are held together. -/
def path (nodes : Handle → Convert σ (List (Node α))) (rels : Handle → Convert σ (List (Rel α))) (h : Handle) :
    Convert σ (Path α) :=
  holding (roleOf .pathNodes h) fun ns => holding (roleOf .pathRels h) fun rs => return ⟨← nodes ns, ← rels rs⟩

/-! ## Levels and tags -/

/-- Takes one of the levels that are left. -/
def nested (c : Config) (read : (left : Nat) → Handle → Convert σ α) : (left : Nat) → Handle → Convert σ α
  | 0, _ => throw c.tooDeep
  | left + 1, h => read left h

/-- Refuses null, then any tag outside the set. -/
def expectTag (accepted : List Tag) (h : Handle) : Convert σ Unit := do
  if ← isNull h then fail .nullValue
  let tag ← tagOf h
  if accepted.contains tag then return () else fail (.typeMismatch accepted tag)

/-- Reads a value that must have a tag of the set. -/
def tagged (accepted : List Tag) (read : Handle → Convert σ α) (h : Handle) : Convert σ α := do
  expectTag accepted h
  read h

/-! ## Values -/

def scalarOf (c : Config) (h : Handle) : Convert σ Scalar := do
  let p ← payloadOf h
  Convert.ofExcept (p.toScalar c.blobLength)

/-- Null at once, any other value by its tag. -/
def unlessNull (read : Tag → Handle → Convert σ HostValue) (h : Handle) : Convert σ HostValue := do
  if ← isNull h then return .null
  read (← tagOf h) h

/-- A value without parts. -/
def leaf (c : Config) : Tag → Handle → Convert σ HostValue
  | .any, _ => fail (.noDecoder .any)
  | .pointer, _ => fail (.noDecoder .pointer)
  | _, h => .scalar <$> scalarOf c h

/-- A value whose level is taken; `inner` reads its parts. -/
def parts (c : Config) (inner : Handle → Convert σ HostValue) : Tag → Handle → Convert σ HostValue
  | .list, h | .array, h => .list <$> elements inner h
  | .struct, h => .struct <$> fields inner h
  | .map, h => .map <$> entries inner inner h
  | .union, h => holding (itemOf .field h 0) inner
  | .node, h => .node <$> node inner h
  | .rel, h => .rel <$> rel inner h
  | tag, h => leaf c tag h

/-- Any value, by its own tag.  The path takes a level, its lists take one, and so do their elements: properties are
three levels further in. -/
def valueAt (c : Config) : (left : Nat) → Handle → Convert σ HostValue
  | 0 => unlessNull fun tag h => if tag.isComposite then throw c.tooDeep else leaf c tag h
  | 1 => unlessNull fun tag h =>
    if tag = .path then .path <$> path (fun _ => throw c.tooDeep) (fun _ => throw c.tooDeep) h
    else parts c (valueAt c 0) tag h
  | 2 => unlessNull fun tag h =>
    if tag = .path then
      .path <$> path (elements (tagged [.node] fun _ => throw c.tooDeep))
        (elements (tagged [.rel] fun _ => throw c.tooDeep)) h
    else parts c (valueAt c 1) tag h
  | left + 3 => unlessNull fun tag h =>
    if tag = .path then
      .path <$> path (elements (tagged [.node] (node (valueAt c left))))
        (elements (tagged [.rel] (rel (valueAt c left)))) h
    else parts c (valueAt c (left + 2)) tag h

/-! ## Graph elements at a level -/

def nodeAt (c : Config) : (left : Nat) → Handle → Convert σ (Node HostValue) :=
  nested c fun left => node (valueAt c left)

def relAt (c : Config) : (left : Nat) → Handle → Convert σ (Rel HostValue) :=
  nested c fun left => rel (valueAt c left)

def pathAt (c : Config) : (left : Nat) → Handle → Convert σ (Path HostValue) :=
  nested c fun left =>
    path (nested c (fun left => elements (tagged [.node] (nodeAt c left))) left)
      (nested c (fun left => elements (tagged [.rel] (relAt c left))) left)

/-- Decoding at the outermost level. -/
def value (c : Config) (h : Handle) : Convert σ HostValue := valueAt c c.maxDepth h

end ValueBridge.Read
