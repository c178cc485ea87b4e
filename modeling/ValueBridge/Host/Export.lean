import ValueBridge.Host.Value
import ValueBridge.Json.Printer
import ValueBridge.Text.Base64
/-!
# Host values as JSON

Integers and floats become numbers; decimals, UUIDs, instants and blobs become strings; durations become microseconds.
Structs and properties become objects, so that of fields with one name the last is exported; a map becomes an array of
objects with a `key` and a `value`.
-/
namespace ValueBridge

def InternalId.toJson (i : InternalId) : Json :=
  .ofFields [("table", .ofInt i.table), ("offset", .ofInt i.offset)]

def Scalar.toJson : Scalar → Json
  | .bool b => .bool b
  | .int _ n => .ofInt n
  | .float x => .ofDouble x.widen
  | .double x => .ofDouble x
  | .decimal d => .string d.toText
  | .string s => .string s
  | .blob bytes => .string (Base64.encode bytes)
  | .uuid u => .string u.toText
  | .timestamp t => .string t.toText
  | .duration d => match d.micros? with
    | some n => .ofInt n
    | none => .null
  | .id i => i.toJson

namespace HostValue

mutual
def toJson : HostValue → Json
  | null => .null
  | scalar s => s.toJson
  | list items => .array (itemsToJson items)
  | struct fields => .ofFields (fieldsToJson fields)
  | map entries => .array (entriesToJson entries)
  | node n => nodeToJson n
  | rel r => relToJson r
  | path p => pathToJson p
def itemsToJson : List HostValue → List Json
  | [] => []
  | v :: vs => toJson v :: itemsToJson vs
def fieldsToJson : List (String × HostValue) → List (String × Json)
  | [] => []
  | (name, v) :: fs => (name, toJson v) :: fieldsToJson fs
def entriesToJson : List (HostValue × HostValue) → List Json
  | [] => []
  | (k, v) :: es => .ofFields [("key", toJson k), ("value", toJson v)] :: entriesToJson es
def nodeToJson : Node HostValue → Json
  | ⟨id, label, properties⟩ =>
    .ofFields [("_id", id.toJson), ("_label", .string label), ("properties", .ofFields (fieldsToJson properties))]
def relToJson : Rel HostValue → Json
  | ⟨id, source, target, label, properties⟩ =>
    .ofFields [("_id", id.toJson), ("_src", source.toJson), ("_dst", target.toJson), ("_label", .string label),
      ("properties", .ofFields (fieldsToJson properties))]
def nodesToJson : List (Node HostValue) → List Json
  | [] => []
  | n :: ns => nodeToJson n :: nodesToJson ns
def relsToJson : List (Rel HostValue) → List Json
  | [] => []
  | r :: rs => relToJson r :: relsToJson rs
def pathToJson : Path HostValue → Json
  | ⟨nodes, rels⟩ => .ofFields [("_nodes", .array (nodesToJson nodes)), ("_rels", .array (relsToJson rels))]
end

/-- The value's JSON text. -/
def jsonText (v : HostValue) : String := v.toJson.text

end HostValue

end ValueBridge
