import ValueBridge.Host.Export
import ValueBridge.Proofs.Json.Pointer
import ValueBridge.Proofs.Results
/-!
# Where the parts of a value are exported

`PartAt v p x` says that `x` is a part of `v` and where the JSON of `v` has it: items, entries and the elements of a path
by their order, and of the fields or properties of one name the last.  What a value exports at any depth stands in its
JSON as the JSON of its own (`at?_of_exports`).

A name that is looked up is found in the JSON exactly if it is found in the value.  But the lookup takes the first field
of the name, and the JSON has the last (`exported_fields`).
-/
namespace ValueBridge.HostValue

open Json (Pointer)

/-- A part of a value, and the place of its JSON in the JSON of the value. -/
inductive PartAt : HostValue → Pointer → HostValue → Prop
  | item {items : List HostValue} {i : Nat} {x : HostValue} : items[i]? = some x → PartAt (list items) [.item i] x
  | field {fields : List (String × HostValue)} {name : String} {x : HostValue} :
    fields.reverse.lookup name = some x → PartAt (struct fields) [.key name] x
  | key {entries : List (HostValue × HostValue)} {i : Nat} {e : HostValue × HostValue} :
    entries[i]? = some e → PartAt (map entries) [.item i, .key "key"] e.1
  | value {entries : List (HostValue × HostValue)} {i : Nat} {e : HostValue × HostValue} :
    entries[i]? = some e → PartAt (map entries) [.item i, .key "value"] e.2
  | nodeProperty {n : Node HostValue} {name : String} {x : HostValue} :
    n.properties.reverse.lookup name = some x → PartAt (node n) [.key "properties", .key name] x
  | relProperty {r : Rel HostValue} {name : String} {x : HostValue} :
    r.properties.reverse.lookup name = some x → PartAt (rel r) [.key "properties", .key name] x
  | pathNode {g : Path HostValue} {i : Nat} {n : Node HostValue} :
    g.nodes[i]? = some n → PartAt (path g) [.key "_nodes", .item i] (node n)
  | pathRel {g : Path HostValue} {i : Nat} {r : Rel HostValue} :
    g.rels[i]? = some r → PartAt (path g) [.key "_rels", .item i] (rel r)

/-- The value itself, its parts, their parts, and so on. -/
inductive Exports : HostValue → Pointer → HostValue → Prop
  | self (v : HostValue) : Exports v [] v
  | part {v x w : HostValue} {p q : Pointer} : PartAt v p x → Exports x q w → Exports v (p ++ q) w

/-! ## Lists of parts -/

theorem itemsToJson_eq_map (items : List HostValue) : itemsToJson items = items.map toJson := by
  induction items with
  | nil => rfl
  | cons _ _ ih => exact congrArg (_ :: ·) ih

theorem fieldsToJson_eq_map (fields : List (String × HostValue)) :
    fieldsToJson fields = fields.map fun f => (f.1, f.2.toJson) := by
  induction fields with
  | nil => rfl
  | cons _ _ ih => exact congrArg (_ :: ·) ih

theorem entriesToJson_eq_map (entries : List (HostValue × HostValue)) :
    entriesToJson entries = entries.map fun e => .ofFields [("key", e.1.toJson), ("value", e.2.toJson)] := by
  induction entries with
  | nil => rfl
  | cons _ _ ih => exact congrArg (_ :: ·) ih

theorem nodesToJson_eq_map (nodes : List (Node HostValue)) :
    nodesToJson nodes = nodes.map fun n => (node n).toJson := by
  induction nodes with
  | nil => rfl
  | cons _ _ ih => exact congrArg (_ :: ·) ih

theorem relsToJson_eq_map (rels : List (Rel HostValue)) : relsToJson rels = rels.map fun r => (rel r).toJson := by
  induction rels with
  | nil => rfl
  | cons _ _ ih => exact congrArg (_ :: ·) ih

/-- The JSON of fields, and of properties. -/
def fieldsJson (fields : List (String × HostValue)) : Json := .ofFields (fieldsToJson fields)

theorem toJson_node (n : Node HostValue) : (node n).toJson =
    .ofFields [("_id", n.id.toJson), ("_label", .string n.label), ("properties", fieldsJson n.properties)] := by
  cases n
  rfl

theorem toJson_rel (r : Rel HostValue) : (rel r).toJson =
    .ofFields [("_id", r.id.toJson), ("_src", r.source.toJson), ("_dst", r.target.toJson), ("_label", .string r.label),
      ("properties", fieldsJson r.properties)] := by
  cases r
  rfl

theorem toJson_path (g : Path HostValue) : (path g).toJson =
    .ofFields [("_nodes", .array (nodesToJson g.nodes)), ("_rels", .array (relsToJson g.rels))] := by
  cases g
  rfl

/-- **Of the fields of one name, the last is exported.** -/
theorem step?_fieldsJson (fields : List (String × HostValue)) (name : String) :
    (fieldsJson fields).step? (.key name) = (fields.reverse.lookup name).map toJson := by
  rw [fieldsJson, Json.step?_ofFields, fieldsToJson_eq_map, ← List.map_reverse, Fields.lookup_map_snd]

/-! ## Every part is exported -/

variable {v w x : HostValue} {p q : Pointer} {name : String}

theorem at?_of_partAt (h : PartAt v p x) : v.toJson.at? p = some x.toJson := by
  cases h with
  | @item items i x hx =>
    rw [Json.at?_singleton]
    change (itemsToJson items)[i]? = _
    rw [itemsToJson_eq_map, List.getElem?_map, hx]
    rfl
  | @field fields name x hx =>
    rw [Json.at?_singleton]
    change (fieldsJson fields).step? _ = _
    rw [step?_fieldsJson, hx]
    rfl
  | @key entries i e he | @value entries i e he =>
    rw [Json.at?_cons]
    change ((entriesToJson entries)[i]?).bind _ = _
    rw [entriesToJson_eq_map, List.getElem?_map, he]
    exact Json.at?_key rfl
  | @nodeProperty n name x hx =>
    rw [toJson_node, Json.at?_key rfl, Json.at?_singleton, step?_fieldsJson, hx]
    rfl
  | @relProperty r name x hx =>
    rw [toJson_rel, Json.at?_key rfl, Json.at?_singleton, step?_fieldsJson, hx]
    rfl
  | @pathNode g i n hn =>
    rw [toJson_path, Json.at?_key rfl, Json.at?_singleton]
    change (nodesToJson g.nodes)[i]? = _
    rw [nodesToJson_eq_map, List.getElem?_map, hn]
    rfl
  | @pathRel g i r hr =>
    rw [toJson_path, Json.at?_key rfl, Json.at?_singleton]
    change (relsToJson g.rels)[i]? = _
    rw [relsToJson_eq_map, List.getElem?_map, hr]
    rfl

/-- **What a value exports stands in its JSON as its own JSON.** -/
theorem at?_of_exports (h : Exports v p w) : v.toJson.at? p = some w.toJson := by
  induction h with
  | self v => rfl
  | part hx _ ih => rw [Json.at?_append, at?_of_partAt hx, Option.bind_some, ih]

/-! ## Lookup and export -/

/-- The fields of a struct, and the properties of a node or a relationship. -/
def fields? : HostValue → Option (List (String × HostValue))
  | struct fields => some fields
  | node n => some n.properties
  | rel r => some r.properties
  | _ => none

/-- Where the JSON of a value has its fields or properties. -/
def fieldsPointer : HostValue → Pointer
  | node _ | rel _ => [.key "properties"]
  | _ => []

theorem lookup?_of_fields? {fields : List (String × HostValue)} (h : v.fields? = some fields) (name : String) :
    v.lookup? name = fields.lookup name := by
  cases v with
  | struct | node | rel =>
    cases h
    rfl
  | _ => cases h

theorem at?_fieldsPointer {fields : List (String × HostValue)} (h : v.fields? = some fields) :
    v.toJson.at? v.fieldsPointer = some (fieldsJson fields) := by
  cases v with
  | struct =>
    cases h
    rfl
  | node n =>
    cases h
    rw [toJson_node]
    exact Json.at?_key rfl
  | rel r =>
    cases h
    rw [toJson_rel]
    exact Json.at?_key rfl
  | _ => cases h

theorem isSome_lookup_reverse (fields : List (String × HostValue)) (name : String) :
    (fields.reverse.lookup name).isSome ↔ (fields.lookup name).isSome := by
  simp only [List.lookup_isSome_iff, List.mem_reverse]

/-- **The JSON has the names that a lookup finds, each with the last field of the name.**  It is the export of what the
lookup finds if all fields of the name are exported alike, as when there is only one. -/
theorem exported_fields (v : HostValue) {fields : List (String × HostValue)} (hw : v.Exports p w)
    (hfields : w.fields? = some fields) : ∃ object, v.toJson.at? (p ++ w.fieldsPointer) = some (.object object) ∧
      ∀ name, ((object.lookup name).isSome ↔ (w.lookup? name).isSome) ∧
        object.lookup name = (fields.reverse.lookup name).map toJson ∧
        ((∀ x y, (name, x) ∈ fields → (name, y) ∈ fields → x.toJson = y.toJson) →
          object.lookup name = (w.lookup? name).map toJson) := by
  refine ⟨Fields.latest (fieldsToJson fields), ?_, fun name => ?_⟩
  · rw [Json.at?_append, at?_of_exports hw, Option.bind_some, at?_fieldsPointer hfields]
    rfl
  have hlast : (Fields.latest (fieldsToJson fields)).lookup name = (fields.reverse.lookup name).map toJson :=
    step?_fieldsJson fields name
  have hnames := isSome_lookup_reverse fields name
  rw [lookup?_of_fields? hfields, hlast, Option.isSome_map]
  refine ⟨hnames, rfl, fun halike => ?_⟩
  cases hfirst : fields.lookup name with
  | none =>
    rw [hfirst, Option.isSome_none, Bool.false_eq_true, iff_false, Option.not_isSome_iff_eq_none] at hnames
    rw [hnames]
  | some x =>
    rw [hfirst] at hnames
    obtain ⟨y, hy⟩ := Option.isSome_iff_exists.1 (hnames.2 rfl)
    rw [hy, Option.map_some, Option.map_some,
      halike y x (List.mem_reverse.1 (mem_of_lookup hy)) (mem_of_lookup hfirst)]

/-- A name twice with one value, around another name. -/
def flagsAround : List (String × HostValue) :=
  [("b", scalar (.bool true)), ("a", null), ("b", scalar (.bool true))]

/-- Inside a list, a struct that has a name twice with one value exports what a lookup finds, and no other name. -/
theorem exported_fields_flagsAround :
    (list [null, struct flagsAround]).Exports [.item 1] (struct flagsAround) ∧
    ∃ object, (list [null, struct flagsAround]).toJson.at? [.item 1] = some (.object object) ∧
      object.lookup "b" = some (.bool true) ∧ ¬(object.lookup "c").isSome := by
  have hexports : (list [null, struct flagsAround]).Exports [.item 1] (struct flagsAround) := .part (.item rfl) (.self _)
  obtain ⟨object, hobject, hnames⟩ := exported_fields _ hexports rfl
  have halike : ∀ x y, ("b", x) ∈ flagsAround → ("b", y) ∈ flagsAround → x.toJson = y.toJson := by
    have hone : ∀ x, ("b", x) ∈ flagsAround → x = scalar (.bool true) := by simp [flagsAround]
    intro x y hx hy
    rw [hone x hx, hone y hy]
  refine ⟨hexports, object, hobject, (hnames "b").2.2 halike, fun hc => ?_⟩
  exact absurd ((hnames "c").1.1 hc) (by decide)

/-- A name twice with different values. -/
def flagsApart : List (String × HostValue) := [("a", scalar (.bool true)), ("a", scalar (.bool false))]

/-- The first value is found, and the second is exported. -/
theorem exported_shadowed : ∃ x object, (struct flagsApart).lookup? "a" = some x ∧
    (struct flagsApart).toJson = .object object ∧ object.lookup "a" = some (.bool false) ∧ x.toJson = .bool true :=
  ⟨scalar (.bool true), Fields.latest (fieldsToJson flagsApart), rfl, rfl, step?_fieldsJson flagsApart "a", rfl⟩

end ValueBridge.HostValue
