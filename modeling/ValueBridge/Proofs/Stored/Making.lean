import ValueBridge.Proofs.Stored.WellFormed
import ValueBridge.Proofs.Type.Join
import ValueBridge.Proofs.Results
/-!
# Well-formed values from well-formed parts

The checking constructors record types that are true of the parts, since a common type is above all that it joins
(`LogicalType.below_joinAll?`).  What an accessor finds in a well-formed value is well formed, also where it makes up a
list, as it does for the nodes and the relationships of a path.
-/
namespace ValueBridge.Stored

variable {v w : Stored}

/-! ## Constructors -/

theorem below_elementType {form : SequenceForm} {items : List Stored} {t : LogicalType}
    (h : elementType form items = .ok t) : ∀ i ∈ items, i.type.Below t := by
  unfold elementType at h
  split at h
  · cases h
  · split at h
    · rename_i hjoin
      cases h
      exact List.forall_mem_map.1 (LogicalType.below_joinAll? hjoin)
    · cases h

theorem WellFormed.of_listOf? {items : List Stored} (h : listOf? items = .ok v) (hi : ∀ i ∈ items, i.WellFormed) :
    v.WellFormed := by
  obtain ⟨t, ht, rfl⟩ := map_eq_ok.1 h
  exact .list (.inl rfl) (below_elementType ht) hi

theorem WellFormed.of_arrayOf? {items : List Stored} (h : arrayOf? items = .ok v) (hi : ∀ i ∈ items, i.WellFormed) :
    v.WellFormed := by
  obtain ⟨t, ht, rfl⟩ := map_eq_ok.1 h
  exact .list (.inr rfl) (below_elementType ht) hi

theorem WellFormed.of_structOf? {fields : List (String × Stored)} (h : structOf? fields = .ok v)
    (hf : ∀ f ∈ fields, f.2.WellFormed) : v.WellFormed := by
  unfold structOf? at h
  split at h
  · cases h
  · cases h
    exact .struct hf

theorem WellFormed.of_mapOf? {entries : List (Stored × Stored)} (h : mapOf? entries = .ok v)
    (hk : ∀ e ∈ entries, e.1.WellFormed) (hv : ∀ e ∈ entries, e.2.WellFormed) : v.WellFormed := by
  unfold mapOf? at h
  split at h
  · cases h
  · split at h
    · cases h
    · rename_i key hkey
      split at h
      · cases h
      · rename_i value hvalue
        cases h
        have hkeys := List.forall_mem_map.1 (LogicalType.below_joinAll? hkey)
        have hvalues := List.forall_mem_map.1 (LogicalType.below_joinAll? hvalue)
        exact .map (fun e he => ⟨hkeys e he, hvalues e he⟩) hk hv

theorem WellFormed.of_unionOf? {members : List (String × LogicalType)} {name : String}
    (h : unionOf? members name w = .ok v) (hw : w.WellFormed) : v.WellFormed := by
  unfold unionOf? at h
  split at h
  · cases h
  · rename_i declared hdeclared
    split at h
    · cases h
    · rename_i t ht
      cases h
      exact .union (mem_of_lookup hdeclared) (by rw [ht]; rfl) hw

/-! ## Parts -/

theorem mem_of_at? {α : Type} {items : List α} {index : Nat} {a : α} (h : at? items index = .ok a) : a ∈ items := by
  unfold at? at h
  split at h
  · rename_i hget
    cases h
    exact List.mem_of_getElem? hget
  · cases h

theorem WellFormed.items {items : List Stored} (hv : v.WellFormed) (h : v.asItems = .ok items) :
    ∀ i ∈ items, i.WellFormed := by
  cases hv with
  | list _ _ hi =>
    cases h
    exact hi
  | _ => cases h

theorem WellFormed.fields {fields : List (String × Stored)} (hv : v.WellFormed) (h : v.asFields = .ok fields) :
    ∀ f ∈ fields, f.2.WellFormed := by
  cases hv with
  | struct hf =>
    cases h
    exact hf
  | union _ _ hw =>
    cases h
    exact List.forall_mem_singleton.2 hw
  | _ => cases h

theorem WellFormed.entries {entries : List (Stored × Stored)} (hv : v.WellFormed) (h : v.asEntries = .ok entries) :
    ∀ e ∈ entries, e.1.WellFormed ∧ e.2.WellFormed := by
  cases hv with
  | map _ hk hw =>
    cases h
    exact fun e he => ⟨hk e he, hw e he⟩
  | _ => cases h

theorem WellFormed.nodeProperties {n : Node Stored} (hv : v.WellFormed) (h : v.asNode = .ok n) :
    ∀ f ∈ n.properties, f.2.WellFormed := by
  cases hv with
  | node hf =>
    cases h
    exact hf
  | _ => cases h

theorem WellFormed.relProperties {r : Rel Stored} (hv : v.WellFormed) (h : v.asRel = .ok r) :
    ∀ f ∈ r.properties, f.2.WellFormed := by
  cases hv with
  | rel hf =>
    cases h
    exact hf
  | _ => cases h

/-- **A part of a well-formed value is well formed.** -/
theorem WellFormed.of_item? {i : Item} {index : Nat} (hv : v.WellFormed) (h : item? i v index = .ok w) :
    w.WellFormed := by
  cases i with
  | element =>
    obtain ⟨items, hitems, hat⟩ := bind_eq_ok.1 h
    exact hv.items hitems w (mem_of_at? hat)
  | field =>
    obtain ⟨fields, hfields, h⟩ := bind_eq_ok.1 h
    obtain ⟨f, hat, rfl⟩ := map_eq_ok.1 h
    exact hv.fields hfields f (mem_of_at? hat)
  | key =>
    obtain ⟨entries, hentries, h⟩ := bind_eq_ok.1 h
    obtain ⟨e, hat, rfl⟩ := map_eq_ok.1 h
    exact (hv.entries hentries e (mem_of_at? hat)).1
  | value =>
    obtain ⟨entries, hentries, h⟩ := bind_eq_ok.1 h
    obtain ⟨e, hat, rfl⟩ := map_eq_ok.1 h
    exact (hv.entries hentries e (mem_of_at? hat)).2
  | nodeProperty =>
    obtain ⟨n, hn, h⟩ := bind_eq_ok.1 h
    obtain ⟨f, hat, rfl⟩ := map_eq_ok.1 h
    exact hv.nodeProperties hn f (mem_of_at? hat)
  | relProperty =>
    obtain ⟨r, hr, h⟩ := bind_eq_ok.1 h
    obtain ⟨f, hat, rfl⟩ := map_eq_ok.1 h
    exact hv.relProperties hr f (mem_of_at? hat)

/-- Identities and labels pass every check, and so does a list of nodes or relationships, which may be empty. -/
theorem WellFormed.of_role? {r : Role} (hv : v.WellFormed) (h : role? r v = .ok w) : w.WellFormed := by
  cases r with
  | nodeId | nodeLabel | relId | relSource | relTarget | relLabel =>
    obtain ⟨_, -, rfl⟩ := map_eq_ok.1 h
    exact .payload rfl
  | pathNodes =>
    obtain ⟨p, hp, rfl⟩ := map_eq_ok.1 h
    cases hv with
    | path hnodes _ =>
      cases hp
      refine .list (.inl rfl) ?_ ?_ <;> rw [List.forall_mem_map]
      · exact fun _ _ => LogicalType.join?_self _
      · exact fun n hn => .node (hnodes n hn)
    | _ => cases hp
  | pathRels =>
    obtain ⟨p, hp, rfl⟩ := map_eq_ok.1 h
    cases hv with
    | path _ hrels =>
      cases hp
      refine .list (.inl rfl) ?_ ?_ <;> rw [List.forall_mem_map]
      · exact fun _ _ => LogicalType.join?_self _
      · exact fun e he => .rel (hrels e he)
    | _ => cases hp

/-! ## Counts -/

theorem arraySize?_payload (p : Payload) : p.type.arraySize? = none := by cases p <;> rfl

theorem type_payload_ne_struct (p : Payload) (fs : List (String × LogicalType)) : p.type ≠ .struct fs := by
  cases p <;> exact fun h => by cases h

/-- An array has as many elements as its type says. -/
theorem WellFormed.count?_list {n : Nat} (hv : v.WellFormed) (hnull : v.isNull = false)
    (hn : v.type.arraySize? = some n) : v.count? .list = .ok n := by
  cases hv with
  | null t => cases hnull
  | payload _ => cases (arraySize?_payload _).symm.trans hn
  | list ht _ _ =>
    rcases ht with rfl | rfl
    · cases hn
    · cases hn
      rfl
  | struct _ | map _ _ _ | union _ _ _ | node _ | rel _ | path _ _ => cases hn

/-- A struct has the fields that its type lists. -/
theorem WellFormed.count?_struct {fs : List (String × LogicalType)} (hv : v.WellFormed) (hnull : v.isNull = false)
    (ht : v.type = .struct fs) :
    v.count? .struct = .ok fs.length ∧ ∀ i, v.name? .struct i = (at? fs i).map Prod.fst := by
  cases hv with
  | null t => cases hnull
  | payload _ => cases type_payload_ne_struct _ _ ht
  | list hlist _ _ => rcases hlist with rfl | rfl <;> cases ht
  | @struct fields _ =>
    cases ht
    refine ⟨congrArg Except.ok (List.length_map _).symm, fun i => ?_⟩
    change (at? fields i).map Prod.fst = _
    rw [at?, at?, List.getElem?_map, List.length_map]
    cases fields[i]? <;> rfl
  | map _ _ _ | union _ _ _ | node _ | rel _ | path _ _ => cases ht

end ValueBridge.Stored
