import ValueBridge.Proofs.Stored.Reading
import ValueBridge.Proofs.Uuid
/-!
# Well-formed values

A stored value is `WellFormed` if its recorded types are true of its parts, at every depth.  Decoding relies on less: a
value is `Legible` if the tag of its type tells its shape, and the size of an array its length.  The leaves of a
well-formed value are those that the engine takes in, so that its UUIDs can be read (`toScalar_isOk_iff`).
-/
namespace ValueBridge.Stored

/-- The recorded types are true of the parts, at every depth. -/
inductive WellFormed : Stored → Prop
  | null (t : LogicalType) : WellFormed (null t)
  | payload {p : Payload} : checkPayload p = .ok () → WellFormed (payload p)
  | list {t item : LogicalType} {items : List Stored} : (t = .list item ∨ t = .array item items.length) →
    (∀ v ∈ items, LogicalType.join? v.type item = some item) → (∀ v ∈ items, WellFormed v) → WellFormed (list t items)
  | struct {fields : List (String × Stored)} : (∀ f ∈ fields, WellFormed f.2) →
    WellFormed (struct (.struct (fields.map fun f => (f.1, f.2.type))) fields)
  | map {key value : LogicalType} {entries : List (Stored × Stored)} :
    (∀ e ∈ entries, LogicalType.join? e.1.type key = some key ∧ LogicalType.join? e.2.type value = some value) →
    (∀ e ∈ entries, WellFormed e.1) → (∀ e ∈ entries, WellFormed e.2) → WellFormed (map (.map key value) entries)
  | union {members : List (String × LogicalType)} {name : String} {declared : LogicalType} {v : Stored} :
    (name, declared) ∈ members → (LogicalType.join? declared v.type).isSome → WellFormed v →
    WellFormed (union (.union members) name v)
  | node {n : Node Stored} : (∀ f ∈ n.properties, WellFormed f.2) → WellFormed (node n)
  | rel {r : Rel Stored} : (∀ f ∈ r.properties, WellFormed f.2) → WellFormed (rel r)
  | path {p : Path Stored} : (∀ n ∈ p.nodes, ∀ f ∈ n.properties, WellFormed f.2) →
    (∀ r ∈ p.rels, ∀ f ∈ r.properties, WellFormed f.2) → WellFormed (path p)

/-- The tags tell the shapes, and the sizes of arrays their lengths, at every depth. -/
inductive Legible : Stored → Prop
  | null (t : LogicalType) : Legible (null t)
  | payload (p : Payload) : Legible (payload p)
  | list {t : LogicalType} {items : List Stored} : t.tag ∈ [Tag.list, Tag.array] →
    (∀ n, t.arraySize? = some n → n = items.length) → (∀ v ∈ items, Legible v) → Legible (list t items)
  | struct {t : LogicalType} {fields : List (String × Stored)} : t.tag = .struct → (∀ f ∈ fields, Legible f.2) →
    Legible (struct t fields)
  | map {t : LogicalType} {entries : List (Stored × Stored)} : t.tag = .map → (∀ e ∈ entries, Legible e.1) →
    (∀ e ∈ entries, Legible e.2) → Legible (map t entries)
  | union {t : LogicalType} {name : String} {v : Stored} : t.tag = .union → Legible v → Legible (union t name v)
  | node {n : Node Stored} : (∀ f ∈ n.properties, Legible f.2) → Legible (node n)
  | rel {r : Rel Stored} : (∀ f ∈ r.properties, Legible f.2) → Legible (rel r)
  | path {p : Path Stored} : (∀ n ∈ p.nodes, ∀ f ∈ n.properties, Legible f.2) →
    (∀ r ∈ p.rels, ∀ f ∈ r.properties, Legible f.2) → Legible (path p)

theorem WellFormed.legible {v : Stored} (h : v.WellFormed) : v.Legible := by
  induction h with
  | null t => exact .null t
  | payload _ => exact .payload _
  | list ht _ _ ih =>
    rcases ht with rfl | rfl
    · exact .list (by simp [LogicalType.tag]) (fun n hn => by cases hn) ih
    · exact .list (by simp [LogicalType.tag]) (fun n hn => by cases hn; rfl) ih
  | struct _ ih => exact .struct rfl ih
  | map _ _ _ ihk ihv => exact .map rfl ihk ihv
  | union _ _ _ ih => exact .union rfl ih
  | node _ ih => exact .node ih
  | rel _ ih => exact .rel ih
  | path _ _ ihn ihr => exact .path ihn ihr

theorem WellFormed.checkPayload_of_mem_leaves {v : Stored} (h : v.WellFormed) :
    ∀ p ∈ v.leaves, checkPayload p = .ok () := by
  induction h with
  | null t =>
    rw [leaves]
    exact fun p hp => by cases hp
  | payload hp =>
    rw [leaves]
    exact fun p h => by rwa [List.mem_singleton.1 h]
  | list _ _ _ ih =>
    rw [leaves]
    exact List.forall_mem_flatMap.2 ih
  | struct _ ih =>
    rw [leaves]
    exact List.forall_mem_flatMap.2 ih
  | map _ _ _ ihk ihv =>
    rw [leaves]
    exact List.forall_mem_flatMap.2 fun e he => List.forall_mem_append.2 ⟨ihk e he, ihv e he⟩
  | union _ _ _ ih =>
    rw [leaves]
    exact ih
  | node _ ih =>
    rw [leaves]
    exact List.forall_mem_flatMap.2 ih
  | rel _ ih =>
    rw [leaves]
    exact List.forall_mem_flatMap.2 ih
  | path _ _ ihn ihr =>
    rw [leaves]
    exact List.forall_mem_append.2 ⟨List.forall_mem_flatMap.2 fun n hn => List.forall_mem_flatMap.2 (ihn n hn),
      List.forall_mem_flatMap.2 fun r hr => List.forall_mem_flatMap.2 (ihr r hr)⟩

theorem toScalar_isOk_iff {p : Payload} (b : BlobLength) (h : checkPayload p = .ok ()) :
    (∃ s, p.toScalar b = .ok s) ↔ p.Convertible := by
  refine Payload.toScalar_isOk b fun text htext => ?_
  subst htext
  rw [checkPayload] at h
  split at h
  · rename_i hform
    exact Uuid.isSome_of_isHyphenated hform
  · cases h

/-- **A well-formed value has no faults exactly when it is not too deep and its leaves are convertible.** -/
theorem WellFormed.faults_eq_nil_iff {v : Stored} (h : v.WellFormed) (c : Config) (left : Nat) :
    v.faults c left = [] ↔ v.depth ≤ left ∧ ∀ p ∈ v.leaves, p.Convertible := by
  rw [Stored.faults_eq_nil_iff]
  exact and_congr_right fun _ => forall₂_congr fun p hp =>
    toScalar_isOk_iff c.blobLength (h.checkPayload_of_mem_leaves p hp)

end ValueBridge.Stored
