import ValueBridge.Engine.Stored
import ValueBridge.Proofs.Convert.Payload
/-!
# What a stored value reads as

The pure account of decoding by tag.  `hostOf` is the host value that a stored value stands for, and `faults` are the
errors that stand in its way within the levels that are left, each with the places that lead to it, in reading order.
There are none exactly when the value is not nested deeper than that and all its leaves can be converted
(`faults_eq_nil_iff`).
-/
namespace ValueBridge
namespace Stored

/-! ## Parts -/

/-- The values that a value is directly made of.  The properties along a path are parts of the path. -/
inductive Part : Stored → Stored → Prop
  | item {t : LogicalType} {items : List Stored} {v : Stored} : v ∈ items → Part v (list t items)
  | field {t : LogicalType} {fields : List (String × Stored)} {f : String × Stored} :
    f ∈ fields → Part f.2 (struct t fields)
  | key {t : LogicalType} {entries : List (Stored × Stored)} {e : Stored × Stored} :
    e ∈ entries → Part e.1 (map t entries)
  | value {t : LogicalType} {entries : List (Stored × Stored)} {e : Stored × Stored} :
    e ∈ entries → Part e.2 (map t entries)
  | member {t : LogicalType} {name : String} {v : Stored} : Part v (union t name v)
  | nodeProperty {n : Node Stored} {f : String × Stored} : f ∈ n.properties → Part f.2 (node n)
  | relProperty {r : Rel Stored} {f : String × Stored} : f ∈ r.properties → Part f.2 (rel r)
  | pathNode {p : Path Stored} {n : Node Stored} {f : String × Stored} :
    n ∈ p.nodes → f ∈ n.properties → Part f.2 (path p)
  | pathRel {p : Path Stored} {r : Rel Stored} {f : String × Stored} :
    r ∈ p.rels → f ∈ r.properties → Part f.2 (path p)

theorem sizeOf_snd_lt {α β : Type} [SizeOf α] [SizeOf β] {l : List (α × β)} {p : α × β} (h : p ∈ l) :
    sizeOf p.1 < sizeOf l ∧ sizeOf p.2 < sizeOf l := by
  have hlt := List.sizeOf_lt_of_mem h
  cases p
  simp only [Prod.mk.sizeOf_spec] at hlt
  exact ⟨by dsimp only; omega, by dsimp only; omega⟩

theorem sizeOf_nodeProperties (n : Node Stored) : sizeOf n.properties < sizeOf n := by
  cases n
  simp only [Node.mk.sizeOf_spec]
  omega

theorem sizeOf_relProperties (r : Rel Stored) : sizeOf r.properties < sizeOf r := by
  cases r
  simp only [Rel.mk.sizeOf_spec]
  omega

theorem sizeOf_path (p : Path Stored) : sizeOf p.nodes < sizeOf p ∧ sizeOf p.rels < sizeOf p := by
  cases p
  simp only [Path.mk.sizeOf_spec]
  constructor <;> omega

theorem Part.sizeOf_lt {v w : Stored} (h : Part v w) : sizeOf v < sizeOf w := by
  cases h with
  | item hv =>
    have hlt := List.sizeOf_lt_of_mem hv
    simp only [list.sizeOf_spec]
    omega
  | field hf =>
    have hlt := (sizeOf_snd_lt hf).2
    simp only [struct.sizeOf_spec]
    omega
  | key he =>
    have hlt := (sizeOf_snd_lt he).1
    simp only [map.sizeOf_spec]
    omega
  | value he =>
    have hlt := (sizeOf_snd_lt he).2
    simp only [map.sizeOf_spec]
    omega
  | member =>
    simp only [union.sizeOf_spec]
    omega
  | @nodeProperty n _ hf =>
    have hlt := (sizeOf_snd_lt hf).2
    have hn := sizeOf_nodeProperties n
    simp only [node.sizeOf_spec]
    omega
  | @relProperty r _ hf =>
    have hlt := (sizeOf_snd_lt hf).2
    have hr := sizeOf_relProperties r
    simp only [rel.sizeOf_spec]
    omega
  | @pathNode p n _ hn hf =>
    have hlt := (sizeOf_snd_lt hf).2
    have hnode := List.sizeOf_lt_of_mem hn
    have hproperties := sizeOf_nodeProperties n
    have hpath := (sizeOf_path p).1
    simp only [path.sizeOf_spec]
    omega
  | @pathRel p r _ hr hf =>
    have hlt := (sizeOf_snd_lt hf).2
    have hrel := List.sizeOf_lt_of_mem hr
    have hproperties := sizeOf_relProperties r
    have hpath := (sizeOf_path p).2
    simp only [path.sizeOf_spec]
    omega

/-! ## Depth and leaves -/

/-- The largest of the numbers, or 0. -/
def largest (ns : List Nat) : Nat := ns.foldr max 0

theorem largest_le_iff {ns : List Nat} {n : Nat} : largest ns ≤ n ↔ ∀ k ∈ ns, k ≤ n := by
  induction ns with
  | nil => simp [largest]
  | cons k ns ih =>
    rw [List.forall_mem_cons, ← ih]
    exact Nat.max_le

theorem le_largest {α : Type} {d : α → Nat} {as : List α} {a : α} (h : a ∈ as) : d a ≤ largest (as.map d) :=
  largest_le_iff.1 (Nat.le_refl _) _ (List.mem_map.2 ⟨a, h, rfl⟩)

/-- Every value with parts takes one level; the lists of a path take one of their own. -/
def depth : Stored → Nat
  | null _ | payload _ => 0
  | list _ items => largest (items.map depth) + 1
  | struct _ fields => largest (fields.map fun f => depth f.2) + 1
  | map _ entries => largest (entries.map fun e => max (depth e.1) (depth e.2)) + 1
  | union _ _ member => depth member + 1
  | node n => largest (n.properties.map fun f => depth f.2) + 1
  | rel r => largest (r.properties.map fun f => depth f.2) + 1
  | path p =>
    max (largest (p.nodes.map fun n => largest (n.properties.map fun f => depth f.2) + 1))
      (largest (p.rels.map fun r => largest (r.properties.map fun f => depth f.2) + 1)) + 2
termination_by v => sizeOf v
decreasing_by all_goals exact Part.sizeOf_lt (by first | exact .pathRel ‹_› ‹_› | (constructor <;> assumption))

/-- A part is not as deep as the value. -/
theorem Part.depth_lt {v w : Stored} (h : Part v w) : v.depth < w.depth := by
  cases h with
  | item hv =>
    rw [depth]
    exact Nat.lt_succ_of_le (le_largest hv)
  | field hf | nodeProperty hf | relProperty hf =>
    rw [depth]
    exact Nat.lt_succ_of_le (le_largest (d := fun f => f.2.depth) hf)
  | key he =>
    have hle := le_largest (d := fun e => max e.1.depth e.2.depth) he
    rw [depth]
    omega
  | value he =>
    have hle := le_largest (d := fun e => max e.1.depth e.2.depth) he
    rw [depth]
    omega
  | member =>
    rw [depth]
    exact Nat.lt_succ_self _
  | pathNode hn hf =>
    have hlevel := le_largest (d := fun n => largest (n.properties.map fun f => f.2.depth) + 1) hn
    have hle := le_largest (d := fun f => f.2.depth) hf
    rw [depth]
    omega
  | pathRel hr hf =>
    have hlevel := le_largest (d := fun r => largest (r.properties.map fun f => f.2.depth) + 1) hr
    have hle := le_largest (d := fun f => f.2.depth) hf
    rw [depth]
    omega

/-- The payloads of a value, in reading order. -/
def leaves : Stored → List Payload
  | null _ => []
  | payload p => [p]
  | list _ items => items.flatMap leaves
  | struct _ fields => fields.flatMap fun f => leaves f.2
  | map _ entries => entries.flatMap fun e => leaves e.1 ++ leaves e.2
  | union _ _ member => leaves member
  | node n => n.properties.flatMap fun f => leaves f.2
  | rel r => r.properties.flatMap fun f => leaves f.2
  | path p =>
    (p.nodes.flatMap fun n => n.properties.flatMap fun f => leaves f.2) ++
      p.rels.flatMap fun r => r.properties.flatMap fun f => leaves f.2
termination_by v => sizeOf v
decreasing_by all_goals exact Part.sizeOf_lt (by first | exact .pathRel ‹_› ‹_› | (constructor <;> assumption))

/-! ## The host value -/

/-- A payload as a scalar.  Decoding refuses a payload that cannot be converted; it counts as null here. -/
def hostOfPayload (blobLength : BlobLength) (p : Payload) : HostValue :=
  match p.toScalar blobLength with
  | .ok s => .scalar s
  | .error _ => .null

/-- The host value that a stored value stands for: a union is its member, everything else keeps its parts in order. -/
def hostOf (b : BlobLength) : Stored → HostValue
  | null _ => .null
  | payload p => hostOfPayload b p
  | list _ items => .list (items.map (hostOf b))
  | struct _ fields => .struct (fields.map fun f => (f.1, hostOf b f.2))
  | map _ entries => .map (entries.map fun e => (hostOf b e.1, hostOf b e.2))
  | union _ _ member => hostOf b member
  | node n => .node ⟨n.id, n.label, n.properties.map fun f => (f.1, hostOf b f.2)⟩
  | rel r => .rel ⟨r.id, r.source, r.target, r.label, r.properties.map fun f => (f.1, hostOf b f.2)⟩
  | path p =>
    .path ⟨p.nodes.map fun n => ⟨n.id, n.label, n.properties.map fun f => (f.1, hostOf b f.2)⟩,
      p.rels.map fun r => ⟨r.id, r.source, r.target, r.label, r.properties.map fun f => (f.1, hostOf b f.2)⟩⟩
termination_by v => sizeOf v
decreasing_by all_goals exact Part.sizeOf_lt (by first | exact .pathRel ‹_› ‹_› | (constructor <;> assumption))

/-! ## Faults -/

/-- Why a payload cannot be converted, if it cannot. -/
def payloadFaults (b : BlobLength) (p : Payload) : List ConvertError :=
  match p.toScalar b with
  | .ok _ => []
  | .error e => [e]

/-- The faults of something that takes a level. -/
def nestedFaults (c : Config) (faults : Nat → List ConvertError) (left : Nat) : List ConvertError :=
  match c.descend left with
  | .ok inner => faults inner
  | .error e => [e]

/-- The faults of parts in a row, each located at its place. -/
def faultsAt (places : List (Place × List ConvertError)) : List ConvertError :=
  places.flatMap fun p => p.2.map (ConvertError.within p.1)

/-- The faults of parts that are found by their index. -/
def faultsByIndex (place : Nat → Place) (parts : List (List ConvertError)) : List ConvertError :=
  faultsAt (parts.mapIdx fun i faults => (place i, faults))

/-- What keeps a value from being decoded within the levels that are left, in reading order. -/
def faults (c : Config) : Stored → (left : Nat) → List ConvertError
  | null _, _ => []
  | payload p, _ => payloadFaults c.blobLength p
  | list _ items, left => nestedFaults c (fun inner => faultsByIndex .element (items.map fun v => faults c v inner)) left
  | struct _ fields, left =>
    nestedFaults c (fun inner => faultsAt (fields.map fun f => (.field f.1, faults c f.2 inner))) left
  | map _ entries, left =>
    nestedFaults c (fun inner =>
      faultsByIndex .mapEntry (entries.map fun e => faults c e.1 inner ++ faults c e.2 inner)) left
  | union _ _ member, left => nestedFaults c (fun inner => faults c member inner) left
  | node n, left =>
    nestedFaults c (fun inner => faultsAt (n.properties.map fun f => (.property f.1, faults c f.2 inner))) left
  | rel r, left =>
    nestedFaults c (fun inner => faultsAt (r.properties.map fun f => (.property f.1, faults c f.2 inner))) left
  | path p, left =>
    nestedFaults c (fun outer =>
      nestedFaults c (fun left => faultsByIndex .element (p.nodes.map fun n =>
        nestedFaults c (fun inner => faultsAt (n.properties.map fun f => (.property f.1, faults c f.2 inner))) left)) outer ++
      nestedFaults c (fun left => faultsByIndex .element (p.rels.map fun r =>
        nestedFaults c (fun inner => faultsAt (r.properties.map fun f => (.property f.1, faults c f.2 inner))) left)) outer)
      left
termination_by v => sizeOf v
decreasing_by all_goals exact Part.sizeOf_lt (by first | exact .pathRel ‹_› ‹_› | (constructor <;> assumption))

/-! With a level left, the faults of a collection are those of its parts. -/

theorem faults_list (c : Config) (t : LogicalType) (items : List Stored) (inner : Nat) :
    (list t items).faults c (inner + 1) = faultsByIndex .element (items.map fun v => v.faults c inner) := by
  rw [faults]
  rfl

theorem faults_struct (c : Config) (t : LogicalType) (fields : List (String × Stored)) (inner : Nat) :
    (struct t fields).faults c (inner + 1) = faultsAt (fields.map fun f => (.field f.1, f.2.faults c inner)) := by
  rw [faults]
  rfl

theorem faults_map (c : Config) (t : LogicalType) (entries : List (Stored × Stored)) (inner : Nat) :
    (map t entries).faults c (inner + 1) =
      faultsByIndex .mapEntry (entries.map fun e => e.1.faults c inner ++ e.2.faults c inner) := by
  rw [faults]
  rfl

/-! ## Values without faults -/

theorem payloadFaults_eq_nil {b : BlobLength} {p : Payload} : payloadFaults b p = [] ↔ ∃ s, p.toScalar b = .ok s := by
  unfold payloadFaults
  cases p.toScalar b <;> simp

theorem nestedFaults_eq_nil {c : Config} {faults : Nat → List ConvertError} {left : Nat} :
    nestedFaults c faults left = [] ↔ ∃ inner, left = inner + 1 ∧ faults inner = [] := by
  cases left <;> simp [nestedFaults, Config.descend]

theorem faultsAt_eq_nil {places : List (Place × List ConvertError)} :
    faultsAt places = [] ↔ ∀ p ∈ places, p.2 = [] := by
  simp [faultsAt, List.flatMap_eq_nil_iff]

theorem faultsByIndex_eq_nil {place : Nat → Place} {parts : List (List ConvertError)} :
    faultsByIndex place parts = [] ↔ ∀ faults ∈ parts, faults = [] := by
  simp only [faultsByIndex, faultsAt_eq_nil, List.mem_mapIdx]
  constructor
  · intro h faults hf
    obtain ⟨i, hi, rfl⟩ := List.getElem_of_mem hf
    exact h _ ⟨i, hi, rfl⟩
  · rintro h p ⟨i, hi, rfl⟩
    exact h _ (List.getElem_mem hi)

/-- Nested faults of parts in a row, by the deepest of them. -/
theorem fits_iff {α : Type} {items : List α} {d : α → Nat} {ls : α → List Payload} {C : Payload → Prop} {left : Nat} :
    (∃ inner, left = inner + 1 ∧ ∀ a ∈ items, d a ≤ inner ∧ ∀ p ∈ ls a, C p) ↔
      largest (items.map d) + 1 ≤ left ∧ ∀ p ∈ items.flatMap ls, C p := by
  constructor
  · rintro ⟨inner, rfl, h⟩
    refine ⟨Nat.succ_le_succ (largest_le_iff.2 ?_), fun p hp => ?_⟩
    · rw [List.forall_mem_map]
      exact fun a ha => (h a ha).1
    · obtain ⟨a, ha, hp⟩ := List.mem_flatMap.1 hp
      exact (h a ha).2 p hp
  · rintro ⟨hdepth, hleaves⟩
    cases left with
    | zero => omega
    | succ inner =>
      have hle := largest_le_iff.1 (Nat.le_of_succ_le_succ hdepth)
      rw [List.forall_mem_map] at hle
      exact ⟨inner, rfl, fun a ha => ⟨hle a ha, fun p hp => hleaves p (List.mem_flatMap.2 ⟨a, ha, hp⟩)⟩⟩

theorem level_iff {n left : Nat} {Q : Prop} :
    (∃ inner, left = inner + 1 ∧ n ≤ inner ∧ Q) ↔ n + 1 ≤ left ∧ Q := by
  constructor
  · rintro ⟨inner, rfl, hn, hQ⟩
    exact ⟨Nat.succ_le_succ hn, hQ⟩
  · rintro ⟨hn, hQ⟩
    exact ⟨left - 1, by omega, by omega, hQ⟩

theorem two_levels_iff {m n left : Nat} {Q R : Prop} :
    (∃ inner, left = inner + 1 ∧ (m + 1 ≤ inner ∧ Q) ∧ n + 1 ≤ inner ∧ R) ↔ max m n + 2 ≤ left ∧ Q ∧ R := by
  constructor
  · rintro ⟨inner, rfl, ⟨hm, hQ⟩, hn, hR⟩
    exact ⟨by omega, hQ, hR⟩
  · rintro ⟨hmn, hQ, hR⟩
    exact ⟨left - 1, by omega, ⟨by omega, hQ⟩, by omega, hR⟩

/-- Whatever holds of a value if it holds of its parts holds of all values. -/
theorem induction {P : Stored → Prop} (h : ∀ w, (∀ v, Part v w → P v) → P w) (w : Stored) : P w :=
  h w fun v _hv => induction h v
termination_by sizeOf w
decreasing_by exact _hv.sizeOf_lt

/-- **A value has no faults exactly when it is not too deep and its leaves can be converted.** -/
theorem faults_eq_nil_iff (c : Config) (v : Stored) : ∀ left, v.faults c left = [] ↔
    v.depth ≤ left ∧ ∀ p ∈ v.leaves, ∃ s, p.toScalar c.blobLength = .ok s := by
  induction v using induction with
  | h v ih =>
  intro left
  cases v with
  | null t => simp [faults, depth, leaves]
  | payload p => simp [faults, depth, leaves, payloadFaults_eq_nil]
  | list t items =>
    rw [faults, depth, leaves, nestedFaults_eq_nil, ← fits_iff]
    simp only [faultsByIndex_eq_nil, List.forall_mem_map]
    exact exists_congr fun inner => and_congr_right fun _ => forall₂_congr fun v hv => ih v (.item hv) inner
  | struct t fields =>
    rw [faults, depth, leaves, nestedFaults_eq_nil, ← fits_iff]
    simp only [faultsAt_eq_nil, List.forall_mem_map]
    exact exists_congr fun inner => and_congr_right fun _ => forall₂_congr fun f hf => ih f.2 (.field hf) inner
  | map t entries =>
    rw [faults, depth, leaves, nestedFaults_eq_nil, ← fits_iff]
    simp only [faultsByIndex_eq_nil, List.forall_mem_map, List.append_eq_nil_iff]
    refine exists_congr fun inner => and_congr_right fun _ => forall₂_congr fun e he => ?_
    rw [ih e.1 (.key he) inner, ih e.2 (.value he) inner, List.forall_mem_append, Nat.max_le]
    exact and_and_and_comm
  | union t name member =>
    rw [faults, depth, leaves, nestedFaults_eq_nil]
    simp only [ih member .member]
    exact level_iff
  | node n =>
    rw [faults, depth, leaves, nestedFaults_eq_nil, ← fits_iff]
    simp only [faultsAt_eq_nil, List.forall_mem_map]
    exact exists_congr fun inner => and_congr_right fun _ => forall₂_congr fun f hf => ih f.2 (.nodeProperty hf) inner
  | rel r =>
    rw [faults, depth, leaves, nestedFaults_eq_nil, ← fits_iff]
    simp only [faultsAt_eq_nil, List.forall_mem_map]
    exact exists_congr fun inner => and_congr_right fun _ => forall₂_congr fun f hf => ih f.2 (.relProperty hf) inner
  | path p =>
    have hnodes : ∀ l, (∀ n ∈ p.nodes, ∃ inner, l = inner + 1 ∧ ∀ f ∈ n.properties, faults c f.2 inner = []) ↔
        ∀ n ∈ p.nodes, largest (n.properties.map fun f => depth f.2) + 1 ≤ l ∧
          ∀ q ∈ n.properties.flatMap fun f => leaves f.2, ∃ s, q.toScalar c.blobLength = .ok s := by
      intro l
      refine forall₂_congr fun n hn => ?_
      rw [← fits_iff]
      exact exists_congr fun inner => and_congr_right fun _ => forall₂_congr fun f hf => ih f.2 (.pathNode hn hf) inner
    have hrels : ∀ l, (∀ r ∈ p.rels, ∃ inner, l = inner + 1 ∧ ∀ f ∈ r.properties, faults c f.2 inner = []) ↔
        ∀ r ∈ p.rels, largest (r.properties.map fun f => depth f.2) + 1 ≤ l ∧
          ∀ q ∈ r.properties.flatMap fun f => leaves f.2, ∃ s, q.toScalar c.blobLength = .ok s := by
      intro l
      refine forall₂_congr fun r hr => ?_
      rw [← fits_iff]
      exact exists_congr fun inner => and_congr_right fun _ => forall₂_congr fun f hf => ih f.2 (.pathRel hr hf) inner
    rw [faults, depth, leaves]
    simp only [nestedFaults_eq_nil, List.append_eq_nil_iff, faultsByIndex_eq_nil, faultsAt_eq_nil, List.forall_mem_map,
      hnodes, hrels, fits_iff, List.forall_mem_append]
    exact two_levels_iff

/-! ## Kinds of faults -/

theorem kind_of_mem_nestedFaults {c : Config} {faults : Nat → List ConvertError} {left : Nat} {e : ConvertError}
    (h : ∀ inner, ∀ e ∈ faults inner, e.kind = .conversionFailed) (he : e ∈ nestedFaults c faults left) :
    e.kind = .conversionFailed := by
  cases left with
  | zero =>
    rw [List.mem_singleton.1 he]
    rfl
  | succ inner => exact h inner e he

theorem kind_of_mem_faultsAt {places : List (Place × List ConvertError)} {e : ConvertError}
    (h : ∀ p ∈ places, ∀ e ∈ p.2, e.kind = .conversionFailed) (he : e ∈ faultsAt places) :
    e.kind = .conversionFailed := by
  obtain ⟨p, hp, he⟩ := List.mem_flatMap.1 he
  obtain ⟨e', he', rfl⟩ := List.mem_map.1 he
  rw [ConvertError.kind_within]
  exact h p hp e' he'

theorem kind_of_mem_faultsByIndex {place : Nat → Place} {parts : List (List ConvertError)} {e : ConvertError}
    (h : ∀ faults ∈ parts, ∀ e ∈ faults, e.kind = .conversionFailed) (he : e ∈ faultsByIndex place parts) :
    e.kind = .conversionFailed := by
  refine kind_of_mem_faultsAt (fun p hp => ?_) he
  obtain ⟨i, hi, rfl⟩ := List.mem_mapIdx.1 hp
  exact h _ (List.getElem_mem hi)

/-- **Every fault is a conversion that failed.** -/
theorem kind_of_mem_faults (c : Config) (v : Stored) : ∀ left, ∀ e ∈ v.faults c left, e.kind = .conversionFailed := by
  induction v using induction with
  | h v ih =>
  intro left e he
  cases v with
  | null t =>
    rw [faults] at he
    cases he
  | payload p =>
    rw [faults, payloadFaults] at he
    split at he
    · cases he
    · rename_i h
      rw [List.mem_singleton.1 he]
      exact Payload.kind_of_toScalar h
  | list t items =>
    rw [faults] at he
    refine kind_of_mem_nestedFaults (fun inner e he => kind_of_mem_faultsByIndex ?_ he) he
    rw [List.forall_mem_map]
    exact fun v hv => ih v (.item hv) inner
  | struct t fields =>
    rw [faults] at he
    refine kind_of_mem_nestedFaults (fun inner e he => kind_of_mem_faultsAt ?_ he) he
    rw [List.forall_mem_map]
    exact fun f hf => ih f.2 (.field hf) inner
  | map t entries =>
    rw [faults] at he
    refine kind_of_mem_nestedFaults (fun inner e he => kind_of_mem_faultsByIndex ?_ he) he
    rw [List.forall_mem_map]
    intro entry hentry e he
    exact (List.mem_append.1 he).elim (ih _ (.key hentry) inner e) (ih _ (.value hentry) inner e)
  | union t name member =>
    rw [faults] at he
    exact kind_of_mem_nestedFaults (fun inner => ih member .member inner) he
  | node n =>
    rw [faults] at he
    refine kind_of_mem_nestedFaults (fun inner e he => kind_of_mem_faultsAt ?_ he) he
    rw [List.forall_mem_map]
    exact fun f hf => ih f.2 (.nodeProperty hf) inner
  | rel r =>
    rw [faults] at he
    refine kind_of_mem_nestedFaults (fun inner e he => kind_of_mem_faultsAt ?_ he) he
    rw [List.forall_mem_map]
    exact fun f hf => ih f.2 (.relProperty hf) inner
  | path p =>
    rw [faults] at he
    refine kind_of_mem_nestedFaults (fun outer e he => ?_) he
    rcases List.mem_append.1 he with he | he
    · refine kind_of_mem_nestedFaults (fun l e he => kind_of_mem_faultsByIndex ?_ he) he
      rw [List.forall_mem_map]
      refine fun n hn e he => kind_of_mem_nestedFaults (fun inner e he => kind_of_mem_faultsAt ?_ he) he
      rw [List.forall_mem_map]
      exact fun f hf => ih f.2 (.pathNode hn hf) inner
    · refine kind_of_mem_nestedFaults (fun l e he => kind_of_mem_faultsByIndex ?_ he) he
      rw [List.forall_mem_map]
      refine fun r hr e he => kind_of_mem_nestedFaults (fun inner e he => kind_of_mem_faultsAt ?_ he) he
      rw [List.forall_mem_map]
      exact fun f hf => ih f.2 (.pathRel hr hf) inner

end Stored
end ValueBridge
