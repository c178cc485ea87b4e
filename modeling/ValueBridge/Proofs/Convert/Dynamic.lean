import ValueBridge.Proofs.Convert.Routes
import ValueBridge.Proofs.Convert.Walk
import ValueBridge.Proofs.Stored.WellFormed
/-!
# Decoding by tag refines a pure function

Whatever levels are left, the dynamic decoder reads a legible value as `hostOf` says or meets the first of its `faults`
(`reads_valueAt`), by induction on the value.  A well-formed value is legible, and has no faults exactly when it is not
too deep and all its leaves are convertible, so that decoding it is a function of the value alone (`value_refines`).
-/
namespace ValueBridge.Read

open ValueBridge.Convert Memory
open Stored (largest nestedFaults faultsAt faultsByIndex)

variable {β : Type}

theorem reads_leaf (c : Config) (left : Nat) (p : Payload) :
    Reads (routed c left p.type.tag) (.payload p) 0 (Stored.payloadFaults c.blobLength p)
      (Stored.hostOfPayload c.blobLength p) := by
  have hrouted : ∀ h, (routed c left p.type.tag h : Convert Memory HostValue) = .scalar <$> scalarOf c h := by
    intro h
    rw [Payload.tag_type]
    cases p with
    | int w n => cases w <;> rfl
    | temporal t => cases t <;> rfl
    | _ => rfl
  intro m h hm hv hroom
  have hscalar : scalarOf c h m = Convert.ofExcept (p.toScalar c.blobLength) m := by
    unfold scalarOf
    rw [bind_of_ok (payloadOf_of_find hv)]
  refine ⟨m, .refl hm, ?_⟩
  rw [hrouted]
  simp only [Functor.map, EStateM.map, hscalar, Stored.payloadFaults, Stored.hostOfPayload]
  cases p.toScalar c.blobLength <;> rfl

/-- The dynamic decoder is right about the value, whatever levels are left. -/
def Right (c : Config) (v : Stored) : Prop :=
  ∀ left, Reads (valueAt c left) v (2 * min left v.depth) (v.faults c left) (v.hostOf c.blobLength)

theorem Right.part {c : Config} {items : List β} {d : β → Nat} {w : β} {v : Stored} (hv : Right c v) (hw : w ∈ items)
    (hd : v.depth ≤ d w) (inner : Nat) :
    Reads (valueAt c inner) v (2 * min inner (largest (items.map d))) (v.faults c inner) (v.hostOf c.blobLength) :=
  ((hv inner).mono (by omega)).largest hw

theorem reads_nodeAt {c : Config} {n : Node Stored} (h : ∀ f ∈ n.properties, Right c f.2) (left : Nat) :
    Reads (nodeAt c left) (.node n) (2 * min left (largest (n.properties.map fun f => f.2.depth) + 1))
      (nestedFaults c (fun inner => faultsAt (n.properties.map fun f => (.property f.1, f.2.faults c inner))) left)
      ⟨n.id, n.label, n.properties.map fun f => (f.1, f.2.hostOf c.blobLength)⟩ :=
  .nested fun inner hinner => (Reads.node fun f hf => (h f hf).part hf (Nat.le_refl _) inner).mono (by omega)

theorem reads_relAt {c : Config} {r : Rel Stored} (h : ∀ f ∈ r.properties, Right c f.2) (left : Nat) :
    Reads (relAt c left) (.rel r) (2 * min left (largest (r.properties.map fun f => f.2.depth) + 1))
      (nestedFaults c (fun inner => faultsAt (r.properties.map fun f => (.property f.1, f.2.faults c inner))) left)
      ⟨r.id, r.source, r.target, r.label, r.properties.map fun f => (f.1, f.2.hostOf c.blobLength)⟩ :=
  .nested fun inner hinner => (Reads.rel fun f hf => (h f hf).part hf (Nat.le_refl _) inner).mono (by omega)

/-- **The dynamic decoder reads what a legible value stands for**, or meets the first of its faults. -/
theorem reads_valueAt (c : Config) {v : Stored} (hv : v.Legible) : Right c v := by
  induction hv with
  | null t =>
    intro left m h hm hv hroom
    rw [Stored.faults, Stored.hostOf, valueAt_eq]
    exact ⟨m, .refl hm, by rw [unlessNull_eq, hv]; rfl⟩
  | payload p =>
    intro left
    rw [Stored.faults, Stored.hostOf, valueAt_eq]
    exact (Reads.unlessNull rfl (reads_leaf c left p)).mono (Nat.zero_le _)
  | @list t items ht hsize _ ih =>
    intro left
    rw [Stored.faults, Stored.hostOf, Stored.depth, valueAt_eq]
    have hread := Reads.nestedElements (c := c) (g := id) hsize ih left
    rw [List.map_id] at hread
    refine .unlessNull rfl ?_
    change Reads (routed c left t.tag) _ _ _ _
    simp only [List.mem_cons, List.not_mem_nil, or_false] at ht
    rcases ht with ht | ht <;> (rw [ht]; exact hread.map HostValue.list)
  | @struct t fields ht _ ih =>
    intro left
    rw [Stored.faults, Stored.hostOf, Stored.depth, valueAt_eq]
    refine .unlessNull rfl ?_
    change Reads (routed c left t.tag) _ _ _ _
    rw [ht]
    refine (Reads.nested fun inner hinner => ?_).map HostValue.struct
    exact (Reads.fields fun f hf => (ih f hf).part hf (Nat.le_refl _) inner).mono (by omega)
  | @map t entries ht _ _ ihk ihv =>
    intro left
    rw [Stored.faults, Stored.hostOf, Stored.depth, valueAt_eq]
    refine .unlessNull rfl ?_
    change Reads (routed c left t.tag) _ _ _ _
    rw [ht]
    refine (Reads.nested fun inner hinner => ?_).map HostValue.map
    have hentries := Reads.entries (t := t) (fun e he => (ihk e he).part he (Nat.le_max_left _ e.2.depth) inner)
      (fun e he => (ihv e he).part he (Nat.le_max_right e.1.depth _) inner)
    exact hentries.mono (by omega)
  | @union t name v ht _ ih =>
    intro left
    rw [Stored.faults, Stored.hostOf, Stored.depth, valueAt_eq]
    refine .unlessNull rfl ?_
    change Reads (routed c left t.tag) _ _ _ _
    rw [ht]
    refine .nested fun inner hinner m h hm hv hroom => ?_
    exact (ih inner).held (acquires_item (i := .field) hm hv rfl (by omega)) (by omega)
  | @node n _ ih =>
    intro left
    rw [Stored.faults, Stored.hostOf, Stored.depth, valueAt_eq]
    exact .unlessNull rfl ((reads_nodeAt ih left).map HostValue.node)
  | @rel r _ ih =>
    intro left
    rw [Stored.faults, Stored.hostOf, Stored.depth, valueAt_eq]
    exact .unlessNull rfl ((reads_relAt ih left).map HostValue.rel)
  | @path p _ _ ihn ihr =>
    intro left
    rw [Stored.faults, Stored.hostOf, Stored.depth, valueAt_eq]
    refine .unlessNull rfl ?_
    change Reads (routed c left .path) _ _ _ _
    refine (Reads.nested fun outer houter => ?_).map HostValue.path
    have hnodes := Reads.nestedElements (c := c) (t := .list (.plain .node)) (g := .node) (fun _ h => by cases h)
      (fun n hn l => (reads_nodeAt (ihn n hn) l).tagged rfl (List.mem_singleton.2 rfl)) outer
    have hrels := Reads.nestedElements (c := c) (t := .list (.plain .rel)) (g := .rel) (fun _ h => by cases h)
      (fun r hr l => (reads_relAt (ihr r hr) l).tagged rfl (List.mem_singleton.2 rfl)) outer
    exact (hnodes.path hrels).mono (by omega)

/-- **Decoding a well-formed value is a function of the value.**  On an engine with enough room it gives the host value
that the value stands for exactly when the value is not too deep and its leaves are convertible; otherwise it fails with
the first of the faults, as a conversion.  Either way the live handles are those from before. -/
theorem value_refines (c : Config) {m : Memory} {h : Handle} {v : Stored} (hm : m.Reachable) (hv : m.find? h = .ok v)
    (hwf : v.WellFormed) (hroom : m.live + 2 * min c.maxDepth v.depth ≤ m.limit) :
    ((∃ m', value c h m = .ok (v.hostOf c.blobLength) m' ∧ m'.entries = m.entries) ↔
      v.depth ≤ c.maxDepth ∧ ∀ p ∈ v.leaves, p.Convertible) ∧
    (¬(v.depth ≤ c.maxDepth ∧ ∀ p ∈ v.leaves, p.Convertible) →
      ∃ e m', value c h m = .error e m' ∧ m'.entries = m.entries ∧
        (v.faults c c.maxDepth).head? = some e ∧ e.kind = .conversionFailed) := by
  have hfaults := hwf.faults_eq_nil_iff c c.maxDepth
  have hkinds := Stored.kind_of_mem_faults c v c.maxDepth
  obtain ⟨m', hadds, hread⟩ := reads_valueAt c hwf.legible c.maxDepth m h hm.issued hv hroom
  rw [← hfaults, value]
  generalize v.faults c c.maxDepth = faults at hread hkinds
  cases faults with
  | nil => exact ⟨iff_of_true ⟨m', hread, hadds.entries_nil⟩ rfl, fun hne => absurd rfl hne⟩
  | cons e rest =>
    refine ⟨iff_of_false ?_ (List.cons_ne_nil e rest), fun _ =>
      ⟨e, m', hread, hadds.entries_nil, rfl, hkinds e List.mem_cons_self⟩⟩
    rintro ⟨m'', hok, -⟩
    rw [hread] at hok
    cases hok

/-- A list of a list of true. -/
def nestedTrue : Stored :=
  .list (.list (.list (.plain .bool))) [.list (.list (.plain .bool)) [.payload (.bool true)]]

theorem wellFormed_nestedTrue : nestedTrue.WellFormed := by
  refine .list (.inl rfl) (List.forall_mem_singleton.2 rfl) (List.forall_mem_singleton.2 ?_)
  exact .list (.inl rfl) (List.forall_mem_singleton.2 rfl) (List.forall_mem_singleton.2 (.payload rfl))

/-- An engine with the list of a list of true, and room for two more. -/
def withNestedTrue : Memory where
  entries := [(⟨1⟩, nestedTrue)]
  next := 2
  limit := 3

/-- The list of a list of true is too deep for one level. -/
theorem value_refines_nestedTrue : ∃ e m', value { maxDepth := 1 } ⟨1⟩ withNestedTrue = .error e m' ∧
    m'.entries = withNestedTrue.entries ∧ (nestedTrue.faults { maxDepth := 1 } 1).head? = some e ∧
    e.kind = .conversionFailed := by
  have hdepth : nestedTrue.depth = 2 := by simp [nestedTrue, Stored.depth, largest]
  have hroom : withNestedTrue.live + 2 * min 1 nestedTrue.depth ≤ withNestedTrue.limit := by
    rw [hdepth]
    decide
  have hm : withNestedTrue.Reachable := .insert (v := nestedTrue) (h := ⟨1⟩) (.empty 3) rfl
  refine (value_refines { maxDepth := 1 } hm rfl wellFormed_nestedTrue hroom).2 ?_
  rw [hdepth]
  exact fun h => absurd h.1 (by decide)

end ValueBridge.Read
