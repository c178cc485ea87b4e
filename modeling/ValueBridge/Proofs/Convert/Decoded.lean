import ValueBridge.Proofs.Convert.Building
import ValueBridge.Proofs.Convert.Collected
import ValueBridge.Proofs.Convert.Dynamic
import Mathlib.Algebra.Order.BigOperators.Group.List
import Mathlib.Algebra.Order.Group.Nat
/-!
# What sources are decoded as

Whatever the draft of a source comes to can be read, and is nested no deeper than there are values in it
(`Source.legible_draft`).  So a source that can be encoded at all is encoded on every engine with room, and decoded in
one way, as a host value or with an error (`Source.decodesTo_of_draft`).
-/
namespace ValueBridge

open ValueBridge.Convert Memory

/-! ## Legible drafts -/

namespace Draft

variable {c : Config} {left : Nat}

/-- The value is legible, and nested at most `n` deep, whatever levels are left. -/
abbrev LegibleWithin (_left : Nat) (v : Stored) (n : Nat) : Prop := v.Legible ∧ v.depth ≤ n

/-- The draft comes to nothing but legible values, and these are nested no deeper than it builds values. -/
def Legible (d : Draft) : Prop := d.Meets LegibleWithin (d.parts + 1)

theorem parts_lt_total {d : Draft} {ds : List Draft} (h : d ∈ ds) : d.parts + 1 ≤ total ds :=
  List.le_sum_of_mem (List.mem_map.2 ⟨d, h, rfl⟩)

theorem restatable_legible (left : Nat) : Restatable (LegibleWithin left) := by
  rintro v v' n - hrestated
  obtain ⟨_, p, -, -, rfl⟩ := of_restated hrestated
  exact ⟨.payload p, by rw [Stored.depth]; exact Nat.zero_le n⟩

theorem legible_null : null.Legible := by
  intro left v hv
  cases hv
  exact ⟨.null .any, by rw [Stored.depth]; exact Nat.zero_le _⟩

theorem legible_ofError (e : ConvertError) : (ofError e).Legible := fun left v hv => by cases hv

theorem legible_ofPayload (p : Payload) : (ofPayload p).Legible := by
  intro left v hv
  obtain rfl := eq_of_payload hv
  exact ⟨.payload p, by rw [Stored.depth]; exact Nat.zero_le _⟩

theorem legible_ofExcept (r : Except ConvertError Payload) : (ofExcept r).Legible := by
  cases r with
  | ok p => exact legible_ofPayload p
  | error e => exact legible_ofError e

theorem legible_list {ds : List Draft} (h : ∀ d ∈ ds, d.Legible) : (list c ds).Legible := by
  intro left v hv
  have hparts : List.Forall₂ (fun d n => d.Meets LegibleWithin n) ds (ds.map (·.parts + 1)) :=
    List.forall₂_map_right_iff.2 (List.forall₂_same.2 h)
  obtain ⟨_, t, vs, -, rfl, hvs⟩ := of_list restatable_legible hparts hv
  obtain ⟨ps, rfl, hps, hall⟩ := exists_pairs hvs
  refine ⟨.list List.mem_cons_self (fun _ ht => by cases ht) (List.forall_mem_map.2 fun p hp => (hall p hp).1), ?_⟩
  rw [Stored.depth]
  refine Nat.succ_le_succ (Stored.largest_le_iff.2 (List.forall_mem_map.2 (List.forall_mem_map.2 fun p hp => ?_)))
  obtain ⟨d, hd, hn⟩ := List.mem_map.1 (hps ▸ List.mem_map.2 ⟨p, hp, rfl⟩)
  exact Nat.le_trans (hall p hp).2 (hn ▸ parts_lt_total hd)

theorem legible_struct {fields : List (String × Draft)} (h : ∀ f ∈ fields, f.2.Legible) :
    (struct c fields).Legible := by
  intro left v hv
  have hparts : List.Forall₂ (fun f g => f.1 = g.1 ∧ f.2.Meets LegibleWithin g.2) fields
      (fields.map fun f => (f.1, f.2.parts + 1)) :=
    List.forall₂_map_right_iff.2 (List.forall₂_same.2 fun f hf => ⟨rfl, h f hf⟩)
  obtain ⟨_, ts, vs, -, rfl, hvs⟩ := of_struct hparts hv
  obtain ⟨ps, rfl, hps, hall⟩ := exists_pairs hvs
  refine ⟨.struct rfl (List.forall_mem_map.2 fun p hp => (hall p hp).2.1), ?_⟩
  rw [Stored.depth]
  refine Nat.succ_le_succ (Stored.largest_le_iff.2 (List.forall_mem_map.2 (List.forall_mem_map.2 fun p hp => ?_)))
  have hmem : p.2 ∈ fields.map fun f => (f.1, f.2.parts + 1) :=
    (Fields.sorted_perm _).mem_iff.1 (hps ▸ List.mem_map.2 ⟨p, hp, rfl⟩)
  obtain ⟨f, hf, hn⟩ := List.mem_map.1 hmem
  have hle := (hall p hp).2.2
  rw [← hn] at hle
  exact Nat.le_trans hle (parts_lt_total (List.mem_map.2 ⟨f, hf, rfl⟩))

theorem legible_map {entries : List (Draft × Draft)} (h : ∀ e ∈ entries, e.1.Legible ∧ e.2.Legible) :
    (map c entries).Legible := by
  intro left v hv
  have hparts : List.Forall₂ (fun e g => e.1.Meets LegibleWithin g.1 ∧ e.2.Meets LegibleWithin g.2) entries
      (entries.map fun e => (e.1.parts + 1, e.2.parts + 1)) :=
    List.forall₂_map_right_iff.2 (List.forall₂_same.2 h)
  obtain ⟨_, key, value, es, -, rfl, hes⟩ := of_map restatable_legible restatable_legible hparts hv
  obtain ⟨ps, rfl, hps, hall⟩ := exists_pairs hes
  refine ⟨.map rfl (List.forall_mem_map.2 fun p hp => (hall p hp).1.1)
    (List.forall_mem_map.2 fun p hp => (hall p hp).2.1), ?_⟩
  rw [Stored.depth]
  refine Nat.succ_le_succ (Stored.largest_le_iff.2 (List.forall_mem_map.2 (List.forall_mem_map.2 fun p hp => ?_)))
  obtain ⟨e, he, hn⟩ := List.mem_map.1 (hps ▸ List.mem_map.2 ⟨p, hp, rfl⟩)
  obtain ⟨⟨-, hkey⟩, -, hvalue⟩ := hall p hp
  rw [← hn] at hkey hvalue
  have hkeys := parts_lt_total (List.mem_map.2 ⟨e, he, rfl⟩ : e.1 ∈ entries.map Prod.fst)
  have hvalues := parts_lt_total (List.mem_map.2 ⟨e, he, rfl⟩ : e.2 ∈ entries.map Prod.snd)
  dsimp only [map] at hkey hvalue ⊢
  omega

end Draft

namespace HostValue

mutual
theorem legible_draft (c : Config) : ∀ v : HostValue, (v.draft c).Legible
  | null => Draft.legible_null
  | scalar _ => Draft.legible_ofExcept _
  | list items => Draft.legible_list (legible_items c items)
  | struct fields => Draft.legible_struct (legible_fields c fields)
  | map entries => Draft.legible_map (legible_entries c entries)
  | node _ | rel _ | path _ => Draft.legible_ofError _
theorem legible_items (c : Config) : ∀ vs : List HostValue, ∀ d ∈ draftItems c vs, d.Legible
  | [] => fun d hd => by cases hd
  | v :: vs => List.forall_mem_cons.2 ⟨legible_draft c v, legible_items c vs⟩
theorem legible_fields (c : Config) : ∀ fs : List (String × HostValue), ∀ f ∈ draftFields c fs, f.2.Legible
  | [] => fun f hf => by cases hf
  | (_, v) :: fs => List.forall_mem_cons.2 ⟨legible_draft c v, legible_fields c fs⟩
theorem legible_entries (c : Config) : ∀ es : List (HostValue × HostValue),
    ∀ e ∈ draftEntries c es, e.1.Legible ∧ e.2.Legible
  | [] => fun e he => by cases he
  | (k, v) :: es => List.forall_mem_cons.2 ⟨⟨legible_draft c k, legible_draft c v⟩, legible_entries c es⟩
end

end HostValue

namespace Json

mutual
theorem legible_draft (c : Config) : ∀ j : Json, (j.draft c).Legible
  | null => Draft.legible_null
  | bool _ | string _ => Draft.legible_ofPayload _
  | number _ => Draft.legible_ofExcept _
  | array items => Draft.legible_list (legible_items c items)
  | object fields => Draft.legible_struct (legible_fields c fields)
theorem legible_items (c : Config) : ∀ js : List Json, ∀ d ∈ draftItems c js, d.Legible
  | [] => fun d hd => by cases hd
  | j :: js => List.forall_mem_cons.2 ⟨legible_draft c j, legible_items c js⟩
theorem legible_fields (c : Config) : ∀ fs : List (String × Json), ∀ f ∈ draftFields c fs, f.2.Legible
  | [] => fun f hf => by cases hf
  | (_, j) :: fs => List.forall_mem_cons.2 ⟨legible_draft c j, legible_fields c fs⟩
end

end Json

namespace Source

mutual
/-- **What a source comes to is legible.** -/
theorem legible_draft (c : Config) : ∀ s : Source, (s.draft c).Legible
  | host v => v.legible_draft c
  | json j => j.legible_draft c
  | scalar _ => Draft.legible_ofExcept _
  | interval _ => Draft.legible_ofPayload _
  | absent => Draft.legible_null
  | present s | shared s => legible_draft c s
  | sequence items => Draft.legible_list (legible_items c items)
  | fields fs => Draft.legible_struct (legible_fields c fs)
  | entries es => Draft.legible_map (legible_entries c es)
theorem legible_items (c : Config) : ∀ ss : List Source, ∀ d ∈ draftItems c ss, d.Legible
  | [] => fun d hd => by cases hd
  | s :: ss => List.forall_mem_cons.2 ⟨legible_draft c s, legible_items c ss⟩
theorem legible_fields (c : Config) : ∀ fs : List (String × Source), ∀ f ∈ draftFields c fs, f.2.Legible
  | [] => fun f hf => by cases hf
  | (_, s) :: fs => List.forall_mem_cons.2 ⟨legible_draft c s, legible_fields c fs⟩
theorem legible_entries (c : Config) : ∀ es : List (Source × Source),
    ∀ e ∈ draftEntries c es, e.1.Legible ∧ e.2.Legible
  | [] => fun e he => by cases he
  | (k, s) :: es => List.forall_mem_cons.2 ⟨⟨legible_draft c k, legible_draft c s⟩, legible_entries c es⟩
end

end Source

/-! ## Encoding and decoding -/

variable {ε ε' α β : Type} {c : Config} {s : Source} {m m' : Memory} {h : Handle} {v : Stored}

/-- The computation ends with the result, and leaves the table as it was. -/
def Gives (m : Memory) (p : EStateM ε Memory α) (r : Except ε α) : Prop :=
  ∃ m', Adds m [] m' ∧ p m = match r with
    | .ok a => .ok a m'
    | .error e => .error e m'

/-- What a stored value is decoded as: the host value that it stands for, unless it has faults. -/
def Stored.decoded (c : Config) (v : Stored) : Except ConvertError HostValue :=
  match v.faults c c.maxDepth with
  | [] => .ok (v.hostOf c.blobLength)
  | e :: _ => .error e

namespace Source

/-- How many values are built for the source. -/
def size (c : Config) (s : Source) : Nat := (s.draft c).parts + 1

/-- The source is encoded on every engine with room for its values, and decoded with the result when there is room for
twice as many. -/
def DecodesTo (c : Config) (s : Source) (r : Except ConvertError HostValue) : Prop :=
  ∀ m : Memory, m.Reachable → m.live + s.size c ≤ m.limit → ∃ h m', s.build c m = .ok h m' ∧
    (m'.live + 2 * s.size c ≤ m'.limit → Gives m' (Read.value c h) r)

/-- What the draft of a source has come to is decoded from wherever it is. -/
theorem gives_value (hv : (s.draft c).value c.maxDepth = .ok v) (hm : m.Issued) (hfind : m.find? h = .ok v)
    (hroom : m.live + 2 * s.size c ≤ m.limit) : Gives m (Read.value c h) (v.decoded c) := by
  obtain ⟨hlegible, hdepth⟩ := s.legible_draft c c.maxDepth v hv
  rw [size] at hroom
  obtain ⟨m', hadds, hread⟩ := Read.reads_valueAt c hlegible c.maxDepth m h hm hfind (by omega)
  refine ⟨m', hadds, ?_⟩
  rw [Read.value, hread, Stored.decoded]
  cases v.faults c c.maxDepth <;> rfl

/-- **A source whose draft comes to a value can be encoded, and is decoded as that value.** -/
theorem decodesTo_of_draft (hv : (s.draft c).value c.maxDepth = .ok v) : s.DecodesTo c (v.decoded c) := by
  intro m hm hroom
  obtain ⟨h, m', hbuild, hmoves⟩ := build_of_draft (s := m) hm.issued ⟨trivial, hroom⟩ hv
  have hadds : Adds m [(h, v)] m' := hmoves.adds
  exact ⟨h, m', hbuild, gives_value hv hadds.issued_after (hadds.find?_of_mem List.mem_cons_self)⟩

/-- There is one thing that a source is decoded as. -/
theorem DecodesTo.unique {r r' : Except ConvertError HostValue} (h : s.DecodesTo c r) (h' : s.DecodesTo c r') :
    r = r' := by
  have hempty : Reachable { limit := 3 * s.size c } := .empty _
  have hroom : 0 + s.size c ≤ 3 * s.size c := by omega
  obtain ⟨k, m, hbuild, hgives⟩ := h _ hempty hroom
  obtain ⟨k', m', hbuild', hgives'⟩ := h' _ hempty hroom
  cases hbuild.symm.trans hbuild'
  obtain ⟨v, -, hmoves⟩ := moves_of_build (s := ({ limit := 3 * s.size c } : Memory)) hempty.issued hbuild
  have hadds : Adds { limit := 3 * s.size c } [(k, v)] m := hmoves.adds
  have hsize : m.live + 2 * s.size c ≤ m.limit := by
    rw [hadds.live_eq, hadds.limit_eq, List.length_singleton, size]
    simp only [live, List.length_nil]
    omega
  obtain ⟨_, -, hr⟩ := hgives hsize
  obtain ⟨_, -, hr'⟩ := hgives' hsize
  rw [hr] at hr'
  cases r <;> cases r' <;> cases hr' <;> rfl

end Source

end ValueBridge
