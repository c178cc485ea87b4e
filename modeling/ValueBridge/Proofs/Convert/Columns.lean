import ValueBridge.Proofs.Convert.Acceptance
import ValueBridge.Proofs.Convert.Collected
/-!
# Values side by side

Values stand side by side in a list or on one side of a map, and there they share a type.  If the other side of a map is
no obstacle, a collection of them is encodable when they are (`Seat.Allows.encodable_collect`), and otherwise they are to
blame (`Seat.Allows.violates_collect`).  They are stored under the common type of the types that are inferred of them side
by side (`Seat.stored_of_draft`).
-/
namespace ValueBridge

open HostValue (Restatable Joinable siblingTypes)

variable {c : Config} {inner left : Nat}

/-- Where values stand side by side: in a list, or on one side of a map with `others` on the other side. -/
inductive Seat where
  | items
  | keys (others : List HostValue)
  | values (others : List HostValue)

namespace Seat

def others : Seat → List HostValue
  | items => []
  | keys others | values others => others

/-- The other side of a map is as long as this side. -/
def Pairs (n : Nat) : Seat → Prop
  | items => True
  | keys others | values others => others.length = n

def collect : Seat → List HostValue → HostValue
  | items, vs => .list vs
  | keys others, vs => .map (vs.zip others)
  | values others, vs => .map (others.zip vs)

/-- The other side of a map does not keep it from being encoded. -/
structure Allows (inner n : Nat) (seat : Seat) : Prop where
  pairs : seat.Pairs n
  encodable : ∀ v ∈ seat.others, v.Encodable inner
  restatable : Restatable seat.others
  joinable : Joinable seat.others

/-- A list has no other side. -/
theorem allows_items (inner n : Nat) : items.Allows inner n where
  pairs := trivial
  encodable := fun v hv => by cases hv
  restatable := fun h => by cases h
  joinable := fun h => absurd rfl h

variable {seat : Seat} {vs : List HostValue}

theorem isCollection_collect (seat : Seat) (vs : List HostValue) : (seat.collect vs).isCollection := by
  cases seat <;> rfl

theorem mem_parts_collect {v : HostValue} (h : seat.Pairs vs.length) :
    v ∈ (seat.collect vs).parts ↔ v ∈ vs ∨ v ∈ seat.others := by
  cases seat with
  | items => simp [collect, others, HostValue.parts]
  | keys os =>
    rw [collect, HostValue.parts, List.map_fst_zip (Nat.le_of_eq h.symm), List.map_snd_zip (Nat.le_of_eq h),
      List.mem_append, others]
  | values os =>
    rw [collect, HostValue.parts, List.map_fst_zip (Nat.le_of_eq h), List.map_snd_zip (Nat.le_of_eq h.symm),
      List.mem_append, others, or_comm]

theorem mem_siblings_collect (h : seat.Pairs vs.length) : vs ∈ (seat.collect vs).siblings ∧
    ∀ s ∈ (seat.collect vs).siblings, s = vs ∨ s = seat.others := by
  cases seat with
  | items => simp [collect, HostValue.siblings]
  | keys os =>
    rw [collect, HostValue.siblings, List.map_fst_zip (Nat.le_of_eq h.symm), List.map_snd_zip (Nat.le_of_eq h)]
    simp [others]
  | values os =>
    rw [collect, HostValue.siblings, List.map_fst_zip (Nat.le_of_eq h), List.map_snd_zip (Nat.le_of_eq h.symm)]
    simp [others]

theorem Allows.parts_ne_nil (h : seat.Allows inner vs.length) (hvs : vs ≠ []) : (seat.collect vs).parts ≠ [] := by
  obtain ⟨v, hv⟩ := List.exists_mem_of_ne_nil vs hvs
  exact List.ne_nil_of_mem ((mem_parts_collect h.pairs).2 (.inl hv))

/-- What stands side by side is encodable if each is, and if they can be restated and have a common type. -/
theorem Allows.encodable_collect (h : seat.Allows inner vs.length) (hvs : vs ≠ []) (hall : ∀ v ∈ vs, v.Encodable inner)
    (hrestatable : Restatable vs) (hjoinable : Joinable vs) : (seat.collect vs).Encodable (inner + 1) := by
  refine .of_parts (isCollection_collect seat vs) (fun p hp => ?_)
    (HostValue.meets_collection (isCollection_collect seat vs) (h.parts_ne_nil hvs) (fun s hs => ?_) fun s hs => ?_)
  · exact ((mem_parts_collect h.pairs).1 hp).elim (hall p) (h.encodable p)
  · rcases (mem_siblings_collect h.pairs).2 s hs with rfl | rfl
    · exact hrestatable
    · exact h.restatable
  · rcases (mem_siblings_collect h.pairs).2 s hs with rfl | rfl
    · exact hjoinable
    · exact h.joinable

/-- What stands side by side is to blame for every violation. -/
theorem Allows.violates_collect {kind : ErrorKind} (h : seat.Allows inner vs.length) (hvs : vs ≠ [])
    (hjoinable : Joinable vs) (hviolates : (seat.collect vs).Violates (inner + 1) kind) :
    kind = .conversionFailed ∨ ∃ v ∈ vs, v.Violates inner kind := by
  rcases hviolates with ⟨-, hkind⟩ | ⟨w, hw, r, hr, hkind⟩
  · exact .inl hkind
  · rcases HostValue.mem_subvalues.1 hw with rfl | ⟨p, hp, hw⟩
    · cases r with
      | durations | decimals | restatable => exact .inl hkind.symm
      | noGraphElement => exact absurd (by cases seat <;> rfl) hr
      | nonempty => exact absurd (fun _ => h.parts_ne_nil hvs) hr
      | commonType =>
        refine absurd (fun s hs => ?_) hr
        rcases (mem_siblings_collect h.pairs).2 s hs with rfl | rfl
        · exact hjoinable
        · exact h.joinable
    · rcases (mem_parts_collect h.pairs).1 hp with hv | hv
      · exact .inr ⟨p, hv, .inr ⟨w, hw, r, hr, hkind⟩⟩
      · exact absurd ((h.encodable p hv).meets w hw r) hr

/-! ## Stored columns -/

/-- The values that a collection holds side by side, and their common type. -/
def stored? : Seat → Stored → Option (LogicalType × List Stored)
  | items, .list (.list t) vs => some (t, vs)
  | keys _, .map (.map t _) es => some (t, es.map Prod.fst)
  | values _, .map (.map _ t) es => some (t, es.map Prod.snd)
  | _, _ => none

end Seat

namespace HostValue

/-- Values that were aligned have the types that are inferred of them side by side. -/
theorem siblingTypes_of_aligned {vs : List HostValue} {ws ws' : List Stored}
    (h : List.Forall₂ (fun v w => (v.draft c).value left = .ok w) vs ws) (haligned : Draft.aligned ws = .ok ws') :
    siblingTypes vs = some (ws'.map Stored.type) := by
  have hkept : List.Forall₂ KeptAs vs ws := h.imp fun v w hw => by
    have hjudged := judged_draft c v left
    rw [hw] at hjudged
    exact hjudged.2
  have houtcome := outcome_aligned hkept
  rw [haligned] at houtcome
  exact houtcome.2

theorem stored_list {vs : List HostValue} {w : Stored} (hw : ((list vs).draft c).value left = .ok w) :
    ∃ t ws, w = .list (.list t) ws ∧ siblingTypes vs = some (ws.map Stored.type) ∧
      LogicalType.joinAll? (ws.map Stored.type) = some t := by
  rw [draft, draftItems_eq_map] at hw
  obtain ⟨inner, ws, ws', t, -, hws, haligned, hjoin, rfl⟩ := Draft.parts_of_list hw
  exact ⟨t, ws', rfl, siblingTypes_of_aligned (List.forall₂_map_left_iff.1 hws) haligned, hjoin⟩

theorem stored_map {es : List (HostValue × HostValue)} {w : Stored} (hw : ((map es).draft c).value left = .ok w) :
    ∃ key value ds, w = .map (.map key value) ds ∧
      (siblingTypes (es.map Prod.fst) = some ((ds.map Prod.fst).map Stored.type) ∧
        LogicalType.joinAll? ((ds.map Prod.fst).map Stored.type) = some key) ∧
      siblingTypes (es.map Prod.snd) = some ((ds.map Prod.snd).map Stored.type) ∧
        LogicalType.joinAll? ((ds.map Prod.snd).map Stored.type) = some value := by
  rw [draft, draftEntries_eq_map] at hw
  obtain ⟨inner, ks, ws, ks', ws', key, value, -, hks, hks', hws, hws', hkey, hvalue, rfl⟩ := Draft.parts_of_map hw
  have hlength : ks'.length = ws'.length := by
    rw [Draft.length_aligned hks', Draft.length_aligned hws', ← hks.length_eq, ← hws.length_eq]
  have hkeys : List.Forall₂ (fun v w => (draft c v).value inner = .ok w) (es.map Prod.fst) ks :=
    List.forall₂_map_left_iff.2 (List.forall₂_map_left_iff.1 hks)
  have hvalues : List.Forall₂ (fun v w => (draft c v).value inner = .ok w) (es.map Prod.snd) ws :=
    List.forall₂_map_left_iff.2 (List.forall₂_map_left_iff.1 hws)
  refine ⟨key, value, ks'.zip ws', rfl, ⟨?_, by rwa [List.map_map]⟩, ?_, by rwa [List.map_map]⟩
  · rw [List.map_fst_zip (Nat.le_of_eq hlength)]
    exact siblingTypes_of_aligned hkeys hks'
  · rw [List.map_snd_zip (Nat.le_of_eq hlength.symm)]
    exact siblingTypes_of_aligned hvalues hws'

end HostValue

namespace Seat

variable {seat : Seat} {vs : List HostValue}

/-- **What stands side by side is stored under the common type** of the types that are inferred there. -/
theorem stored_of_draft {w : Stored} (hpairs : seat.Pairs vs.length)
    (hw : ((seat.collect vs).draft c).value left = .ok w) :
    ∃ t ws, seat.stored? w = some (t, ws) ∧ siblingTypes vs = some (ws.map Stored.type) ∧
      LogicalType.joinAll? (ws.map Stored.type) = some t := by
  cases seat with
  | items =>
    obtain ⟨t, ws, rfl, hcolumn⟩ := HostValue.stored_list hw
    exact ⟨t, ws, rfl, hcolumn⟩
  | keys os =>
    obtain ⟨key, value, ds, rfl, hcolumn, -⟩ := HostValue.stored_map hw
    rw [List.map_fst_zip (Nat.le_of_eq hpairs.symm)] at hcolumn
    exact ⟨key, ds.map Prod.fst, rfl, hcolumn⟩
  | values os =>
    obtain ⟨key, value, ds, rfl, -, hcolumn⟩ := HostValue.stored_map hw
    rw [List.map_snd_zip (Nat.le_of_eq hpairs.symm)] at hcolumn
    exact ⟨value, ds.map Prod.snd, rfl, hcolumn⟩

end Seat

end ValueBridge
