import ValueBridge.Proofs.Fields
import ValueBridge.Proofs.Host.Encodable
import ValueBridge.Proofs.Stored.Reading
/-!
# Timestamps that are not read again

A timestamp in a leap second after the last second of the calendar is encoded, but it is counted in a second that the
calendar does not have.  The `overruns` of a host value are the errors that decoding meets for such timestamps, each with
the places that lead to it, in reading order.  There are none exactly when every timestamp in the value is `Countable`
(`overruns_eq_nil_iff`).
-/
namespace ValueBridge

/-- A payload that is read as what is kept of a scalar has the overruns of the scalar for its faults. -/
theorem Stored.payloadFaults_eq_overruns {b : BlobLength} {p : Payload} {s t : Scalar}
    (h : p.toScalar b = firstError s.overruns t) : payloadFaults b p = s.overruns := by
  rw [payloadFaults, h]
  rcases s.overruns_cases with hs | ⟨e, hs⟩ <;> rw [hs] <;> rfl

namespace HostValue

open Stored (faultsAt faultsByIndex)

/-! ## Overruns at every depth -/

mutual
/-- Why a value is not read again, in reading order. -/
def overruns : HostValue → List ConvertError
  | scalar s => s.overruns
  | list items => faultsByIndex .element (overrunsOfItems items)
  | struct fields => faultsAt ((Fields.sorted (overrunsOfFields fields)).map fun f => (.field f.1, f.2))
  | map entries => faultsByIndex .mapEntry (overrunsOfEntries entries)
  | _ => []
def overrunsOfItems : List HostValue → List (List ConvertError)
  | [] => []
  | v :: vs => overruns v :: overrunsOfItems vs
def overrunsOfFields : List (String × HostValue) → List (String × List ConvertError)
  | [] => []
  | (name, v) :: fs => (name, overruns v) :: overrunsOfFields fs
def overrunsOfEntries : List (HostValue × HostValue) → List (List ConvertError)
  | [] => []
  | (k, v) :: es => (overruns k ++ overruns v) :: overrunsOfEntries es
end

theorem overrunsOfItems_eq_map (vs : List HostValue) : overrunsOfItems vs = vs.map overruns := by
  induction vs with
  | nil => rfl
  | cons v vs ih => exact congrArg (_ :: ·) ih

theorem overrunsOfFields_eq_map (fs : List (String × HostValue)) :
    overrunsOfFields fs = fs.map fun f => (f.1, f.2.overruns) := by
  induction fs with
  | nil => rfl
  | cons f fs ih => exact congrArg (_ :: ·) ih

theorem overrunsOfEntries_eq_map (es : List (HostValue × HostValue)) :
    overrunsOfEntries es = es.map fun e => e.1.overruns ++ e.2.overruns := by
  induction es with
  | nil => rfl
  | cons e es ih => exact congrArg (_ :: ·) ih

theorem overruns_list (items : List HostValue) :
    (list items).overruns = faultsByIndex .element (items.map overruns) := by
  rw [overruns, overrunsOfItems_eq_map]

/-- Fields are read in the order of their names. -/
theorem overruns_struct (fields : List (String × HostValue)) :
    (struct fields).overruns = faultsAt ((Fields.sorted fields).map fun f => (.field f.1, f.2.overruns)) := by
  rw [overruns, overrunsOfFields_eq_map, Fields.sorted_map_snd, List.map_map]
  rfl

theorem overruns_map (entries : List (HostValue × HostValue)) :
    (map entries).overruns = faultsByIndex .mapEntry (entries.map fun e => e.1.overruns ++ e.2.overruns) := by
  rw [overruns, overrunsOfEntries_eq_map]

/-! ## Parts -/

theorem sizeOf_lt_of_mem_parts {v p : HostValue} (h : p ∈ v.parts) : sizeOf p < sizeOf v := by
  cases v with
  | list items =>
    have hlt : sizeOf p < sizeOf items := List.sizeOf_lt_of_mem h
    simp only [list.sizeOf_spec]
    omega
  | struct fields =>
    obtain ⟨f, hf, rfl⟩ := List.mem_map.1 h
    have hlt := (Stored.sizeOf_snd_lt hf).2
    simp only [struct.sizeOf_spec]
    omega
  | map entries =>
    rw [map.sizeOf_spec]
    rcases List.mem_append.1 h with h | h
    · obtain ⟨e, he, rfl⟩ := List.mem_map.1 h
      have hlt := (Stored.sizeOf_snd_lt he).1
      omega
    · obtain ⟨e, he, rfl⟩ := List.mem_map.1 h
      have hlt := (Stored.sizeOf_snd_lt he).2
      omega
  | _ => cases h

/-- What holds of a value if it holds of its parts holds of all values. -/
theorem induction {P : HostValue → Prop} (h : ∀ v, (∀ p ∈ v.parts, P p) → P v) (v : HostValue) : P v :=
  h v fun p _hp => induction h p
termination_by sizeOf v
decreasing_by exact sizeOf_lt_of_mem_parts _hp

/-! ## Countable values -/

/-- Every timestamp in the value is counted in a second of the calendar. -/
def Countable (v : HostValue) : Prop := ∀ t, scalar (.timestamp t) ∈ v.subvalues → t.Countable

variable {v : HostValue}

theorem countable_scalar {s : Scalar} : (scalar s).Countable ↔ s.overruns = [] := by
  unfold Countable
  simp only [subvalues, List.mem_singleton, scalar.injEq]
  cases s with
  | timestamp t =>
    rw [Scalar.overruns, Instant.overruns_eq_nil_iff]
    constructor
    · exact fun h => h t rfl
    · rintro h _ ⟨⟩
      exact h
  | _ => simp [Scalar.overruns]

theorem countable_iff_parts (h : v.isCollection) : v.Countable ↔ ∀ p ∈ v.parts, p.Countable := by
  unfold Countable
  constructor
  · exact fun hv p hp t ht => hv t (mem_subvalues.2 (.inr ⟨p, hp, ht⟩))
  · intro hparts t ht
    obtain hself | ⟨p, hp, ht⟩ := mem_subvalues.1 ht
    · rw [← hself] at h
      cases h
    · exact hparts p hp t ht

theorem overruns_eq_nil_iff_parts (h : v.isCollection) : v.overruns = [] ↔ ∀ p ∈ v.parts, p.overruns = [] := by
  cases v with
  | list items => rw [overruns_list, Stored.faultsByIndex_eq_nil, List.forall_mem_map, parts]
  | struct fields =>
    rw [overruns_struct, Stored.faultsAt_eq_nil, List.forall_mem_map, parts, List.forall_mem_map]
    exact forall_congr' fun f => imp_congr_left (Fields.sorted_perm fields).mem_iff
  | map entries =>
    rw [overruns_map, Stored.faultsByIndex_eq_nil, List.forall_mem_map, parts, List.forall_mem_append,
      List.forall_mem_map, List.forall_mem_map]
    simp only [List.append_eq_nil_iff, forall_and]
  | _ => cases h

/-- **A value has no overruns exactly when every timestamp in it is counted in a second of the calendar.** -/
theorem overruns_eq_nil_iff (v : HostValue) : v.overruns = [] ↔ v.Countable := by
  induction v using induction with
  | h v ih =>
  by_cases hv : v.isCollection
  · rw [overruns_eq_nil_iff_parts hv, countable_iff_parts hv]
    exact forall₂_congr ih
  · cases v with
    | scalar s => rw [overruns, countable_scalar]
    | list | struct | map => exact absurd rfl hv
    | _ => simp [overruns, Countable, subvalues]

instance (v : HostValue) : Decidable v.Countable := decidable_of_iff _ v.overruns_eq_nil_iff

/-- Every overrun is a conversion that failed. -/
theorem kind_of_mem_overruns (v : HostValue) : ∀ e ∈ v.overruns, e.kind = .conversionFailed := by
  induction v using induction with
  | h v ih =>
  intro e he
  cases v with
  | scalar s => exact Scalar.kind_of_mem_overruns (by rwa [overruns] at he)
  | list items =>
    rw [overruns_list] at he
    exact Stored.kind_of_mem_faultsByIndex (List.forall_mem_map.2 ih) he
  | struct fields =>
    rw [overruns_struct] at he
    refine Stored.kind_of_mem_faultsAt (List.forall_mem_map.2 fun f hf => ih f.2 ?_) he
    exact List.mem_map.2 ⟨f, (Fields.sorted_perm fields).mem_iff.1 hf, rfl⟩
  | map entries =>
    rw [overruns_map] at he
    refine Stored.kind_of_mem_faultsByIndex (List.forall_mem_map.2 fun entry hentry e he => ?_) he
    obtain he | he := List.mem_append.1 he
    · exact ih _ (List.mem_append_left _ (List.mem_map.2 ⟨entry, hentry, rfl⟩)) e he
    · exact ih _ (List.mem_append_right _ (List.mem_map.2 ⟨entry, hentry, rfl⟩)) e he
  | _ => simp [overruns] at he

end HostValue

end ValueBridge
