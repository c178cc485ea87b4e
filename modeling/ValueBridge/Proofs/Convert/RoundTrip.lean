import ValueBridge.Proofs.Convert.Building
import ValueBridge.Proofs.Convert.Collected
import ValueBridge.Proofs.Convert.Dynamic
import ValueBridge.Proofs.Host.Overruns
/-!
# Decoding what was encoded

A draft of a host value comes to a stored value that has no faults and reads as the canonical form of the host value,
also where 128-bit integers have been restated for the decimals beside them (`HostValue.carries_draft`).  As the encoder
builds its draft and the decoder reads what a stored value stands for, a host value that was encoded is decoded as its
canonical form (`HostValue.decode_encode`).
-/
namespace ValueBridge

open Stored (faultsAt faultsByIndex nestedFaults largest)

variable {c : Config} {left inner n k : Nat} {α β : Type}

/-! ## Stored values of host values -/

/-- The stored value is read as what is kept of the host value `w`, or meets the first of its overruns, within the levels
that are left.  It is nested at most `n` deep. -/
structure Stored.ReadsAs (c : Config) (left n : Nat) (v : Stored) (w : HostValue) : Prop where
  legible : v.Legible
  depth_le_left : v.depth ≤ left
  depth_le : v.depth ≤ n
  faults_eq : v.faults c left = w.overruns
  host_eq : w.overruns = [] → v.hostOf c.blobLength = w.canon c.blobLength

namespace Stored.ReadsAs

variable {v : Stored} {w : HostValue}

theorem mono (h : v.ReadsAs c left n w) (hn : n ≤ k) : v.ReadsAs c left k w :=
  { h with depth_le := Nat.le_trans h.depth_le hn }

theorem null (t : LogicalType) : (Stored.null t).ReadsAs c left 0 .null where
  legible := .null t
  depth_le_left := by rw [depth]; exact Nat.zero_le left
  depth_le := by rw [depth]
  faults_eq := by simp only [faults, HostValue.overruns]
  host_eq _ := by simp only [hostOf, HostValue.canon]

theorem payload {p : Payload} {s : Scalar}
    (h : p.toScalar c.blobLength = firstError s.overruns (s.canon c.blobLength)) :
    (Stored.payload p).ReadsAs c left 0 (.scalar s) where
  legible := .payload p
  depth_le_left := by rw [depth]; exact Nat.zero_le left
  depth_le := by rw [depth]
  faults_eq := by rw [faults, payloadFaults_eq_overruns h, HostValue.overruns]
  host_eq hnone := by
    rw [HostValue.overruns] at hnone
    rw [hostOf, hostOfPayload, h, hnone, HostValue.canon]
    rfl

/-! A collection is nested one level deeper than its parts, and reads as they do side by side. -/

theorem list {t : LogicalType} {vs : List Stored} {ws : List HostValue}
    (h : List.Forall₂ (ReadsAs c inner n) vs ws) :
    (Stored.list (.list t) vs).ReadsAs c (inner + 1) (n + 1) (.list ws) := by
  obtain ⟨ps, rfl, rfl, hps⟩ := exists_pairs h
  have hdepth : ∀ k, (∀ p ∈ ps, p.1.depth ≤ k) → (Stored.list (.list t) (ps.map Prod.fst)).depth ≤ k + 1 := by
    intro k hk
    rw [depth]
    exact Nat.succ_le_succ (largest_le_iff.2 (List.forall_mem_map.2 (List.forall_mem_map.2 hk)))
  refine ⟨.list List.mem_cons_self (fun _ ht => by cases ht) (List.forall_mem_map.2 fun p hp => (hps p hp).legible),
    hdepth inner fun p hp => (hps p hp).depth_le_left, hdepth n fun p hp => (hps p hp).depth_le, ?_, fun hnone => ?_⟩
  · rw [faults_list, HostValue.overruns_list, List.map_map, List.map_map]
    exact congrArg (faultsByIndex .element) (List.map_congr_left fun p hp => (hps p hp).faults_eq)
  · rw [HostValue.overruns_eq_nil_iff_parts rfl, HostValue.parts, List.forall_mem_map] at hnone
    rw [hostOf, HostValue.canon, HostValue.canonItems_eq_map, List.map_map, List.map_map]
    exact congrArg HostValue.list (List.map_congr_left fun p hp => (hps p hp).host_eq (hnone p hp))

theorem struct {ts : List (String × LogicalType)} {fields : List (String × Stored)} {ws : List (String × HostValue)}
    (h : List.Forall₂ (fun f g => f.1 = g.1 ∧ f.2.ReadsAs c inner n g.2) fields (Fields.sorted ws)) :
    (Stored.struct (.struct ts) fields).ReadsAs c (inner + 1) (n + 1) (.struct ws) := by
  obtain ⟨ps, rfl, hws, hps⟩ := exists_pairs h
  have hdepth : ∀ k, (∀ p ∈ ps, p.1.2.depth ≤ k) → (Stored.struct (.struct ts) (ps.map Prod.fst)).depth ≤ k + 1 := by
    intro k hk
    rw [depth]
    exact Nat.succ_le_succ (largest_le_iff.2 (List.forall_mem_map.2 (List.forall_mem_map.2 hk)))
  refine ⟨.struct rfl (List.forall_mem_map.2 fun p hp => (hps p hp).2.legible),
    hdepth inner fun p hp => (hps p hp).2.depth_le_left, hdepth n fun p hp => (hps p hp).2.depth_le, ?_,
    fun hnone => ?_⟩
  · rw [faults_struct, HostValue.overruns_struct, hws, List.map_map, List.map_map]
    exact congrArg faultsAt (List.map_congr_left fun p hp =>
      Prod.ext (congrArg Place.field (hps p hp).1) (hps p hp).2.faults_eq)
  · rw [HostValue.overruns_struct, faultsAt_eq_nil, List.forall_mem_map, hws, List.forall_mem_map] at hnone
    rw [hostOf, HostValue.canon, HostValue.sorted_canonFields, hws, List.map_map, List.map_map]
    exact congrArg HostValue.struct (List.map_congr_left fun p hp =>
      Prod.ext (hps p hp).1 ((hps p hp).2.host_eq (hnone p hp)))

theorem map {key value : LogicalType} {entries : List (Stored × Stored)} {ws : List (HostValue × HostValue)}
    (h : List.Forall₂ (fun e g => e.1.ReadsAs c inner n g.1 ∧ e.2.ReadsAs c inner n g.2) entries ws) :
    (Stored.map (.map key value) entries).ReadsAs c (inner + 1) (n + 1) (.map ws) := by
  obtain ⟨ps, rfl, rfl, hps⟩ := exists_pairs h
  have hdepth : ∀ k, (∀ p ∈ ps, p.1.1.depth ≤ k ∧ p.1.2.depth ≤ k) →
      (Stored.map (.map key value) (ps.map Prod.fst)).depth ≤ k + 1 := by
    intro k hk
    rw [depth]
    exact Nat.succ_le_succ (largest_le_iff.2 (List.forall_mem_map.2 (List.forall_mem_map.2 fun p hp =>
      Nat.max_le.2 (hk p hp))))
  refine ⟨.map rfl (List.forall_mem_map.2 fun p hp => (hps p hp).1.legible)
      (List.forall_mem_map.2 fun p hp => (hps p hp).2.legible),
    hdepth inner fun p hp => ⟨(hps p hp).1.depth_le_left, (hps p hp).2.depth_le_left⟩,
    hdepth n fun p hp => ⟨(hps p hp).1.depth_le, (hps p hp).2.depth_le⟩, ?_, fun hnone => ?_⟩
  · rw [faults_map, HostValue.overruns_map, List.map_map, List.map_map]
    exact congrArg (faultsByIndex .mapEntry) (List.map_congr_left fun p hp =>
      congrArg₂ (· ++ ·) (hps p hp).1.faults_eq (hps p hp).2.faults_eq)
  · rw [HostValue.overruns_map, faultsByIndex_eq_nil, List.forall_mem_map, List.forall_mem_map] at hnone
    have hparts := fun p hp => List.append_eq_nil_iff.1 (hnone p hp)
    rw [hostOf, HostValue.canon, HostValue.canonEntries_eq_map, List.map_map, List.map_map]
    exact congrArg HostValue.map (List.map_congr_left fun p hp =>
      Prod.ext ((hps p hp).1.host_eq (hparts p hp).1) ((hps p hp).2.host_eq (hparts p hp).2))

/-- The dynamic decoder reads it as what is kept of the host value, or meets the first overrun. -/
theorem reads (h : v.ReadsAs c left n w) :
    Reads (Read.valueAt c left) v (2 * n) w.overruns (w.canon c.blobLength) := by
  have hread := Read.reads_valueAt c h.legible left
  rw [h.faults_eq] at hread
  have hdepth := h.depth_le
  exact (hread.congr h.host_eq).mono (by omega)

end Stored.ReadsAs

/-! ## Drafts -/

namespace Draft

/-- The draft comes to nothing but values that read as `w`. -/
def Carries (c : Config) (d : Draft) (n : Nat) (w : HostValue) : Prop :=
  ∀ left v, d.value left = .ok v → v.ReadsAs c left n w

variable {d : Draft} {w : HostValue}

theorem Carries.mono (h : d.Carries c n w) (hn : n ≤ k) : d.Carries c k w := fun left v hv => (h left v hv).mono hn

theorem carries_null : null.Carries c 0 .null := by
  intro left v hv
  cases hv
  exact .null .any

theorem carries_ofError (e : ConvertError) (w : HostValue) : (ofError e).Carries c 0 w := fun left v hv => by cases hv

theorem carries_scalar (s : Scalar) : (ofExcept s.toPayload).Carries c 0 (.scalar s) := by
  intro left v hv
  obtain ⟨p, hp, rfl⟩ := eq_of_ofExcept hv
  exact .payload (Scalar.toScalar_of_toPayload c.blobLength hp)

/-- A 128-bit integer is not read as a timestamp, so only what is kept of a host value matters. -/
theorem restatable_readsAs (n left : Nat) : Restatable (Stored.ReadsAs c left n) := by
  intro v v' w h hrestated
  obtain ⟨i, p, rfl, hp, rfl⟩ := of_restated hrestated
  have hread := Scalar.toScalar_of_toDecimal c.blobLength (Decimal.toDecimal_of_restatedInt128 hp)
  have hnone : w.overruns = [] := by
    rw [← h.faults_eq, Stored.faults]
    rfl
  have hhost := h.host_eq hnone
  rw [Stored.hostOf] at hhost
  refine ⟨.payload p, ?_, ?_, ?_, fun _ => ?_⟩
  · rw [Stored.depth]
    exact Nat.zero_le left
  · rw [Stored.depth]
    exact Nat.zero_le n
  · rw [Stored.faults, hnone]
    exact Stored.payloadFaults_eq_nil.2 ⟨_, hread⟩
  · rw [Stored.hostOf, Stored.hostOfPayload, hread, ← hhost]
    rfl

theorem carries_list {ds : List Draft} {ws : List HostValue} (h : List.Forall₂ (fun d w => d.Carries c n w) ds ws) :
    (list c ds).Carries c (n + 1) (.list ws) := by
  intro left v hv
  obtain ⟨inner, t, vs, rfl, rfl, hvs⟩ := of_list (restatable_readsAs n) h hv
  exact .list hvs

theorem carries_struct {fields : List (String × Draft)} {ws : List (String × HostValue)}
    (h : List.Forall₂ (fun f g => f.1 = g.1 ∧ f.2.Carries c n g.2) fields ws) :
    (struct c fields).Carries c (n + 1) (.struct ws) := by
  intro left v hv
  obtain ⟨inner, ts, vs, rfl, rfl, hvs⟩ := of_struct (R := fun left v w => v.ReadsAs c left n w) h hv
  exact .struct hvs

theorem carries_map {entries : List (Draft × Draft)} {ws : List (HostValue × HostValue)}
    (h : List.Forall₂ (fun e g => e.1.Carries c n g.1 ∧ e.2.Carries c n g.2) entries ws) :
    (map c entries).Carries c (n + 1) (.map ws) := by
  intro left v hv
  obtain ⟨inner, key, value, es, rfl, rfl, hes⟩ := of_map (restatable_readsAs n) (restatable_readsAs n) h hv
  exact .map hes

end Draft

/-! ## Host values -/

namespace HostValue

open Draft (Carries)

mutual
/-- **What the draft of a host value comes to reads as the host value.** -/
theorem carries_draft (c : Config) : ∀ v : HostValue, (v.draft c).Carries c v.nesting v
  | null => Draft.carries_null
  | scalar s => Draft.carries_scalar s
  | list items => Draft.carries_list (carries_items c items)
  | struct fields => Draft.carries_struct (carries_fields c fields)
  | map entries => Draft.carries_map (carries_entries c entries)
  | node _ => Draft.carries_ofError _ _
  | rel _ => Draft.carries_ofError _ _
  | path _ => Draft.carries_ofError _ _
theorem carries_items (c : Config) : ∀ vs : List HostValue,
    List.Forall₂ (fun d v => Carries c d (nestingItems vs) v) (draftItems c vs) vs
  | [] => .nil
  | v :: vs => .cons ((carries_draft c v).mono (Nat.le_max_left _ _))
      ((carries_items c vs).imp fun _ _ h => h.mono (Nat.le_max_right _ _))
theorem carries_fields (c : Config) : ∀ fs : List (String × HostValue),
    List.Forall₂ (fun d f => d.1 = f.1 ∧ Carries c d.2 (nestingFields fs) f.2) (draftFields c fs) fs
  | [] => .nil
  | (_, v) :: fs => .cons ⟨rfl, (carries_draft c v).mono (Nat.le_max_left _ _)⟩
      ((carries_fields c fs).imp fun _ _ h => ⟨h.1, h.2.mono (Nat.le_max_right _ _)⟩)
theorem carries_entries (c : Config) : ∀ es : List (HostValue × HostValue),
    List.Forall₂ (fun d e => Carries c d.1 (nestingEntries es) e.1 ∧ Carries c d.2 (nestingEntries es) e.2)
      (draftEntries c es) es
  | [] => .nil
  | (k, v) :: es => by
    have hk : k.nesting ≤ nestingEntries ((k, v) :: es) := Nat.le_trans (Nat.le_max_left _ _) (Nat.le_max_left _ _)
    have hv : v.nesting ≤ nestingEntries ((k, v) :: es) := Nat.le_trans (Nat.le_max_right _ _) (Nat.le_max_left _ _)
    have hes : nestingEntries es ≤ nestingEntries ((k, v) :: es) := Nat.le_max_right _ _
    exact .cons ⟨(carries_draft c k).mono hk, (carries_draft c v).mono hv⟩
      ((carries_entries c es).imp fun _ _ h => ⟨h.1.mono hes, h.2.mono hes⟩)
end

/-- What a host value has become is decoded as what is kept of it, or not because of the first overrun, on an engine with
room for decoding. -/
theorem yields_draft {v : HostValue} {sv : Stored} {m m' : Memory} {h : Handle}
    (hsv : (v.draft c).value c.maxDepth = .ok sv) (hadds : Memory.Adds m [(h, sv)] m')
    (hroom : m.live + 1 + 2 * v.nesting ≤ m.limit) :
    Yields m' (Read.value c h) v.overruns (v.canon c.blobLength) :=
  (carries_draft c v c.maxDepth sv hsv).reads.added hadds hroom

/-- **What was encoded is decoded as its canonical form**, on an engine with room for decoding; a decimal in canonical
form is the same number.  Only if a timestamp in the value is counted in a second outside the calendar, the conversion
fails, at the first of these timestamps in reading order. -/
theorem decode_encode (c : Config) (v : HostValue) {m m' : Memory} {h : Handle} (hm : m.Reachable)
    (hroom : m.live + 1 + 2 * v.nesting ≤ m.limit) (hencode : (Source.host v).build c m = .ok h m') :
    (v.Countable → ∃ m'', Read.value c h m' = .ok (v.canon c.blobLength) m'' ∧ m''.entries = m'.entries) ∧
      (¬v.Countable → ∃ e m'', Read.value c h m' = .error e m'' ∧ m''.entries = m'.entries ∧
        v.overruns.head? = some e ∧ e.kind = .conversionFailed) ∧
      ∀ d : Decimal, d.canon.sameValue d := by
  obtain ⟨sv, hsv, hmoves⟩ := Source.moves_of_build (s := m) hm.issued hencode
  have hadds : Memory.Adds m [(h, sv)] m' := hmoves.adds
  have hyields := yields_draft hsv hadds hroom
  refine ⟨fun hv => ?_, fun hv => ?_, Decimal.sameValue_canon⟩
  · rw [v.overruns_eq_nil_iff.2 hv] at hyields
    exact hyields.eq_ok
  · obtain ⟨e, m'', hread, hentries, he⟩ := hyields.eq_error (mt v.overruns_eq_nil_iff.1 hv)
    exact ⟨e, m'', hread, hentries, he, v.kind_of_mem_overruns e (List.mem_of_head? he)⟩

/-- A list of one and a half, two and null. -/
def halvesAndNull : HostValue := .list [.scalar (.decimal ⟨15, 1⟩), .scalar (.decimal ⟨20, 1⟩), .null]

/-- One and a half, two and null are encoded as a list of decimals, and decoded as one and a half, two and null. -/
theorem decode_encode_halvesAndNull : ∃ m' m'' : Memory,
    (Source.host halvesAndNull).build {} { limit := 5 } = .ok ⟨5⟩ m' ∧
    Read.value {} ⟨5⟩ m' = .ok (.list [.scalar (.decimal ⟨15, 1⟩), .scalar (.decimal ⟨2, 0⟩), .null]) m'' := by
  have hencode : ∃ m' : Memory, (Source.host halvesAndNull).build {} { limit := 5 } = .ok ⟨5⟩ m' := ⟨_, rfl⟩
  obtain ⟨m', hm'⟩ := hencode
  obtain ⟨m'', hread, -⟩ := (decode_encode {} halvesAndNull (.empty 5) (by decide) hm').1 (by decide)
  exact ⟨m', m'', hm', hread⟩

/-- Half a second into a leap second is a number of whole microseconds, but is decoded as half a second into the second
after it, and after the last second of the calendar it is encoded and not decoded. -/
theorem decode_leapSeconds :
    (Instant.leapSecond.nanos % 1000 = 0 ∧ ∃ (h : Handle) (m' m'' : Memory) (t : Instant),
      (Source.host (.scalar (.timestamp .leapSecond))).build {} { limit := 5 } = .ok h m' ∧
      Read.value {} h m' = .ok (.scalar (.timestamp t)) m'' ∧ t ≠ .leapSecond) ∧
    ∃ (h : Handle) (m' m'' : Memory) (e : ConvertError),
      (Source.host (.scalar (.timestamp .lastLeapSecond))).build {} { limit := 5 } = .ok h m' ∧
      Read.value {} h m' = .error e m'' ∧ e.kind = .conversionFailed :=
  ⟨⟨rfl, ⟨1⟩, _, _, ⟨60, 500000000, by decide, by decide, by decide⟩, rfl, rfl, by decide⟩, ⟨1⟩, _, _, _, rfl, rfl, rfl⟩

end HostValue

end ValueBridge
