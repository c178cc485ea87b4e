import ValueBridge.Proofs.Convert.Agreement
import ValueBridge.Proofs.Convert.Building
import ValueBridge.Proofs.Convert.Collected
import ValueBridge.Proofs.Convert.Walk
import ValueBridge.Proofs.Host.Canon
/-!
# Encoding a value of a type and decoding it into the type

A value of a regular type, one made of scalars by optional values, lists, structs and maps, is encoded without its type,
and the type finds it again: what its draft comes to `Holds` the value, under tags that the type accepts
(`Target.holds_of_draft`), and a stored value that holds a value of a type is decoded as its canonical form, or not
because of the first of its overruns (`Target.reads_decode`).  Both follow the type; at its leaves a scalar `Fits` a
payload, also one that was restated as a decimal beside others.
-/
namespace ValueBridge

open ValueBridge.Convert Memory
open Stored (faultsAt faultsByIndex)

variable {c : Config} {left : Nat} {α β γ δ : Type}

/-! ## Values of a type as sources -/

namespace ScalarTarget

/-- A value of the type, as it is encoded. -/
def source : (s : ScalarTarget) → s.Value → Source
  | bool, b => .scalar (.bool b)
  | int w, n => .scalar (.int w n)
  | float, x => .scalar (.float x)
  | double, x => .scalar (.double x)
  | string, s => .scalar (.string s)
  | id, i => .scalar (.id i)
  | interval, i => .interval i
  | decimal, d => .scalar (.decimal d)
  | uuid, u => .scalar (.uuid u)
  | timestamp, t => .scalar (.timestamp t)
  | duration, d => .scalar (.duration d)
  | blob, bytes => .scalar (.blob bytes)

/-- The value of the type that is left of one. -/
def canon (b : BlobLength) : (s : ScalarTarget) → s.Value → s.Value
  | decimal, d => d.canon
  | timestamp, t => t.floored
  | duration, d => d.truncated
  | blob, bytes => b.cut bytes
  | _, x => x

/-- Why a value of the type is not read again, if it is not. -/
def overruns : (s : ScalarTarget) → s.Value → List ConvertError
  | timestamp, t => t.overruns
  | _, _ => []

/-- Whether a value of the type is no timestamp, or a countable one. -/
def Countable : (s : ScalarTarget) → s.Value → Prop
  | timestamp, t => t.Countable
  | _, _ => True

theorem overruns_eq_nil_iff {s : ScalarTarget} {x : s.Value} : s.overruns x = [] ↔ s.Countable x := by
  cases s with
  | timestamp => exact Instant.overruns_eq_nil_iff
  | _ => exact iff_of_true rfl trivial

theorem kind_of_mem_overruns {s : ScalarTarget} {x : s.Value} {e : ConvertError} (h : e ∈ s.overruns x) :
    e.kind = .conversionFailed := by
  cases s with
  | timestamp => exact Instant.kind_of_mem_overruns h
  | _ => cases h

theorem accepts_of_toDecimal {p : Payload} {d : Decimal} (h : p.toDecimal = .ok d) : p.tag ∈ decimal.accepts := by
  cases p with
  | decimal _ _ _ | int128 _ => simp [accepts, Payload.tag]
  | _ => cases h

theorem tag_mem_accepts_int (w : IntWidth) : w.tag ∈ (int w).accepts := by
  cases w <;> simp [accepts, IntWidth.tag]

/-- Whether the payload is one that the target reads as what is left of the value. -/
def Fits (b : BlobLength) (s : ScalarTarget) (p : Payload) (x : s.Value) : Prop :=
  p.tag ∈ s.accepts ∧ s.ofPayload b p = firstError (s.overruns x) (s.canon b x)

/-- **A scalar is read from its payload as its canonical form**, or not because it overruns the calendar. -/
theorem fits_of_draft {s : ScalarTarget} {x : s.Value} {v : Stored} (h : ((s.source x).draft c).value left = .ok v) :
    ∃ p, v = .payload p ∧ s.Fits c.blobLength p x := by
  cases s with
  | interval =>
    have hv : Draft.payload (.interval x) = .ok v := h
    exact ⟨_, Draft.eq_of_payload hv, List.mem_singleton.2 rfl, rfl⟩
  | decimal =>
    obtain ⟨p, hp, rfl⟩ := Draft.eq_of_ofExcept h
    have hd := Decimal.toDecimal_of_toPayload hp
    exact ⟨p, rfl, accepts_of_toDecimal hd, hd⟩
  | int w =>
    obtain ⟨p, hp, rfl⟩ := Draft.eq_of_ofExcept h
    cases hp
    exact ⟨_, rfl, tag_mem_accepts_int w, by rw [ofPayload, dif_pos rfl]; rfl⟩
  | uuid =>
    obtain ⟨p, hp, rfl⟩ := Draft.eq_of_ofExcept h
    cases hp
    refine ⟨_, rfl, List.mem_singleton.2 rfl, ?_⟩
    rw [ofPayload, Uuid.toPayload, Payload.toUuid, Uuid.ofText?_toText]
    rfl
  | timestamp =>
    obtain ⟨p, hp, rfl⟩ := Draft.eq_of_ofExcept h
    cases hp
    exact ⟨_, rfl, Temporal.tag_mem (.timestamp x.micros), x.toInstant_toPayload⟩
  | duration =>
    obtain ⟨p, hp, rfl⟩ := Draft.eq_of_ofExcept h
    obtain ⟨i, rfl, hi⟩ := Duration.toDuration_of_toPayload hp
    exact ⟨_, rfl, List.mem_singleton.2 rfl, hi⟩
  | bool | float | double | string | id | blob =>
    obtain ⟨p, hp, rfl⟩ := Draft.eq_of_ofExcept h
    cases hp
    exact ⟨_, rfl, List.mem_singleton.2 rfl, rfl⟩

theorem decimal_of_accepts {s : ScalarTarget} (h : Tag.int128 ∈ s.accepts) : s = decimal := by
  cases s with
  | decimal => rfl
  | int w => cases w <;> exact absurd h (by decide)
  | _ => exact absurd h (by decide)

/-- A 128-bit integer is read as the same decimal when it is restated. -/
theorem fits_restated {b : BlobLength} {s : ScalarTarget} {n : Int128} {p : Payload} {x : s.Value}
    (h : s.Fits b (.int128 n) x) (hp : restatedInt128 n.val = .ok p) : s.Fits b p x := by
  obtain ⟨htag, hx⟩ := h
  cases decimal_of_accepts htag
  have hd := Decimal.toDecimal_of_restatedInt128 hp
  exact ⟨accepts_of_toDecimal hd, hd.trans hx⟩

end ScalarTarget

/-! ## Stored values that can be decoded into a type -/

namespace Target

/-- A value of the type, as it is encoded.  Graph elements and host values are encoded as host values are. -/
def source : (t : Target) → t.Value → Source
  | scalar s, x => s.source x
  | node, n => .host (.node n)
  | rel, r => .host (.rel r)
  | path, p => .host (.path p)
  | host, v => .host v
  | opt _, none => .absent
  | opt t, some x => .present (t.source x)
  | list t, xs => .sequence (xs.map t.source)
  | struct t, fs => .fields (fs.map fun f => (f.1, t.source f.2))
  | map k v, es => .entries (es.map fun e => (k.source e.1, v.source e.2))

/-- The value of the type that is left of one at every depth. -/
def canon (b : BlobLength) : (t : Target) → t.Value → t.Value
  | scalar s, x => s.canon b x
  | opt t, x => x.map (t.canon b)
  | list t, xs => xs.map (t.canon b)
  | struct t, fs => Fields.sorted (fs.map fun f => (f.1, t.canon b f.2))
  | map k v, es => es.map fun e => (k.canon b e.1, v.canon b e.2)
  | node, n => n
  | rel, r => r
  | path, p => p
  | host, v => v

/-- Why a value of the type is not read again, in reading order. -/
def overruns : (t : Target) → t.Value → List ConvertError
  | scalar s, x => s.overruns x
  | opt _, none => []
  | opt t, some x => t.overruns x
  | list t, xs => faultsByIndex .element (xs.map t.overruns)
  | struct t, fs => faultsAt ((Fields.sorted fs).map fun f => (.field f.1, t.overruns f.2))
  | map k v, es => faultsByIndex .mapEntry (es.map fun e => k.overruns e.1 ++ v.overruns e.2)
  | node, _ | rel, _ | path, _ | host, _ => []

/-- Every timestamp in a value of the type is counted in a second of the calendar. -/
def Countable : (t : Target) → t.Value → Prop
  | scalar s, x => s.Countable x
  | opt t, x => ∀ y ∈ x, t.Countable y
  | list t, xs => ∀ x ∈ xs, t.Countable x
  | struct t, fs => ∀ f ∈ fs, t.Countable f.2
  | map k v, es => ∀ e ∈ es, k.Countable e.1 ∧ v.Countable e.2
  | node, _ | rel, _ | path, _ | host, _ => True

/-- **A value has no overruns exactly when every timestamp in it is counted in a second of the calendar.** -/
theorem overruns_eq_nil_iff : ∀ (t : Target) (x : t.Value), t.overruns x = [] ↔ t.Countable x
  | scalar _, _ => ScalarTarget.overruns_eq_nil_iff
  | opt _, none => iff_of_true rfl fun _ h => by cases h
  | opt t, some x => by
    rw [overruns, overruns_eq_nil_iff t x, Countable]
    exact ⟨fun h y hy => by cases hy; exact h, fun h => h x rfl⟩
  | list t, xs => by
    rw [overruns, Stored.faultsByIndex_eq_nil, List.forall_mem_map, Countable]
    exact forall₂_congr fun x _ => overruns_eq_nil_iff t x
  | struct t, fs => by
    rw [overruns, Stored.faultsAt_eq_nil, List.forall_mem_map, Countable]
    exact forall_congr' fun f => imp_congr (Fields.sorted_perm fs).mem_iff (overruns_eq_nil_iff t f.2)
  | map k v, es => by
    rw [overruns, Stored.faultsByIndex_eq_nil, List.forall_mem_map, Countable]
    refine forall₂_congr fun e _ => ?_
    rw [List.append_eq_nil_iff, overruns_eq_nil_iff k e.1, overruns_eq_nil_iff v e.2]
  | node, _ | rel, _ | path, _ | host, _ => iff_of_true rfl trivial

/-- Every overrun is a conversion that failed. -/
theorem kind_of_mem_overruns : ∀ (t : Target) (x : t.Value), ∀ e ∈ t.overruns x, e.kind = .conversionFailed
  | scalar _, _ => fun _ => ScalarTarget.kind_of_mem_overruns
  | opt t, some x => kind_of_mem_overruns t x
  | list t, xs => fun _ =>
    Stored.kind_of_mem_faultsByIndex (List.forall_mem_map.2 fun x _ => kind_of_mem_overruns t x)
  | struct t, fs => fun _ =>
    Stored.kind_of_mem_faultsAt (List.forall_mem_map.2 fun f _ => kind_of_mem_overruns t f.2)
  | map k v, es => fun _ => Stored.kind_of_mem_faultsByIndex (List.forall_mem_map.2 fun e _ e' he' =>
    (List.mem_append.1 he').elim (kind_of_mem_overruns k e.1 e') (kind_of_mem_overruns v e.2 e'))
  | opt _, none | node, _ | rel, _ | path, _ | host, _ => fun _ h => by cases h

def isOpt : Target → Bool
  | opt _ => true
  | _ => false

/-- Types made of scalars by optional values, lists, structs and maps, with no optional value directly in another. -/
def isRegular : Target → Bool
  | scalar _ => true
  | opt t => !t.isOpt && t.isRegular
  | list t | struct t => t.isRegular
  | map k v => k.isRegular && v.isRegular
  | _ => false

/-- How deep lists, structs and maps are nested in values of the type. -/
def levels : Target → Nat
  | opt t => t.levels
  | list t | struct t => t.levels + 1
  | map k v => max k.levels v.levels + 1
  | _ => 0

/-- The stored value is one that is decoded into the type as what is left of the given value, within the levels that are
left. -/
def Holds (c : Config) : (t : Target) → (left : Nat) → Stored → t.Value → Prop
  | scalar s, _, v, x => ∃ p, v = .payload p ∧ s.Fits c.blobLength p x
  | opt _, _, v, none => v.isNull
  | opt t, left, v, some x => v.isNull = false ∧ t.Holds c left v x
  | list t, left, v, xs => ∃ inner item vs, left = inner + 1 ∧ v = .list (.list item) vs ∧
    List.Forall₂ (t.Holds c inner) vs xs
  | struct t, left, v, fs => ∃ inner ts vs, left = inner + 1 ∧ v = .struct (.struct ts) vs ∧
    List.Forall₂ (fun f g => f.1 = g.1 ∧ t.Holds c inner f.2 g.2) vs (Fields.sorted fs)
  | map k t, left, v, es => ∃ inner key value vs, left = inner + 1 ∧ v = .map (.map key value) vs ∧
    List.Forall₂ (fun e g => k.Holds c inner e.1 g.1 ∧ t.Holds c inner e.2 g.2) vs es
  | _, _, _, _ => False

theorem Holds.not_null : ∀ {t : Target} {v : Stored} {x : t.Value}, t.isOpt = false → t.Holds c left v x →
    v.isNull = false
  | scalar _, _, _, _, ⟨_, rfl, _⟩ => rfl
  | list _, _, _, _, ⟨_, _, _, _, rfl, _⟩ => rfl
  | struct _, _, _, _, ⟨_, _, _, _, rfl, _⟩ => rfl
  | map _ _, _, _, _, ⟨_, _, _, _, _, rfl, _⟩ => rfl

theorem restatable_holds : ∀ (t : Target) (left : Nat), Draft.Restatable (t.Holds c left)
  | scalar s, left => by
    rintro v v' x ⟨p, rfl, hfits⟩ hrestated
    obtain ⟨n, q, hv, hq, rfl⟩ := Draft.of_restated hrestated
    cases hv
    exact ⟨q, rfl, ScalarTarget.fits_restated hfits hq⟩
  | opt t, left => by
    intro v v' x h hrestated
    obtain ⟨n, q, rfl, hq, rfl⟩ := Draft.of_restated hrestated
    cases x with
    | none => cases h
    | some x => exact ⟨rfl, restatable_holds t left _ _ x h.2 hrestated⟩
  | list _, left => by
    rintro v v' x ⟨_, _, _, _, rfl, _⟩ hrestated
    obtain ⟨_, _, hv, _⟩ := Draft.of_restated hrestated
    cases hv
  | struct _, left => by
    rintro v v' x ⟨_, _, _, _, rfl, _⟩ hrestated
    obtain ⟨_, _, hv, _⟩ := Draft.of_restated hrestated
    cases hv
  | map _ _, left => by
    rintro v v' x ⟨_, _, _, _, _, rfl, _⟩ hrestated
    obtain ⟨_, _, hv, _⟩ := Draft.of_restated hrestated
    cases hv
  | node, _ | rel, _ | path, _ | host, _ => fun _ _ _ h _ => h.elim

/-- **What the source of a value comes to holds the value.** -/
theorem holds_of_draft (c : Config) : ∀ (t : Target), t.isRegular → ∀ x : t.Value,
    ((t.source x).draft c).Meets (t.Holds c) x
  | scalar s, _, x => fun _ _ hv => ScalarTarget.fits_of_draft hv
  | opt t, ht, none => fun _ _ hv => by
    cases hv
    rfl
  | opt t, ht, some x => fun left v hv => by
    rw [isRegular, Bool.and_eq_true, Bool.not_eq_true'] at ht
    have hholds := holds_of_draft c t ht.2 x left v hv
    exact ⟨hholds.not_null ht.1, hholds⟩
  | list t, ht, xs => fun left v hv => by
    have hparts : List.Forall₂ (fun d x => d.Meets (t.Holds c) x) (Source.draftItems c (xs.map t.source)) xs := by
      rw [Source.draftItems_eq_map, List.map_map, List.forall₂_map_left_iff, List.forall₂_same]
      exact fun x _ => holds_of_draft c t ht x
    exact Draft.of_list (restatable_holds t) hparts hv
  | struct t, ht, fs => fun left v hv => by
    have hparts : List.Forall₂ (fun d g => d.1 = g.1 ∧ d.2.Meets (t.Holds c) g.2)
        (Source.draftFields c (fs.map fun f => (f.1, t.source f.2))) fs := by
      rw [Source.draftFields_eq_map, List.map_map, List.forall₂_map_left_iff, List.forall₂_same]
      exact fun f _ => ⟨rfl, holds_of_draft c t ht f.2⟩
    exact Draft.of_struct hparts hv
  | map k t, ht, es => fun left v hv => by
    rw [isRegular, Bool.and_eq_true] at ht
    have hparts : List.Forall₂ (fun d g => d.1.Meets (k.Holds c) g.1 ∧ d.2.Meets (t.Holds c) g.2)
        (Source.draftEntries c (es.map fun e => (k.source e.1, t.source e.2))) es := by
      rw [Source.draftEntries_eq_map, List.map_map, List.forall₂_map_left_iff, List.forall₂_same]
      exact fun e _ => ⟨holds_of_draft c k ht.1 e.1, holds_of_draft c t ht.2 e.2⟩
    exact Draft.of_map (restatable_holds k) (restatable_holds t) hparts hv

end Target

/-! ## Decoding into a type -/

namespace Reads

variable {read : Handle → Convert Memory β} {n : Nat}

theorem listOf {item : LogicalType} {vs : List Stored} {xs : List α} {faults : α → List ConvertError} {f : α → β}
    (h : List.Forall₂ (fun v x => Reads read v n (faults x) (f x)) vs xs) :
    Reads (Read.elements read) (.list (.list item) vs) (n + 1) (faultsByIndex .element (xs.map faults)) (xs.map f) := by
  obtain ⟨ps, rfl, rfl, hps⟩ := exists_pairs h
  rw [List.map_map, List.map_map]
  exact Reads.elements (fun _ h => by cases h) hps

theorem structOf {ts : List (String × LogicalType)} {vs : List (String × Stored)} {fs : List (String × α)}
    {faults : α → List ConvertError} {f : α → β}
    (h : List.Forall₂ (fun v x => v.1 = x.1 ∧ Reads read v.2 n (faults x.2) (f x.2)) vs fs) :
    Reads (Read.fields read) (.struct (.struct ts) vs) (n + 1) (faultsAt (fs.map fun x => (.field x.1, faults x.2)))
      (fs.map fun x => (x.1, f x.2)) := by
  obtain ⟨ps, rfl, rfl, hps⟩ := exists_pairs h
  have hfaults : (ps.map Prod.snd).map (fun x => (Place.field x.1, faults x.2)) =
      ps.map fun p => (.field p.1.1, faults p.2.2) := by
    rw [List.map_map]
    exact List.map_congr_left fun p hp => Prod.ext (congrArg Place.field (hps p hp).1.symm) rfl
  have hvalues : (ps.map Prod.snd).map (fun x => (x.1, f x.2)) = ps.map fun p => (p.1.1, f p.2.2) := by
    rw [List.map_map]
    exact List.map_congr_left fun p hp => Prod.ext (hps p hp).1.symm rfl
  rw [hfaults, hvalues]
  exact Reads.namedBy (g := Prod.fst) (congrArg Except.ok (List.length_map _)) (map_at?_map Prod.fst Prod.fst)
    (map_at?_map Prod.fst Prod.snd) fun p hp => (hps p hp).2

theorem mapOf {key value : LogicalType} {vs : List (Stored × Stored)} {es : List (α × γ)}
    {read' : Handle → Convert Memory δ} {faults : α → List ConvertError} {faults' : γ → List ConvertError} {f : α → β}
    {g : γ → δ}
    (h : List.Forall₂ (fun v e => Reads read v.1 n (faults e.1) (f e.1) ∧ Reads read' v.2 n (faults' e.2) (g e.2))
      vs es) :
    Reads (Read.entries read read') (.map (.map key value) vs) (n + 2)
      (faultsByIndex .mapEntry (es.map fun e => faults e.1 ++ faults' e.2)) (es.map fun e => (f e.1, g e.2)) := by
  obtain ⟨ps, rfl, rfl, hps⟩ := exists_pairs h
  rw [List.map_map, List.map_map]
  exact Reads.entriesBy (fun p hp => (hps p hp).1) fun p hp => (hps p hp).2

end Reads

namespace Target

theorem reads_scalarOf {s : ScalarTarget} {p : Payload} {x : s.Value} (h : s.Fits c.blobLength p x) :
    Reads (scalarOf c s) (.payload p) 0 (s.overruns x) (s.canon c.blobLength x) := by
  intro m h' hm hv _
  refine ⟨m, .refl hm, ?_⟩
  unfold scalarOf
  rw [bind_of_ok (payloadOf_of_find hv), h.2]
  cases s.overruns x <;> rfl

/-- **A stored value that holds a value of a type is decoded as its canonical form**, or not because of the first
overrun. -/
theorem reads_decode (c : Config) : ∀ (t : Target) {left : Nat} {v : Stored} {x : t.Value}, t.Holds c left v x →
    Reads (t.decode c left) v (2 * t.levels) (t.overruns x) (t.canon c.blobLength x)
  | scalar s, _, _, x, ⟨p, hp, hfits⟩ => by
    subst hp
    have htag : (Stored.payload p).type.tag ∈ s.accepts := (Payload.tag_type p).symm ▸ hfits.1
    exact ((reads_scalarOf hfits).tagged rfl htag).mono (Nat.zero_le _)
  | opt t, left, v, none, hnull => fun m h hm hv _ => by
    refine ⟨m, .refl hm, ?_⟩
    unfold decode
    rw [bind_of_ok (isNull_of_find hv), show v.isNull = true from hnull]
    rfl
  | opt t, left, v, some x, ⟨hnull, hx⟩ => fun m h hm hv hroom => by
    obtain ⟨m', hadds, hread⟩ := (reads_decode c t hx m h hm hv hroom).map some
    refine ⟨m', hadds, ?_⟩
    unfold decode
    rw [bind_of_ok (isNull_of_find hv), hnull]
    exact hread
  | list t, _, _, xs, ⟨inner, item, vs, hleft, hv, hvs⟩ => by
    subst hleft hv
    have hread : Reads (Read.elements (t.decode c inner)) (.list (.list item) vs) (2 * t.levels + 1)
        ((list t).overruns xs) ((list t).canon c.blobLength xs) :=
      .listOf (hvs.imp fun _ _ => reads_decode c t)
    have htag : Tag.list ∈ [Tag.list, .array] := List.mem_cons_self
    exact (hread.nested_succ.tagged rfl htag).mono (by rw [levels]; omega)
  | struct t, _, _, fs, ⟨inner, ts, vs, hleft, hv, hvs⟩ => by
    subst hleft hv
    have hread : Reads (Read.fields (t.decode c inner)) (.struct (.struct ts) vs) (2 * t.levels + 1)
        ((struct t).overruns fs) ((struct t).canon c.blobLength fs) := by
      rw [canon, Fields.sorted_map_snd]
      exact .structOf (hvs.imp fun _ _ h => ⟨h.1, reads_decode c t h.2⟩)
    have htag : Tag.struct ∈ [Tag.struct] := List.mem_cons_self
    exact (hread.nested_succ.tagged rfl htag).mono (by rw [levels]; omega)
  | map k t, _, _, es, ⟨inner, key, value, vs, hleft, hv, hvs⟩ => by
    subst hleft hv
    have hread : Reads (Read.entries (k.decode c inner) (t.decode c inner)) (.map (.map key value) vs)
        (2 * max k.levels t.levels + 2) ((map k t).overruns es) ((map k t).canon c.blobLength es) :=
      .mapOf (hvs.imp fun _ _ h =>
        ⟨(reads_decode c k h.1).mono (by omega), (reads_decode c t h.2).mono (by omega)⟩)
    have htag : Tag.map ∈ [Tag.map] := List.mem_cons_self
    exact (hread.nested_succ.tagged rfl htag).mono (by rw [levels]; omega)

/-- **What was encoded from a value of a type is decoded into the type as its canonical form**, on an engine with room
for decoding; a decimal in canonical form is the same number.  Only if a timestamp in the value is counted in a second
outside the calendar, the conversion fails, at the first of these timestamps in reading order. -/
theorem read_build (c : Config) {t : Target} (ht : t.isRegular) (x : t.Value) {m m' : Memory} {h : Handle}
    (hm : m.Reachable) (hroom : m.live + 1 + 2 * t.levels ≤ m.limit) (hbuild : (t.source x).build c m = .ok h m') :
    (t.Countable x → ∃ m'', t.read c h m' = .ok (t.canon c.blobLength x) m'' ∧ m''.entries = m'.entries) ∧
      (¬t.Countable x → ∃ e m'', t.read c h m' = .error e m'' ∧ m''.entries = m'.entries ∧
        (t.overruns x).head? = some e ∧ e.kind = .conversionFailed) ∧
      ∀ d : Decimal, d.canon.sameValue d := by
  obtain ⟨v, hv, hmoves⟩ := Source.moves_of_build (s := m) hm.issued hbuild
  have hadds : Adds m [(h, v)] m' := hmoves.adds
  have hyields : Yields m' (t.read c h) (t.overruns x) (t.canon c.blobLength x) :=
    (reads_decode c t (holds_of_draft c t ht x c.maxDepth v hv)).added hadds hroom
  refine ⟨fun hx => ?_, fun hx => ?_, Decimal.sameValue_canon⟩
  · rw [(overruns_eq_nil_iff t x).2 hx] at hyields
    exact hyields.eq_ok
  · obtain ⟨e, m'', hread, hentries, he⟩ := hyields.eq_error (mt (overruns_eq_nil_iff t x).1 hx)
    exact ⟨e, m'', hread, hentries, he, kind_of_mem_overruns t x e (List.mem_of_head? he)⟩

/-- Lists of optional decimals under names. -/
abbrev decimalsByName : Target := map (.scalar .string) (.list (.opt (.scalar .decimal)))

theorem countable_decimalsByName (x : decimalsByName.Value) : decimalsByName.Countable x := by
  simp [Countable, ScalarTarget.Countable]

/-- One and a half, nothing, and two under one name are encoded as decimals of one type, and decoded as what they were. -/
theorem read_build_decimalsByName : decimalsByName.isRegular ∧ ∃ (h : Handle) (m' m'' : Memory),
    (decimalsByName.source [("a", [some ⟨15, 1⟩, none, some ⟨20, 1⟩])]).build {} { limit := 8 } = .ok h m' ∧
    decimalsByName.read {} h m' = .ok [("a", [some ⟨15, 1⟩, none, some ⟨2, 0⟩])] m'' ∧ m''.entries = m'.entries := by
  have hdraft : ∃ v, ((decimalsByName.source [("a", [some ⟨15, 1⟩, none, some ⟨20, 1⟩])]).draft {}).value 64 = .ok v :=
    ⟨_, rfl⟩
  obtain ⟨v, hv⟩ := hdraft
  obtain ⟨h, m', hbuild, -⟩ := Source.build_of_draft (s := ({ limit := 8 } : Memory)) (c := {})
    (Memory.Reachable.empty 8).issued ⟨trivial, by decide⟩ hv
  obtain ⟨m'', hread, hentries⟩ := (read_build {} (t := decimalsByName) rfl _ (.empty 8) (by decide) hbuild).1
    (countable_decimalsByName _)
  exact ⟨rfl, h, m', m'', hbuild, hread, hentries⟩

/-- Half a second into a leap second is a number of whole microseconds, but is decoded as half a second into the second
after it, and after the last second of the calendar it is encoded and not decoded. -/
theorem read_leapSeconds :
    (Instant.leapSecond.nanos % 1000 = 0 ∧ ∃ (h : Handle) (m' m'' : Memory) (t : Instant),
      ((scalar .timestamp).source .leapSecond).build {} { limit := 5 } = .ok h m' ∧
      (scalar .timestamp).read {} h m' = .ok t m'' ∧ t ≠ .leapSecond) ∧
    ∃ (h : Handle) (m' m'' : Memory) (e : ConvertError),
      ((scalar .timestamp).source .lastLeapSecond).build {} { limit := 5 } = .ok h m' ∧
      (scalar .timestamp).read {} h m' = .error e m'' ∧ e.kind = .conversionFailed :=
  ⟨⟨rfl, ⟨1⟩, _, _, ⟨60, 500000000, by decide, by decide, by decide⟩, rfl, rfl, by decide⟩, ⟨1⟩, _, _, _, rfl, rfl, rfl⟩

end Target
end ValueBridge
