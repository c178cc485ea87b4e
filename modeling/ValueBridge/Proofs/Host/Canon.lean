import ValueBridge.Convert.Scalar
import ValueBridge.Proofs.Fields
import ValueBridge.Proofs.Number.DecimalText
import ValueBridge.Proofs.Results
import ValueBridge.Proofs.Uuid
import Mathlib.Data.List.TakeWhile
/-!
# What is kept of a value

Encoding drops what the engine cannot keep: the scale of a whole decimal, the nanoseconds of an instant and of a
duration, the difference between a leap second and the second after it, the order of a struct's fields, and what follows
a zero byte of a blob where blobs end there.  `canon` is the value that is left.  A scalar that becomes a payload is read
from it as its canonical form (`toScalar_of_toPayload`).  A timestamp in a leap second after the last second of the
calendar is encoded too, but counted in a second that the calendar does not have, and is not read again
(`Instant.Countable`).
-/
namespace ValueBridge

/-! ## Decimals -/

namespace Decimal

/-- A whole decimal as an integer. -/
def canon (d : Decimal) : Decimal := if d.isWhole then ofInt d.truncate else d

theorem sameValue_canon (d : Decimal) : d.canon.sameValue d := by
  unfold canon
  split
  · rename_i h
    exact sameValue_truncate h
  · exact sameValue_refl d

theorem toDecimalPayload_eq_ok {d : Decimal} {p : Payload} (h : d.toDecimalPayload = .ok p) :
    (d.width : Int) ≤ maxPrecision ∧ d.scale ≤ maxPrecision ∧ ∃ q s, p = .decimal d.toText q s := by
  unfold toDecimalPayload at h
  dsimp only at h
  split at h
  · cases h
  · rename_i hle
    cases h
    exact ⟨by omega, by omega, _, _, rfl⟩

theorem natAbs_lt_of_width {d : Decimal} (h : (d.width : Int) ≤ maxPrecision) : d.digits.natAbs < 10 ^ maxPrecision :=
  Nat.lt_of_lt_of_le (lt_pow_digitCount _) (Nat.pow_le_pow_right (by decide) (Int.ofNat_le.1 h))

theorem natAbs_truncate_le {d : Decimal} (h : 0 ≤ d.scale) : d.truncate.natAbs ≤ d.digits.natAbs := by
  by_cases hscale : 0 < d.scale
  · rw [truncate_of_pos hscale, Int.natAbs_tdiv]
    exact Nat.div_le_self _ _
  · rw [truncate_of_nonpos (Int.not_lt.1 hscale), show d.scale = 0 by omega]
    simp

theorem isSome_ofInt?_truncate {d : Decimal} {p : Payload}
    (h : (if d.scale < 0 then ofInt d.truncate else d).toDecimalPayload = .ok p) :
    (Ranged.ofInt? d.truncate : Option Int128).isSome := by
  have hwidth := natAbs_lt_of_width (toDecimalPayload_eq_ok h).1
  have hlt : d.truncate.natAbs < 10 ^ maxPrecision := by
    split at hwidth
    · exact hwidth
    · rename_i hscale
      exact Nat.lt_of_le_of_lt (natAbs_truncate_le (Int.not_lt.1 hscale)) hwidth
  have hpow : (10 : Nat) ^ maxPrecision < 2 ^ 127 := by decide
  unfold Ranged.ofInt?
  rw [dif_pos (by omega)]
  rfl

theorem reread_ofInt (n : Int) : (ofInt n).reread = ofInt n := by
  unfold reread
  by_cases hn : n = 0
  · rw [hn]
    rfl
  · have hdigits : (ofInt n).digits ≠ 0 := hn
    have hscale : (ofInt n).scale ≤ 0 := Int.le_refl 0
    rw [if_neg hdigits, if_pos ⟨by simp [ofInt], hscale⟩, truncate_of_nonpos hscale]
    simp [ofInt]

theorem reread_of_not_isWhole {d : Decimal} (h : ¬d.isWhole) : d.reread = d := by
  unfold reread
  rw [if_neg fun hd => h (isWhole_of_zero hd), if_neg fun hd => h (isWhole_of_nonpos hd.2)]

theorem toDecimal_of_toDecimalPayload {d : Decimal} {p : Payload} (h : d.toDecimalPayload = .ok p) (hd : 0 ≤ d.scale) :
    p.toDecimal = .ok d.reread := by
  obtain ⟨-, hscale, q, s, rfl⟩ := toDecimalPayload_eq_ok h
  have hmax : maxPrecision = 38 := rfl
  have hrange : scaleInRange d.scale := by
    unfold scaleInRange
    simp; omega
  rw [Payload.toDecimal, ofText?_toText hrange]

theorem int128_of_toPayload {d : Decimal} {p : Payload} (h : d.toPayload = .ok p) (hwhole : d.isWhole) :
    ∃ n : Int128, n.val = d.truncate ∧ p = .int128 n := by
  unfold toPayload at h
  dsimp only at h
  rw [if_pos hwhole] at h
  cases hn : (Ranged.ofInt? d.truncate : Option Int128) with
  | some n =>
    rw [hn] at h
    cases h
    exact ⟨n, Ranged.ofInt?_eq_some.1 hn, rfl⟩
  | none =>
    rw [hn] at h
    have hsome := isSome_ofInt?_truncate h
    rw [hn] at hsome
    cases hsome

/-- **A decimal is read from its payload as its canonical form.** -/
theorem toDecimal_of_toPayload {d : Decimal} {p : Payload} (h : d.toPayload = .ok p) : p.toDecimal = .ok d.canon := by
  unfold canon
  by_cases hwhole : d.isWhole
  · obtain ⟨n, hn, rfl⟩ := int128_of_toPayload h hwhole
    rw [if_pos hwhole, Payload.toDecimal, hn]
  · have hscale : 0 < d.scale := Int.not_le.1 fun hle => hwhole (isWhole_of_nonpos hle)
    unfold toPayload at h
    dsimp only at h
    rw [if_neg hwhole, if_neg (Int.not_lt.2 (Int.le_of_lt hscale))] at h
    rw [if_neg hwhole, toDecimal_of_toDecimalPayload h (Int.le_of_lt hscale), reread_of_not_isWhole hwhole]

/-- **A 128-bit integer is the same decimal when it is restated.** -/
theorem toDecimal_of_restatedInt128 {n : Int} {p : Payload} (h : restatedInt128 n = .ok p) :
    p.toDecimal = .ok (ofInt n) := by
  rw [toDecimal_of_toDecimalPayload h (Int.le_refl 0), reread_ofInt]

end Decimal

/-! ## Instants and durations -/

namespace Instant

/-- The second that an instant is counted in.  A leap second is counted as the second after it. -/
def countedSecond (t : Instant) : Int := t.seconds + (t.nanos / 1000000000 : Nat)

/-- The second that the instant is counted in lies in the calendar.  Only that of a leap second after the last second
does not. -/
def Countable (t : Instant) : Prop := t.countedSecond ≤ 8210266876799

instance (t : Instant) : Decidable t.Countable := inferInstanceAs (Decidable (t.countedSecond ≤ 8210266876799))

/-- The last whole microsecond before or at an instant, if it lies in the calendar. -/
def floored (t : Instant) : Instant :=
  if h : t.Countable then
    ⟨t.countedSecond, t.nanos % 1000000000 / 1000 * 1000,
      by have hlo := t.lo_le; unfold countedSecond; omega, h, by omega⟩
  else t

variable {t : Instant}

theorem countable_of_lt (h : t.nanos < 1000000000) : t.Countable := by
  have hhi := t.le_hi
  unfold Countable countedSecond
  omega

/-- Of all instants only those in a leap second after the last second of the calendar are not countable. -/
theorem not_countable_iff : ¬t.Countable ↔ t.seconds = 8210266876799 ∧ 1000000000 ≤ t.nanos := by
  have hhi := t.le_hi
  have hlt := t.nanos_lt
  unfold Countable countedSecond
  omega

theorem toNanos_floored (h : t.Countable) : t.floored.toNanos = t.toNanos / 1000 * 1000 := by
  unfold floored toNanos
  rw [dif_pos h]
  dsimp only [countedSecond]
  omega

theorem micros_ediv (t : Instant) : t.micros.val / (1000000 : Nat) = t.countedSecond := by
  unfold micros countedSecond
  dsimp only
  omega

theorem micros_emod (t : Instant) :
    (t.micros.val % (1000000 : Nat)).toNat * (1000000000 / 1000000) = t.nanos % 1000000000 / 1000 * 1000 := by
  unfold micros
  dsimp only
  omega

theorem ofUnits?_micros (h : t.Countable) : ofUnits? t.micros.val 1000000 = some t.floored := by
  have hlo := t.lo_le
  have hsecond : -8334601228800 ≤ t.countedSecond := by
    unfold countedSecond
    omega
  unfold ofUnits? ofSeconds? floored
  rw [micros_ediv, micros_emod, dif_pos ⟨hsecond, h, .inl (by omega)⟩, dif_pos h]

theorem ofUnits?_micros_eq_none (h : ¬t.Countable) : ofUnits? t.micros.val 1000000 = none := by
  unfold ofUnits? ofSeconds?
  rw [micros_ediv, dif_neg fun hrange => h hrange.2.1]

/-- Half a second into a leap second at the end of the first minute. -/
def leapSecond : Instant := ⟨59, 1500000000, by decide, by decide, by decide⟩

/-- Half a second into a leap second after the last second of the calendar. -/
def lastLeapSecond : Instant := { last with nanos := 1500000000, nanos_lt := by decide }

/-- Why an instant is not read again, if it is not: it is counted in a second outside the calendar. -/
def overruns (t : Instant) : List ConvertError :=
  if t.Countable then [] else [⟨.timestampOutOfRange t.micros.val, []⟩]

theorem overruns_eq_nil_iff : t.overruns = [] ↔ t.Countable := by
  unfold overruns
  split <;> simp_all

theorem kind_of_mem_overruns {e : ConvertError} (h : e ∈ t.overruns) : e.kind = .conversionFailed := by
  unfold overruns at h
  split at h
  · cases h
  · rw [List.mem_singleton.1 h]
    rfl

/-- What is read from the payload of an instant. -/
theorem toInstant_toPayload (t : Instant) : t.toPayload.toInstant = firstError t.overruns t.floored := by
  rw [toPayload, Payload.toInstant, Temporal.toInstant, overruns]
  dsimp only [Temporal.reading]
  by_cases h : t.Countable
  · rw [ofUnits?_micros h, if_pos h]
    rfl
  · rw [ofUnits?_micros_eq_none h, if_neg h]
    rfl

end Instant

namespace Duration

theorem natAbs_tdiv_mul_le (n : Int) : (n.tdiv 1000 * 1000).natAbs ≤ n.natAbs := by
  have habs : (n.tdiv 1000).natAbs = n.natAbs / 1000 := Int.natAbs_tdiv n 1000
  rw [Int.natAbs_mul, habs]
  exact Nat.div_mul_le_self _ _

/-- The whole microseconds of a duration, rounded toward zero. -/
def truncated (d : Duration) : Duration :=
  ⟨d.nanos.tdiv 1000 * 1000,
    by have hlo := d.lo_le; have hhi := d.le_hi; have hle := natAbs_tdiv_mul_le d.nanos; omega,
    by have hlo := d.lo_le; have hhi := d.le_hi; have hle := natAbs_tdiv_mul_le d.nanos; omega⟩

theorem truncated_eq {d : Duration} {n : IntOf .int64} (h : n.val = d.nanos.tdiv 1000) : ofMicros n = d.truncated := by
  unfold ofMicros truncated
  simp only [h]

theorem toDuration_of_toPayload {d : Duration} {p : Payload} (h : d.toPayload = .ok p) :
    ∃ i, p = .interval i ∧ i.toDuration = .ok d.truncated := by
  unfold toPayload at h
  split at h
  · rename_i n hn
    cases h
    have hlength : (Interval.ofMicros n).length = n.val := by
      unfold Interval.length Interval.ofMicros
      simp
    refine ⟨_, rfl, ?_⟩
    rw [Interval.toDuration, Interval.totalMicros?, hlength, Ranged.ofInt?_val]
    exact congrArg Except.ok (truncated_eq (Ranged.ofInt?_eq_some.1 hn))
  · cases h

end Duration

/-! ## Blobs -/

/-- **A blob that ends at a zero byte keeps the longest part in front of it that holds none.** -/
theorem BlobLength.cut_longest (bytes : List UInt8) :
    nulTerminated.cut bytes <+: bytes ∧ 0 ∉ nulTerminated.cut bytes ∧
      ∀ kept, kept <+: bytes → 0 ∉ kept → kept <+: nulTerminated.cut bytes := by
  refine ⟨List.takeWhile_prefix _, fun h => ?_, ?_⟩
  · have hne := List.mem_takeWhile_imp h
    cases hne
  · rintro kept ⟨rest, rfl⟩ hkept
    have hall : ∀ x ∈ kept, (x != 0) = true := fun x hx => bne_iff_ne.2 fun h => hkept (h ▸ hx)
    rw [cut, List.takeWhile_append_of_pos hall]
    exact List.prefix_append _ _

/-! ## Scalars -/

namespace Scalar

def canon (b : BlobLength) : Scalar → Scalar
  | decimal d => decimal d.canon
  | blob bytes => blob (b.cut bytes)
  | timestamp t => timestamp t.floored
  | duration d => duration d.truncated
  | s => s

theorem toScalar_of_toDecimal (b : BlobLength) {p : Payload} {d : Decimal} (h : p.toDecimal = .ok d) :
    p.toScalar b = .ok (decimal d) := by
  cases p with
  | int128 _ | decimal _ _ _ =>
    rw [Payload.toScalar, h]
    rfl
  | _ => cases h

/-- Why a scalar is not read again, if it is not. -/
def overruns : Scalar → List ConvertError
  | timestamp t => t.overruns
  | _ => []

/-- A scalar has one overrun at most. -/
theorem overruns_cases (s : Scalar) : s.overruns = [] ∨ ∃ e, s.overruns = [e] := by
  cases s with
  | timestamp t =>
    rw [overruns, Instant.overruns]
    split
    · exact .inl rfl
    · exact .inr ⟨_, rfl⟩
  | _ => exact .inl rfl

theorem kind_of_mem_overruns {s : Scalar} {e : ConvertError} (h : e ∈ s.overruns) : e.kind = .conversionFailed := by
  cases s with
  | timestamp t => exact Instant.kind_of_mem_overruns h
  | _ => cases h

/-- **A scalar is read from its payload as its canonical form**, unless it is a timestamp that is counted in a second
outside the calendar. -/
theorem toScalar_of_toPayload (b : BlobLength) {s : Scalar} {p : Payload} (h : s.toPayload = .ok p) :
    p.toScalar b = firstError s.overruns (s.canon b) := by
  cases s with
  | decimal d => exact toScalar_of_toDecimal b (Decimal.toDecimal_of_toPayload h)
  | uuid u =>
    cases h
    rw [Uuid.toPayload, Payload.toScalar, Payload.toUuid, Uuid.ofText?_toText]
    rfl
  | timestamp t =>
    cases h
    change Except.map timestamp t.toPayload.toInstant = _
    rw [t.toInstant_toPayload, overruns, canon]
    cases t.overruns <;> rfl
  | duration d =>
    obtain ⟨i, rfl, hduration⟩ := Duration.toDuration_of_toPayload h
    rw [Payload.toScalar, hduration]
    rfl
  | _ =>
    cases h
    rfl

end Scalar

/-! ## Host values -/

namespace HostValue

mutual
/-- The value that is left of a value at every depth.  Graph elements are not encoded. -/
def canon (b : BlobLength) : HostValue → HostValue
  | scalar s => scalar (s.canon b)
  | list items => list (canonItems b items)
  | struct fields => struct (Fields.sorted (canonFields b fields))
  | map entries => map (canonEntries b entries)
  | v => v
def canonItems (b : BlobLength) : List HostValue → List HostValue
  | [] => []
  | v :: vs => canon b v :: canonItems b vs
def canonFields (b : BlobLength) : List (String × HostValue) → List (String × HostValue)
  | [] => []
  | (name, v) :: fs => (name, canon b v) :: canonFields b fs
def canonEntries (b : BlobLength) : List (HostValue × HostValue) → List (HostValue × HostValue)
  | [] => []
  | (k, v) :: es => (canon b k, canon b v) :: canonEntries b es
end

theorem canonItems_eq_map (b : BlobLength) (vs : List HostValue) : canonItems b vs = vs.map (canon b) := by
  induction vs with
  | nil => rfl
  | cons v vs ih => exact congrArg (_ :: ·) ih

theorem canonFields_eq_map (b : BlobLength) (fs : List (String × HostValue)) :
    canonFields b fs = fs.map fun f => (f.1, f.2.canon b) := by
  induction fs with
  | nil => rfl
  | cons f fs ih => exact congrArg (_ :: ·) ih

theorem sorted_canonFields (b : BlobLength) (fs : List (String × HostValue)) :
    Fields.sorted (canonFields b fs) = (Fields.sorted fs).map fun f => (f.1, f.2.canon b) := by
  rw [canonFields_eq_map, Fields.sorted_map_snd]

theorem canonEntries_eq_map (b : BlobLength) (es : List (HostValue × HostValue)) :
    canonEntries b es = es.map fun e => (e.1.canon b, e.2.canon b) := by
  induction es with
  | nil => rfl
  | cons e es ih => exact congrArg (_ :: ·) ih

mutual
/-- How deep lists, structs and maps are nested. -/
def nesting : HostValue → Nat
  | list items => nestingItems items + 1
  | struct fields => nestingFields fields + 1
  | map entries => nestingEntries entries + 1
  | _ => 0
def nestingItems : List HostValue → Nat
  | [] => 0
  | v :: vs => max (nesting v) (nestingItems vs)
def nestingFields : List (String × HostValue) → Nat
  | [] => 0
  | (_, v) :: fs => max (nesting v) (nestingFields fs)
def nestingEntries : List (HostValue × HostValue) → Nat
  | [] => 0
  | (k, v) :: es => max (max (nesting k) (nesting v)) (nestingEntries es)
end

end HostValue

end ValueBridge
