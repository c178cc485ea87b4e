import ValueBridge.Convert.Scalar
import ValueBridge.Proofs.Results
/-!
# Which payloads can be converted

A payload is `Convertible` if it stands for a scalar of the host.  Only decimals, instants and intervals can fail to be,
and UUIDs whose text is malformed, which the engine does not take in (`toScalar_isOk`); the error is then always one of a
conversion that failed (`kind_of_toScalar`).
-/
namespace ValueBridge

/-! ## Instants -/

/-- What is left of a second, counted in a unit that divides it, is less than a second of nanoseconds. -/
theorem Instant.subsecond_lt (count : Int) {perSecond : Nat} (hpos : 0 < perSecond) (hdvd : perSecond ∣ 1000000000) :
    (count % perSecond).toNat * (1000000000 / perSecond) < 1000000000 := by
  obtain ⟨k, hk⟩ := hdvd
  have hper : (0 : Int) < perSecond := by omega
  have hmod : (count % perSecond).toNat < perSecond := by
    have h₁ := Int.emod_lt_of_pos count hper
    have h₂ := Int.emod_nonneg count (Int.ne_of_gt hper)
    omega
  have hkpos : 0 < k := Nat.pos_of_ne_zero (by rintro rfl; omega)
  rw [hk, Nat.mul_div_cancel_left k hpos]
  exact Nat.mul_lt_mul_of_pos_right hmod hkpos

/-- The instants of the calendar, counted in a unit of which a second has `perSecond`. -/
theorem Instant.ofUnits?_isSome {count : Int} {perSecond : Nat} (hpos : 0 < perSecond)
    (hdvd : perSecond ∣ 1000000000) : (ofUnits? count perSecond).isSome ↔
      -8334601228800 * perSecond ≤ count ∧ count < 8210266876800 * perSecond := by
  have hper : (0 : Int) < perSecond := by omega
  have hlo : -8334601228800 ≤ count / perSecond ↔ -8334601228800 * (perSecond : Int) ≤ count :=
    Int.le_ediv_iff_mul_le hper
  have hhi : count / perSecond < 8210266876800 ↔ count < 8210266876800 * (perSecond : Int) :=
    Int.ediv_lt_iff_lt_mul hper
  have hnanos := subsecond_lt count hpos hdvd
  unfold ofUnits? ofSeconds?
  rw [← hlo, ← hhi]
  split
  · rename_i h
    exact ⟨fun _ => ⟨h.1, by omega⟩, fun _ => rfl⟩
  · rename_i h
    exact ⟨fun hsome => (by cases hsome), fun hrange => absurd ⟨hrange.1, by omega, .inl hnanos⟩ h⟩

/-- No instant in a leap second is counted in units of a second. -/
theorem Instant.nanos_lt_of_ofUnits? {count : Int} {perSecond : Nat} {i : Instant} (hpos : 0 < perSecond)
    (hdvd : perSecond ∣ 1000000000) (h : ofUnits? count perSecond = some i) : i.nanos < 1000000000 := by
  have hnanos := subsecond_lt count hpos hdvd
  unfold ofUnits? ofSeconds? at h
  split at h
  · cases h
    exact hnanos
  · cases h

theorem Temporal.perSecond_dvd (t : Temporal) : 0 < t.reading.2 ∧ t.reading.2 ∣ 1000000000 := by
  cases t <;> simp only [reading] <;> decide

/-! ## Convertible payloads -/

namespace Payload

/-- Whether a payload can be converted: a decimal is written as one, an instant lies in the calendar, and the length of
an interval fits 64 bits in microseconds. -/
def Convertible : Payload → Prop
  | decimal text _ _ => (Decimal.ofText? text).isSome
  | temporal t => -8334601228800 * t.reading.2 ≤ t.reading.1 ∧ t.reading.1 < 8210266876800 * t.reading.2
  | interval i => -2 ^ 63 ≤ i.length ∧ i.length < 2 ^ 63
  | _ => True

theorem toInstant_isOk (t : Temporal) : (∃ i, t.toInstant = .ok i) ↔ (temporal t).Convertible := by
  have hunits : (∃ i, t.toInstant = .ok i) ↔ (Instant.ofUnits? t.reading.1 t.reading.2).isSome := by
    unfold Temporal.toInstant
    cases h : Instant.ofUnits? t.reading.1 t.reading.2 <;> simp [h]
  rw [hunits, Instant.ofUnits?_isSome t.perSecond_dvd.1 t.perSecond_dvd.2]
  rfl

theorem toDuration_isOk (i : Interval) : (∃ d, i.toDuration = .ok d) ↔ (interval i).Convertible := by
  rw [Interval.toDuration, Convertible, Interval.totalMicros?]
  cases h : (Ranged.ofInt? i.length : Option (IntOf .int64)) with
  | none =>
    have hrange := Ranged.ofInt?_eq_none.1 h
    simp only [IntWidth.lo, IntWidth.hi] at hrange
    simp only [reduceCtorEq, exists_false, false_iff]
    omega
  | some n =>
    have hn := Ranged.ofInt?_eq_some.1 h
    have hlo := n.lo_le
    have hhi := n.le_hi
    simp only [IntWidth.lo, IntWidth.hi] at hlo hhi
    simp only [Except.ok.injEq, exists_eq', true_iff]
    omega

/-- **The payloads that can be converted**, when UUIDs are well formed. -/
theorem toScalar_isOk (b : BlobLength) {p : Payload} (hp : ∀ text, p = .uuid text → (Uuid.ofText? text).isSome) :
    (∃ s, p.toScalar b = .ok s) ↔ p.Convertible := by
  cases p with
  | interval i =>
    rw [toScalar, map_isOk]
    exact toDuration_isOk i
  | temporal t =>
    rw [toScalar, map_isOk]
    exact toInstant_isOk t
  | decimal text p s =>
    rw [toScalar, map_isOk, toDecimal, Convertible]
    cases Decimal.ofText? text <;> simp
  | uuid text =>
    rw [toScalar, map_isOk, toUuid]
    obtain ⟨u, hu⟩ := Option.isSome_iff_exists.1 (hp text rfl)
    rw [hu]
    simp [Convertible]
  | _ => exact ⟨fun _ => trivial, fun _ => ⟨_, rfl⟩⟩

/-! ## Payloads that cannot be converted -/

theorem kind_of_temporal {t : Temporal} {e : ConvertError} (h : t.toInstant = .error e) :
    e.kind = .conversionFailed := by
  unfold Temporal.toInstant at h
  dsimp only at h
  split at h <;> cases h
  rfl

theorem kind_of_interval {i : Interval} {e : ConvertError} (h : i.toDuration = .error e) :
    e.kind = .conversionFailed := by
  unfold Interval.toDuration at h
  split at h <;> cases h
  rfl

theorem kind_of_toDecimal {p : Payload} {e : ConvertError} (h : p.toDecimal = .error e) :
    e.kind = .conversionFailed := by
  cases p with
  | decimal text p s =>
    rw [toDecimal] at h
    split at h <;> cases h
    rfl
  | int128 n => cases h
  | _ =>
    cases h
    rfl

theorem kind_of_toUuid {p : Payload} {e : ConvertError} (h : p.toUuid = .error e) : e.kind = .conversionFailed := by
  cases p with
  | uuid text =>
    rw [toUuid] at h
    split at h <;> cases h
    rfl
  | _ =>
    cases h
    rfl

theorem kind_of_toScalar {b : BlobLength} {p : Payload} {e : ConvertError} (h : p.toScalar b = .error e) :
    e.kind = .conversionFailed := by
  cases p with
  | interval i => exact kind_of_interval (map_eq_error.1 h)
  | temporal t => exact kind_of_temporal (map_eq_error.1 h)
  | decimal text p s => exact kind_of_toDecimal (map_eq_error.1 h)
  | uuid text => exact kind_of_toUuid (map_eq_error.1 h)
  | _ => cases h

end Payload

end ValueBridge
