import ValueBridge.Proofs.Convert.Payload
import ValueBridge.Proofs.Host.Canon
/-!
# Instants are exact

The count of a temporal payload is brought to seconds and nanoseconds by divisions and products of 64-bit integers
(`Temporal.toInstant64?`), none of which overflows (`Temporal.toInstant64?_eq`).  An instant is therefore the exact
number of nanoseconds that its payload states, whatever the unit and the sign, and every payload whose nanoseconds lie
in the calendar has one (`Temporal.toInstant_exact`).
-/
namespace ValueBridge

theorem Ranged.exists_ofInt? {lo hi n : Int} (hlo : lo ≤ n) (hhi : n ≤ hi) :
    ∃ a : Ranged lo hi, ofInt? n = some a ∧ a.val = n :=
  ⟨⟨n, hlo, hhi⟩, ofInt?_eq_some.2 rfl, rfl⟩

/-! ## Arithmetic of 64 bits

An operation is `none` where its result does not fit 64 bits, and where the divisor is zero. -/

abbrev Long := IntOf .int64

namespace Long

def mul? (a b : Long) : Option Long := Ranged.ofInt? (a.val * b.val)

/-- The quotient whose remainder is not negative. -/
def div? (a b : Long) : Option Long := if b.val = 0 then none else Ranged.ofInt? (a.val / b.val)

/-- The remainder that is not negative, where the quotient fits. -/
def rem? (a b : Long) : Option Long := (a.div? b).bind fun _ => Ranged.ofInt? (a.val % b.val)

/-- The quotient rounded toward zero. -/
def quot? (a b : Long) : Option Long := if b.val = 0 then none else Ranged.ofInt? (a.val.tdiv b.val)

variable {a b : Long}

theorem mul?_of_bounds (hlo : -2 ^ 63 ≤ a.val * b.val) (hhi : a.val * b.val < 2 ^ 63) :
    ∃ c, a.mul? b = some c ∧ c.val = a.val * b.val :=
  Ranged.exists_ofInt? hlo (Int.le_sub_one_of_lt hhi)

/-- A quotient by a positive number is no further from zero than what is divided. -/
theorem div?_of_pos (hb : 0 < b.val) : ∃ c, a.div? b = some c ∧ c.val = a.val / b.val := by
  have hlo : IntWidth.lo .int64 ≤ a.val / b.val := by
    have hmul : IntWidth.lo .int64 * b.val ≤ IntWidth.lo .int64 * 1 :=
      Int.mul_le_mul_of_nonpos_left (by decide) (by omega)
    have ha := a.lo_le
    exact (Int.le_ediv_iff_mul_le hb).2 (by omega)
  have hhi : a.val / b.val ≤ IntWidth.hi .int64 := by
    have hmul : IntWidth.hi .int64 * 1 ≤ IntWidth.hi .int64 * b.val := Int.mul_le_mul_of_nonneg_left (by omega) (by decide)
    have ha := a.le_hi
    exact Int.ediv_le_of_le_mul hb (by omega)
  rw [div?, if_neg (Int.ne_of_gt hb)]
  exact Ranged.exists_ofInt? hlo hhi

theorem rem?_of_pos (hb : 0 < b.val) : ∃ c, a.rem? b = some c ∧ c.val = a.val % b.val := by
  obtain ⟨q, hq, -⟩ := div?_of_pos (a := a) hb
  have hlo := Int.emod_nonneg a.val (Int.ne_of_gt hb)
  have hlt := Int.emod_lt_of_pos a.val hb
  have hmax := b.le_hi
  have hmin : IntWidth.lo .int64 ≤ 0 := by decide
  rw [rem?, hq, Option.bind_some]
  exact Ranged.exists_ofInt? (by omega) (by omega)

theorem quot?_of_pos (ha : 0 ≤ a.val) (hb : 0 < b.val) : ∃ c, a.quot? b = some c ∧ c.val = a.val / b.val := by
  have heq : a.quot? b = a.div? b := by rw [quot?, div?, Int.tdiv_eq_ediv_of_nonneg ha]
  rw [heq]
  exact div?_of_pos hb

end Long

/-! ## Instants by arithmetic of 64 bits -/

def secondsPerDay : Long := ⟨86400, by decide, by decide⟩

def nanosPerSecond : Long := ⟨1000000000, by decide, by decide⟩

/-- The instant `count` units after 1970 by operations of 64 bits, `none` where one of them overflows.  Nanoseconds that
do not fit 32 bits without a sign are refused like an instant outside the calendar. -/
def Instant.ofUnits64? (count perSecond : Long) : Option (Option Instant) := do
  let seconds ← count.div? perSecond
  let sub ← count.rem? perSecond
  let unit ← nanosPerSecond.quot? perSecond
  let product ← sub.mul? unit
  return (Ranged.ofInt? product.val : Option (IntOf .uint32)).bind fun nanos =>
    ofSeconds? seconds.val nanos.val.toNat

/-- The count and the units of a second of a payload, `none` where an operation of 64 bits overflows. -/
def Temporal.reading64? : Temporal → Option (Long × Long)
  | date days => do
    let seconds ← Long.mul? (days.widen (by decide) (by decide)) secondsPerDay
    return (seconds, ⟨1, by decide, by decide⟩)
  | timestamp n | timestampTz n => some (n, ⟨1000000, by decide, by decide⟩)
  | timestampMs n => some (n, ⟨1000, by decide, by decide⟩)
  | timestampNs n => some (n, nanosPerSecond)
  | timestampSec n => some (n, ⟨1, by decide, by decide⟩)

/-- `Temporal.toInstant` by operations of 64 bits, `none` where one of them overflows. -/
def Temporal.toInstant64? (t : Temporal) : Option (Except ConvertError Instant) := do
  let (count, perSecond) ← t.reading64?
  match ← Instant.ofUnits64? count perSecond with
  | some i => return .ok i
  | none => return .error ⟨.timestampOutOfRange count.val, []⟩

/-- **No operation of 64 bits overflows**, in a unit that divides a second. -/
theorem Instant.ofUnits64?_eq (count : Long) {perSecond : Long} {units : Nat} (hunits : perSecond.val = units)
    (hpos : 0 < units) (hdvd : units ∣ 1000000000) : ofUnits64? count perSecond = some (ofUnits? count.val units) := by
  have hper : 0 < perSecond.val := by omega
  obtain ⟨seconds, hseconds, hsecondsVal⟩ := Long.div?_of_pos (a := count) hper
  obtain ⟨sub, hsub, hsubVal⟩ := Long.rem?_of_pos (a := count) hper
  obtain ⟨unit, hunit, hunitVal⟩ := Long.quot?_of_pos (a := nanosPerSecond) (by decide) hper
  have hlt := subsecond_lt count.val hpos hdvd
  -- The nanoseconds within the second are the product that is refused neither by 64 bits nor by 32.
  have hproductVal : sub.val * unit.val = ((count.val % units).toNat * (1000000000 / units) : Nat) := by
    have hnonneg := Int.emod_nonneg count.val (Int.ne_of_gt hper)
    rw [hunits] at hnonneg
    rw [hsubVal, hunitVal, hunits, Int.natCast_mul, Int.toNat_of_nonneg hnonneg, Int.natCast_ediv]
    rfl
  obtain ⟨product, hproduct, hval⟩ := Long.mul?_of_bounds (a := sub) (b := unit) (by omega) (by omega)
  rw [hproductVal] at hval
  have hhi : product.val ≤ IntWidth.hi .uint32 := by
    have hmax : IntWidth.hi .uint32 = 4294967295 := by decide
    omega
  have hlo : IntWidth.lo .uint32 ≤ product.val := hval ▸ Int.natCast_nonneg _
  obtain ⟨nanos, hnanos, hnanosVal⟩ := Ranged.exists_ofInt? hlo hhi
  unfold ofUnits64? ofUnits?
  simp only [hseconds, hsub, hunit, hproduct, hnanos, Option.bind_eq_bind, Option.bind_some]
  rw [hsecondsVal, hunits, hnanosVal, hval, Int.toNat_natCast]
  rfl

theorem Temporal.reading64?_eq (t : Temporal) :
    ∃ count perSecond : Long, t.reading64? = some (count, perSecond) ∧ count.val = t.reading.1 ∧
      perSecond.val = t.reading.2 := by
  cases t with
  | date days =>
    have hlo := days.lo_le
    have hhi := days.le_hi
    simp only [IntWidth.lo, IntWidth.hi] at hlo hhi
    obtain ⟨seconds, hseconds, hval⟩ := Long.mul?_of_bounds
      (a := days.widen (by decide) (by decide)) (b := secondsPerDay) (by
        simp only [Ranged.widen, secondsPerDay]
        omega) (by
        simp only [Ranged.widen, secondsPerDay]
        omega)
    refine ⟨seconds, ⟨1, by decide, by decide⟩, ?_, hval, rfl⟩
    rw [reading64?, hseconds]
    rfl
  | _ => exact ⟨_, _, rfl, rfl, rfl⟩

/-- **Instants are read from payloads without an overflow.** -/
theorem Temporal.toInstant64?_eq (t : Temporal) : t.toInstant64? = some t.toInstant := by
  obtain ⟨count, perSecond, hreading, hcount, hunits⟩ := t.reading64?_eq
  unfold toInstant64? toInstant
  rw [hreading, Option.bind_eq_bind, Option.bind_some]
  dsimp only
  rw [Instant.ofUnits64?_eq count hunits t.perSecond_dvd.1 t.perSecond_dvd.2, Option.bind_eq_bind, Option.bind_some,
    hcount]
  cases Instant.ofUnits? t.reading.1 t.reading.2 <;> rfl

/-! ## Exact nanoseconds -/

/-- The integer that the engine keeps. -/
def Temporal.count : Temporal → Int
  | date days => days.val
  | timestamp n | timestampTz n | timestampMs n | timestampNs n | timestampSec n => n.val

/-- The nanoseconds of the unit in which the engine counts. -/
def Temporal.unit : Temporal → Int
  | date _ => 86400 * 1000000000
  | timestamp _ | timestampTz _ => 1000
  | timestampMs _ => 1000000
  | timestampNs _ => 1
  | timestampSec _ => 1000000000

/-- The nanoseconds since 1970 that a payload states. -/
def Temporal.nanos (t : Temporal) : Int := t.count * t.unit

namespace Instant

/-- The order of instants: by the second, and within a second by the nanosecond. -/
def Before (i j : Instant) : Prop := i.seconds < j.seconds ∨ (i.seconds = j.seconds ∧ i.nanos < j.nanos)

variable {i j : Instant}

/-- The parts of an instant are its nanoseconds since 1970 divided by the nanoseconds of a second. -/
theorem parts_eq (h : i.nanos < 1000000000) :
    i.seconds = i.toNanos / 1000000000 ∧ (i.nanos : Int) = i.toNanos % 1000000000 := by
  unfold toNanos
  omega

theorem eq_iff_toNanos (hi : i.nanos < 1000000000) (hj : j.nanos < 1000000000) : i = j ↔ i.toNanos = j.toNanos := by
  refine ⟨fun h => by rw [h], fun h => ?_⟩
  obtain ⟨hseconds, hnanos⟩ := parts_eq hi
  obtain ⟨hseconds', hnanos'⟩ := parts_eq hj
  rw [h] at hseconds hnanos
  cases i
  cases j
  rw [Instant.mk.injEq]
  exact ⟨hseconds.trans hseconds'.symm, Int.natCast_inj.1 (hnanos.trans hnanos'.symm)⟩

theorem before_iff_toNanos (hi : i.nanos < 1000000000) (hj : j.nanos < 1000000000) :
    i.Before j ↔ i.toNanos < j.toNanos := by
  unfold Before toNanos
  omega

end Instant

/-- An instant is as many nanoseconds as its units have. -/
theorem Instant.toNanos_of_ofUnits? {count : Int} {perSecond : Nat} {i : Instant} (hdvd : perSecond ∣ 1000000000)
    (h : ofUnits? count perSecond = some i) : i.toNanos = count * (1000000000 / perSecond : Nat) := by
  obtain ⟨k, hk⟩ := hdvd
  have hpos : 0 < perSecond := Nat.pos_of_ne_zero (by rintro rfl; omega)
  have hunit : 1000000000 / perSecond = k := by rw [hk, Nat.mul_div_cancel_left k hpos]
  have hbillion : (1000000000 : Int) = perSecond * k := by
    rw [← Int.natCast_mul, ← hk]
    rfl
  have hnonneg : 0 ≤ count % perSecond := Int.emod_nonneg count (by omega)
  unfold ofUnits? ofSeconds? at h
  rw [hunit] at h ⊢
  split at h
  · cases h
    calc count / perSecond * 1000000000 + ((count % perSecond).toNat * k : Nat)
        = count / perSecond * (perSecond * k) + count % perSecond * k := by
          rw [hbillion, Int.natCast_mul, Int.toNat_of_nonneg hnonneg]
      _ = (perSecond * (count / perSecond) + count % perSecond) * k := by
          rw [Int.add_mul, ← Int.mul_assoc, Int.mul_comm (count / perSecond)]
      _ = count * k := by rw [Int.mul_ediv_add_emod]
  · cases h

namespace Temporal

theorem reading_nanos (t : Temporal) : t.reading.1 * (1000000000 / t.reading.2 : Nat) = t.nanos := by
  cases t <;> simp only [reading, nanos, count, unit] <;> omega

variable {t : Temporal} {i : Instant}

theorem toNanos_of_toInstant (h : t.toInstant = .ok i) : i.toNanos = t.nanos := by
  unfold toInstant at h
  dsimp only at h
  split at h
  · rename_i heq
    cases h
    rw [Instant.toNanos_of_ofUnits? t.perSecond_dvd.2 heq, reading_nanos]
  · cases h

/-- No instant that is read from a payload is in a leap second. -/
theorem nanos_lt_of_toInstant (h : t.toInstant = .ok i) : i.nanos < 1000000000 := by
  unfold toInstant at h
  dsimp only at h
  split at h
  · rename_i heq
    cases h
    exact Instant.nanos_lt_of_ofUnits? t.perSecond_dvd.1 t.perSecond_dvd.2 heq
  · cases h

/-- The calendar in nanoseconds, whatever the unit. -/
theorem toInstant_isOk_iff (t : Temporal) :
    (∃ i, t.toInstant = .ok i) ↔ Instant.first.toNanos ≤ t.nanos ∧ t.nanos ≤ Instant.last.toNanos := by
  rw [Payload.toInstant_isOk, Payload.Convertible]
  simp only [Instant.first, Instant.last, Instant.toNanos]
  cases t <;> simp only [reading, nanos, count, unit] <;> omega

/-- **Instants are exact.**  No operation overflows; the payloads whose nanoseconds lie in the calendar are read, as the
instant of so many nanoseconds, with the second rounded down; instants are equal or before each other as their
nanoseconds are, whatever the units; and an instant that is written and read again is rounded down to a microsecond. -/
theorem toInstant_exact (t : Temporal) :
    t.toInstant64? = some t.toInstant ∧
    ((∃ i, t.toInstant = .ok i) ↔ Instant.first.toNanos ≤ t.nanos ∧ t.nanos ≤ Instant.last.toNanos) ∧
    ∀ i, t.toInstant = .ok i →
      (i.toNanos = t.nanos ∧ i.seconds = t.nanos / 1000000000 ∧ (i.nanos : Int) = t.nanos % 1000000000 ∧
        i.nanos < 1000000000) ∧
      (∀ (u : Temporal) (j : Instant), u.toInstant = .ok j →
        (i = j ↔ t.nanos = u.nanos) ∧ (i.Before j ↔ t.nanos < u.nanos)) ∧
      i.toPayload.toInstant = .ok i.floored ∧ i.floored.toNanos = t.nanos / 1000 * 1000 := by
  refine ⟨t.toInstant64?_eq, t.toInstant_isOk_iff, fun i hi => ?_⟩
  have hlt := nanos_lt_of_toInstant hi
  have hcountable := Instant.countable_of_lt hlt
  obtain ⟨hseconds, hnanos⟩ := Instant.parts_eq hlt
  have hreread : i.toPayload.toInstant = .ok i.floored := by
    rw [i.toInstant_toPayload, Instant.overruns_eq_nil_iff.2 hcountable, firstError]
  rw [← toNanos_of_toInstant hi]
  refine ⟨⟨rfl, hseconds, hnanos, hlt⟩, fun u j hj => ?_, hreread, Instant.toNanos_floored hcountable⟩
  rw [← toNanos_of_toInstant hj]
  have hlt' := nanos_lt_of_toInstant hj
  exact ⟨Instant.eq_iff_toNanos hlt hlt', Instant.before_iff_toNanos hlt hlt'⟩

/-- A millisecond before 1970 is a second before it and 999 milliseconds, in whatever unit it is counted. -/
theorem toInstant_exact_millisecondBefore :
    ∃ i : Instant, (timestampMs ⟨-1, by decide, by decide⟩).toInstant = .ok i ∧ i.seconds = -1 ∧ i.nanos = 999000000 ∧
      (timestampNs ⟨-1000000, by decide, by decide⟩).toInstant = .ok i := by
  have hms := toInstant_exact (timestampMs ⟨-1, by decide, by decide⟩)
  obtain ⟨i, hi⟩ := hms.2.1.2 (by decide)
  obtain ⟨⟨-, hseconds, hnanos, -⟩, hothers, -⟩ := hms.2.2 i hi
  obtain ⟨j, hj⟩ := (toInstant_exact (timestampNs ⟨-1000000, by decide, by decide⟩)).2.1.2 (by decide)
  obtain ⟨heq, -⟩ := hothers _ j hj
  have hij : i = j := heq.2 (by decide)
  exact ⟨i, hi, hseconds, Int.natCast_inj.1 hnanos, hij ▸ hj⟩

end Temporal

end ValueBridge
