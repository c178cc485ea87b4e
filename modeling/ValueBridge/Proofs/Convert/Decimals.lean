import ValueBridge.Engine.Stored
import ValueBridge.Proofs.Host.Canon
import ValueBridge.Proofs.Number.Value
import ValueBridge.Proofs.Results
/-!
# What decimals are stored as

A decimal is stored as a 128-bit integer exactly if it stands for one, and as a decimal payload exactly if it is not whole
and needs no more digits than the engine keeps, those of its coefficient or those after the point.  Either payload passes
the engine's check and is read as the same number, and so is a 128-bit integer that is restated as a decimal, which is
possible up to 38 digits (`Decimal.stored_exactly`).
-/
namespace ValueBridge.Decimal

variable {d : Decimal} {p : Payload}

/-! ## Decimal payloads -/

theorem width_pos (d : Decimal) : 0 < d.width := Nat.length_toDigits_pos

/-- Decimal payloads are made of exactly the decimals that need at most 38 digits. -/
theorem toDecimalPayload_eq_ok_iff : d.toDecimalPayload = .ok p ↔ max (d.width : Int) d.scale ≤ maxPrecision ∧
    p = .decimal d.toText (max (d.width : Int) d.scale).toNat d.scale.toNat := by
  unfold toDecimalPayload
  dsimp only
  split
  · rename_i hlong
    exact ⟨fun h => (by cases h), fun h => absurd h.1 (Int.not_le.2 hlong)⟩
  · rename_i hfits
    rw [Except.ok.injEq, eq_comm]
    exact ⟨fun h => ⟨Int.not_lt.1 hfits, h⟩, fun h => h.2⟩

/-- The precision and the scale of a decimal payload are those of the decimal, within the bounds of the engine and
within a byte. -/
structure Bounds (d : Decimal) (precision scale : Nat) : Prop where
  precision_eq : (precision : Int) = max (d.width : Int) d.scale
  scale_eq : (scale : Int) = d.scale
  scale_le : scale ≤ precision
  pos : 1 ≤ precision
  le_max : precision ≤ maxPrecision
  precision_byte : (UInt8.ofInt (max (d.width : Int) d.scale)).toNat = precision
  scale_byte : (UInt8.ofInt d.scale).toNat = scale

theorem toNat_ofInt_of_lt {n : Int} {k : Nat} (h : (k : Int) = n) (hk : k < 256) : (UInt8.ofInt n).toNat = k := by
  have hmod : (n % 2 ^ 8).toNat = k := by omega
  rw [UInt8.ofInt, hmod, UInt8.toNat_ofNat']
  exact Nat.mod_eq_of_lt hk

theorem bounds_of_fits (hscale : 0 ≤ d.scale) (hfits : max (d.width : Int) d.scale ≤ maxPrecision) :
    d.Bounds (max (d.width : Int) d.scale).toNat d.scale.toNat := by
  have hwidth := d.width_pos
  have hmax : maxPrecision = 38 := rfl
  have hprecision : ((max (d.width : Int) d.scale).toNat : Int) = max (d.width : Int) d.scale :=
    Int.toNat_of_nonneg (by omega)
  have hscale' : (d.scale.toNat : Int) = d.scale := Int.toNat_of_nonneg hscale
  exact ⟨hprecision, hscale', by omega, by omega, by omega, toNat_ofInt_of_lt hprecision (by omega),
    toNat_ofInt_of_lt hscale' (by omega)⟩

theorem checkPayload_of_bounds {text : String} {precision scale : Nat} (h : d.Bounds precision scale) :
    Stored.checkPayload (.decimal text precision scale) = .ok () := by
  have hscale := h.scale_le
  have hmax := h.le_max
  rw [Stored.checkPayload, if_neg (by omega)]

/-! ## Whole and fractional decimals -/

theorem scale_pos_of_not_isWhole (h : ¬d.isWhole) : 0 < d.scale := Int.not_le.1 fun hle => h (isWhole_of_nonpos hle)

theorem toPayload_of_not_isWhole (h : ¬d.isWhole) : d.toPayload = d.toDecimalPayload := by
  unfold toPayload
  rw [if_neg h, if_neg (Int.not_lt.2 (Int.le_of_lt (scale_pos_of_not_isWhole h)))]

/-- **The 128-bit integers are the decimals that stand for one.** -/
theorem toPayload_eq_int128_iff {n : Int128} : d.toPayload = .ok (.int128 n) ↔ d.toRat = n.val := by
  constructor
  · intro h
    by_cases hwhole : d.isWhole
    · obtain ⟨m, hm, heq⟩ := int128_of_toPayload h hwhole
      cases heq
      rw [hm]
      exact toRat_truncate hwhole
    · rw [toPayload_of_not_isWhole hwhole, toDecimalPayload_eq_ok_iff] at h
      cases h.2
  · intro h
    obtain ⟨hwhole, htruncate⟩ := truncate_of_toRat h
    unfold toPayload
    rw [if_pos hwhole, htruncate, Ranged.ofInt?_val]

/-- Every other payload is that of a fractional decimal that needs at most 38 digits. -/
theorem toPayload_eq_other_iff : (d.toPayload = .ok p ∧ ∀ n, p ≠ .int128 n) ↔ (¬∃ n : Int, d.toRat = n) ∧
    max (d.width : Int) d.scale ≤ maxPrecision ∧
      p = .decimal d.toText (max (d.width : Int) d.scale).toNat d.scale.toNat := by
  rw [← isWhole_iff_exists_int]
  constructor
  · rintro ⟨h, hother⟩
    have hwhole : ¬d.isWhole := fun hwhole => by
      obtain ⟨n, -, rfl⟩ := int128_of_toPayload h hwhole
      exact hother n rfl
    rw [toPayload_of_not_isWhole hwhole, toDecimalPayload_eq_ok_iff] at h
    exact ⟨hwhole, h⟩
  · rintro ⟨hwhole, hfits, rfl⟩
    refine ⟨?_, fun n hn => by cases hn⟩
    rw [toPayload_of_not_isWhole hwhole, toDecimalPayload_eq_ok_iff]
    exact ⟨hfits, rfl⟩

/-! ## What the payload says -/

/-- The engine takes the payload in, and it is read as the number. -/
structure States (p : Payload) (x : Rat) : Prop where
  check : Stored.checkPayload p = .ok ()
  read : ∃ e, p.toDecimal = .ok e ∧ e.toRat = x

theorem states_of_toPayload (h : d.toPayload = .ok p) : States p d.toRat where
  check := by
    by_cases hwhole : d.isWhole
    · obtain ⟨n, -, rfl⟩ := int128_of_toPayload h hwhole
      rfl
    · rw [toPayload_of_not_isWhole hwhole, toDecimalPayload_eq_ok_iff] at h
      obtain ⟨hfits, rfl⟩ := h
      exact checkPayload_of_bounds (bounds_of_fits (Int.le_of_lt (scale_pos_of_not_isWhole hwhole)) hfits)
  read := ⟨d.canon, toDecimal_of_toPayload h, sameValue_iff_toRat.1 (sameValue_canon d)⟩

/-! ## Restated integers -/

variable {n : Int}

theorem restatedInt128_eq_ok_iff : restatedInt128 n = .ok p ↔
    digitCount n.natAbs ≤ maxPrecision ∧ p = .decimal (ofInt n).toText (digitCount n.natAbs) 0 := by
  have hprecision : max ((ofInt n).width : Int) (ofInt n).scale = digitCount n.natAbs :=
    max_eq_left (Int.natCast_nonneg _)
  rw [restatedInt128, toDecimalPayload_eq_ok_iff, hprecision, Int.ofNat_le]
  rfl

/-- **Integers of at most 38 digits can be restated.** -/
theorem restatedInt128_isOk : (∃ p, restatedInt128 n = .ok p) ↔ n.natAbs < 10 ^ 38 := by
  have hdigits : digitCount n.natAbs ≤ maxPrecision ↔ n.natAbs < 10 ^ 38 :=
    Nat.length_toDigits_le_iff (by decide) (by decide)
  rw [← hdigits]
  constructor
  · rintro ⟨p, hp⟩
    exact (restatedInt128_eq_ok_iff.1 hp).1
  · exact fun h => ⟨_, restatedInt128_eq_ok_iff.2 ⟨h, rfl⟩⟩

theorem states_of_restatedInt128 (h : restatedInt128 n = .ok p) : States p n where
  check := by
    obtain ⟨hdigits, rfl⟩ := restatedInt128_eq_ok_iff.1 h
    rw [Stored.checkPayload, if_neg (by omega)]
  read := ⟨ofInt n, toDecimal_of_restatedInt128 h, toRat_ofInt n⟩

/-- **A decimal is stored exactly**: as a 128-bit integer if and only if it stands for one; otherwise if and only if it is
not whole and needs at most 38 digits, with that precision and its own scale.  What is stored passes the engine's check
and is read as the same number, also when a 128-bit integer is restated, as all those below `10^38` can be. -/
theorem stored_exactly (d : Decimal) :
    (∀ n : Int128, d.toPayload = .ok (.int128 n) ↔ d.toRat = n.val) ∧
    (∀ p, (d.toPayload = .ok p ∧ ∀ n, p ≠ .int128 n) ↔ (¬∃ n : Int, d.toRat = n) ∧
      max (d.width : Int) d.scale ≤ 38 ∧ p = .decimal d.toText (max (d.width : Int) d.scale).toNat d.scale.toNat) ∧
    (∀ text precision scale, d.toPayload = .ok (.decimal text precision scale) → d.Bounds precision scale) ∧
    (∀ p, d.toPayload = .ok p → States p d.toRat) ∧
    ∀ n : Int128, ((∃ p, restatedInt128 n.val = .ok p) ↔ n.val.natAbs < 10 ^ 38) ∧
      ∀ p, restatedInt128 n.val = .ok p → States p n.val := by
  refine ⟨fun n => toPayload_eq_int128_iff, fun p => toPayload_eq_other_iff, fun text precision scale h => ?_,
    fun p => states_of_toPayload, fun n => ⟨restatedInt128_isOk, fun p => states_of_restatedInt128⟩⟩
  obtain ⟨hwhole, hfits, heq⟩ := toPayload_eq_other_iff.1 ⟨h, fun n hn => by cases hn⟩
  cases heq
  rw [← isWhole_iff_exists_int] at hwhole
  exact bounds_of_fits (Int.le_of_lt (scale_pos_of_not_isWhole hwhole)) hfits

/-- The largest 128-bit integer, written with a digit after the point, is stored as itself; the next one is not stored at
all, and the largest cannot be restated.  A decimal with no digit but the 38th after the point has just enough room. -/
theorem stored_exactly_edges :
    let largest : Int128 := ⟨2 ^ 127 - 1, by decide, by decide⟩
    toPayload ⟨largest.val * 10, 1⟩ = .ok (.int128 largest) ∧
      (¬∃ n : Int128, toPayload ⟨2 ^ 127, 0⟩ = .ok (.int128 n)) ∧ (¬∃ p, restatedInt128 largest.val = .ok p) ∧
      Bounds ⟨-1, 38⟩ 38 38 := by
  intro largest
  refine ⟨((stored_exactly _).1 largest).2 ?_, ?_, fun h => ?_, ?_⟩
  · norm_num [toRat, largest]
  · rintro ⟨n, hn⟩
    have hval : ((2 ^ 127 : Int) : Rat) = n.val := ((stored_exactly _).1 n).1 hn ▸ (toRat_ofInt (2 ^ 127)).symm
    have hle := n.le_hi
    rw [Int.cast_inj] at hval
    omega
  · exact absurd (((stored_exactly ⟨0, 0⟩).2.2.2.2 largest).1.1 h) (by decide)
  · exact (stored_exactly ⟨-1, 38⟩).2.2.1 "-1E-38" 38 38 rfl

end ValueBridge.Decimal
