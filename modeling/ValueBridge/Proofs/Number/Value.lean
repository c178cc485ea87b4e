import ValueBridge.Proofs.Number.DecimalText
import Mathlib.Algebra.Field.Rat
import Mathlib.Algebra.GroupWithZero.Basic
import Mathlib.Algebra.Order.Ring.Rat
import Mathlib.Data.Rat.Cast.Defs
import Mathlib.Tactic.Ring
/-!
# The number that a decimal stands for

Decimals are compared without building the numbers that they stand for.  `toRat` is that number, and two decimals have
the same value exactly if their numbers are equal (`sameValue_iff_toRat`).  Whether a decimal is whole, and which integer
it then is, depends on its number alone (`isWhole_iff_exists_int`, `truncate_of_toRat`).
-/
namespace ValueBridge.Decimal

/-- The number `digits · 10^(-scale)`. -/
def toRat (d : Decimal) : Rat := d.digits * 10 ^ (-d.scale)

variable {a b d : Decimal}

theorem toRat_ofInt (n : Int) : (ofInt n).toRat = n := by
  unfold toRat ofInt
  rw [neg_zero, zpow_zero, mul_one]

theorem ten_zpow_ne_zero (k : Int) : (10 : Rat) ^ k ≠ 0 := zpow_ne_zero k (by decide)

/-- Bringing a coefficient to a larger scale does not change the number. -/
theorem toRat_eq_shifted (h : a.scale ≤ b.scale) :
    a.toRat = ((a.digits * 10 ^ (b.scale - a.scale).toNat : Int) : Rat) * 10 ^ (-b.scale) := by
  obtain ⟨k, hk⟩ : ∃ k : Nat, b.scale = a.scale + k := ⟨(b.scale - a.scale).toNat, by omega⟩
  have hnat : (b.scale - a.scale).toNat = k := by omega
  have hexponent : -a.scale = (k : Int) + -b.scale := by omega
  rw [hnat, toRat, hexponent, zpow_add₀ (by decide), zpow_natCast]
  push_cast
  ring

theorem toRat_eq_iff_of_le (h : a.scale ≤ b.scale) :
    a.toRat = b.toRat ↔ a.digits * 10 ^ (b.scale - a.scale).toNat = b.digits := by
  rw [toRat_eq_shifted h, toRat, mul_left_inj' (ten_zpow_ne_zero _), Int.cast_inj]

/-- **Decimals have the same value exactly if they stand for the same number.** -/
theorem sameValue_iff_toRat : a.sameValue b ↔ a.toRat = b.toRat := by
  unfold sameValue
  split
  · rename_i h
    rw [isShifted_iff, toRat_eq_iff_of_le h]
  · rename_i h
    rw [isShifted_iff, eq_comm (a := a.toRat), toRat_eq_iff_of_le (by omega)]

/-! ## Whole decimals -/

theorem toRat_truncate (h : d.isWhole) : d.toRat = d.truncate := by
  rw [← toRat_ofInt, ← sameValue_iff_toRat.1 (sameValue_truncate h)]

/-- A decimal that stands for an integer is whole, and is that integer. -/
theorem truncate_of_toRat {n : Int} (h : d.toRat = n) : d.isWhole ∧ d.truncate = n := by
  have hwhole : d.isWhole := by
    by_cases hscale : d.scale ≤ 0
    · exact isWhole_of_nonpos hscale
    · have hpos : 0 < d.scale := Int.not_le.1 hscale
      have hshift := (toRat_eq_iff_of_le (a := ofInt n) (b := d) (Int.le_of_lt hpos)).1 (by rw [toRat_ofInt, h])
      have hten : (10 : Int) ^ d.scale.toNat ≠ 0 := Int.pow_ne_zero (by decide)
      have htruncate : d.truncate = n := by
        rw [truncate_of_pos hpos, ← hshift, ofInt, Int.sub_zero, Int.mul_tdiv_cancel n hten]
      rw [isWhole, Bool.or_eq_true, isShifted_iff, htruncate]
      rw [ofInt, Int.sub_zero] at hshift
      exact .inr hshift
  refine ⟨hwhole, ?_⟩
  have hcast := toRat_truncate hwhole
  rw [h, Int.cast_inj] at hcast
  exact hcast.symm

/-- **The whole decimals are those that stand for integers.** -/
theorem isWhole_iff_exists_int : d.isWhole ↔ ∃ n : Int, d.toRat = n :=
  ⟨fun h => ⟨d.truncate, toRat_truncate h⟩, fun ⟨_, hn⟩ => (truncate_of_toRat hn).1⟩

/-- Decimals of the same number are whole together. -/
theorem isWhole_congr (h : a.toRat = b.toRat) : a.isWhole = b.isWhole := by
  rw [Bool.eq_iff_iff, isWhole_iff_exists_int, isWhole_iff_exists_int, h]

end ValueBridge.Decimal
