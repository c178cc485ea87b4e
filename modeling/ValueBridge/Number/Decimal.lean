import ValueBridge.Number.Shortest
/-!
# Decimals of any precision

A decimal is a coefficient and a scale: `digits · 10^(-scale)`.  Coefficient and scale are kept as they were given, so
one number has many representations; `Decimal.sameValue` compares the numbers.  The scale may be negative, which then
stands for zeros after the coefficient.

A scale can be so large that its power of ten cannot be built.  `isShifted` therefore counts digits before it builds a
power; `isShifted_iff` says that the answer is the same.
-/
namespace ValueBridge

theorem lt_pow_digitCount (n : Nat) : n < 10 ^ digitCount n :=
  (Nat.length_toDigits_le_iff (by decide) Nat.length_toDigits_pos).1 (Nat.le_refl _)

/-- Whether `m` is `n · 10^k`.  A power with more digits than `m` is not built. -/
def isShifted (n : Int) (k : Nat) (m : Int) : Bool :=
  if n = 0 then m == 0
  else if digitCount m.natAbs ≤ k then false
  else n * 10 ^ k == m

theorem natAbs_lt_natAbs_shift {n m : Int} {k : Nat} (hn : n ≠ 0) (h : digitCount m.natAbs ≤ k) :
    m.natAbs < (n * 10 ^ k).natAbs := by
  have hm : m.natAbs < 10 ^ k := Nat.lt_of_lt_of_le (lt_pow_digitCount _) (Nat.pow_le_pow_right (by decide) h)
  have hk : ((10 : Int) ^ k).natAbs = 10 ^ k := by rw [Int.natAbs_pow]; rfl
  rw [Int.natAbs_mul, hk]
  exact Nat.lt_of_lt_of_le hm (Nat.le_mul_of_pos_left _ (Int.natAbs_pos.2 hn))

theorem isShifted_iff {n m : Int} {k : Nat} : isShifted n k m = true ↔ n * 10 ^ k = m := by
  unfold isShifted
  by_cases hn : n = 0
  · subst hn
    rw [if_pos rfl, Int.zero_mul, beq_iff_eq]
    exact eq_comm
  · by_cases h : digitCount m.natAbs ≤ k
    · have hlt := natAbs_lt_natAbs_shift hn h
      simp only [hn, h, if_true, if_false, Bool.false_eq_true, false_iff]
      rintro rfl
      exact Nat.lt_irrefl _ hlt
    · simp [hn, h]

/-- The number `digits · 10^(-scale)`. -/
structure Decimal where
  digits : Int
  scale : Int
deriving DecidableEq, Repr

namespace Decimal

def ofInt (n : Int) : Decimal := ⟨n, 0⟩

/-- How many digits the coefficient has; zero has one. -/
def width (d : Decimal) : Nat := digitCount d.digits.natAbs

/-- Equality of the numbers, whatever their scales: the coefficient of the smaller scale is brought to the larger. -/
def sameValue (a b : Decimal) : Bool :=
  if a.scale ≤ b.scale then isShifted a.digits (b.scale - a.scale).toNat b.digits
  else isShifted b.digits (a.scale - b.scale).toNat a.digits

/-- The whole part: what stands after the point is dropped. -/
def truncate (d : Decimal) : Int :=
  if d.digits = 0 ∨ (d.width : Int) ≤ d.scale then 0
  else if d.scale ≤ 0 then d.digits * 10 ^ (-d.scale).toNat
  else d.digits.tdiv (10 ^ d.scale.toNat)

/-- Whether nothing but zeros stands after the point. -/
def isWhole (d : Decimal) : Bool := decide (d.scale ≤ 0) || isShifted d.truncate d.scale.toNat d.digits

theorem truncate_of_nonpos {d : Decimal} (h : d.scale ≤ 0) : d.truncate = d.digits * 10 ^ (-d.scale).toNat := by
  have hw : 0 < d.width := Nat.length_toDigits_pos
  have hlt : ¬ (d.width : Int) ≤ d.scale := by omega
  unfold truncate
  by_cases hd : d.digits = 0
  · simp [hd]
  · simp [hd, hlt, h]

theorem truncate_of_pos {d : Decimal} (h : 0 < d.scale) : d.truncate = d.digits.tdiv (10 ^ d.scale.toNat) := by
  have hneg : ¬ d.scale ≤ 0 := by omega
  unfold truncate
  by_cases hd : d.digits = 0
  · simp [hd]
  · by_cases hw : (d.width : Int) ≤ d.scale
    · have hlt : d.digits.natAbs < 10 ^ d.scale.toNat :=
        Nat.lt_of_lt_of_le (lt_pow_digitCount _) (Nat.pow_le_pow_right (by decide) (by unfold width at hw; omega))
      have hz : (d.digits.tdiv (10 ^ d.scale.toNat)).natAbs = 0 := by
        rw [Int.natAbs_tdiv, Int.natAbs_pow]
        exact Nat.div_eq_of_lt hlt
      simp only [hw, or_true, if_true]
      exact (Int.natAbs_eq_zero.1 hz).symm
    · simp [hd, hw, hneg]

end Decimal

end ValueBridge
