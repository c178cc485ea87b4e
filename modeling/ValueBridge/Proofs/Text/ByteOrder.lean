/-!
# The order of names is the order of their bytes

Names are ordered by their code points.  In UTF-8 a character is a leading byte and up to three further ones, each a digit
of base 64.  A smaller character has a smaller leading byte, or the same one and as many digits (`lead_le`), of which the
first that differs is smaller (`digits_lt`); so names are ordered as their bytes are (`le_iff_bytes_le`).
-/
namespace ValueBridge

/-- The bytes of a name in UTF-8. -/
def utf8Bytes (s : String) : List UInt8 := s.toUTF8.data.toList

namespace Utf8

theorem bytes_eq_flatMap (s : String) : utf8Bytes s = s.toList.flatMap String.utf8EncodeChar := by
  conv => lhs; rw [← String.ofList_toList (s := s)]
  rw [utf8Bytes, String.toUTF8_eq_toByteArray, String.toByteArray_ofList]
  exact List.toList_data_toByteArray

/-! ## Characters -/

/-- The leading byte of a character. -/
def lead (n : Nat) : Nat :=
  if n ≤ 0x7f then n
  else if n ≤ 0x7ff then n / 64 % 32 + 0xc0
  else if n ≤ 0xffff then n / 4096 % 16 + 0xe0
  else n / 262144 % 8 + 0xf0

/-- How many bytes follow the leading one. -/
def following (n : Nat) : Nat := if n ≤ 0x7f then 0 else if n ≤ 0x7ff then 1 else if n ≤ 0xffff then 2 else 3

/-- The last digits of a number in base 64, as bytes that follow a leading one. -/
def digits : Nat → Nat → List UInt8
  | 0, _ => []
  | k + 1, n => UInt8.ofNat (n / 64 ^ k % 64 + 0x80) :: digits k n

theorem encodeChar_eq (c : Char) : String.utf8EncodeChar c =
    UInt8.ofNat (lead c.val.toNat) :: digits (following c.val.toNat) c.val.toNat := by
  unfold String.utf8EncodeChar lead following
  dsimp only
  repeat' split
  all_goals simp [digits]

theorem lead_lt {n : Nat} (h : n < 0x110000) : lead n < 256 := by
  unfold lead
  repeat' split
  all_goals omega

/-- A smaller character has a smaller leading byte, or it has the same one, and then the same bytes follow but for the
digits. -/
theorem lead_le {m n : Nat} (h : m < n) (hn : n < 0x110000) : lead m ≤ lead n ∧
    (lead m = lead n → following m = following n ∧ m / 64 ^ following m = n / 64 ^ following m) := by
  unfold lead following
  repeat' split
  all_goals omega

theorem toNat_ofNat {n : Nat} (h : n < 256) : (UInt8.ofNat n).toNat = n := by
  rw [UInt8.toNat_ofNat']
  exact Nat.mod_eq_of_lt h

/-- A byte that is no larger decides, unless it is the same. -/
theorem cons_lt_cons {m n : Nat} {xs ys : List UInt8} (hn : n < 256) (hle : m ≤ n) (hrest : m = n → xs < ys) :
    UInt8.ofNat m :: xs < UInt8.ofNat n :: ys := by
  rw [List.cons_lt_cons_iff]
  rcases Nat.eq_or_lt_of_le hle with heq | hlt
  · exact .inr ⟨congrArg UInt8.ofNat heq, hrest heq⟩
  · refine .inl (UInt8.lt_iff_toNat_lt.2 ?_)
    rwa [toNat_ofNat (Nat.lt_trans hlt hn), toNat_ofNat hn]

/-- Of two numbers that agree but for their last digits the smaller has smaller digits. -/
theorem digits_lt {m n : Nat} (h : m < n) (xs ys : List UInt8) : ∀ k, m / 64 ^ k = n / 64 ^ k →
    digits k m ++ xs < digits k n ++ ys
  | 0, heq => absurd heq (by rw [Nat.pow_zero, Nat.div_one, Nat.div_one]; exact Nat.ne_of_lt h)
  | k + 1, heq => by
    have hle : m / 64 ^ k ≤ n / 64 ^ k := Nat.div_le_div_right (Nat.le_of_lt h)
    rw [Nat.pow_succ, ← Nat.div_div_eq_div_mul, ← Nat.div_div_eq_div_mul] at heq
    exact cons_lt_cons (by omega) (by omega) fun hdigit => digits_lt h xs ys k (by omega)

theorem toNat_lt (c : Char) : c.val.toNat < 0x110000 := by
  rcases c.valid with h | h
  · exact Nat.lt_trans h (by decide)
  · exact h.2

/-- **A smaller character has smaller bytes**, whatever follows them. -/
theorem encodeChar_lt {c d : Char} (h : c < d) (xs ys : List UInt8) :
    String.utf8EncodeChar c ++ xs < String.utf8EncodeChar d ++ ys := by
  have hlt : c.val.toNat < d.val.toNat := UInt32.lt_iff_toNat_lt.1 h
  obtain ⟨hle, hsame⟩ := lead_le hlt (toNat_lt d)
  rw [encodeChar_eq, encodeChar_eq]
  refine cons_lt_cons (lead_lt (toNat_lt d)) hle fun heq => ?_
  obtain ⟨hfollowing, hdigits⟩ := hsame heq
  rw [← hfollowing]
  exact digits_lt hlt xs ys _ hdigits

/-! ## Names -/

theorem flatMap_lt : ∀ {cs ds : List Char}, cs < ds →
    cs.flatMap String.utf8EncodeChar < ds.flatMap String.utf8EncodeChar
  | [], d :: ds, _ => by
    rw [List.flatMap_nil, List.flatMap_cons, encodeChar_eq]
    exact List.nil_lt_cons _ _
  | [], [], h => absurd h (List.lt_irrefl _)
  | _ :: _, [], h => absurd h (List.not_lt_nil _)
  | c :: cs, d :: ds, h => by
    rw [List.flatMap_cons, List.flatMap_cons]
    rcases List.cons_lt_cons_iff.1 h with hlt | ⟨rfl, hrest⟩
    · exact encodeChar_lt hlt _ _
    · exact List.append_left_lt (flatMap_lt hrest)

theorem bytes_lt {s t : String} (h : s < t) : utf8Bytes s < utf8Bytes t := by
  rw [bytes_eq_flatMap, bytes_eq_flatMap]
  exact flatMap_lt h

end Utf8

/-- **Names are ordered as their bytes are.** -/
theorem le_iff_bytes_le {s t : String} : s ≤ t ↔ utf8Bytes s ≤ utf8Bytes t := by
  constructor
  · intro h
    rcases Decidable.em (s = t) with rfl | hne
    · exact List.le_refl _
    · exact List.le_of_lt (Utf8.bytes_lt (Std.lt_of_le_of_ne h hne))
  · intro h
    refine String.not_lt.1 fun hlt => ?_
    exact absurd (Utf8.bytes_lt hlt) (List.not_lt.2 h)

end ValueBridge
