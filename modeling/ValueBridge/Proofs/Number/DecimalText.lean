import ValueBridge.Number.DecimalText
/-!
# Reading the text of a decimal back

Digits are read as the number that they write (`natural?_toDigits`, `coefficientDigits?_of_digits`), and a text with a
coefficient, a point and an exponent as `ofText?_of_parts` says.  Each of the four forms in which a decimal is written is
such a text, and so a decimal is read back from its text (`ofText?_toText`), as the same coefficient and scale unless
zeros have been written out for a scale (`reread`); the number is the same in any case (`sameValue_reread`).
-/
namespace ValueBridge

open Nat (toDigits ofDigitChars)

/-! ## Digits -/

theorem foldlM_digits {f : Nat → Char → Option Nat}
    (hf : ∀ n c, c.isDigit → f n c = some (10 * n + (c.toNat - '0'.toNat))) :
    ∀ (cs : List Char) (n : Nat), (∀ c ∈ cs, c.isDigit) → cs.foldlM f n = some (ofDigitChars 10 cs n)
  | [], n, _ => by simp
  | c :: cs, n, h => by
    have hc := hf n c (h c List.mem_cons_self)
    have hcs := foldlM_digits hf cs (10 * n + (c.toNat - '0'.toNat)) fun d hd => h d (List.mem_cons_of_mem _ hd)
    rw [List.foldlM_cons, hc, Nat.ofDigitChars_cons]
    exact hcs

theorem natural?_of_digits {cs : List Char} (hne : cs ≠ []) (h : ∀ c ∈ cs, c.isDigit) :
    natural? cs = some (ofDigitChars 10 cs 0) := by
  have hfold := foldlM_digits (f := fun n c => (decimalDigit? c).map (10 * n + ·))
    (fun n c hc => by simp [decimalDigit?, hc]) cs 0 h
  cases cs with
  | nil => exact absurd rfl hne
  | cons c cs => exact hfold

theorem isDigit_of_mem_toDigits {n : Nat} {c : Char} (h : c ∈ toDigits 10 n) : c.isDigit :=
  Nat.isDigit_of_mem_toDigits (by decide) (by decide) h

theorem natural?_toDigits (n : Nat) : natural? (toDigits 10 n) = some n := by
  rw [natural?_of_digits Nat.toDigits_ne_nil fun c hc => isDigit_of_mem_toDigits hc, Nat.ofDigitChars_ten_toDigits]

theorem not_isDigit_of_eq {c d : Char} (hc : c.isDigit) (hd : d.isDigit = false) : c ≠ d := by
  rintro rfl
  rw [hc] at hd
  cases hd

namespace Decimal

theorem coefficientDigits?_of_digits {cs : List Char} (hne : cs ≠ []) (h : ∀ c ∈ cs, c.isDigit) :
    coefficientDigits? cs = some (ofDigitChars 10 cs 0) := by
  have hfold := foldlM_digits (f := fun n c => if c = '_' then some n else (decimalDigit? c).map (10 * n + ·))
    (fun n c hc => by simp [decimalDigit?, hc, not_isDigit_of_eq hc (d := '_') rfl]) cs 0 h
  cases cs with
  | nil => exact absurd rfl hne
  | cons c cs =>
    have hc := not_isDigit_of_eq (h c List.mem_cons_self) (d := '_') rfl
    unfold coefficientDigits?
    split
    · rename_i heq
      cases heq
    · rename_i heq
      exact absurd (List.cons.inj heq).1 hc
    · exact hfold

/-- The sign that a negative number is written with. -/
def signOf (n : Int) : List Char := if n < 0 then ['-'] else []

theorem coefficient?_signed {n : Int} {cs : List Char} (hne : cs ≠ []) (h : ∀ c ∈ cs, c.isDigit)
    (hn : ofDigitChars 10 cs 0 = n.natAbs) : coefficient? (signOf n ++ cs) = some n := by
  have hdigits := coefficientDigits?_of_digits hne h
  rw [hn] at hdigits
  unfold signOf
  by_cases hneg : n < 0
  · have habs : -(n.natAbs : Int) = n := by omega
    rw [if_pos hneg, List.singleton_append, coefficient?, hdigits]
    exact congrArg some habs
  · rw [if_neg hneg, List.nil_append]
    cases cs with
    | nil => exact absurd rfl hne
    | cons c cs =>
      have hplus := not_isDigit_of_eq (h c List.mem_cons_self) (d := '+') rfl
      have hminus := not_isDigit_of_eq (h c List.mem_cons_self) (d := '-') rfl
      unfold coefficient?
      split
      · rename_i heq
        exact absurd (List.cons.inj heq).1 hplus
      · rename_i heq
        exact absurd (List.cons.inj heq).1 hminus
      · have habs : Int.ofNat n.natAbs = n := Int.natAbs_of_nonneg (Int.not_lt.1 hneg)
        rw [hdigits]
        exact congrArg some habs

/-! ## Parts of a text -/

/-- What stands in a coefficient with its point. -/
def isBaseChar (c : Char) : Bool := c.isDigit || c == '-' || c == '.'

/-- The exponent that a text ends with. -/
inductive Exponent : List Char → Int → Prop
  | none : Exponent [] 0
  | some {mark : Char} {cs : List Char} {x : Int} : mark = 'e' ∨ mark = 'E' → integer? cs = some x →
    Exponent (mark :: cs) x

theorem splitExponent?_append {base exponent : List Char} {x : Int} (hbase : ∀ c ∈ base, isBaseChar c)
    (h : Exponent exponent x) : splitExponent? (base ++ exponent) = some (base, x) := by
  have hunmarked : ∀ c ∈ base, (!(c == 'e' || c == 'E')) = true := by
    intro c hc
    have hdigit := hbase c hc
    by_cases he : c = 'e'
    · subst he; exact absurd hdigit (by decide)
    · by_cases hE : c = 'E'
      · subst hE; exact absurd hdigit (by decide)
      · simp [he, hE]
  unfold splitExponent?
  dsimp only
  rw [List.takeWhile_append_of_pos hunmarked, List.dropWhile_append_of_pos hunmarked]
  cases h with
  | none => simp
  | some hmark hx =>
    rcases hmark with rfl | rfl <;> simp [hx]

/-- The point that a fraction follows; a coefficient without fraction has none. -/
def point (fraction : List Char) : List Char := if fraction.isEmpty then [] else '.' :: fraction

theorem takeWhile_point {whole : List Char} (h : ∀ c ∈ whole, c ≠ '.') (fraction : List Char) :
    (whole ++ point fraction).takeWhile (· != '.') = whole ∧
      ((whole ++ point fraction).dropWhile (· != '.')).drop 1 = fraction := by
  have hwhole : ∀ c ∈ whole, (c != '.') = true := fun c hc => by simpa using h c hc
  rw [List.takeWhile_append_of_pos hwhole, List.dropWhile_append_of_pos hwhole]
  cases fraction <;> simp [point]

/-- The text denotes `n · 10^(-scale)`: the digits before and after the point make the coefficient, and the digits after
it and the exponent the scale. -/
inductive Denotes : List Char → Nat → Int → Prop
  | parts {whole fraction exponent : List Char} {x : Int} : whole ≠ [] → (∀ c ∈ whole, c.isDigit) →
    (∀ c ∈ fraction, c.isDigit) → Exponent exponent x →
    Denotes (whole ++ point fraction ++ exponent) (ofDigitChars 10 (whole ++ fraction) 0) (fraction.length - x)

/-- **A text is read as what it denotes**, with its sign. -/
theorem ofText?_of_denotes {n scale : Int} {cs : List Char} (h : Denotes cs n.natAbs scale)
    (hscale : scaleInRange scale) : ofText? (String.ofList (signOf n ++ cs)) = some ⟨n, scale⟩ := by
  generalize hn : n.natAbs = k at h
  obtain ⟨hne, hwhole, hfraction, hx⟩ := h
  rename_i whole fraction exponent x
  have hsign : ∀ c ∈ signOf n, c = '-' := by
    unfold signOf
    split <;> simp
  have hbase : ∀ c ∈ signOf n ++ whole ++ point fraction, isBaseChar c := by
    intro c hc
    rcases List.mem_append.1 hc with hc | hc
    · rcases List.mem_append.1 hc with hc | hc
      · rw [hsign c hc]; rfl
      · simp [isBaseChar, hwhole c hc]
    · unfold point at hc
      split at hc
      · cases hc
      · rcases List.mem_cons.1 hc with rfl | hc
        · rfl
        · simp [isBaseChar, hfraction c hc]
  have hpoint : ∀ c ∈ signOf n ++ whole, c ≠ '.' := by
    intro c hc
    rcases List.mem_append.1 hc with hc | hc
    · rw [hsign c hc]; decide
    · exact not_isDigit_of_eq (hwhole c hc) rfl
  have hparts := takeWhile_point hpoint fraction
  have hdigits : ∀ c ∈ whole ++ fraction, c.isDigit := List.forall_mem_append.2 ⟨hwhole, hfraction⟩
  have hcoefficient := coefficient?_signed (List.append_ne_nil_of_left_ne_nil hne fraction) hdigits hn.symm
  have hfilter : fraction.filter (· != '_') = fraction :=
    List.filter_eq_self.2 fun c hc => by simpa using not_isDigit_of_eq (hfraction c hc) rfl
  have hnonempty : (signOf n ++ whole ++ point fraction).isEmpty = false := by simp [hne]
  have hsplit := splitExponent?_append hbase hx
  rw [List.append_assoc (signOf n ++ whole), List.append_assoc (signOf n), ← List.append_assoc whole] at hsplit
  rw [← List.append_assoc] at hcoefficient
  unfold ofText?
  rw [String.toList_ofList, hsplit]
  simp only [Option.bind_eq_bind, Option.bind_some, hnonempty, Bool.false_eq_true, if_false, hparts, hcoefficient,
    hfilter, hscale, if_true]

/-! ## The four forms -/

variable {text : List Char} {n : Nat}

theorem integer?_minus (n : Nat) : integer? ('-' :: toDigits 10 n) = some (-(n : Int)) := by
  rw [integer?, natural?_toDigits]
  rfl

theorem integer?_plus (n : Nat) : integer? ('+' :: toDigits 10 n) = some n := by
  rw [integer?, natural?_toDigits]
  rfl

theorem denotes_scientific (hne : text ≠ []) (h : ∀ c ∈ text, c.isDigit) (scale : Int) (hscale : text.length ≤ scale) :
    Denotes (scientific text scale) (ofDigitChars 10 text 0) scale := by
  obtain ⟨c, rest, rfl⟩ := List.exists_cons_of_ne_nil hne
  have hmantissa : scientific (c :: rest) scale =
      [c] ++ point rest ++ 'E' :: '-' :: toDigits 10 (scale - (c :: rest).length + 1).toNat := by
    cases rest <;> rfl
  have hc : ∀ d ∈ [c], d.isDigit := fun d hd => h d (by simp_all)
  have hdenotes := Denotes.parts (List.cons_ne_nil c []) hc (fun d hd => h d (List.mem_cons_of_mem c hd))
    (.some (.inr rfl) (integer?_minus (scale - (c :: rest).length + 1).toNat))
  have hlength : (rest.length : Int) - -((scale - (c :: rest).length + 1).toNat : Int) = scale := by
    rw [List.length_cons] at hscale ⊢
    omega
  rw [hlength, ← hmantissa] at hdenotes
  exact hdenotes

theorem denotes_exponent (hne : text ≠ []) (h : ∀ c ∈ text, c.isDigit) (scale : Int) (hscale : scale ≤ 0) :
    Denotes (text ++ 'e' :: '+' :: toDigits 10 (-scale).toNat) (ofDigitChars 10 text 0) scale := by
  have hexponent : Exponent ('e' :: '+' :: toDigits 10 (-scale).toNat) (-scale).toNat :=
    .some (.inl rfl) (integer?_plus (-scale).toNat)
  have hdenotes := Denotes.parts hne h (List.forall_mem_nil _) hexponent
  have hlength : (([] : List Char).length : Int) - ((-scale).toNat : Int) = scale := by
    rw [List.length_nil]
    omega
  rw [hlength] at hdenotes
  simpa [point] using hdenotes

theorem denotes_zeros (hne : text ≠ []) (h : ∀ c ∈ text, c.isDigit) (k : Nat) :
    Denotes (text ++ List.replicate k '0') (ofDigitChars 10 text 0 * 10 ^ k) 0 := by
  have hdigits : ∀ c ∈ text ++ List.replicate k '0', c.isDigit :=
    List.forall_mem_append.2 ⟨h, fun c hc => by rw [List.eq_of_mem_replicate hc]; rfl⟩
  have hdenotes := Denotes.parts (List.append_ne_nil_of_left_ne_nil hne _) hdigits (List.forall_mem_nil _) .none
  have hvalue : ofDigitChars 10 (text ++ List.replicate k '0') 0 = ofDigitChars 10 text 0 * 10 ^ k := by
    rw [Nat.ofDigitChars_append, Nat.ofDigitChars_replicate_zero, Nat.mul_comm]
  simpa [point, hvalue] using hdenotes

theorem denotes_pointed (h : ∀ c ∈ text, c.isDigit) {k : Nat} (hk : 0 < k) :
    Denotes (pointed text k) (ofDigitChars 10 text 0) k := by
  have hpoint : ∀ fraction : List Char, fraction.length = k → point fraction = '.' :: fraction := by
    rintro (_ | ⟨c, cs⟩) hlength
    · exact absurd hlength (Nat.ne_of_lt hk)
    · rfl
  unfold pointed
  by_cases hlen : text.length ≤ k
  · have hfraction : ∀ c ∈ List.replicate (k - text.length) '0' ++ text, c.isDigit :=
      List.forall_mem_append.2 ⟨fun c hc => by rw [List.eq_of_mem_replicate hc]; rfl, h⟩
    have hlength : (List.replicate (k - text.length) '0' ++ text).length = k := by simp; omega
    have hdenotes := Denotes.parts (List.cons_ne_nil '0' []) (by simp) hfraction .none
    have hvalue : ofDigitChars 10 (['0'] ++ (List.replicate (k - text.length) '0' ++ text)) 0 =
        ofDigitChars 10 text 0 := by
      simp [Nat.ofDigitChars_append, Nat.ofDigitChars_cons]
    rw [hvalue, hlength, hpoint _ hlength] at hdenotes
    rw [if_pos hlen]
    simpa using hdenotes
  · have hlength : (text.drop (text.length - k)).length = k := by simp; omega
    have hwhole : text.take (text.length - k) ≠ [] := by simp [← List.length_pos_iff]; omega
    have htake : ∀ c ∈ text.take (text.length - k), c.isDigit := fun c hc => h c (List.mem_of_mem_take hc)
    have hdrop : ∀ c ∈ text.drop (text.length - k), c.isDigit := fun c hc => h c (List.mem_of_mem_drop hc)
    have hdenotes := Denotes.parts hwhole htake hdrop .none
    rw [List.take_append_drop, hlength, hpoint _ hlength] at hdenotes
    rw [if_neg hlen]
    simpa using hdenotes

/-! ## Decimals -/

/-- What the text of a decimal is read as: zero has lost its scale, and zeros that were written out are digits now. -/
def reread (d : Decimal) : Decimal :=
  if d.digits = 0 then ofInt 0
  else if -plainLayout.maxTrailingZeros ≤ d.scale ∧ d.scale ≤ 0 then ofInt d.truncate
  else d

theorem denotes_magnitudeText {d : Decimal} (hd : d.digits ≠ 0) :
    Denotes (magnitudeText (toDigits 10 d.digits.natAbs) d.scale) d.reread.digits.natAbs d.reread.scale := by
  have hne : toDigits 10 d.digits.natAbs ≠ [] := Nat.toDigits_ne_nil
  have hdigits : ∀ c ∈ toDigits 10 d.digits.natAbs, c.isDigit := fun c hc => isDigit_of_mem_toDigits hc
  have hpos : 0 < (toDigits 10 d.digits.natAbs).length := Nat.length_toDigits_pos
  have hvalue : ofDigitChars 10 (toDigits 10 d.digits.natAbs) 0 = d.digits.natAbs := Nat.ofDigitChars_ten_toDigits
  have hleading : plainLayout.maxLeadingZeros = 5 := rfl
  have htrailing : plainLayout.maxTrailingZeros = 15 := rfl
  unfold reread magnitudeText
  rw [if_neg hd]
  by_cases hlead : (plainLayout.maxLeadingZeros : Int) < d.scale - (toDigits 10 d.digits.natAbs).length
  · have hdenotes := denotes_scientific hne hdigits d.scale (by omega)
    rw [hvalue] at hdenotes
    rw [if_pos hlead, if_neg (by omega)]
    exact hdenotes
  · rw [if_neg hlead]
    by_cases htrail : (plainLayout.maxTrailingZeros : Int) < -d.scale
    · have hdenotes := denotes_exponent hne hdigits d.scale (by omega)
      rw [hvalue] at hdenotes
      rw [if_pos htrail, if_neg (by omega)]
      exact hdenotes
    · rw [if_neg htrail]
      by_cases hscale : d.scale ≤ 0
      · have hdenotes := denotes_zeros hne hdigits (-d.scale).toNat
        have hshift : (d.digits * 10 ^ (-d.scale).toNat).natAbs = d.digits.natAbs * 10 ^ (-d.scale).toNat := by
          rw [Int.natAbs_mul, Int.natAbs_pow]
          rfl
        rw [hvalue, ← hshift, ← truncate_of_nonpos hscale] at hdenotes
        rw [if_pos hscale, if_pos ⟨by omega, hscale⟩]
        exact hdenotes
      · have hdenotes := denotes_pointed hdigits (k := d.scale.toNat) (by omega)
        rw [hvalue, Int.toNat_of_nonneg (by omega)] at hdenotes
        rw [if_neg hscale, if_neg (by omega)]
        exact hdenotes

theorem signOf_reread {d : Decimal} (hd : d.digits ≠ 0) : signOf d.reread.digits = signOf d.digits := by
  unfold reread
  rw [if_neg hd]
  split
  · rename_i hscale
    have hpos : (0 : Int) < 10 ^ (-d.scale).toNat := Int.pow_pos (by decide)
    rw [ofInt, truncate_of_nonpos hscale.2]
    unfold signOf
    by_cases hneg : d.digits < 0
    · rw [if_pos hneg, if_pos (Int.mul_neg_of_neg_of_pos hneg hpos)]
    · rw [if_neg hneg, if_neg (Int.not_lt.2 (Int.mul_nonneg (Int.not_lt.1 hneg) (Int.le_of_lt hpos)))]
  · rfl

theorem scaleInRange_reread {d : Decimal} (h : scaleInRange d.scale) : scaleInRange d.reread.scale := by
  unfold reread
  split
  · rfl
  · split
    · rfl
    · exact h

/-- **A decimal is read back from its text.** -/
theorem ofText?_toText {d : Decimal} (h : scaleInRange d.scale) : ofText? d.toText = some d.reread := by
  unfold toText
  by_cases hd : d.digits = 0
  · rw [if_pos hd, reread, if_pos hd]
    decide
  · have hread := ofText?_of_denotes (denotes_magnitudeText hd) (scaleInRange_reread h)
    rw [signOf_reread hd] at hread
    rw [if_neg hd]
    exact hread

theorem isShifted_zero_right (n : Int) : isShifted n 0 n := isShifted_iff.2 (by simp)

theorem sameValue_refl (d : Decimal) : d.sameValue d := by
  unfold sameValue
  rw [if_pos (Int.le_refl _), Int.sub_self]
  exact isShifted_zero_right d.digits

theorem sameValue_truncate {d : Decimal} (h : d.isWhole) : (ofInt d.truncate).sameValue d := by
  unfold sameValue ofInt
  dsimp only
  by_cases hscale : 0 < d.scale
  · have hshift : isShifted d.truncate d.scale.toNat d.digits := by simpa [isWhole, Int.not_le.2 hscale] using h
    rw [if_pos (Int.le_of_lt hscale), Int.sub_zero]
    exact hshift
  · rw [truncate_of_nonpos (Int.not_lt.1 hscale)]
    split
    · rw [show d.scale = 0 by omega]
      exact isShifted_iff.2 (by simp)
    · rw [Int.zero_sub]
      exact isShifted_iff.2 rfl

theorem isWhole_of_nonpos {d : Decimal} (h : d.scale ≤ 0) : d.isWhole := by simp [isWhole, h]

theorem truncate_of_zero {d : Decimal} (h : d.digits = 0) : d.truncate = 0 := by simp [truncate, h]

theorem isWhole_of_zero {d : Decimal} (h : d.digits = 0) : d.isWhole := by
  simp [isWhole, truncate_of_zero h, isShifted, h]

theorem sameValue_reread (d : Decimal) : d.reread.sameValue d := by
  unfold reread
  by_cases hd : d.digits = 0
  · rw [if_pos hd, ← truncate_of_zero hd]
    exact sameValue_truncate (isWhole_of_zero hd)
  · rw [if_neg hd]
    split
    · rename_i hscale
      exact sameValue_truncate (isWhole_of_nonpos hscale.2)
    · exact sameValue_refl d

end Decimal

end ValueBridge
