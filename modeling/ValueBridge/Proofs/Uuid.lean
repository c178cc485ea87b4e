import ValueBridge.Uuid
/-!
# Reading UUIDs

A text in the hyphenated form is read by that form (`ofText?_of_isHyphenated`), always with a result
(`isSome_of_isHyphenated`).  The text of a UUID is in that form, and reading it gives the UUID back (`ofText?_toText`).
-/
namespace ValueBridge

/-! ## Hexadecimal digits -/

theorem toNat_lt_of_isHexDigit {c : Char} (h : isHexDigit c) : c.toNat < 128 := by
  unfold isHexDigit hexDigit? at h
  split at h
  · rename_i hd
    simp only [Char.isDigit, Bool.and_eq_true, decide_eq_true_eq] at hd
    have hle := UInt32.le_iff_toNat_le.1 hd.2
    change c.toNat ≤ 57 at hle
    omega
  · split at h
    · rename_i hd
      have hle : c.toNat ≤ 102 := UInt32.le_iff_toNat_le.1 hd.2
      omega
    · split at h
      · rename_i hd
        have hle : c.toNat ≤ 70 := UInt32.le_iff_toNat_le.1 hd.2
        omega
      · cases h

/-- What is to be known of all hexadecimal digits can be checked one by one. -/
theorem forall_isHexDigit {P : Char → Prop} [DecidablePred P]
    (h : ∀ n < 128, isHexDigit (Char.ofNat n) → P (Char.ofNat n)) (c : Char) (hc : isHexDigit c) : P c := by
  have hn := toNat_lt_of_isHexDigit hc
  rw [← Char.ofNat_toNat c] at hc ⊢
  exact h c.toNat hn hc

theorem isHexDigit_ne (c : Char) (h : isHexDigit c) : c ≠ '{' ∧ c ≠ '-' ∧ c.toLower ≠ 'u' :=
  forall_isHexDigit (P := fun c => c ≠ '{' ∧ c ≠ '-' ∧ c.toLower ≠ 'u') (by decide) c h

theorem hexDigit?_digitChar : ∀ d < 16, hexDigit? (Nat.digitChar d) = some d := by decide

theorem hexNumber?_append (cs ds : List Char) :
    hexNumber? (cs ++ ds) = (hexNumber? cs).bind fun n => ds.foldlM (fun n c => (hexDigit? c).map (16 * n + ·)) n := by
  unfold hexNumber?
  rw [List.foldlM_append]
  rfl

theorem hexNumber?_hexDigits (count n : Nat) : hexNumber? (hexDigits count n) = some (n % 16 ^ count) := by
  induction count generalizing n with
  | zero => simp [hexDigits, hexNumber?, Nat.mod_one]
  | succ count ih =>
    rw [hexDigits, hexNumber?_append, ih, Option.bind_some]
    simp only [List.foldlM_cons, List.foldlM_nil, hexDigit?_digitChar _ (Nat.mod_lt n (by decide : 0 < 16))]
    rw [Nat.pow_succ, Nat.mul_comm (16 ^ count) 16, Nat.mod_mul]
    simp only [Option.map_some, Option.bind_eq_bind, Option.bind_some, Option.pure_def, Option.some.injEq]
    omega

theorem length_hexDigits (count n : Nat) : (hexDigits count n).length = count := by
  induction count generalizing n with
  | zero => rfl
  | succ count ih => rw [hexDigits, List.length_append, ih, List.length_singleton]

theorem isHexDigit_of_mem_hexDigits {count n : Nat} {c : Char} (h : c ∈ hexDigits count n) : isHexDigit c := by
  induction count generalizing n with
  | zero => cases h
  | succ count ih =>
    rw [hexDigits, List.mem_append, List.mem_singleton] at h
    rcases h with h | rfl
    · exact ih h
    · rw [isHexDigit, hexDigit?_digitChar _ (Nat.mod_lt n (by decide))]
      rfl

theorem isSome_hexNumber? {cs : List Char} (h : ∀ c ∈ cs, isHexDigit c) : (hexNumber? cs).isSome := by
  have hfold : ∀ (cs : List Char) (n : Nat), (∀ c ∈ cs, isHexDigit c) →
      (cs.foldlM (fun n c => (hexDigit? c).map (16 * n + ·)) n).isSome := by
    intro cs
    induction cs with
    | nil => exact fun n _ => rfl
    | cons c cs ih =>
      intro n h
      obtain ⟨d, hd⟩ := Option.isSome_iff_exists.1 (h c List.mem_cons_self)
      rw [List.foldlM_cons, hd]
      exact ih (16 * n + d) fun c hc => h c (List.mem_cons_of_mem _ hc)
  exact hfold cs 0 h

namespace Uuid

/-! ## The hyphenated form -/

theorem length_of_isHyphenatedFrom : ∀ {cs : List Char} {i : Nat}, isHyphenatedFrom i cs → cs.length + i = 36
  | [], i, h => by
    rw [isHyphenatedFrom, beq_iff_eq] at h
    rw [h, List.length_nil]
  | c :: cs, i, h => by
    rw [isHyphenatedFrom, Bool.and_eq_true] at h
    have hrest := length_of_isHyphenatedFrom h.2
    rw [List.length_cons]
    omega

theorem eq_or_isHexDigit : ∀ {cs : List Char} {i : Nat}, isHyphenatedFrom i cs → ∀ c ∈ cs, c = '-' ∨ isHexDigit c
  | d :: cs, i, h, c, hc => by
    rw [isHyphenatedFrom, Bool.and_eq_true] at h
    rcases List.mem_cons.1 hc with rfl | hc
    · have hd := h.1
      split at hd
      · exact .inl (beq_iff_eq.1 hd)
      · exact .inr hd
    · exact eq_or_isHexDigit h.2 c hc

theorem isSome_ofHyphenated? {cs : List Char} (h : isHyphenated cs) : (ofHyphenated? cs).isSome := by
  have hdigits : ∀ c ∈ cs.filter (· != '-'), isHexDigit c := by
    intro c hc
    obtain ⟨hmem, hne⟩ := List.mem_filter.1 hc
    exact (eq_or_isHexDigit h c hmem).resolve_left (bne_iff_ne.1 hne)
  rw [ofHyphenated?, if_pos h, Option.isSome_map]
  exact isSome_hexNumber? hdigits

/-- **A hyphenated text is read by that form.** -/
theorem ofText?_of_isHyphenated {s : String} (h : isHyphenated s.toList) : ofText? s = ofHyphenated? s.toList := by
  unfold ofText?
  generalize s.toList = cs at h
  have hlen := length_of_isHyphenatedFrom h
  cases cs with
  | nil => cases hlen
  | cons c cs =>
    have hc : isHexDigit c := by
      rw [isHyphenated, isHyphenatedFrom, Bool.and_eq_true] at h
      exact h.1
    obtain ⟨hbrace, -, hlower⟩ := isHexDigit_ne c hc
    have hurn : ((c :: cs).take urnMark.length).map Char.toLower ≠ urnMark := by
      intro heq
      have hhead := congrArg List.head? heq
      rw [show urnMark.length = 8 + 1 from rfl, List.take_succ_cons, List.map_cons] at hhead
      exact hlower (Option.some.inj hhead)
    have hdigits : ofDigits? (c :: cs) = none := if_neg (by omega)
    dsimp only
    split
    · rename_i heq
      exact absurd (List.cons.inj heq).1 hbrace
    · rw [if_neg hurn, hdigits, Option.none_or]

theorem isSome_of_isHyphenated {s : String} (h : isHyphenated s.toList) : (ofText? s).isSome := by
  rw [ofText?_of_isHyphenated h]
  exact isSome_ofHyphenated? h

/-! ## The text of a UUID -/

theorem isHyphenatedFrom_append {r : List Char} : ∀ {ds : List Char} {i : Nat}, (∀ d ∈ ds, isHexDigit d) →
    (∀ k < ds.length, i + k ≠ 8 ∧ i + k ≠ 13 ∧ i + k ≠ 18 ∧ i + k ≠ 23) →
    isHyphenatedFrom i (ds ++ r) = isHyphenatedFrom (i + ds.length) r
  | [], i, _, _ => rfl
  | d :: ds, i, hds, hi => by
    have hhere := hi 0 (by simp)
    have hrest := isHyphenatedFrom_append (r := r) (i := i + 1) (fun d hd => hds d (List.mem_cons_of_mem _ hd))
      fun k hk => by
        have hk' := hi (k + 1) (by simpa using hk)
        rwa [show i + (k + 1) = i + 1 + k by omega] at hk'
    rw [List.cons_append, isHyphenatedFrom, if_neg (by omega), hds d List.mem_cons_self, Bool.true_and, hrest,
      List.length_cons, show i + 1 + ds.length = i + (ds.length + 1) by omega]

theorem isHyphenatedFrom_hyphen {i : Nat} (h : i = 8 ∨ i = 13 ∨ i = 18 ∨ i = 23) (cs : List Char) :
    isHyphenatedFrom i ('-' :: cs) = isHyphenatedFrom (i + 1) cs := by
  rw [isHyphenatedFrom, if_pos h, beq_self_eq_true, Bool.true_and]

/-- The digits of a UUID in groups of 8, 4, 4, 4 and 12. -/
def grouped (ds : List Char) : List Char :=
  ds.take 8 ++ '-' :: ((ds.drop 8).take 4 ++ '-' :: ((ds.drop 12).take 4 ++
    '-' :: ((ds.drop 16).take 4 ++ '-' :: ds.drop 20)))

theorem toText_eq (u : Uuid) : u.toText = String.ofList (grouped (hexDigits 32 u.val)) := by
  simp only [toText, grouped, List.append_assoc, List.cons_append]

theorem isHyphenated_grouped {ds : List Char} (hlen : ds.length = 32) (hds : ∀ d ∈ ds, isHexDigit d) :
    isHyphenated (grouped ds) := by
  have htake : ∀ k n, ∀ d ∈ (ds.drop k).take n, isHexDigit d := fun k n d hd =>
    hds d (List.mem_of_mem_drop (List.mem_of_mem_take hd))
  have hfirst : ∀ d ∈ ds.take 8, isHexDigit d := fun d hd => hds d (List.mem_of_mem_take hd)
  have hlast : ∀ d ∈ ds.drop 20, isHexDigit d := fun d hd => hds d (List.mem_of_mem_drop hd)
  have hnil : isHyphenatedFrom 24 (ds.drop 20 ++ []) := by
    rw [isHyphenatedFrom_append hlast (by simp only [List.length_drop, hlen]; omega)]
    simp [hlen, isHyphenatedFrom]
  rw [isHyphenated, grouped, isHyphenatedFrom_append hfirst (by simp only [List.length_take, hlen]; omega)]
  rw [show 0 + (ds.take 8).length = 8 by simp [hlen], isHyphenatedFrom_hyphen (by decide),
    isHyphenatedFrom_append (htake 8 4) (by simp only [List.length_take, List.length_drop, hlen]; omega)]
  rw [show 8 + 1 + ((ds.drop 8).take 4).length = 13 by simp [hlen], isHyphenatedFrom_hyphen (by decide),
    isHyphenatedFrom_append (htake 12 4) (by simp only [List.length_take, List.length_drop, hlen]; omega)]
  rw [show 13 + 1 + ((ds.drop 12).take 4).length = 18 by simp [hlen], isHyphenatedFrom_hyphen (by decide),
    isHyphenatedFrom_append (htake 16 4) (by simp only [List.length_take, List.length_drop, hlen]; omega)]
  rw [show 18 + 1 + ((ds.drop 16).take 4).length = 23 by simp [hlen], isHyphenatedFrom_hyphen (by decide)]
  rwa [List.append_nil] at hnil

theorem filter_grouped {ds : List Char} (hds : ∀ d ∈ ds, isHexDigit d) : (grouped ds).filter (· != '-') = ds := by
  have hkeep : ∀ {l : List Char}, (∀ d ∈ l, d ∈ ds) → l.filter (· != '-') = l := fun hl =>
    List.filter_eq_self.2 fun d hd => bne_iff_ne.2 (isHexDigit_ne d (hds d (hl d hd))).2.1
  have hjoin : ∀ k, (ds.drop k).take 4 ++ ds.drop (k + 4) = ds.drop k := fun k => by
    rw [← List.drop_drop, List.take_append_drop]
  have hhyphen : ∀ l : List Char, ('-' :: l).filter (· != '-') = l.filter (· != '-') := fun l => rfl
  simp only [grouped, List.filter_append, hhyphen]
  rw [hkeep fun d => List.mem_of_mem_take, hkeep fun d hd => List.mem_of_mem_drop (List.mem_of_mem_take hd),
    hkeep fun d hd => List.mem_of_mem_drop (List.mem_of_mem_take hd),
    hkeep fun d hd => List.mem_of_mem_drop (List.mem_of_mem_take hd), hkeep fun d => List.mem_of_mem_drop, hjoin 16,
    hjoin 12, hjoin 8, List.take_append_drop]

theorem ofNumber_val (u : Uuid) : ofNumber u.val = u := by
  obtain ⟨n, hn⟩ := u
  simp only [ofNumber, Nat.mod_eq_of_lt hn]

theorem isHyphenated_toText (u : Uuid) : isHyphenated u.toText.toList := by
  rw [toText_eq, String.toList_ofList]
  exact isHyphenated_grouped (length_hexDigits 32 u.val) fun d hd => isHexDigit_of_mem_hexDigits hd

/-- **The text of a UUID reads as that UUID.** -/
theorem ofText?_toText (u : Uuid) : ofText? u.toText = some u := by
  have hds : ∀ d ∈ hexDigits 32 u.val, isHexDigit d := fun d hd => isHexDigit_of_mem_hexDigits hd
  have hform : isHyphenated u.toText.toList := isHyphenated_toText u
  rw [ofText?_of_isHyphenated hform, ofHyphenated?, if_pos hform, toText_eq, String.toList_ofList,
    filter_grouped hds, hexNumber?_hexDigits, Option.map_some, show (16 : Nat) ^ 32 = 2 ^ 128 by decide,
    Nat.mod_eq_of_lt u.lt, ofNumber_val]

end Uuid

end ValueBridge
