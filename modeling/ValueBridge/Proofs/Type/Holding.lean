import ValueBridge.Proofs.Type.Order
/-!
# Types that hold others

A type holds another if every value of the other has a place in it: it has the same shape, and its decimals keep every
digit before and after the point.  Being below is weaker, since the digits before the point of a common type are cut off
when there are more than 38 in all (`holdsUnlessFull_of_below`).  Where some type of at most 38 digits holds the members
of a list, nothing is cut off, and their common type holds them too (`accommodates_joinAll?`).  Types that join are of
one shape, but their decimals may differ in any way (`shapedAlike_of_join?`).
-/
namespace ValueBridge.LogicalType

variable {c : LogicalType}

mutual
/-- The first type covers the second, with decimals compared by `R`: they have the same shape, where the first may have
any type for an untyped null of the second. -/
inductive Covers (R : Nat → Nat → Nat → Nat → Prop) : LogicalType → LogicalType → Prop
  | untyped (a : LogicalType) : Covers R a any
  | plain (t : Tag) : Covers R (plain t) (plain t)
  | decimal {p s q r : Nat} : R p s q r → Covers R (decimal p s) (decimal q r)
  | list {t u : LogicalType} : Covers R t u → Covers R (list t) (list u)
  | array {t u : LogicalType} (n : Nat) : Covers R t u → Covers R (array t n) (array u n)
  | struct {fs gs : List (String × LogicalType)} : CoversFields R fs gs → Covers R (struct fs) (struct gs)
  | map {k v l w : LogicalType} : Covers R k l → Covers R v w → Covers R (map k v) (map l w)
  | union (ms : List (String × LogicalType)) : Covers R (union ms) (union ms)
/-- The same of fields with the same names in the same order. -/
inductive CoversFields (R : Nat → Nat → Nat → Nat → Prop) :
    List (String × LogicalType) → List (String × LogicalType) → Prop
  | nil : CoversFields R [] []
  | cons {n : String} {t u : LogicalType} {fs gs : List (String × LogicalType)} :
    Covers R t u → CoversFields R fs gs → CoversFields R ((n, t) :: fs) ((n, u) :: gs)
end

/-- Decimals with `p` digits, `s` of them after the point, hold those with `q` and `r`. -/
def DecimalHolds (p s q r : Nat) : Prop := r ≤ s ∧ q - r ≤ p - s

instance (p s q r : Nat) : Decidable (DecimalHolds p s q r) := inferInstanceAs (Decidable (_ ∧ _))

/-- The first type holds the second. -/
abbrev Holds : LogicalType → LogicalType → Prop := Covers DecimalHolds

/-- The first type holds the second but for the digits before the point of decimals that have as many digits as there
can be. -/
abbrev HoldsUnlessFull : LogicalType → LogicalType → Prop :=
  Covers fun p s q r => r ≤ s ∧ (q - r ≤ p - s ∨ p = maxPrecision)

/-- The types have one shape, whatever the digits of their decimals. -/
abbrev ShapedAlike : LogicalType → LogicalType → Prop := Covers fun _ _ _ _ => True

mutual
/-- No decimal of the type has more digits after the point than in all, or more than there can be. -/
def Bounded : LogicalType → Prop
  | plain _ => True
  | decimal p s => s ≤ p ∧ p ≤ maxPrecision
  | list t | array t _ => Bounded t
  | struct fs | union fs => BoundedFields fs
  | map k v => Bounded k ∧ Bounded v
def BoundedFields : List (String × LogicalType) → Prop
  | [] => True
  | (_, t) :: fs => Bounded t ∧ BoundedFields fs
end

mutual
/-- No part of the type is that of an untyped null. -/
def Typed : LogicalType → Prop
  | plain t => t ≠ .any
  | decimal _ _ => True
  | list t | array t _ => Typed t
  | struct fs | union fs => TypedFields fs
  | map k v => Typed k ∧ Typed v
def TypedFields : List (String × LogicalType) → Prop
  | [] => True
  | (_, t) :: fs => Typed t ∧ TypedFields fs
end

theorem holds_decimal {p s q r : Nat} : Holds (decimal p s) (decimal q r) ↔ DecimalHolds p s q r :=
  ⟨fun h => by cases h; assumption, .decimal⟩

/-! ## Holding but for full decimals -/

mutual
/-- **A type above another holds it, but for full decimals.** -/
theorem holdsUnlessFull_of_below : ∀ {a c : LogicalType}, Below a c → HoldsUnlessFull c a
  | plain t, c, h => by
    cases h.narrows with
    | untyped => exact .untyped c
    | same => exact .plain t
  | decimal p s, c, h => by
    obtain ⟨q, r, rfl⟩ : ∃ q r, c = decimal q r := by cases h.narrows <;> exact ⟨_, _, rfl⟩
    refine .decimal ?_
    rw [below_decimal, maxPrecision] at h
    rw [maxPrecision]
    rcases h with ⟨rfl, rfl⟩ | ⟨hs, hq⟩
    · exact ⟨Nat.le_refl s, .inl (Nat.le_refl (p - s))⟩
    · exact ⟨hs, by omega⟩
  | list t, c, h => by
    obtain ⟨u, rfl⟩ : ∃ u, c = list u := by cases h.narrows <;> exact ⟨_, rfl⟩
    exact .list (holdsUnlessFull_of_below (below_list.1 h))
  | array t n, c, h => by
    obtain ⟨u, rfl⟩ : ∃ u, c = array u n := by cases h.narrows <;> exact ⟨_, rfl⟩
    exact .array n (holdsUnlessFull_of_below (below_array.1 h))
  | struct fs, c, h => by
    obtain ⟨gs, rfl⟩ : ∃ gs, c = struct gs := by cases h.narrows <;> exact ⟨_, rfl⟩
    exact .struct (holdsFieldsUnlessFull_of_below (below_struct.1 h))
  | map k v, c, h => by
    obtain ⟨l, w, rfl⟩ : ∃ l w, c = map l w := by cases h.narrows <;> exact ⟨_, _, rfl⟩
    exact .map (holdsUnlessFull_of_below (below_map.1 h).1) (holdsUnlessFull_of_below (below_map.1 h).2)
  | union ms, c, h => by
    obtain ⟨rfl, -⟩ := of_join?_union h
    exact .union ms
theorem holdsFieldsUnlessFull_of_below : ∀ {fs gs : List (String × LogicalType)}, FieldsBelow fs gs →
    CoversFields (fun p s q r => r ≤ s ∧ (q - r ≤ p - s ∨ p = maxPrecision)) gs fs
  | [], gs, h => by
    cases gs with
    | nil => exact .nil
    | cons => cases h
  | (n, t) :: fs, gs, h => by
    obtain ⟨u, _, gs, _, rfl, hb, ht, hfs⟩ := of_joinFields?_cons h
    cases hb
    exact .cons (holdsUnlessFull_of_below ht) (holdsFieldsUnlessFull_of_below hfs)
end

/-! ## Holding what a bounded type holds -/

theorem below_of_decimalHolds {p s q r : Nat} (hd : (decimal p s).Bounded) (h : DecimalHolds p s q r) :
    Below (decimal q r) (decimal p s) := by
  rw [Bounded] at hd
  rw [DecimalHolds] at h
  rw [below_decimal]
  exact .inr ⟨h.1, by omega⟩

/-- A bounded decimal type that holds the lower of two loses no digit, and so the one between them loses none either. -/
theorem decimalHolds_of_between {p s q r u v : Nat} (hac : Below (decimal p s) (decimal q r))
    (hcd : Below (decimal q r) (decimal u v)) (hd : (decimal u v).Bounded) (h : DecimalHolds u v p s) :
    DecimalHolds q r p s := by
  rw [Bounded, maxPrecision] at hd
  rw [DecimalHolds] at h ⊢
  rw [below_decimal, maxPrecision] at hac hcd
  have hscale : r ≤ v := by
    rcases hcd with ⟨-, rfl⟩ | ⟨hr, -⟩
    · exact Nat.le_refl r
    · exact hr
  rcases hac with ⟨rfl, rfl⟩ | ⟨hs, hq⟩
  · exact ⟨Nat.le_refl s, Nat.le_refl (p - s)⟩
  · exact ⟨hs, by omega⟩

mutual
/-- **A bounded type is above all that it holds.** -/
theorem below_of_holds : ∀ {d a : LogicalType}, d.Bounded → Holds d a → Below a d
  | plain t, a, _, h => by
    cases h with
    | untyped => exact join?_any_left _
    | plain => exact join?_self _
  | decimal p s, a, hd, h => by
    cases h with
    | untyped => exact join?_any_left _
    | decimal hps => exact below_of_decimalHolds hd hps
  | list t, a, hd, h => by
    cases h with
    | untyped => exact join?_any_left _
    | list ht => exact below_list.2 (below_of_holds (by rwa [Bounded] at hd) ht)
  | array t n, a, hd, h => by
    cases h with
    | untyped => exact join?_any_left _
    | array _ ht => exact below_array.2 (below_of_holds (by rwa [Bounded] at hd) ht)
  | struct fs, a, hd, h => by
    cases h with
    | untyped => exact join?_any_left _
    | struct hfs => exact below_struct.2 (fieldsBelow_of_covers (by rwa [Bounded] at hd) hfs)
  | map k v, a, hd, h => by
    rw [Bounded] at hd
    cases h with
    | untyped => exact join?_any_left _
    | map hk hv => exact below_map.2 ⟨below_of_holds hd.1 hk, below_of_holds hd.2 hv⟩
  | union ms, a, _, h => by
    cases h with
    | untyped => exact join?_any_left _
    | union => exact join?_self _
theorem fieldsBelow_of_covers : ∀ {gs fs : List (String × LogicalType)}, BoundedFields gs →
    CoversFields DecimalHolds gs fs → FieldsBelow fs gs
  | [], _, _, h => by
    cases h
    rfl
  | (n, u) :: gs, _, hd, h => by
    rw [BoundedFields] at hd
    cases h with
    | cons ht hfs => exact fieldsBelow_cons.2 ⟨below_of_holds hd.1 ht, fieldsBelow_of_covers hd.2 hfs⟩
end

mutual
/-- **What stands between a type and a bounded one that holds it, holds it too.** -/
theorem holds_of_between : ∀ {d a c : LogicalType}, Below a c → Below c d → d.Bounded → Holds d a → Holds c a
  | plain t, a, c, hac, hcd, _, h => by
    cases h with
    | untyped => exact .untyped c
    | plain =>
      cases hcd.narrows with
      | untyped =>
        cases Below.antisymm hac (join?_any_left _)
        exact .plain .any
      | same => exact .plain t
  | decimal u v, a, c, hac, hcd, hd, h => by
    cases h with
    | untyped => exact .untyped c
    | decimal hps =>
      cases hcd.narrows with
      | untyped => cases hac.narrows
      | same => exact .decimal hps
      | decimal => exact .decimal (decimalHolds_of_between hac hcd hd hps)
  | list t, a, c, hac, hcd, hd, h => by
    rw [Bounded] at hd
    cases h with
    | untyped => exact .untyped c
    | list ht =>
      cases hcd.narrows with
      | untyped => cases hac.narrows
      | same => exact .list ht
      | list hct => exact .list (holds_of_between (below_list.1 hac) hct hd ht)
  | array t n, a, c, hac, hcd, hd, h => by
    rw [Bounded] at hd
    cases h with
    | untyped => exact .untyped c
    | array _ ht =>
      cases hcd.narrows with
      | untyped => cases hac.narrows
      | same => exact .array n ht
      | array _ hct => exact .array n (holds_of_between (below_array.1 hac) hct hd ht)
  | struct fs, a, c, hac, hcd, hd, h => by
    rw [Bounded] at hd
    cases h with
    | untyped => exact .untyped c
    | struct hfs =>
      cases hcd.narrows with
      | untyped => cases hac.narrows
      | same => exact .struct hfs
      | struct hcs => exact .struct (coversFields_of_between (below_struct.1 hac) hcs hd hfs)
  | map k v, a, c, hac, hcd, hd, h => by
    rw [Bounded] at hd
    cases h with
    | untyped => exact .untyped c
    | map hk hv =>
      cases hcd.narrows with
      | untyped => cases hac.narrows
      | same => exact .map hk hv
      | map hck hcv =>
        obtain ⟨hak, hav⟩ := below_map.1 hac
        exact .map (holds_of_between hak hck hd.1 hk) (holds_of_between hav hcv hd.2 hv)
  | union ms, a, c, hac, hcd, _, h => by
    cases h with
    | untyped => exact .untyped c
    | union =>
      cases hcd.narrows with
      | untyped => cases hac.narrows
      | same => exact .union ms
theorem coversFields_of_between : ∀ {hs fs gs : List (String × LogicalType)}, FieldsBelow fs gs →
    FieldsBelow gs hs → BoundedFields hs → CoversFields DecimalHolds hs fs → CoversFields DecimalHolds gs fs
  | [], fs, gs, hac, _, _, h => by
    cases h
    cases gs with
    | nil => exact .nil
    | cons => cases hac
  | (n, u) :: hs, fs, gs, hac, hcd, hd, h => by
    rw [BoundedFields] at hd
    cases h with
    | cons ht hfs =>
      obtain ⟨v, _, gs, _, rfl, hb, _, _⟩ := of_joinFields?_cons hac
      cases hb
      obtain ⟨hav, hag⟩ := fieldsBelow_cons.1 hac
      obtain ⟨hvu, hgs⟩ := fieldsBelow_cons.1 hcd
      exact .cons (holds_of_between hav hvu hd.1 ht) (coversFields_of_between hag hgs hd.2 hfs)
end

/-- The type holds the members of the list but for full decimals, and holds them all if any bounded type does. -/
structure Accommodates (c : LogicalType) (ts : List LogicalType) : Prop where
  unlessFull : ∀ t ∈ ts, HoldsUnlessFull c t
  ofBounded : ∀ d : LogicalType, d.Bounded → (∀ t ∈ ts, Holds d t) → ∀ t ∈ ts, Holds c t

/-- **The common type of a list accommodates its members.** -/
theorem accommodates_joinAll? {ts : List LogicalType} (h : joinAll? ts = some c) : Accommodates c ts where
  unlessFull t ht := holdsUnlessFull_of_below (below_joinAll? h t ht)
  ofBounded d hd hts t ht := by
    have hne : ts ≠ [] := List.ne_nil_of_mem ht
    have hle : Below c d := ((joinAll?_eq_some_iff hne).1 h).2 fun u hu => below_of_holds hd (hts u hu)
    exact holds_of_between (below_joinAll? h t ht) hle hd (hts t ht)

/-! ## Joining tests the shape -/

mutual
/-- **A type without untyped parts agrees with every type that it joins with.** -/
theorem shapedAlike_of_join? : ∀ {a b c : LogicalType}, a.Typed → join? a b = some c → ShapedAlike a b
  | plain t, b, c, ha, h => by
    rw [Typed] at ha
    obtain ⟨-, rfl | rfl⟩ := of_join?_plain ha h
    · exact .untyped _
    · exact .plain t
  | decimal p s, b, c, _, h => by
    rcases of_join?_decimal h with ⟨rfl, -⟩ | ⟨q, r, rfl, -⟩
    · exact .untyped _
    · exact .decimal trivial
  | list t, b, c, ha, h => by
    rw [Typed] at ha
    rcases of_join?_list h with ⟨rfl, -⟩ | ⟨u, v, rfl, -, hu⟩
    · exact .untyped _
    · exact .list (shapedAlike_of_join? ha hu)
  | array t n, b, c, ha, h => by
    rw [Typed] at ha
    rcases of_join?_array h with ⟨rfl, -⟩ | ⟨u, v, rfl, -, hu⟩
    · exact .untyped _
    · exact .array n (shapedAlike_of_join? ha hu)
  | struct fs, b, c, ha, h => by
    rw [Typed] at ha
    rcases of_join?_struct h with ⟨rfl, -⟩ | ⟨gs, hs, rfl, -, hgs⟩
    · exact .untyped _
    · exact .struct (shapedAlikeFields_of_joinFields? ha hgs)
  | map k v, b, c, ha, h => by
    rw [Typed] at ha
    rcases of_join?_map h with ⟨rfl, -⟩ | ⟨l, w, _, _, rfl, -, hl, hw⟩
    · exact .untyped _
    · exact .map (shapedAlike_of_join? ha.1 hl) (shapedAlike_of_join? ha.2 hw)
  | union ms, b, c, _, h => by
    obtain ⟨-, rfl | rfl⟩ := of_join?_union h
    · exact .untyped _
    · exact .union ms
theorem shapedAlikeFields_of_joinFields? : ∀ {fs gs hs : List (String × LogicalType)}, TypedFields fs →
    joinFields? fs gs = some hs → CoversFields (fun _ _ _ _ => True) fs gs
  | [], gs, hs, _, h => by
    cases gs with
    | nil => exact .nil
    | cons => cases h
  | (n, t) :: fs, gs, hs, ha, h => by
    rw [TypedFields] at ha
    obtain ⟨u, v, gs, hs, rfl, -, hu, hgs⟩ := of_joinFields?_cons h
    exact .cons (shapedAlike_of_join? ha.1 hu) (shapedAlikeFields_of_joinFields? ha.2 hgs)
end

end ValueBridge.LogicalType
