import ValueBridge.Proofs.Type.Order
import Mathlib.Data.List.Forall2
/-!
# When types join

The common type of two types still joins with whatever both of them join with (`joins_of_both`), so that types which
join pair by pair have a common type (`exists_joinAll?_of_pairwise`).  Whether types join does not depend on the sizes of
decimals: joining commutes with forgetting them (`joinAll?_shape`).
-/
namespace ValueBridge.LogicalType

/-- The two types have a common type. -/
def Joins (a b : LogicalType) : Prop := ∃ c, join? a b = some c

/-- The same of fields with the same names in the same order. -/
def FieldsJoin (fs gs : List (String × LogicalType)) : Prop := ∃ hs, joinFields? fs gs = some hs

/-! ## Types of one shape -/

section Parts

variable {t u k v l w : LogicalType} {n : Nat} {name : String} {fs gs : List (String × LogicalType)}

theorem joins_any_right (a : LogicalType) : Joins a any := ⟨a, join?_any_right a⟩

theorem joins_decimal (p s q r : Nat) : Joins (decimal p s) (decimal q r) := ⟨_, join?_decimal⟩

theorem joins_list : Joins (list t) (list u) ↔ Joins t u := by simp [Joins, join?_list]

theorem joins_array : Joins (array t n) (array u n) ↔ Joins t u := by simp [Joins, join?_array]

theorem joins_struct : Joins (struct fs) (struct gs) ↔ FieldsJoin fs gs := by simp [Joins, FieldsJoin, join?_struct]

theorem joins_map : Joins (map k v) (map l w) ↔ Joins k l ∧ Joins v w := by
  simp only [Joins, join?_map, Option.bind_eq_some_iff, Option.map_eq_some_iff]
  constructor
  · rintro ⟨_, key, hkey, value, hvalue, -⟩
    exact ⟨⟨key, hkey⟩, value, hvalue⟩
  · rintro ⟨⟨key, hkey⟩, value, hvalue⟩
    exact ⟨_, key, hkey, value, hvalue, rfl⟩

theorem fieldsJoin_cons : FieldsJoin ((name, t) :: fs) ((name, u) :: gs) ↔ Joins t u ∧ FieldsJoin fs gs := by
  simp only [Joins, FieldsJoin, joinFields?_cons, Option.bind_eq_some_iff, Option.map_eq_some_iff]
  constructor
  · rintro ⟨_, v, hv, hs, hhs, -⟩
    exact ⟨⟨v, hv⟩, hs, hhs⟩
  · rintro ⟨⟨v, hv⟩, hs, hhs⟩
    exact ⟨_, v, hv, hs, hhs, rfl⟩

end Parts

theorem FieldsJoin.of_forall₂ {fs gs : List (String × LogicalType)}
    (h : List.Forall₂ (fun f g => f.1 = g.1 ∧ Joins f.2 g.2) fs gs) : FieldsJoin fs gs := by
  induction h with
  | nil => exact ⟨[], rfl⟩
  | @cons f g fs gs hfg _ ih =>
    obtain ⟨n, t⟩ := f
    obtain ⟨_, u⟩ := g
    obtain ⟨rfl, htu⟩ := hfg
    exact fieldsJoin_cons.2 ⟨htu, ih⟩

/-! ## Pairs and lists -/

mutual
/-- **The common type of two types joins with what both of them join with.** -/
theorem joins_of_both : ∀ {a b c d : LogicalType}, join? a b = some c → Joins a d → Joins b d → Joins c d
  | plain t, b, c, d, h, ha, hb => by
    by_cases ht : t = .any
    · subst ht
      rw [join?_any_left] at h
      cases h
      exact hb
    · obtain ⟨rfl, -⟩ := of_join?_plain ht h
      exact ha
  | decimal p s, b, c, d, h, ha, _ => by
    rcases of_join?_decimal h with ⟨rfl, rfl⟩ | ⟨q, r, rfl, rfl⟩
    · exact ha
    · obtain ⟨e, he⟩ := ha
      rcases of_join?_decimal he with ⟨rfl, -⟩ | ⟨u, v, rfl, -⟩
      · exact joins_any_right _
      · split <;> exact joins_decimal _ _ _ _
  | list t, b, c, d, h, ha, hb => by
    rcases of_join?_list h with ⟨rfl, rfl⟩ | ⟨u, v, rfl, rfl, hv⟩
    · exact ha
    · obtain ⟨e, he⟩ := ha
      rcases of_join?_list he with ⟨rfl, -⟩ | ⟨w, x, rfl, -, hx⟩
      · exact joins_any_right _
      · exact joins_list.2 (joins_of_both hv ⟨x, hx⟩ (joins_list.1 hb))
  | array t n, b, c, d, h, ha, hb => by
    rcases of_join?_array h with ⟨rfl, rfl⟩ | ⟨u, v, rfl, rfl, hv⟩
    · exact ha
    · obtain ⟨e, he⟩ := ha
      rcases of_join?_array he with ⟨rfl, -⟩ | ⟨w, x, rfl, -, hx⟩
      · exact joins_any_right _
      · exact joins_array.2 (joins_of_both hv ⟨x, hx⟩ (joins_array.1 hb))
  | struct fs, b, c, d, h, ha, hb => by
    rcases of_join?_struct h with ⟨rfl, rfl⟩ | ⟨gs, hs, rfl, rfl, hhs⟩
    · exact ha
    · obtain ⟨e, he⟩ := ha
      rcases of_join?_struct he with ⟨rfl, -⟩ | ⟨js, ks, rfl, -, hks⟩
      · exact joins_any_right _
      · exact joins_struct.2 (fieldsJoin_of_both hhs ⟨ks, hks⟩ (joins_struct.1 hb))
  | map k v, b, c, d, h, ha, hb => by
    rcases of_join?_map h with ⟨rfl, rfl⟩ | ⟨l, w, key, value, rfl, rfl, hkey, hvalue⟩
    · exact ha
    · obtain ⟨e, he⟩ := ha
      rcases of_join?_map he with ⟨rfl, -⟩ | ⟨m, x, key', value', rfl, -, hkey', hvalue'⟩
      · exact joins_any_right _
      · obtain ⟨hl, hw⟩ := joins_map.1 hb
        exact joins_map.2 ⟨joins_of_both hkey ⟨key', hkey'⟩ hl, joins_of_both hvalue ⟨value', hvalue'⟩ hw⟩
  | union ms, b, c, d, h, ha, _ => by
    obtain ⟨rfl, -⟩ := of_join?_union h
    exact ha
theorem fieldsJoin_of_both : ∀ {fs gs hs js : List (String × LogicalType)}, joinFields? fs gs = some hs →
    FieldsJoin fs js → FieldsJoin gs js → FieldsJoin hs js
  | [], gs, hs, js, h, hf, _ => by
    cases gs with
    | nil =>
      cases h
      exact hf
    | cons => cases h
  | (n, t) :: fs, gs, hs, js, h, hf, hg => by
    obtain ⟨u, v, gs, hs, rfl, rfl, hv, hrest⟩ := of_joinFields?_cons h
    obtain ⟨ks, hks⟩ := hf
    obtain ⟨w, x, js, ks, rfl, -, hx, hks⟩ := of_joinFields?_cons hks
    obtain ⟨hu, hg⟩ := fieldsJoin_cons.1 hg
    exact fieldsJoin_cons.2 ⟨joins_of_both hv ⟨x, hx⟩ hu, fieldsJoin_of_both hrest ⟨ks, hks⟩ hg⟩
end

theorem exists_foldlM_of_pairwise : ∀ {ts : List LogicalType} {t : LogicalType}, (∀ u ∈ ts, Joins t u) →
    ts.Pairwise Joins → ∃ c, ts.foldlM join? t = some c
  | [], t, _, _ => ⟨t, rfl⟩
  | u :: ts, t, ht, hts => by
    obtain ⟨⟨v, hv⟩, ht⟩ := List.forall_mem_cons.1 ht
    obtain ⟨hu, hts⟩ := List.pairwise_cons.1 hts
    rw [List.foldlM_cons, hv]
    exact exists_foldlM_of_pairwise (fun w hw => joins_of_both hv (ht w hw) (hu w hw)) hts

/-- **Types that join pair by pair have a common type.** -/
theorem exists_joinAll?_of_pairwise {ts : List LogicalType} (hne : ts ≠ []) (h : ts.Pairwise Joins) :
    ∃ c, joinAll? ts = some c := by
  cases ts with
  | nil => exact absurd rfl hne
  | cons t ts =>
    obtain ⟨ht, hts⟩ := List.pairwise_cons.1 h
    exact exists_foldlM_of_pairwise ht hts

/-! ## Shapes -/

mutual
/-- The type with all decimals in it alike, apart from those of unions, which join with themselves only. -/
def shape : LogicalType → LogicalType
  | plain t => plain t
  | decimal _ _ => decimal 0 0
  | list t => list (shape t)
  | array t n => array (shape t) n
  | struct fs => struct (shapeFields fs)
  | map k v => map (shape k) (shape v)
  | union ms => union ms
def shapeFields : List (String × LogicalType) → List (String × LogicalType)
  | [] => []
  | (n, t) :: fs => (n, shape t) :: shapeFields fs
end

theorem tag_shape (a : LogicalType) : a.shape.tag = a.tag := by cases a <;> rfl

theorem shapeFields_eq_map (fs : List (String × LogicalType)) : shapeFields fs = fs.map fun f => (f.1, f.2.shape) := by
  induction fs with
  | nil => rfl
  | cons f fs ih => exact congrArg (List.cons _) ih

mutual
/-- **Joining looks at shapes.** -/
theorem join?_shape : ∀ a b : LogicalType, join? a.shape b.shape = (join? a b).map shape
  | plain t, b => by
    by_cases ht : t = .any
    · rw [ht]
      rfl
    · cases b <;> simp only [shape, join?, if_neg ht] <;> split <;> simp_all [shape]
  | decimal p s, b => by
    cases b with
    | plain u => cases u <;> rfl
    | decimal q r =>
      rw [join?_decimal]
      split <;> rfl
    | _ => rfl
  | list t, b => by
    cases b with
    | plain u => cases u <;> rfl
    | list u =>
      rw [shape, shape, join?_list, join?_list, join?_shape t u]
      cases join? t u <;> rfl
    | _ => rfl
  | array t n, b => by
    cases b with
    | plain u => cases u <;> rfl
    | array u m =>
      simp only [shape, join?, join?_shape t u]
      split
      · cases join? t u <;> rfl
      · rfl
    | _ => rfl
  | struct fs, b => by
    cases b with
    | plain u => cases u <;> rfl
    | struct gs =>
      rw [shape, shape, join?_struct, join?_struct, joinFields?_shape fs gs]
      cases joinFields? fs gs <;> rfl
    | _ => rfl
  | map k v, b => by
    cases b with
    | plain u => cases u <;> rfl
    | map l w =>
      rw [shape, shape, join?_map, join?_map, join?_shape k l, join?_shape v w]
      cases join? k l with
      | none => rfl
      | some _ => cases join? v w <;> rfl
    | _ => rfl
  | union ms, b => by
    cases b <;> simp only [shape, join?] <;> split <;> simp_all [shape]
theorem joinFields?_shape : ∀ fs gs : List (String × LogicalType),
    joinFields? (shapeFields fs) (shapeFields gs) = (joinFields? fs gs).map shapeFields
  | [], [] => rfl
  | [], _ :: _ => rfl
  | _ :: _, [] => rfl
  | (n, t) :: fs, (m, u) :: gs => by
    simp only [shapeFields, joinFields?, join?_shape t u, joinFields?_shape fs gs]
    split
    · cases join? t u with
      | none => rfl
      | some _ => cases joinFields? fs gs <;> rfl
    · rfl
end

theorem foldlM_shape : ∀ (ts : List LogicalType) (t : LogicalType),
    (ts.map shape).foldlM join? t.shape = (ts.foldlM join? t).map shape
  | [], _ => rfl
  | u :: ts, t => by
    rw [List.map_cons, List.foldlM_cons, List.foldlM_cons, join?_shape]
    cases join? t u with
    | none => rfl
    | some v => exact foldlM_shape ts v

theorem joinAll?_shape (ts : List LogicalType) : joinAll? (ts.map shape) = (joinAll? ts).map shape := by
  cases ts with
  | nil => rfl
  | cons t ts => exact foldlM_shape ts t

end ValueBridge.LogicalType
