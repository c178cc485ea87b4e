import ValueBridge.Type.Join
/-!
# Types that absorb others

A type is below another if joining the two gives the other.  Every type is below itself (`join?_self`), being below is
transitive (`Below.trans`), and two types are below their common type (`join?_absorbs`).  So the members of a list are
all below the common type of the list, whatever was joined after them (`below_joinAll?`).
-/
namespace ValueBridge.LogicalType

/-- Joining the first type to the second does not change the second. -/
abbrev Below (a b : LogicalType) : Prop := join? a b = some b

/-- The same of fields with the same names in the same order. -/
abbrev FieldsBelow (fs gs : List (String × LogicalType)) : Prop := joinFields? fs gs = some gs

/-! ## What joins with what -/

theorem join?_any_left (b : LogicalType) : join? any b = some b := rfl

theorem join?_decimal {p s q r : Nat} :
    join? (decimal p s) (decimal q r) = some (if p = q ∧ s = r then decimal p s else joinDecimal p s q r) := rfl

theorem join?_list {t u : LogicalType} : join? (list t) (list u) = (join? t u).map list := rfl

theorem join?_array {t u : LogicalType} {n : Nat} :
    join? (array t n) (array u n) = (join? t u).map (array · n) := if_pos rfl

theorem join?_struct {fs gs : List (String × LogicalType)} :
    join? (struct fs) (struct gs) = (joinFields? fs gs).map struct := rfl

theorem join?_map {k v l w : LogicalType} :
    join? (map k v) (map l w) = (join? k l).bind fun key => (join? v w).map (map key ·) := rfl

theorem joinFields?_cons {n : String} {t u : LogicalType} {fs gs : List (String × LogicalType)} :
    joinFields? ((n, t) :: fs) ((n, u) :: gs) = (join? t u).bind fun v => (joinFields? fs gs).map ((n, v) :: ·) :=
  if_pos rfl

section Inversion

variable {b c : LogicalType}

/-- A tag alone joins with itself and with `ANY` only. -/
theorem of_join?_plain {t : Tag} (ht : t ≠ .any) (h : join? (plain t) b = some c) :
    c = plain t ∧ (b = any ∨ b = plain t) := by
  rw [join?, if_neg ht] at h
  split at h
  · rename_i hb
    cases h
    exact ⟨rfl, hb.imp_right Eq.symm⟩
  · cases h

theorem of_join?_decimal {p s : Nat} (h : join? (decimal p s) b = some c) :
    b = any ∧ c = decimal p s ∨ ∃ q r, b = decimal q r ∧
      c = if p = q ∧ s = r then decimal p s else joinDecimal p s q r := by
  unfold join? at h
  split at h <;> cases h
  · exact .inr ⟨_, _, rfl, rfl⟩
  · exact .inl ⟨rfl, rfl⟩

theorem of_join?_list {t : LogicalType} (h : join? (list t) b = some c) :
    b = any ∧ c = list t ∨ ∃ u v, b = list u ∧ c = list v ∧ join? t u = some v := by
  unfold join? at h
  split at h
  · obtain ⟨v, hv, rfl⟩ := Option.map_eq_some_iff.1 h
    exact .inr ⟨_, v, rfl, rfl, hv⟩
  · cases h
    exact .inl ⟨rfl, rfl⟩
  · cases h

theorem of_join?_array {t : LogicalType} {n : Nat} (h : join? (array t n) b = some c) :
    b = any ∧ c = array t n ∨ ∃ u v, b = array u n ∧ c = array v n ∧ join? t u = some v := by
  unfold join? at h
  split at h
  · split at h
    · rename_i hn
      obtain ⟨v, hv, rfl⟩ := Option.map_eq_some_iff.1 h
      exact .inr ⟨_, v, by rw [hn], rfl, hv⟩
    · cases h
  · cases h
    exact .inl ⟨rfl, rfl⟩
  · cases h

theorem of_join?_struct {fs : List (String × LogicalType)} (h : join? (struct fs) b = some c) :
    b = any ∧ c = struct fs ∨ ∃ gs hs, b = struct gs ∧ c = struct hs ∧ joinFields? fs gs = some hs := by
  unfold join? at h
  split at h
  · obtain ⟨hs, hhs, rfl⟩ := Option.map_eq_some_iff.1 h
    exact .inr ⟨_, hs, rfl, rfl, hhs⟩
  · cases h
    exact .inl ⟨rfl, rfl⟩
  · cases h

theorem of_join?_map {k v : LogicalType} (h : join? (map k v) b = some c) :
    b = any ∧ c = map k v ∨ ∃ l w key value, b = map l w ∧ c = map key value ∧ join? k l = some key ∧
      join? v w = some value := by
  unfold join? at h
  split at h
  · obtain ⟨key, hkey, h⟩ := Option.bind_eq_some_iff.1 h
    obtain ⟨value, hvalue, rfl⟩ := Option.map_eq_some_iff.1 h
    exact .inr ⟨_, _, key, value, rfl, rfl, hkey, hvalue⟩
  · cases h
    exact .inl ⟨rfl, rfl⟩
  · cases h

theorem of_join?_union {ms : List (String × LogicalType)} (h : join? (union ms) b = some c) :
    c = union ms ∧ (b = any ∨ b = union ms) := by
  rw [join?] at h
  split at h
  · rename_i hb
    cases h
    exact ⟨rfl, hb.imp_right Eq.symm⟩
  · cases h

theorem of_joinFields?_cons {n : String} {t : LogicalType} {fs gs hs : List (String × LogicalType)}
    (h : joinFields? ((n, t) :: fs) gs = some hs) : ∃ u v gs' hs', gs = (n, u) :: gs' ∧ hs = (n, v) :: hs' ∧
      join? t u = some v ∧ joinFields? fs gs' = some hs' := by
  cases gs with
  | nil => cases h
  | cons g gs =>
    obtain ⟨m, u⟩ := g
    rw [joinFields?] at h
    split at h
    · rename_i hm
      obtain ⟨v, hv, h⟩ := Option.bind_eq_some_iff.1 h
      obtain ⟨hs', hhs', rfl⟩ := Option.map_eq_some_iff.1 h
      exact ⟨u, v, gs, hs', by rw [hm], rfl, hv, hhs'⟩
    · cases h

end Inversion

/-! ## Every type is below itself -/

mutual
theorem join?_self : ∀ a : LogicalType, Below a a
  | plain t => by
    by_cases ht : t = .any
    · rw [ht]
      exact join?_any_left any
    · simp [Below, join?, ht]
  | decimal p s => by simp [Below, join?_decimal]
  | list t => by rw [Below, join?_list, join?_self t]; rfl
  | array t n => by rw [Below, join?_array, join?_self t]; rfl
  | struct fs => by rw [Below, join?_struct, joinFields?_self fs]; rfl
  | map k v => by rw [Below, join?_map, join?_self k, join?_self v]; rfl
  | union ms => by simp [Below, join?]
theorem joinFields?_self : ∀ fs : List (String × LogicalType), FieldsBelow fs fs
  | [] => rfl
  | (n, t) :: fs => by rw [FieldsBelow, joinFields?_cons, join?_self t, joinFields?_self fs]; rfl
end

/-! ## A common type is above what it joins -/

/-- A decimal type is below another if the other has at least its scale, and as many digits before the point unless that
makes more than there can be. -/
theorem below_decimal {p s q r : Nat} : Below (decimal p s) (decimal q r) ↔
    p = q ∧ s = r ∨ s ≤ r ∧ q = min maxPrecision (max (p - s) (q - r) + r) := by
  rw [Below, join?_decimal, Option.some.injEq]
  split
  · rename_i heq
    simp only [heq, and_self, true_or]
  · rename_i hne
    rw [joinDecimal, decimal.injEq]
    constructor
    · rintro ⟨hq, hr⟩
      rw [hr] at hq
      exact .inr ⟨by omega, hq.symm⟩
    · rintro (heq | ⟨hs, hq⟩)
      · exact absurd heq hne
      · rw [Nat.max_eq_right hs]
        exact ⟨hq.symm, rfl⟩

theorem joinDecimal_comm (p s q r : Nat) : joinDecimal p s q r = joinDecimal q r p s := by
  rw [joinDecimal, joinDecimal, Nat.max_comm s r, Nat.max_comm (p - s) (q - r)]

theorem below_joinDecimal (p s q r : Nat) : Below (decimal p s) (joinDecimal p s q r) := by
  rw [joinDecimal, below_decimal, maxPrecision]
  refine .inr ⟨Nat.le_max_left s r, ?_⟩
  omega

mutual
/-- **Two types are below their common type.** -/
theorem join?_absorbs : ∀ {a b c : LogicalType}, join? a b = some c → Below a c ∧ Below b c
  | plain t, b, c, h => by
    by_cases ht : t = .any
    · subst ht
      rw [join?_any_left] at h
      cases h
      exact ⟨join?_any_left b, join?_self b⟩
    · obtain ⟨rfl, rfl | rfl⟩ := of_join?_plain ht h
      · exact ⟨join?_self _, join?_any_left _⟩
      · exact ⟨join?_self _, join?_self _⟩
  | decimal p s, b, c, h => by
    rcases of_join?_decimal h with ⟨rfl, rfl⟩ | ⟨q, r, rfl, rfl⟩
    · exact ⟨join?_self _, join?_any_left _⟩
    · split
      · rename_i heq
        rw [heq.1, heq.2]
        exact ⟨join?_self _, join?_self _⟩
      · refine ⟨below_joinDecimal p s q r, ?_⟩
        rw [joinDecimal_comm]
        exact below_joinDecimal q r p s
  | list t, b, c, h => by
    rcases of_join?_list h with ⟨rfl, rfl⟩ | ⟨u, v, rfl, rfl, hv⟩
    · exact ⟨join?_self _, join?_any_left _⟩
    · obtain ⟨ht, hu⟩ := join?_absorbs hv
      exact ⟨by rw [Below, join?_list, ht]; rfl, by rw [Below, join?_list, hu]; rfl⟩
  | array t n, b, c, h => by
    rcases of_join?_array h with ⟨rfl, rfl⟩ | ⟨u, v, rfl, rfl, hv⟩
    · exact ⟨join?_self _, join?_any_left _⟩
    · obtain ⟨ht, hu⟩ := join?_absorbs hv
      exact ⟨by rw [Below, join?_array, ht]; rfl, by rw [Below, join?_array, hu]; rfl⟩
  | struct fs, b, c, h => by
    rcases of_join?_struct h with ⟨rfl, rfl⟩ | ⟨gs, hs, rfl, rfl, hhs⟩
    · exact ⟨join?_self _, join?_any_left _⟩
    · obtain ⟨hfs, hgs⟩ := joinFields?_absorbs hhs
      exact ⟨by rw [Below, join?_struct, hfs]; rfl, by rw [Below, join?_struct, hgs]; rfl⟩
  | map k v, b, c, h => by
    rcases of_join?_map h with ⟨rfl, rfl⟩ | ⟨l, w, key, value, rfl, rfl, hkey, hvalue⟩
    · exact ⟨join?_self _, join?_any_left _⟩
    · obtain ⟨hk, hl⟩ := join?_absorbs hkey
      obtain ⟨hv, hw⟩ := join?_absorbs hvalue
      exact ⟨by rw [Below, join?_map, hk, hv]; rfl, by rw [Below, join?_map, hl, hw]; rfl⟩
  | union ms, b, c, h => by
    obtain ⟨rfl, rfl | rfl⟩ := of_join?_union h
    · exact ⟨join?_self _, join?_any_left _⟩
    · exact ⟨join?_self _, join?_self _⟩
theorem joinFields?_absorbs : ∀ {fs gs hs : List (String × LogicalType)}, joinFields? fs gs = some hs →
    FieldsBelow fs hs ∧ FieldsBelow gs hs
  | [], [], _, h => by
    cases h
    exact ⟨rfl, rfl⟩
  | [], _ :: _, _, h => by cases h
  | (n, t) :: fs, gs, hs, h => by
    obtain ⟨u, v, gs, hs, rfl, rfl, hv, hrest⟩ := of_joinFields?_cons h
    obtain ⟨ht, hu⟩ := join?_absorbs hv
    obtain ⟨hfs, hgs⟩ := joinFields?_absorbs hrest
    exact ⟨by rw [FieldsBelow, joinFields?_cons, ht, hfs]; rfl, by rw [FieldsBelow, joinFields?_cons, hu, hgs]; rfl⟩
end

/-! ## Being below is transitive -/

theorem Below.trans_decimal {p s q r v u : Nat} (h : Below (decimal p s) (decimal q r))
    (h' : Below (decimal q r) (decimal v u)) : Below (decimal p s) (decimal v u) := by
  rw [below_decimal] at h h' ⊢
  rcases h with ⟨rfl, rfl⟩ | ⟨hs, hq⟩
  · exact h'
  · rcases h' with ⟨rfl, rfl⟩ | ⟨hr, hv⟩
    · exact .inr ⟨hs, hq⟩
    · refine .inr ⟨Nat.le_trans hs hr, ?_⟩
      omega

mutual
/-- **Being below is transitive.** -/
theorem Below.trans : ∀ {a b c : LogicalType}, Below a b → Below b c → Below a c
  | plain t, b, c, h, h' => by
    by_cases ht : t = .any
    · rw [ht]
      exact join?_any_left c
    · obtain ⟨rfl, -⟩ := of_join?_plain ht h
      exact h'
  | decimal p s, b, c, h, h' => by
    rcases of_join?_decimal h with ⟨rfl, hb⟩ | ⟨q, r, rfl, -⟩
    · cases hb
    · rcases of_join?_decimal h' with ⟨rfl, hc⟩ | ⟨v, u, rfl, -⟩
      · cases hc
      · exact h.trans_decimal h'
  | list t, b, c, h, h' => by
    rcases of_join?_list h with ⟨rfl, hb⟩ | ⟨u, _, rfl, hb, hu⟩ <;> cases hb
    rcases of_join?_list h' with ⟨rfl, hc⟩ | ⟨v, _, rfl, hc, hv⟩ <;> cases hc
    rw [Below, join?_list, Below.trans hu hv]
    rfl
  | array t n, b, c, h, h' => by
    rcases of_join?_array h with ⟨rfl, hb⟩ | ⟨u, _, rfl, hb, hu⟩ <;> cases hb
    rcases of_join?_array h' with ⟨rfl, hc⟩ | ⟨v, _, rfl, hc, hv⟩ <;> cases hc
    rw [Below, join?_array, Below.trans hu hv]
    rfl
  | struct fs, b, c, h, h' => by
    rcases of_join?_struct h with ⟨rfl, hb⟩ | ⟨gs, _, rfl, hb, hgs⟩ <;> cases hb
    rcases of_join?_struct h' with ⟨rfl, hc⟩ | ⟨hs, _, rfl, hc, hhs⟩ <;> cases hc
    rw [Below, join?_struct, FieldsBelow.trans hgs hhs]
    rfl
  | map k v, b, c, h, h' => by
    rcases of_join?_map h with ⟨rfl, hb⟩ | ⟨l, w, _, _, rfl, hb, hl, hw⟩ <;> cases hb
    rcases of_join?_map h' with ⟨rfl, hc⟩ | ⟨m, x, _, _, rfl, hc, hm, hx⟩ <;> cases hc
    rw [Below, join?_map, Below.trans hl hm, Below.trans hw hx]
    rfl
  | union ms, b, c, h, h' => by
    obtain ⟨rfl, -⟩ := of_join?_union h
    exact h'
theorem FieldsBelow.trans : ∀ {fs gs hs : List (String × LogicalType)}, FieldsBelow fs gs → FieldsBelow gs hs →
    FieldsBelow fs hs
  | [], gs, hs, h, h' => by
    cases gs with
    | nil => exact h'
    | cons => cases h
  | (n, t) :: fs, gs, hs, h, h' => by
    obtain ⟨u, _, gs, _, rfl, hb, hu, hgs⟩ := of_joinFields?_cons h
    cases hb
    obtain ⟨v, _, hs, _, rfl, hc, hv, hhs⟩ := of_joinFields?_cons h'
    cases hc
    rw [FieldsBelow, joinFields?_cons, Below.trans hu hv, FieldsBelow.trans hgs hhs]
    rfl
end

/-! ## The common type of a list -/

/-- What is below the type that a fold starts with, and what the fold joins, is below its result. -/
theorem below_foldlM : ∀ {ts : List LogicalType} {t c : LogicalType}, ts.foldlM join? t = some c →
    Below t c ∧ ∀ u ∈ ts, Below u c
  | [], t, c, h => by
    cases h
    exact ⟨join?_self t, fun u hu => by cases hu⟩
  | u :: ts, t, c, h => by
    rw [List.foldlM_cons] at h
    obtain ⟨v, hv, hrest⟩ := Option.bind_eq_some_iff.1 h
    obtain ⟨hvc, hts⟩ := below_foldlM hrest
    obtain ⟨ht, hu⟩ := join?_absorbs hv
    exact ⟨ht.trans hvc, List.forall_mem_cons.2 ⟨hu.trans hvc, hts⟩⟩

/-- **Every member of a list is below the common type of the list.** -/
theorem below_joinAll? {ts : List LogicalType} {c : LogicalType} (h : joinAll? ts = some c) : ∀ t ∈ ts, Below t c := by
  cases ts with
  | nil => cases h
  | cons t ts =>
    obtain ⟨ht, hts⟩ := below_foldlM h
    exact List.forall_mem_cons.2 ⟨ht, hts⟩

end ValueBridge.LogicalType
