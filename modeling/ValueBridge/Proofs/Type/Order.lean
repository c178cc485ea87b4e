import ValueBridge.Proofs.Type.Join
import Mathlib.Order.Bounds.Basic
/-!
# Common types are least upper bounds

Being below orders the types, with `ANY` at the bottom; the only types below another are those that `Narrows` lists.
Two types have a common type exactly when some type is above both (`exists_join?_of_below`), and the common type of a
list is the least type above its members (`joinAll?_eq_some_iff`).  A least upper bound depends on nothing but the set
that it bounds, so the order of a list does not matter (`joinAll?_perm`), and joining is commutative (`join?_comm`) and
associative (`join?_assoc`).
-/
namespace ValueBridge.LogicalType

variable {a b c d : LogicalType}

/-! ## What is below a type -/

/-- An untyped null narrows any type, and so does the type itself; any other has the shape of the wider one, with parts
that are below its parts. -/
inductive Narrows : LogicalType → LogicalType → Prop
  | untyped (b : LogicalType) : Narrows any b
  | same (a : LogicalType) : Narrows a a
  | decimal (p s q r : Nat) : Narrows (decimal p s) (decimal q r)
  | list {t u : LogicalType} : Below t u → Narrows (list t) (list u)
  | array {t u : LogicalType} (n : Nat) : Below t u → Narrows (array t n) (array u n)
  | struct {fs gs : List (String × LogicalType)} : FieldsBelow fs gs → Narrows (struct fs) (struct gs)
  | map {k v l w : LogicalType} : Below k l → Below v w → Narrows (map k v) (map l w)

theorem Below.narrows {a b : LogicalType} (h : Below a b) : Narrows a b := by
  cases a with
  | plain t =>
    by_cases ht : t = .any
    · rw [ht]
      exact .untyped b
    · obtain ⟨rfl, -⟩ := of_join?_plain ht h
      exact .same _
  | decimal p s =>
    rcases of_join?_decimal h with ⟨rfl, hb⟩ | ⟨q, r, rfl, -⟩
    · cases hb
    · exact .decimal p s q r
  | list t =>
    rcases of_join?_list h with ⟨rfl, hb⟩ | ⟨u, _, rfl, hb, ht⟩ <;> cases hb
    exact .list ht
  | array t n =>
    rcases of_join?_array h with ⟨rfl, hb⟩ | ⟨u, _, rfl, hb, ht⟩ <;> cases hb
    exact .array n ht
  | struct fs =>
    rcases of_join?_struct h with ⟨rfl, hb⟩ | ⟨gs, _, rfl, hb, hfs⟩ <;> cases hb
    exact .struct hfs
  | map k v =>
    rcases of_join?_map h with ⟨rfl, hb⟩ | ⟨l, w, _, _, rfl, hb, hk, hv⟩ <;> cases hb
    exact .map hk hv
  | union ms =>
    obtain ⟨rfl, -⟩ := of_join?_union h
    exact .same _

theorem join?_any_right (a : LogicalType) : join? a any = some a := by
  cases a with
  | plain t =>
    rw [join?]
    split
    · rename_i ht
      rw [ht]
    · rw [if_pos (.inl rfl)]
  | decimal | list | array | struct | map => rfl
  | union ms => rw [join?, if_pos (.inl rfl)]

/-! ## Types of one shape -/

section Parts

variable {t u k v l w : LogicalType} {n : Nat} {name : String} {fs gs : List (String × LogicalType)}

theorem below_list : Below (list t) (list u) ↔ Below t u := by simp [Below, join?_list]

theorem below_array : Below (array t n) (array u n) ↔ Below t u := by simp [Below, join?_array]

theorem below_struct : Below (struct fs) (struct gs) ↔ FieldsBelow fs gs := by simp [Below, join?_struct]

theorem below_map : Below (map k v) (map l w) ↔ Below k l ∧ Below v w := by
  rw [Below, join?_map, Option.bind_eq_some_iff]
  simp [Below]

theorem fieldsBelow_cons : FieldsBelow ((name, t) :: fs) ((name, u) :: gs) ↔ Below t u ∧ FieldsBelow fs gs := by
  rw [FieldsBelow, joinFields?_cons, Option.bind_eq_some_iff]
  simp [Below, FieldsBelow]

end Parts

/-! ## The order -/

mutual
/-- Two types that are below each other are the same. -/
theorem Below.antisymm : ∀ {a b : LogicalType}, Below a b → Below b a → a = b
  | plain t, b, h, h' => by
    cases h.narrows with
    | untyped => exact (Option.some.inj (h'.symm.trans (join?_any_right b)))
    | same => rfl
  | decimal p s, b, h, h' => by
    cases h.narrows with
    | same => rfl
    | decimal =>
      rw [below_decimal] at h h'
      rw [decimal.injEq]
      omega
  | list t, b, h, h' => by
    cases h.narrows with
    | same => rfl
    | list ht => rw [Below.antisymm ht (below_list.1 h')]
  | array t n, b, h, h' => by
    cases h.narrows with
    | same => rfl
    | array _ ht => rw [Below.antisymm ht (below_array.1 h')]
  | struct fs, b, h, h' => by
    cases h.narrows with
    | same => rfl
    | struct hfs => rw [FieldsBelow.antisymm hfs (below_struct.1 h')]
  | map k v, b, h, h' => by
    cases h.narrows with
    | same => rfl
    | map hk hv => rw [Below.antisymm hk (below_map.1 h').1, Below.antisymm hv (below_map.1 h').2]
  | union ms, b, h, _ => (of_join?_union h).1.symm
theorem FieldsBelow.antisymm : ∀ {fs gs : List (String × LogicalType)}, FieldsBelow fs gs → FieldsBelow gs fs → fs = gs
  | [], gs, h, _ => by
    cases gs with
    | nil => rfl
    | cons => cases h
  | (n, t) :: fs, gs, h, h' => by
    obtain ⟨u, _, gs, _, rfl, hb, ht, hfs⟩ := of_joinFields?_cons h
    cases hb
    obtain ⟨hu, hgs⟩ := fieldsBelow_cons.1 h'
    rw [Below.antisymm ht hu, FieldsBelow.antisymm hfs hgs]
end

instance : PartialOrder LogicalType where
  le := Below
  le_refl := join?_self
  le_trans _ _ _ := Below.trans
  le_antisymm _ _ := Below.antisymm

/-! ## Least upper bounds -/

/-- What is above two different decimal types is above the one that they join into. -/
theorem joinDecimal_below {p s q r u v : Nat} (h : Below (decimal p s) (decimal u v))
    (h' : Below (decimal q r) (decimal u v)) (hne : ¬(p = q ∧ s = r)) : Below (joinDecimal p s q r) (decimal u v) := by
  rw [below_decimal, maxPrecision] at h h'
  rw [joinDecimal, below_decimal, maxPrecision]
  rcases h with ⟨rfl, rfl⟩ | ⟨hs, hu⟩
  · rcases h' with ⟨rfl, rfl⟩ | ⟨hr, hu'⟩
    · exact absurd ⟨rfl, rfl⟩ hne
    · rw [Nat.max_eq_left hr, Nat.max_comm]
      exact .inl ⟨hu'.symm, rfl⟩
  · rcases h' with ⟨rfl, rfl⟩ | ⟨hr, hu'⟩
    · rw [Nat.max_eq_right hs]
      exact .inl ⟨hu.symm, rfl⟩
    · have hscale : max s r ≤ v := Nat.max_le.2 ⟨hs, hr⟩
      have hdigits : u = min 38 (max (max (p - s) (q - r)) (u - v) + v) := by
        rcases Nat.le_total (p - s) (q - r) with hle | hle
        · rwa [Nat.max_eq_right hle]
        · rwa [Nat.max_eq_left hle]
      refine .inr ⟨hscale, ?_⟩
      generalize max s r = scale at hscale ⊢
      generalize max (p - s) (q - r) = integral at hdigits ⊢
      clear hs hr hu hu'
      omega

mutual
/-- **Types that have a type above both have a common type**, which is below that type. -/
theorem exists_join?_of_below : ∀ {a b d : LogicalType}, Below a d → Below b d → ∃ c, join? a b = some c ∧ Below c d
  | plain t, b, d, ha, hb => by
    by_cases ht : t = .any
    · rw [ht]
      exact ⟨b, join?_any_left b, hb⟩
    · obtain ⟨rfl, -⟩ := of_join?_plain ht ha
      cases hb.narrows with
      | untyped => exact ⟨_, join?_any_right _, ha⟩
      | same => exact ⟨_, join?_self _, ha⟩
  | decimal p s, b, d, ha, hb => by
    rcases of_join?_decimal ha with ⟨rfl, hd⟩ | ⟨u, v, rfl, -⟩
    · cases hd
    · cases hb.narrows with
      | untyped => exact ⟨_, join?_any_right _, ha⟩
      | same => exact ⟨_, ha, join?_self _⟩
      | decimal q r =>
        refine ⟨_, join?_decimal, ?_⟩
        split
        · exact ha
        · rename_i hne
          exact joinDecimal_below ha hb hne
  | list t, b, d, ha, hb => by
    rcases of_join?_list ha with ⟨rfl, hd⟩ | ⟨v, _, rfl, hd, hv⟩ <;> cases hd
    cases hb.narrows with
    | untyped => exact ⟨_, join?_any_right _, ha⟩
    | same => exact ⟨_, ha, join?_self _⟩
    | list hu =>
      obtain ⟨c, hc, hcv⟩ := exists_join?_of_below hv hu
      exact ⟨list c, by rw [join?_list, hc]; rfl, below_list.2 hcv⟩
  | array t n, b, d, ha, hb => by
    rcases of_join?_array ha with ⟨rfl, hd⟩ | ⟨v, _, rfl, hd, hv⟩ <;> cases hd
    cases hb.narrows with
    | untyped => exact ⟨_, join?_any_right _, ha⟩
    | same => exact ⟨_, ha, join?_self _⟩
    | array _ hu =>
      obtain ⟨c, hc, hcv⟩ := exists_join?_of_below hv hu
      exact ⟨array c n, by rw [join?_array, hc]; rfl, below_array.2 hcv⟩
  | struct fs, b, d, ha, hb => by
    rcases of_join?_struct ha with ⟨rfl, hd⟩ | ⟨hs, _, rfl, hd, hhs⟩ <;> cases hd
    cases hb.narrows with
    | untyped => exact ⟨_, join?_any_right _, ha⟩
    | same => exact ⟨_, ha, join?_self _⟩
    | struct hgs =>
      obtain ⟨js, hjs, hle⟩ := exists_joinFields?_of_below hhs hgs
      exact ⟨struct js, by rw [join?_struct, hjs]; rfl, below_struct.2 hle⟩
  | map k v, b, d, ha, hb => by
    rcases of_join?_map ha with ⟨rfl, hd⟩ | ⟨l, w, _, _, rfl, hd, hl, hw⟩ <;> cases hd
    cases hb.narrows with
    | untyped => exact ⟨_, join?_any_right _, ha⟩
    | same => exact ⟨_, ha, join?_self _⟩
    | map hk hv =>
      obtain ⟨key, hkey, hkl⟩ := exists_join?_of_below hl hk
      obtain ⟨value, hvalue, hvw⟩ := exists_join?_of_below hw hv
      exact ⟨map key value, by rw [join?_map, hkey, hvalue]; rfl, below_map.2 ⟨hkl, hvw⟩⟩
  | union ms, b, d, ha, hb => by
    obtain ⟨rfl, -⟩ := of_join?_union ha
    cases hb.narrows with
    | untyped => exact ⟨_, join?_any_right _, ha⟩
    | same => exact ⟨_, join?_self _, ha⟩
theorem exists_joinFields?_of_below : ∀ {fs gs hs : List (String × LogicalType)}, FieldsBelow fs hs →
    FieldsBelow gs hs → ∃ js, joinFields? fs gs = some js ∧ FieldsBelow js hs
  | [], gs, hs, h, h' => by
    cases hs with
    | cons => cases h
    | nil =>
      cases gs with
      | cons => cases h'
      | nil => exact ⟨[], rfl, rfl⟩
  | (n, t) :: fs, gs, hs, h, h' => by
    obtain ⟨u, _, hs, _, rfl, hd, ht, hfs⟩ := of_joinFields?_cons h
    cases hd
    cases gs with
    | nil => cases h'
    | cons g gs =>
      obtain ⟨m, v⟩ := g
      obtain ⟨_, _, _, _, heq, hd, hv, hgs⟩ := of_joinFields?_cons h'
      cases heq
      cases hd
      obtain ⟨c, hc, hcu⟩ := exists_join?_of_below ht hv
      obtain ⟨js, hjs, hle⟩ := exists_joinFields?_of_below hfs hgs
      exact ⟨(n, c) :: js, by rw [joinFields?_cons, hc, hjs]; rfl, fieldsBelow_cons.2 ⟨hcu, hle⟩⟩
end

/-! ## The common type of a list -/

theorem exists_foldlM_of_below : ∀ {ts : List LogicalType} {t : LogicalType}, Below t d → (∀ u ∈ ts, Below u d) →
    ∃ c, ts.foldlM join? t = some c ∧ Below c d
  | [], t, ht, _ => ⟨t, rfl, ht⟩
  | u :: ts, t, ht, hts => by
    obtain ⟨hu, hts⟩ := List.forall_mem_cons.1 hts
    obtain ⟨v, hv, hvd⟩ := exists_join?_of_below ht hu
    rw [List.foldlM_cons, hv]
    exact exists_foldlM_of_below hvd hts

theorem exists_joinAll?_of_below {ts : List LogicalType} (hts : ts ≠ []) (h : ∀ t ∈ ts, Below t d) :
    ∃ c, joinAll? ts = some c ∧ Below c d := by
  cases ts with
  | nil => exact absurd rfl hts
  | cons t ts =>
    obtain ⟨ht, hts⟩ := List.forall_mem_cons.1 h
    exact exists_foldlM_of_below ht hts

/-- **The common type of a list is the least type above all its members**, if the list has any. -/
theorem joinAll?_eq_some_iff {ts : List LogicalType} (hts : ts ≠ []) :
    joinAll? ts = some c ↔ IsLUB {t | t ∈ ts} c := by
  constructor
  · intro h
    refine ⟨below_joinAll? h, fun d hd => ?_⟩
    obtain ⟨c', hc', hle⟩ := exists_joinAll?_of_below hts hd
    cases h.symm.trans hc'
    exact hle
  · intro h
    obtain ⟨c', hc', hle⟩ := exists_joinAll?_of_below hts h.1
    rw [hc', Below.antisymm hle (h.2 (below_joinAll? hc'))]

theorem joinAll?_perm {ts us : List LogicalType} (h : ts.Perm us) : joinAll? ts = joinAll? us := by
  by_cases hts : ts = []
  · subst hts
    rw [List.nil_perm.1 h]
  · have hus : us ≠ [] := fun hnil => hts (List.perm_nil.1 (hnil ▸ h))
    have hmem : {t | t ∈ ts} = {t | t ∈ us} := Set.ext fun _ => h.mem_iff
    ext c
    rw [joinAll?_eq_some_iff hts, joinAll?_eq_some_iff hus, hmem]

theorem joinAll?_pair (a b : LogicalType) : joinAll? [a, b] = join? a b := by
  rw [joinAll?, List.foldlM_cons]
  exact Option.bind_fun_some _

theorem joinAll?_triple (a b c : LogicalType) : joinAll? [a, b, c] = (join? a b).bind (join? · c) := by
  rw [joinAll?, List.foldlM_cons]
  exact congrArg _ (funext fun d => joinAll?_pair d c)

theorem join?_comm (a b : LogicalType) : join? a b = join? b a := by
  rw [← joinAll?_pair, ← joinAll?_pair]
  exact joinAll?_perm (.swap b a [])

theorem join?_assoc (a b c : LogicalType) : (join? a b).bind (join? · c) = (join? b c).bind (join? a) := by
  have hrotated : [a, b, c].Perm [b, c, a] := @List.perm_append_comm _ [a] [b, c]
  have hcomm : (join? · a) = join? a := funext fun d => join?_comm d a
  calc
    (join? a b).bind (join? · c) = joinAll? [a, b, c] := (joinAll?_triple a b c).symm
    _ = joinAll? [b, c, a] := joinAll?_perm hrotated
    _ = (join? b c).bind (join? · a) := joinAll?_triple b c a
    _ = (join? b c).bind (join? a) := by rw [hcomm]

end ValueBridge.LogicalType
