import ValueBridge.Proofs.Type.Decimals
import ValueBridge.Proofs.Type.Joining
/-!
# Types by position

A position in a type is a path of steps: into the elements of a list, into a field, into the keys or the values of a map.
Joining works position by position (`join?_inside`), so the tag that a common type has at some position is one that a
member of the list has there (`tag_inside_of_joinAll?`).

A mold says which host shape values have, where all scalars are decimals.  Types that one mold allows differ in nothing
but the type of decimals, which is that of 128-bit integers or a decimal type.  They have a common type exactly if none
of them has the one at a position where another has the other (`Mold.joinAll?_isSome_iff`).
-/
namespace ValueBridge

/-- A step into a value or a type.  Fields are numbered by their order. -/
inductive Step where
  | item | field (index : Nat) | key | value
deriving DecidableEq, Repr

namespace LogicalType

variable {a b c t : LogicalType} {ts : List LogicalType} {P : Tag → Prop}

/-- The type of a field, or that of an untyped null if there is none. -/
def fieldAt (fs : List (String × LogicalType)) (i : Nat) : LogicalType := (fs[i]?.map Prod.snd).getD any

/-- The type of what a step leads to, or that of an untyped null if it leads nowhere. -/
def step : LogicalType → Step → LogicalType
  | list t, .item | array t _, .item => t
  | struct fs, .field i => fieldAt fs i
  | map k _, .key => k
  | map _ v, .value => v
  | _, _ => any

/-- The type at a position. -/
def inside (t : LogicalType) (p : List Step) : LogicalType := p.foldl step t

theorem inside_cons (t : LogicalType) (x : Step) (p : List Step) : t.inside (x :: p) = (t.step x).inside p := rfl

theorem step_any (x : Step) : any.step x = any := by cases x <;> rfl

theorem inside_any (p : List Step) : any.inside p = any := by
  induction p with
  | nil => rfl
  | cons x p ih => rw [inside_cons, step_any, ih]

/-! ## Joining position by position -/

theorem join?_fieldAt : ∀ {fs gs hs : List (String × LogicalType)}, joinFields? fs gs = some hs → ∀ i,
    join? (fieldAt fs i) (fieldAt gs i) = some (fieldAt hs i)
  | [], [], _, h, i => by
    cases h
    exact join?_self any
  | [], _ :: _, _, h, _ => by cases h
  | (n, t) :: fs, gs, hs, h, i => by
    obtain ⟨u, v, gs, hs, rfl, rfl, hv, hrest⟩ := of_joinFields?_cons h
    cases i with
    | zero => exact hv
    | succ i => exact join?_fieldAt hrest i

/-- Parts of types that join, join. -/
theorem join?_step (h : join? a b = some c) (x : Step) : join? (a.step x) (b.step x) = some (c.step x) := by
  cases a with
  | plain t =>
    by_cases ht : t = .any
    · rw [ht, join?_any_left] at h
      rw [ht, step_any, join?_any_left, Option.some.inj h]
    · obtain ⟨rfl, rfl | rfl⟩ := of_join?_plain ht h
      · rw [step_any, join?_any_right]
      · exact join?_self _
  | decimal p s =>
    rcases of_join?_decimal h with ⟨rfl, rfl⟩ | ⟨q, r, rfl, rfl⟩
    · rw [step_any, join?_any_right]
    · split <;> cases x <;> rfl
  | list t =>
    rcases of_join?_list h with ⟨rfl, rfl⟩ | ⟨u, v, rfl, rfl, hv⟩
    · rw [step_any, join?_any_right]
    · cases x with
      | item => exact hv
      | _ => rfl
  | array t n =>
    rcases of_join?_array h with ⟨rfl, rfl⟩ | ⟨u, v, rfl, rfl, hv⟩
    · rw [step_any, join?_any_right]
    · cases x with
      | item => exact hv
      | _ => rfl
  | struct fs =>
    rcases of_join?_struct h with ⟨rfl, rfl⟩ | ⟨gs, hs, rfl, rfl, hhs⟩
    · rw [step_any, join?_any_right]
    · cases x with
      | field i => exact join?_fieldAt hhs i
      | _ => rfl
  | map k v =>
    rcases of_join?_map h with ⟨rfl, rfl⟩ | ⟨l, w, key, value, rfl, rfl, hkey, hvalue⟩
    · rw [step_any, join?_any_right]
    · cases x with
      | key => exact hkey
      | value => exact hvalue
      | _ => rfl
  | union ms =>
    obtain ⟨rfl, rfl | rfl⟩ := of_join?_union h
    · rw [step_any, join?_any_right]
    · exact join?_self _

/-- **Joining works position by position.** -/
theorem join?_inside (h : join? a b = some c) (p : List Step) : join? (a.inside p) (b.inside p) = some (c.inside p) := by
  induction p generalizing a b c with
  | nil => exact h
  | cons x p ih => exact ih (join?_step h x)

theorem Below.inside (h : Below a b) (p : List Step) : Below (a.inside p) (b.inside p) := join?_inside h p

theorem foldlM_inside (p : List Step) : ∀ {ts : List LogicalType} {t c : LogicalType}, ts.foldlM join? t = some c →
    (ts.map (inside · p)).foldlM join? (t.inside p) = some (c.inside p)
  | [], _, _, h => by
    cases h
    rfl
  | u :: ts, t, c, h => by
    obtain ⟨v, hv, hrest⟩ := Option.bind_eq_some_iff.1 h
    rw [List.map_cons, List.foldlM_cons, join?_inside hv p]
    exact foldlM_inside p hrest

theorem joinAll?_inside (h : joinAll? ts = some c) (p : List Step) :
    joinAll? (ts.map (inside · p)) = some (c.inside p) := by
  cases ts with
  | nil => cases h
  | cons t ts => exact foldlM_inside p h

/-! ## Tags -/

/-- What has a tag other than that of untyped nulls passes it on to the types above. -/
theorem tag_of_below (h : Below a b) (ha : a.tag ≠ .any) : a.tag = b.tag := by
  cases h.narrows with
  | untyped => exact absurd rfl ha
  | _ => rfl

/-- What can be said of the tag of a common type, but not of that of untyped nulls, can be said of a member's. -/
theorem tag_of_joinAll? (h : joinAll? ts = some c) (hP : ¬P .any) : P c.tag ↔ ∃ t ∈ ts, P t.tag := by
  constructor
  · intro hc
    by_contra hnone
    -- Otherwise nothing but untyped nulls would be joined, whose common type is their own.
    have hall : ∀ t ∈ ts, t = any := by
      intro t ht
      cases (below_joinAll? h t ht).narrows with
      | untyped => rfl
      | _ => exact absurd ⟨_, ht, hc⟩ hnone
    cases ts with
    | nil => cases h
    | cons t ts =>
      have ht := hall t List.mem_cons_self
      have hany := joinAll?_of_mem List.mem_cons_self fun u hu => .inr ((hall u hu).trans ht.symm)
      cases h.symm.trans hany
      rw [ht] at hc
      exact hP hc
  · rintro ⟨t, ht, htag⟩
    rwa [← tag_of_below (below_joinAll? h t ht) fun hany => hP (hany ▸ htag)]

/-- **The tag of a common type at some position is that of a member of the list there.** -/
theorem tag_inside_of_joinAll? (h : joinAll? ts = some c) (hP : ¬P .any) (p : List Step) :
    P (c.inside p).tag ↔ ∃ t ∈ ts, P (t.inside p).tag := by
  rw [tag_of_joinAll? (joinAll?_inside h p) hP]
  simp only [List.mem_map, exists_exists_and_eq_and]

/-- Nowhere does the first type have a decimal type where the second has 128-bit integers. -/
def Agree (a b : LogicalType) : Prop := ∀ p, (a.inside p).tag = .decimal → (b.inside p).tag ≠ .int128

theorem Agree.step (h : Agree a b) (x : Step) : Agree (a.step x) (b.step x) := fun p => h (x :: p)

/-- Types that have a common type agree. -/
theorem agree_of_joinAll? (h : joinAll? ts = some c) (ha : a ∈ ts) (hb : b ∈ ts) : Agree a b := by
  intro p hdecimal hint
  have habove := tag_of_below ((below_joinAll? h a ha).inside p) (by rw [hdecimal]; decide)
  have hclash := tag_of_below ((below_joinAll? h b hb).inside p) (by rw [hint]; decide)
  rw [← habove, hdecimal, hint] at hclash
  cases hclash

end LogicalType

/-! ## Molds -/

/-- A host shape whose scalars are decimals. -/
inductive Mold where
  | decimal
  | list (item : Mold)
  | struct (fields : List (String × Mold))
  | map (key value : Mold)

namespace Mold

open LogicalType

mutual
/-- The type is one that values of the shape can have, or that of an untyped null, and so are its parts. -/
inductive Allows : Mold → LogicalType → Prop
  | untyped (μ : Mold) : Allows μ .any
  | int128 : Allows decimal (.plain .int128)
  | decimal (p s : Nat) : Allows decimal (.decimal p s)
  | list {μ : Mold} {t : LogicalType} : Allows μ t → Allows (list μ) (.list t)
  | struct {μs : List (String × Mold)} {fs : List (String × LogicalType)} :
    AllowsFields μs fs → Allows (struct μs) (.struct fs)
  | map {μ ν : Mold} {k v : LogicalType} : Allows μ k → Allows ν v → Allows (map μ ν) (.map k v)
/-- The same of fields with the same names in the same order. -/
inductive AllowsFields : List (String × Mold) → List (String × LogicalType) → Prop
  | nil : AllowsFields [] []
  | cons {n : String} {μ : Mold} {t : LogicalType} {μs : List (String × Mold)} {fs : List (String × LogicalType)} :
    Allows μ t → AllowsFields μs fs → AllowsFields ((n, μ) :: μs) ((n, t) :: fs)
end

variable {c : LogicalType} {ts : List LogicalType} {μ : Mold}

mutual
/-- **Types that one mold allows and that agree have a common type.** -/
theorem Allows.joins : ∀ {μ : Mold} {a b : LogicalType}, μ.Allows a → μ.Allows b → Agree a b → Agree b a → Joins a b
  | _, _, b, .untyped _, _, _, _ => ⟨b, join?_any_left b⟩
  | _, _, _, .int128, hb, _, hba => by
    cases hb with
    | untyped => exact joins_any_right _
    | int128 => exact ⟨_, join?_self _⟩
    | decimal p s => exact absurd rfl (hba [] rfl)
  | _, _, _, .decimal p s, hb, hab, _ => by
    cases hb with
    | untyped => exact joins_any_right _
    | int128 => exact absurd rfl (hab [] rfl)
    | decimal q r => exact joins_decimal p s q r
  | _, _, _, .list ht, hb, hab, hba => by
    cases hb with
    | untyped => exact joins_any_right _
    | list hu => exact joins_list.2 (ht.joins hu (hab.step .item) (hba.step .item))
  | _, _, _, .struct hfs, hb, hab, hba => by
    cases hb with
    | untyped => exact joins_any_right _
    | struct hgs => exact joins_struct.2 (hfs.joins hgs (fun i => hab.step (.field i)) fun i => hba.step (.field i))
  | _, _, _, .map hk hv, hb, hab, hba => by
    cases hb with
    | untyped => exact joins_any_right _
    | map hl hw =>
      exact joins_map.2 ⟨hk.joins hl (hab.step .key) (hba.step .key), hv.joins hw (hab.step .value) (hba.step .value)⟩
theorem AllowsFields.joins : ∀ {μs : List (String × Mold)} {fs gs : List (String × LogicalType)}, AllowsFields μs fs →
    AllowsFields μs gs → (∀ i, Agree (fieldAt fs i) (fieldAt gs i)) → (∀ i, Agree (fieldAt gs i) (fieldAt fs i)) →
    FieldsJoin fs gs
  | _, _, _, .nil, hgs, _, _ => by
    cases hgs
    exact ⟨[], rfl⟩
  | _, _, _, .cons ht hfs, hgs, hfg, hgf => by
    cases hgs with
    | cons hu hgs =>
      exact fieldsJoin_cons.2 ⟨ht.joins hu (hfg 0) (hgf 0), hfs.joins hgs (fun i => hfg (i + 1)) fun i => hgf (i + 1)⟩
end

mutual
/-- A mold allows the common type of types that it allows. -/
theorem Allows.join : ∀ {μ : Mold} {a b c : LogicalType}, μ.Allows a → μ.Allows b → join? a b = some c → μ.Allows c
  | _, _, b, c, .untyped _, hb, h => by
    cases (join?_any_left b).symm.trans h
    exact hb
  | _, _, _, _, .int128, hb, h => by
    cases hb with
    | decimal => cases h
    | _ =>
      cases h
      exact .int128
  | _, _, _, _, .decimal p s, hb, h => by
    rcases of_join?_decimal h with ⟨-, rfl⟩ | ⟨q, r, -, rfl⟩
    · exact .decimal p s
    · split <;> exact .decimal _ _
  | _, _, _, _, .list ht, hb, h => by
    rcases of_join?_list h with ⟨-, rfl⟩ | ⟨u, v, rfl, rfl, hv⟩
    · exact .list ht
    · cases hb with
      | list hu => exact .list (ht.join hu hv)
  | _, _, _, _, .struct hfs, hb, h => by
    rcases of_join?_struct h with ⟨-, rfl⟩ | ⟨gs, hs, rfl, rfl, hhs⟩
    · exact .struct hfs
    · cases hb with
      | struct hgs => exact .struct (hfs.join hgs hhs)
  | _, _, _, _, .map hk hv, hb, h => by
    rcases of_join?_map h with ⟨-, rfl⟩ | ⟨l, w, key, value, rfl, rfl, hkey, hvalue⟩
    · exact .map hk hv
    · cases hb with
      | map hl hw => exact .map (hk.join hl hkey) (hv.join hw hvalue)
theorem AllowsFields.join : ∀ {μs : List (String × Mold)} {fs gs hs : List (String × LogicalType)}, AllowsFields μs fs →
    AllowsFields μs gs → joinFields? fs gs = some hs → AllowsFields μs hs
  | _, _, _, _, .nil, hgs, h => by
    cases hgs
    cases h
    exact .nil
  | _, _, _, _, .cons ht hfs, hgs, h => by
    obtain ⟨u, v, gs, hs, rfl, rfl, hv, hrest⟩ := of_joinFields?_cons h
    cases hgs with
    | cons hu hgs => exact .cons (ht.join hu hv) (hfs.join hgs hrest)
end

theorem allows_foldlM : ∀ {ts : List LogicalType} {t : LogicalType}, μ.Allows t → (∀ u ∈ ts, μ.Allows u) →
    ts.foldlM join? t = some c → μ.Allows c
  | [], _, ht, _, h => by
    cases h
    exact ht
  | u :: ts, t, ht, hts, h => by
    obtain ⟨hu, hts⟩ := List.forall_mem_cons.1 hts
    obtain ⟨v, hv, hrest⟩ := Option.bind_eq_some_iff.1 h
    exact allows_foldlM (ht.join hu hv) hts hrest

theorem allows_joinAll? (hts : ∀ t ∈ ts, μ.Allows t) (h : joinAll? ts = some c) : μ.Allows c := by
  cases ts with
  | nil => cases h
  | cons t ts =>
    obtain ⟨ht, hts⟩ := List.forall_mem_cons.1 hts
    exact allows_foldlM ht hts h

/-- **Types that one mold allows have a common type exactly if they agree pair by pair.** -/
theorem joinAll?_isSome_iff (hne : ts ≠ []) (hts : ∀ t ∈ ts, μ.Allows t) :
    (joinAll? ts).isSome ↔ ∀ a ∈ ts, ∀ b ∈ ts, Agree a b := by
  rw [Option.isSome_iff_exists]
  constructor
  · exact fun ⟨c, hc⟩ a ha b hb => agree_of_joinAll? hc ha hb
  · intro h
    exact exists_joinAll?_of_pairwise hne
      (List.pairwise_of_forall_mem_list fun a ha b hb => (hts a ha).joins (hts b hb) (h a ha b hb) (h b hb a ha))

end Mold

end ValueBridge
