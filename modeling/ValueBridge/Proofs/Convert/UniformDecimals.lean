import ValueBridge.Proofs.Convert.Acceptance
import ValueBridge.Proofs.Convert.StandIn
import ValueBridge.Proofs.Number.Value
import ValueBridge.Proofs.Type.Positions
import Mathlib.Algebra.Order.Ring.Cast
import Mathlib.Tactic.NormNum
/-!
# Decimals of one shape

Values that fill a mold have the same host shape at every depth, and all their scalars are decimals.  Whole decimals are
restated for fractional ones directly beside them, and for no others.  So siblings that are collections may differ in the
type that their decimals have at some position: one of them has a fractional decimal there, another has only whole ones.
Siblings that nowhere differ in this way match, and a value is aligned if its siblings at every depth match.

The tags of the decimals inside an inferred type are told by the value, position by position (`tag_inside_inferred`), and
so siblings of one shape have a common type exactly if they match (`Mold.joinAll?_isSome_iff_matches`).  Hence a value of
one shape is encoded exactly if it is aligned, and refused as heterogeneous otherwise (`Mold.encoded_iff_aligned`).
-/
namespace ValueBridge

open LogicalType (joinAll? any)

namespace HostValue

/-! ## Positions in values -/

def isDecimal : HostValue → Bool
  | scalar (.decimal _) => true
  | _ => false

/-- The parts that a step leads to.  Fields are in the order of their names. -/
def into : HostValue → Step → List HostValue
  | list items, .item => items
  | struct fields, .field i => ((Fields.sorted fields)[i]?.map Prod.snd).toList
  | map entries, .key => entries.map Prod.fst
  | map entries, .value => entries.map Prod.snd
  | _, _ => []

/-- Whether the value has something of the kind at the position. -/
def reaches (kind : HostValue → Bool) : List Step → HostValue → Bool
  | [], v => kind v
  | x :: p, v => (v.into x).any (reaches kind p)

/-- Wherever inside the first value there is a fractional decimal, the second has one too, unless it has no decimal
there. -/
def Matches (v w : HostValue) : Prop :=
  ∀ x p, v.reaches isFractional (x :: p) → w.reaches isDecimal (x :: p) → w.reaches isFractional (x :: p)

/-- Whatever stands side by side in the value, at every depth, matches. -/
def Aligned (v : HostValue) : Prop := ∀ w ∈ v.subvalues, ∀ s ∈ w.siblings, ∀ a ∈ s, ∀ b ∈ s, a.Matches b

variable {beside : Bool} {v w : HostValue} {s : List HostValue} {t : LogicalType} {ts : List LogicalType}
  {fs : List (String × HostValue)} {us : List (String × LogicalType)} {P : Tag → Prop} {left : Nat}

/-! ## Inferred types of parts -/

theorem forall₂_inferredFields : ∀ {fs : List (String × HostValue)} {us : List (String × LogicalType)},
    inferredFields fs = some us → List.Forall₂ (fun f u => f.1 = u.1 ∧ f.2.inferred false = some u.2) fs us
  | [], _, h => by
    cases h
    exact .nil
  | (name, v) :: fs, us, h => by
    obtain ⟨t, ht, h⟩ := Option.bind_eq_some_iff.1 h
    obtain ⟨us, hus, rfl⟩ := Option.map_eq_some_iff.1 h
    exact .cons ⟨rfl, ht⟩ (forall₂_inferredFields hus)

theorem of_inferred_list {items : List HostValue} (h : (list items).inferred beside = some t) :
    ∃ ts c, siblingTypes items = some ts ∧ joinAll? ts = some c ∧ t = .list c := by
  rw [inferred_list] at h
  obtain ⟨c, hc, rfl⟩ := Option.map_eq_some_iff.1 h
  obtain ⟨ts, hts, hjoin⟩ := Option.bind_eq_some_iff.1 hc
  exact ⟨ts, c, hts, hjoin, rfl⟩

theorem of_inferred_struct (h : (struct fs).inferred beside = some t) : ∃ us, t = .struct us ∧
    List.Forall₂ (fun f u => f.1 = u.1 ∧ f.2.inferred false = some u.2) (Fields.sorted fs) us := by
  rw [inferred] at h
  obtain ⟨us, hus, rfl⟩ := Option.map_eq_some_iff.1 h
  exact ⟨_, rfl, Fields.forall₂_sorted (R := fun v t => inferred false v = some t) (forall₂_inferredFields hus)⟩

theorem of_inferred_map {es : List (HostValue × HostValue)} (h : (map es).inferred beside = some t) :
    ∃ ks k us u, siblingTypes (es.map Prod.fst) = some ks ∧ joinAll? ks = some k ∧
      siblingTypes (es.map Prod.snd) = some us ∧ joinAll? us = some u ∧ t = .map k u := by
  rw [inferred_map] at h
  obtain ⟨k, hk, h⟩ := Option.bind_eq_some_iff.1 h
  obtain ⟨u, hu, rfl⟩ := Option.map_eq_some_iff.1 h
  obtain ⟨ks, hks, hkjoin⟩ := Option.bind_eq_some_iff.1 hk
  obtain ⟨us, hus, hujoin⟩ := Option.bind_eq_some_iff.1 hu
  exact ⟨ks, k, us, u, hks, hkjoin, hus, hujoin, rfl⟩

/-- What stands side by side in a value with a type has types, which join. -/
theorem joinAll?_of_inferred (h : v.inferred beside = some t) (hs : s ∈ v.siblings) :
    ∃ ts, siblingTypes s = some ts ∧ (joinAll? ts).isSome := by
  cases v with
  | list items =>
    cases List.mem_singleton.1 hs
    obtain ⟨ts, c, hts, hc, -⟩ := of_inferred_list h
    exact ⟨ts, hts, Option.isSome_of_eq_some hc⟩
  | map es =>
    obtain ⟨ks, k, us, u, hks, hk, hus, hu, -⟩ := of_inferred_map h
    rcases List.mem_pair.1 hs with rfl | rfl
    · exact ⟨ks, hks, Option.isSome_of_eq_some hk⟩
    · exact ⟨us, hus, Option.isSome_of_eq_some hu⟩
  | _ => cases hs

/-! ## Tags position by position -/

/-- The types `ts` have the tags of `t`, position by position. -/
def SameTags (ts : List LogicalType) (t : LogicalType) : Prop :=
  ∀ P : Tag → Prop, ¬P .any → ∀ p, P (t.inside p).tag ↔ ∃ u ∈ ts, P (u.inside p).tag

theorem sameTags_joinAll? (h : joinAll? ts = some t) : SameTags ts t :=
  fun _ hP p => LogicalType.tag_inside_of_joinAll? h hP p

theorem sameTags_any : SameTags [] any := fun P hP p => by
  rw [LogicalType.inside_any]
  exact iff_of_false hP fun ⟨u, hu, _⟩ => by cases hu

theorem inferred_step (beside : Bool) (s : Scalar) (x : Step) : (s.inferred beside).step x = any := by
  cases s with
  | decimal d =>
    rw [Scalar.inferred, Decimal.inferred]
    split
    · split <;> cases x <;> rfl
    · cases x <;> rfl
  | _ => cases x <;> rfl

/-- What a field leads to is typed as siblings are, though it has none. -/
theorem siblingTypes_singleton (h : v.inferred false = some t) : siblingTypes [v] = some [t] := by
  have hbeside : v.inferred ([v].any isFractional) = some t := by
    cases hfractional : [v].any isFractional with
    | false => exact h
    | true =>
      rw [inferred_of_not_isWhole, h]
      rintro d rfl hwhole
      simp [isFractional, hwhole] at hfractional
  exact inferredItems_of_forall₂ (.cons hbeside .nil)

/-- **The tags after a step are those of the parts that it leads to.** -/
theorem sameTags_step (h : v.inferred beside = some t) (x : Step) :
    ∃ ts, siblingTypes (v.into x) = some ts ∧ SameTags ts (t.step x) := by
  have hnowhere : v.into x = [] → t.step x = any → ∃ ts, siblingTypes (v.into x) = some ts ∧ SameTags ts (t.step x) := by
    intro hinto hstep
    rw [hinto, hstep]
    exact ⟨[], rfl, sameTags_any⟩
  cases v with
  | null =>
    cases h
    exact hnowhere rfl (LogicalType.step_any x)
  | scalar s =>
    cases h
    exact hnowhere rfl (inferred_step beside s x)
  | list items =>
    obtain ⟨ts, c, hts, hc, rfl⟩ := of_inferred_list h
    cases x with
    | item => exact ⟨ts, hts, sameTags_joinAll? hc⟩
    | _ => exact hnowhere rfl rfl
  | struct fields =>
    obtain ⟨us, rfl, hus⟩ := of_inferred_struct h
    cases x with
    | field i =>
      have hfield := rel_getElem? hus i
      rw [into, LogicalType.step, LogicalType.fieldAt]
      generalize (Fields.sorted fields)[i]? = f at hfield
      generalize us[i]? = u at hfield
      cases hfield with
      | none => exact ⟨[], rfl, sameTags_any⟩
      | @some f u hfu => exact ⟨[u.2], siblingTypes_singleton hfu.2, sameTags_joinAll? rfl⟩
    | _ => exact hnowhere rfl rfl
  | map es =>
    obtain ⟨ks, k, us, u, hks, hk, hus, hu, rfl⟩ := of_inferred_map h
    cases x with
    | key => exact ⟨ks, hks, sameTags_joinAll? hk⟩
    | value => exact ⟨us, hus, sameTags_joinAll? hu⟩
    | _ => exact hnowhere rfl rfl
  | node _ | rel _ | path _ => cases h

/-- What the tags of siblings say about the siblings, they say at every position. -/
theorem tags_of_siblings {kind : HostValue → Bool} (hP : ¬P .any)
    (hroot : ∀ s ts, siblingTypes s = some ts → ((∃ u ∈ ts, P u.tag) ↔ s.any kind)) (p : List Step) :
    ∀ s ts, siblingTypes s = some ts → ((∃ u ∈ ts, P (u.inside p).tag) ↔ s.any (reaches kind p)) := by
  induction p with
  | nil => exact hroot
  | cons x p ih =>
    intro s ts hts
    have hparts : ∀ (v : HostValue) (t : LogicalType), v.inferred (s.any isFractional) = some t →
        (v.reaches kind (x :: p) ↔ P ((t.step x).inside p).tag) := by
      intro v t ht
      obtain ⟨us, hus, htags⟩ := sameTags_step ht x
      rw [htags P hP p, ih _ us hus, reaches]
    rw [List.any_eq_true]
    exact (exists_mem_iff_of_forall₂ (forall₂_inferredItems hts) hparts).symm

/-- The tags of decimals, wherever they stand. -/
theorem tag_inferred_beside (h : v.inferred beside = some t) :
    (v.isFractional ∨ beside ∧ v.isDecimal ↔ t.tag = .decimal) ∧
      (v.isDecimal ↔ t.tag = .decimal ∨ t.tag = .int128) := by
  by_cases hwhole : ∃ d, v = scalar (.decimal d) ∧ d.isWhole
  · obtain ⟨d, rfl, hd⟩ := hwhole
    cases h
    rw [Scalar.inferred, Decimal.inferred, if_pos hd]
    cases beside <;> simp [isFractional, isDecimal, hd, LogicalType.tag]
  · rw [inferred_of_not_isWhole beside fun d hd hd' => hwhole ⟨d, hd, hd'⟩] at h
    have hdecimal : v.isDecimal ↔ v.isFractional := by
      cases v with
      | scalar s =>
        cases s with
        | decimal d => simpa [isDecimal, isFractional] using fun hd => hwhole ⟨d, rfl, hd⟩
        | _ => exact Iff.rfl
      | _ => exact Iff.rfl
    obtain ⟨htag, hint128⟩ := tag_inferred h
    rw [hint128, or_iff_left hwhole, htag, hdecimal]
    exact ⟨or_iff_left_of_imp And.right, Iff.rfl⟩

theorem any_isFractional_iff (h : siblingTypes s = some ts) :
    (∃ u ∈ ts, u.tag = .decimal) ↔ s.any isFractional := by
  rw [← exists_mem_iff_of_forall₂ (forall₂_inferredItems h) fun v t ht => (tag_inferred_beside ht).1]
  constructor
  · rintro ⟨v, hv, hfractional | ⟨hbeside, -⟩⟩
    · exact List.any_eq_true.2 ⟨v, hv, hfractional⟩
    · exact hbeside
  · intro hany
    obtain ⟨v, hv, hfractional⟩ := List.any_eq_true.1 hany
    exact ⟨v, hv, .inl hfractional⟩

theorem any_isDecimal_iff (h : siblingTypes s = some ts) :
    (∃ u ∈ ts, u.tag = .decimal ∨ u.tag = .int128) ↔ s.any isDecimal := by
  rw [← exists_mem_iff_of_forall₂ (forall₂_inferredItems h) fun v t ht => (tag_inferred_beside ht).2, List.any_eq_true]

/-- **The tags inside an inferred type**: a decimal type wherever the value has a fractional decimal, and that or 128-bit
integers wherever it has a decimal. -/
theorem tag_inside_inferred (h : v.inferred beside = some t) (x : Step) (p : List Step) :
    ((t.inside (x :: p)).tag = .decimal ↔ v.reaches isFractional (x :: p)) ∧
      ((t.inside (x :: p)).tag = .decimal ∨ (t.inside (x :: p)).tag = .int128 ↔ v.reaches isDecimal (x :: p)) := by
  obtain ⟨ts, hts, htags⟩ := sameTags_step h x
  constructor
  · exact (htags (· = .decimal) (by decide) p).trans
      (tags_of_siblings (P := (· = .decimal)) (by decide) (fun _ _ => any_isFractional_iff) p _ ts hts)
  · exact (htags (fun τ => τ = .decimal ∨ τ = .int128) (by decide) p).trans
      (tags_of_siblings (P := fun τ => τ = .decimal ∨ τ = .int128) (by decide) (fun _ _ => any_isDecimal_iff) p _ ts hts)

/-- The types of two siblings agree exactly if the siblings match. -/
theorem agree_iff_matches {u : LogicalType} (hv : v ∈ s) (ht : v.inferred (s.any isFractional) = some t)
    (hu : w.inferred (s.any isFractional) = some u) : v.Matches w ↔ LogicalType.Agree t u := by
  constructor
  · intro hmatches p hdecimal hint
    cases p with
    | nil =>
      -- Directly side by side, whole decimals are restated if any sibling is fractional.
      have hbeside : s.any isFractional := by
        rcases (tag_inferred_beside ht).1.2 hdecimal with hfractional | ⟨hbeside, -⟩
        · exact List.any_eq_true.2 ⟨v, hv, hfractional⟩
        · exact hbeside
      have hrestated := (tag_inferred_beside hu).1.1 (.inr ⟨hbeside, (tag_inferred_beside hu).2.2 (.inr hint)⟩)
      cases hint.symm.trans hrestated
    | cons x p =>
      obtain ⟨hfractional, hany⟩ := tag_inside_inferred hu x p
      have hrestated := hmatches x p ((tag_inside_inferred ht x p).1.1 hdecimal) (hany.1 (.inr hint))
      cases hint.symm.trans (hfractional.2 hrestated)
  · intro hagree x p hfractional hdecimal
    rw [← (tag_inside_inferred ht x p).1] at hfractional
    rw [← (tag_inside_inferred hu x p).2] at hdecimal
    rw [← (tag_inside_inferred hu x p).1]
    exact Or.resolve_right hdecimal (hagree _ hfractional)

theorem agreeing_iff_matching (h : siblingTypes s = some ts) :
    (∀ v ∈ s, ∀ w ∈ s, v.Matches w) ↔ ∀ t ∈ ts, ∀ u ∈ ts, LogicalType.Agree t u :=
  have hpairs := forall₂_inferredItems h
  forall_mem_iff_of_forall₂ hpairs fun _ hv _ ht =>
    forall_mem_iff_of_forall₂ hpairs fun _ _ _ hu => agree_iff_matches hv ht hu

/-! ## Parts of encodable values -/

theorem isCollection_of_mem_parts {p : HostValue} (hp : p ∈ v.parts) : v.isCollection := by
  cases v with
  | list _ | struct _ | map _ => rfl
  | _ => cases hp

theorem Encodable.part {p : HostValue} (h : v.Encodable (left + 1)) (hp : p ∈ v.parts) : p.Encodable left where
  nesting_le := (nesting_le_succ (isCollection_of_mem_parts hp)).1 h.nesting_le p hp
  meets := fun w hw => h.meets w (mem_subvalues.2 (.inr ⟨p, hp, hw⟩))

/-- What is inside an encodable value is encodable by itself. -/
theorem Encodable.of_mem_subvalues (h : v.Encodable left) (hw : w ∈ v.subvalues) : ∃ inner, w.Encodable inner := by
  induction left generalizing v with
  | zero =>
    rcases mem_subvalues.1 hw with rfl | ⟨p, hp, -⟩
    · exact ⟨0, h⟩
    · have hnesting := h.nesting_le
      cases v with
      | list _ | struct _ | map _ => cases hnesting
      | _ => cases hp
  | succ left ih =>
    rcases mem_subvalues.1 hw with rfl | ⟨p, hp, hw⟩
    · exact ⟨left + 1, h⟩
    · exact ih (h.part hp) hw

theorem Encodable.exists_inferred (h : v.Encodable left) : ∃ t, v.inferred false = some t := by
  have hjudged := judged_draft {} v left
  cases hvalue : (v.draft {}).value left with
  | ok w =>
    rw [hvalue] at hjudged
    exact ⟨w.type, hjudged.2.inferred⟩
  | error e =>
    rw [hvalue] at hjudged
    exact absurd h hjudged.not_encodable

end HostValue

/-! ## Values of one shape -/

namespace Mold

open HostValue (Matches Aligned Joinable siblingTypes)

mutual
/-- The value has the shape, or is null, and so are its parts.  Every decimal is stored on its own and is of a magnitude
below `10^38`. -/
inductive Fills : Mold → HostValue → Prop
  | null (μ : Mold) : Fills μ .null
  | decimal {d : Decimal} : d.Storable → |d.toRat| < 10 ^ 38 → Fills decimal (.scalar (.decimal d))
  | list {μ : Mold} {vs : List HostValue} : (∀ v ∈ vs, Fills μ v) → Fills (list μ) (.list vs)
  | struct {μs : List (String × Mold)} {fs : List (String × HostValue)} :
    FillsFields μs (Fields.sorted fs) → Fills (struct μs) (.struct fs)
  | map {μ ν : Mold} {es : List (HostValue × HostValue)} : (∀ k ∈ es.map Prod.fst, Fills μ k) →
    (∀ v ∈ es.map Prod.snd, Fills ν v) → Fills (map μ ν) (.map es)
/-- The same of fields with the same names in the same order. -/
inductive FillsFields : List (String × Mold) → List (String × HostValue) → Prop
  | nil : FillsFields [] []
  | cons {n : String} {μ : Mold} {v : HostValue} {μs : List (String × Mold)} {fs : List (String × HostValue)} :
    Fills μ v → FillsFields μs fs → FillsFields ((n, μ) :: μs) ((n, v) :: fs)
end

variable {μ : Mold} {beside : Bool} {v w : HostValue} {s : List HostValue} {t c : LogicalType} {ts : List LogicalType}

theorem allows_of_siblings (h : siblingTypes s = some ts)
    (hs : ∀ v ∈ s, ∀ t, v.inferred (s.any HostValue.isFractional) = some t → μ.Allows t) : ∀ t ∈ ts, μ.Allows t :=
  (forall_mem_iff_of_forall₂ (P := fun _ => True) (HostValue.forall₂_inferredItems h)
    fun v hv t ht => iff_of_true trivial (hs v hv t ht)).1 fun _ _ => trivial

mutual
/-- **The type of a value is allowed by the mold that it fills.** -/
theorem Fills.allows : ∀ {μ : Mold} {beside : Bool} {v : HostValue} {t : LogicalType}, μ.Fills v →
    v.inferred beside = some t → μ.Allows t
  | μ, _, _, _, .null _, h => by
    cases h
    exact .untyped μ
  | _, beside, _, _, .decimal _ _, h => by
    cases h
    rw [Scalar.inferred, Decimal.inferred]
    split
    · split
      · exact .decimal _ _
      · exact .int128
    · exact .decimal _ _
  | _, _, _, _, .list hvs, h => by
    obtain ⟨ts, c, hts, hc, rfl⟩ := HostValue.of_inferred_list h
    exact .list (allows_joinAll? (allows_of_siblings hts fun v hv t ht => (hvs v hv).allows ht) hc)
  | _, _, _, _, .struct hfs, h => by
    obtain ⟨us, rfl, hus⟩ := HostValue.of_inferred_struct h
    exact .struct (hfs.allows hus)
  | _, _, _, _, .map hks hvs, h => by
    obtain ⟨ks, k, us, u, hkts, hk, huts, hu, rfl⟩ := HostValue.of_inferred_map h
    exact .map (allows_joinAll? (allows_of_siblings hkts fun v hv t ht => (hks v hv).allows ht) hk)
      (allows_joinAll? (allows_of_siblings huts fun v hv t ht => (hvs v hv).allows ht) hu)
theorem FillsFields.allows : ∀ {μs : List (String × Mold)} {fs : List (String × HostValue)}
    {us : List (String × LogicalType)}, FillsFields μs fs →
    List.Forall₂ (fun f u => f.1 = u.1 ∧ f.2.inferred false = some u.2) fs us → AllowsFields μs us
  | _, _, _, .nil, h => by
    cases h
    exact .nil
  | _, _, (n, t) :: us, .cons hv hfs, .cons h hrest => by
    obtain ⟨rfl, ht⟩ := h
    exact .cons (hv.allows ht) (hfs.allows hrest)
end

/-- **Siblings of one shape have a common type exactly if they match.** -/
theorem joinAll?_isSome_iff_matches (hne : s ≠ []) (hs : ∀ v ∈ s, μ.Fills v) (h : siblingTypes s = some ts) :
    (joinAll? ts).isSome ↔ ∀ v ∈ s, ∀ w ∈ s, v.Matches w := by
  have hts : ts ≠ [] := by
    rintro rfl
    exact hne (List.length_eq_zero_iff.1 (HostValue.length_inferredItems h).symm)
  rw [joinAll?_isSome_iff hts (allows_of_siblings h fun v hv t => (hs v hv).allows),
    HostValue.agreeing_iff_matching h]

mutual
/-- What is inside a value that fills a mold fills one, too. -/
theorem Fills.of_mem_subvalues : ∀ {μ : Mold} {v w : HostValue}, μ.Fills v → w ∈ v.subvalues → ∃ ν : Mold, ν.Fills w
  | μ, _, _, .null _, hw => by
    cases List.mem_singleton.1 hw
    exact ⟨μ, .null μ⟩
  | _, _, _, .decimal hd hbound, hw => by
    cases List.mem_singleton.1 hw
    exact ⟨_, .decimal hd hbound⟩
  | _, _, _, .list hvs, hw => by
    rcases HostValue.mem_subvalues.1 hw with rfl | ⟨p, hp, hw⟩
    · exact ⟨_, .list hvs⟩
    · exact (hvs p hp).of_mem_subvalues hw
  | _, .struct fs, _, .struct hfs, hw => by
    rcases HostValue.mem_subvalues.1 hw with rfl | ⟨p, hp, hw⟩
    · exact ⟨_, .struct hfs⟩
    · exact hfs.of_mem_subvalues (((Fields.sorted_perm fs).map Prod.snd).mem_iff.2 hp) hw
  | _, _, _, .map hks hvs, hw => by
    rcases HostValue.mem_subvalues.1 hw with rfl | ⟨p, hp, hw⟩
    · exact ⟨_, .map hks hvs⟩
    · rcases List.mem_append.1 hp with hp | hp
      · exact (hks p hp).of_mem_subvalues hw
      · exact (hvs p hp).of_mem_subvalues hw
theorem FillsFields.of_mem_subvalues : ∀ {μs : List (String × Mold)} {fs : List (String × HostValue)} {p w : HostValue},
    FillsFields μs fs → p ∈ fs.map Prod.snd → w ∈ p.subvalues → ∃ ν : Mold, ν.Fills w
  | _, _, _, _, .nil, hp, _ => by cases hp
  | _, _, _, _, .cons hv hfs, hp, hw => by
    rcases List.mem_cons.1 hp with rfl | hp
    · exact hv.of_mem_subvalues hw
    · exact hfs.of_mem_subvalues hp hw
end

/-- What stands side by side in a value that fills a mold fills one, all of it the same. -/
theorem Fills.siblings (h : μ.Fills v) (hs : s ∈ v.siblings) : ∃ ν : Mold, ∀ a ∈ s, ν.Fills a := by
  cases h with
  | list hvs =>
    cases List.mem_singleton.1 hs
    exact ⟨_, hvs⟩
  | map hks hvs =>
    rcases List.mem_pair.1 hs with rfl | rfl
    · exact ⟨_, hks⟩
    · exact ⟨_, hvs⟩
  | _ => cases hs

/-! ## What keeps them from being encoded -/

theorem digitCount_le {d : Decimal} (hbound : |d.toRat| < 10 ^ 38) (hwhole : d.isWhole) :
    digitCount d.truncate.natAbs ≤ maxPrecision := by
  have hlt : d.truncate.natAbs < 10 ^ 38 := by
    rw [Decimal.toRat_truncate hwhole, ← Int.cast_abs, Int.abs_eq_natAbs] at hbound
    exact_mod_cast hbound
  exact (Nat.length_toDigits_le_iff (by decide) (by decide)).2 hlt

/-- Such values meet all requirements but for that of a common type, if no collection is empty. -/
theorem Fills.meets (h : μ.Fills v) {r : Requirement} (hempty : r ≠ .nonempty) (hcommon : r ≠ .commonType) :
    v.Meets r := by
  cases r with
  | noGraphElement => cases h <;> rfl
  | nonempty => exact absurd rfl hempty
  | commonType => exact absurd rfl hcommon
  | durations =>
    rintro d rfl
    cases h
  | decimals =>
    rintro d rfl
    cases h with
    | decimal hd => exact hd
  | restatable =>
    intro s hs _ d hd hwhole
    obtain ⟨ν, hν⟩ := h.siblings hs
    cases hν _ hd with
    | decimal _ hbound => exact digitCount_le hbound hwhole

/-- Siblings that match have a common type. -/
theorem Fills.joinable (hv : μ.Fills v) (haligned : v.Aligned) (hw : w ∈ v.subvalues) (hs : s ∈ w.siblings) :
    Joinable s := by
  intro hne ts hts
  obtain ⟨_, hν⟩ := hv.of_mem_subvalues hw
  obtain ⟨ν, hν⟩ := hν.siblings hs
  exact (joinAll?_isSome_iff_matches hne hν hts).2 (haligned w hw s hs)

variable {left : Nat} {kind : ErrorKind}

/-- An encodable value of one shape is aligned. -/
theorem Fills.aligned (hv : μ.Fills v) (h : v.Encodable left) : v.Aligned := by
  intro w hw s hs
  obtain ⟨inner, hinner⟩ := h.of_mem_subvalues hw
  obtain ⟨t, ht⟩ := hinner.exists_inferred
  obtain ⟨ts, hts, hjoin⟩ := HostValue.joinAll?_of_inferred ht hs
  obtain ⟨_, hν⟩ := hv.of_mem_subvalues hw
  obtain ⟨ν, hν⟩ := hν.siblings hs
  by_cases hne : s = []
  · subst hne
    exact fun a ha => by cases ha
  · exact (joinAll?_isSome_iff_matches hne hν hts).1 hjoin

/-- A shape without empty collections that is not nested too deep is encodable exactly if it is aligned. -/
theorem Fills.encodable_iff (hv : μ.Fills v) (hnonempty : ∀ w ∈ v.subvalues, w.isCollection → w.parts ≠ [])
    (hnesting : v.nesting ≤ left) : v.Encodable left ↔ v.Aligned := by
  refine ⟨hv.aligned, fun haligned => ⟨hnesting, fun w hw r => ?_⟩⟩
  obtain ⟨ν, hν⟩ := hv.of_mem_subvalues hw
  cases r with
  | nonempty => exact hnonempty w hw
  | commonType => exact fun s hs => hv.joinable haligned hw hs
  | _ => exact hν.meets (by decide) (by decide)

/-- Nothing but siblings that do not match is reported as heterogeneous. -/
theorem Fills.kind_ne (hv : μ.Fills v) (haligned : v.Aligned) (h : v.Violates left kind) :
    kind ≠ .heterogeneousType := by
  rcases h with ⟨-, rfl⟩ | ⟨w, hw, r, hr, rfl⟩
  · decide
  · cases r with
    | commonType => exact absurd (fun s hs => hv.joinable haligned hw hs) hr
    | _ => decide

/-- Nothing else can be wrong with a shape without empty collections that is not nested too deep. -/
theorem Fills.kind_eq (hv : μ.Fills v) (hnonempty : ∀ w ∈ v.subvalues, w.isCollection → w.parts ≠ [])
    (hnesting : v.nesting ≤ left) (h : v.Violates left kind) : kind = .heterogeneousType := by
  rcases h with ⟨hdeep, -⟩ | ⟨w, hw, r, hr, rfl⟩
  · exact absurd hnesting (Nat.not_le.2 hdeep)
  · obtain ⟨ν, hν⟩ := hv.of_mem_subvalues hw
    cases r with
    | nonempty => exact absurd (hnonempty w hw) hr
    | commonType => rfl
    | _ => exact absurd (hν.meets (by decide) (by decide)) hr

/-- **Decimals of one shape are encoded exactly if they are aligned.**  No aligned value is refused as heterogeneous.  If
no collection is empty and none is nested too deep, then an aligned value is encoded, and any other is refused as
heterogeneous. -/
theorem encoded_iff_aligned (c : Config) (hv : μ.Fills v) {source : Source} (hsource : Source.StandIn c source v)
    {m : Memory} (hm : m.Reachable) (hroom : m.live + v.subvalues.length ≤ m.limit) :
    (v.Aligned → ∀ e m', source.build c m = .error e m' → e.kind ≠ .heterogeneousType) ∧
    ((∀ w ∈ v.subvalues, w.isCollection → w.parts ≠ []) → v.nesting ≤ c.maxDepth →
      ((∃ h m', source.build c m = .ok h m') ↔ v.Aligned) ∧
      (¬v.Aligned → ∃ e m', source.build c m = .error e m' ∧ e.kind = .heterogeneousType)) := by
  have hstands : source.build c m = (Source.host v).build c m := by
    rw [Source.build, Source.build, Source.encode_eq_standIn hsource, Source.encode]
  rw [hstands]
  have hviolates : ∀ e m', (Source.host v).build c m = .error e m' → v.Violates c.maxDepth e.kind :=
    fun e m' => HostValue.violates_of_refused hm hroom
  refine ⟨fun haligned e m' he => hv.kind_ne haligned (hviolates e m' he), fun hnonempty hnesting => ?_⟩
  have hiff := (HostValue.exists_build_iff_encodable hm hroom).trans (hv.encodable_iff hnonempty hnesting)
  refine ⟨hiff, fun hnot => ?_⟩
  cases hbuild : (Source.host v).build c m with
  | ok h m' => exact absurd (hiff.1 ⟨h, m', hbuild⟩) hnot
  | error e m' => exact ⟨e, m', rfl, hv.kind_eq hnonempty hnesting (hviolates e m' hbuild)⟩

/-- One and a half. -/
def half : HostValue := .scalar (.decimal ⟨15, 1⟩)

def two : HostValue := .scalar (.decimal ⟨2, 0⟩)

theorem fills_half : decimal.Fills half := .decimal (by decide) (by norm_num [Decimal.toRat, abs_lt])

theorem fills_two : decimal.Fills two := .decimal (by decide) (by norm_num [Decimal.toRat, abs_lt])

/-- Two lists of decimals, where only the first has a fractional one. -/
def apart : HostValue := .list [.list [half], .list [two]]

theorem fills_apart : (list (list decimal)).Fills apart :=
  .list (by simp [Fills.list, fills_half, fills_two])

theorem standIn_apart : Source.StandIn {} (.sequence [.sequence [.scalar (.decimal ⟨15, 1⟩)],
    .sequence [.scalar (.decimal ⟨2, 0⟩)]]) apart :=
  .sequence (.cons (.sequence (.cons (.scalar _) .nil)) (.cons (.sequence (.cons (.scalar _) .nil)) .nil))

/-- One shape is not enough: lists of decimals, of which one has a fractional decimal and another has none, are refused
in one list. -/
theorem not_uniform_encoded : ¬∀ (c : Config) (μ : Mold) (v : HostValue) (source : Source) (m : Memory),
    μ.Fills v → Source.StandIn c source v → m.Reachable → m.live + v.subvalues.length ≤ m.limit →
    ∀ e m', source.build c m = .error e m' → e.kind ≠ .heterogeneousType := fun h =>
  h {} _ apart _ { limit := 12 } fills_apart standIn_apart (.empty 12) (by decide) _ _ rfl rfl

/-- The two in the first list is restated for the half beside it, and a null matches anything. -/
def together : HostValue := .list [.list [half, two], .list [.null, half]]

theorem fills_together : (list (list decimal)).Fills together :=
  .list (by simp [Fills.list, Fills.null, fills_half, fills_two])

/-- Lists that have a fractional decimal each are encoded, also with whole ones.  If only one of them has, they are
refused. -/
theorem encoded_iff_aligned_together :
    (∃ h m', (Source.host together).build {} ({ limit := 12 } : Memory) = .ok h m') ∧ together.Aligned ∧
    ∃ e m', (Source.host apart).build {} ({ limit := 12 } : Memory) = .error e m' ∧ e.kind = .heterogeneousType := by
  have htogether := (encoded_iff_aligned {} fills_together (.host _) (.empty 12) (by decide)).2 (by decide) (by decide)
  have hapart := (encoded_iff_aligned {} fills_apart (.host _) (.empty 12) (by decide)).2 (by decide) (by decide)
  have hok := (HostValue.exists_build_iff (v := together) (c := {}) (.empty 12) (by decide)).2 ⟨_, rfl⟩
  refine ⟨hok, htogether.1.1 hok, hapart.2 fun haligned => ?_⟩
  have hmatches := haligned apart (HostValue.mem_subvalues.2 (.inl rfl)) _ List.mem_cons_self _ List.mem_cons_self _
    (List.mem_cons_of_mem _ List.mem_cons_self) .item []
  cases hmatches rfl rfl

end Mold
end ValueBridge
