import ValueBridge.Host.Equality
import ValueBridge.Proofs.Fields
import ValueBridge.Proofs.Host.Overruns
import ValueBridge.Proofs.Number.Value
/-!
# Equal host values

Equal host values have one shape, and at every place either the same scalar or two that are equal as numbers: decimals of
any coefficients and scales, or zeros of either sign (`related_of_sameValue`).  Their canonical forms are equal too
(`sameValue_canon`), and they overrun the calendar at the same timestamps (`overruns_of_sameValue`).
-/
namespace ValueBridge

/-! ## Scalars -/

namespace Decimal

/-- A decimal with digits after the point that is written with more digits than a decimal type can have. -/
def Overlong (d : Decimal) : Prop := ¬d.isWhole ∧ ¬max (d.width : Int) d.scale ≤ maxPrecision

theorem sameValue_canon_canon {x y : Decimal} (h : x.sameValue y) : x.canon.sameValue y.canon := by
  rw [sameValue_iff_toRat] at h ⊢
  rw [sameValue_iff_toRat.1 x.sameValue_canon, h, sameValue_iff_toRat.1 y.sameValue_canon]

end Decimal

namespace Scalar

/-- The same of a scalar. -/
def Overlong (s : Scalar) : Prop := ∃ d, s = decimal d ∧ d.Overlong

theorem overlong_decimal {d : Decimal} : (decimal d).Overlong ↔ d.Overlong := by
  constructor
  · rintro ⟨x, hx, hlong⟩
    cases hx
    exact hlong
  · exact fun hlong => ⟨d, rfl, hlong⟩

theorem sameValue_canon (b : BlobLength) {s t : Scalar} (h : s.sameValue t) : (s.canon b).sameValue (t.canon b) := by
  unfold sameValue at h
  split at h
  · exact h
  · exact h
  · exact Decimal.sameValue_canon_canon h
  · rename_i hfloat hdouble hdecimal
    cases eq_of_beq h
    cases s with
    | float x => exact absurd rfl (hfloat x x rfl)
    | double x => exact absurd rfl (hdouble x x rfl)
    | decimal x => exact absurd rfl (hdecimal x x rfl)
    | _ => exact beq_self_eq_true _

/-- Equal scalars are not read again for the same reason: timestamps are equal only if they are the same. -/
theorem overruns_of_sameValue {s t : Scalar} (h : s.sameValue t) : s.overruns = t.overruns := by
  unfold sameValue at h
  split at h
  · rfl
  · rfl
  · rfl
  · cases eq_of_beq h
    rfl

end Scalar

/-! ## Host values -/

namespace HostValue

mutual
/-- The values have one shape, and at every place scalars in relation or equal graph elements. -/
inductive Related (R : Scalar → Scalar → Prop) : HostValue → HostValue → Prop
  | null : Related R null null
  | scalar {s t : Scalar} : R s t → Related R (scalar s) (scalar t)
  | list {xs ys : List HostValue} : RelatedItems R xs ys → Related R (list xs) (list ys)
  | struct {fs gs : List (String × HostValue)} : RelatedFields R fs gs → Related R (struct fs) (struct gs)
  | map {es ds : List (HostValue × HostValue)} : RelatedEntries R es ds → Related R (map es) (map ds)
  | element {v w : HostValue} : v.isGraphElement → w.isGraphElement → v.sameValue w → Related R v w
inductive RelatedItems (R : Scalar → Scalar → Prop) : List HostValue → List HostValue → Prop
  | nil : RelatedItems R [] []
  | cons {x y : HostValue} {xs ys : List HostValue} : Related R x y → RelatedItems R xs ys →
    RelatedItems R (x :: xs) (y :: ys)
inductive RelatedFields (R : Scalar → Scalar → Prop) :
    List (String × HostValue) → List (String × HostValue) → Prop
  | nil : RelatedFields R [] []
  | cons {name : String} {x y : HostValue} {fs gs : List (String × HostValue)} : Related R x y →
    RelatedFields R fs gs → RelatedFields R ((name, x) :: fs) ((name, y) :: gs)
inductive RelatedEntries (R : Scalar → Scalar → Prop) :
    List (HostValue × HostValue) → List (HostValue × HostValue) → Prop
  | nil : RelatedEntries R [] []
  | cons {k l x y : HostValue} {es ds : List (HostValue × HostValue)} : Related R k l → Related R x y →
    RelatedEntries R es ds → RelatedEntries R ((k, x) :: es) ((l, y) :: ds)
end

namespace Related

variable {R : Scalar → Scalar → Prop}

theorem of_scalar {s t : Scalar} (h : Related R (.scalar s) (.scalar t)) : R s t := by
  cases h with
  | scalar h => exact h
  | element hgraph => cases hgraph

theorem items {xs ys : List HostValue} (h : Related R (.list xs) (.list ys)) : RelatedItems R xs ys := by
  cases h with
  | list h => exact h
  | element hgraph => cases hgraph

theorem fields {fs gs : List (String × HostValue)} (h : Related R (.struct fs) (.struct gs)) :
    RelatedFields R fs gs := by
  cases h with
  | struct h => exact h
  | element hgraph => cases hgraph

theorem entries {es ds : List (HostValue × HostValue)} (h : Related R (.map es) (.map ds)) :
    RelatedEntries R es ds := by
  cases h with
  | map h => exact h
  | element hgraph => cases hgraph

end Related

section Parts

variable {R : Scalar → Scalar → Prop} {k l x y : HostValue} {xs ys : List HostValue} {name : String}
  {fs gs : List (String × HostValue)} {es ds : List (HostValue × HostValue)}

theorem RelatedItems.head : RelatedItems R (x :: xs) (y :: ys) → Related R x y
  | .cons h _ => h

theorem RelatedItems.tail : RelatedItems R (x :: xs) (y :: ys) → RelatedItems R xs ys
  | .cons _ h => h

theorem RelatedFields.head : RelatedFields R ((name, x) :: fs) ((name, y) :: gs) → Related R x y
  | .cons h _ => h

theorem RelatedFields.tail : RelatedFields R ((name, x) :: fs) ((name, y) :: gs) → RelatedFields R fs gs
  | .cons _ h => h

theorem RelatedEntries.head : RelatedEntries R ((k, x) :: es) ((l, y) :: ds) → Related R k l ∧ Related R x y
  | .cons hk h _ => ⟨hk, h⟩

theorem RelatedEntries.tail : RelatedEntries R ((k, x) :: es) ((l, y) :: ds) → RelatedEntries R es ds
  | .cons _ _ h => h

end Parts

/-- Equal scalars. -/
abbrev SameScalar (s t : Scalar) : Prop := s.sameValue t

mutual
/-- **Equal values have one shape and equal scalars.** -/
theorem related_of_sameValue : ∀ {v w : HostValue}, v.sameValue w → Related SameScalar v w
  | null, w, h => by
    cases w with
    | null => exact .null
    | _ => simp [sameValue] at h
  | scalar s, w, h => by
    cases w with
    | scalar t => exact .scalar (by rwa [sameValue] at h)
    | _ => simp [sameValue] at h
  | list xs, w, h => by
    cases w with
    | list ys => exact .list (related_of_sameItems (by rwa [sameValue] at h))
    | _ => simp [sameValue] at h
  | struct fs, w, h => by
    cases w with
    | struct gs => exact .struct (related_of_sameFields (by rwa [sameValue] at h))
    | _ => simp [sameValue] at h
  | map es, w, h => by
    cases w with
    | map ds => exact .map (related_of_sameEntries (by rwa [sameValue] at h))
    | _ => simp [sameValue] at h
  | node n, w, h => by
    cases w with
    | node m => exact .element rfl rfl h
    | _ => simp [sameValue] at h
  | rel r, w, h => by
    cases w with
    | rel s => exact .element rfl rfl h
    | _ => simp [sameValue] at h
  | path p, w, h => by
    cases w with
    | path q => exact .element rfl rfl h
    | _ => simp [sameValue] at h
theorem related_of_sameItems : ∀ {xs ys : List HostValue}, sameItems xs ys → RelatedItems SameScalar xs ys
  | [], [], _ => .nil
  | [], _ :: _, h | _ :: _, [], h => by simp [sameItems] at h
  | x :: xs, y :: ys, h => by
    rw [sameItems, Bool.and_eq_true] at h
    exact .cons (related_of_sameValue h.1) (related_of_sameItems h.2)
theorem related_of_sameFields : ∀ {fs gs : List (String × HostValue)}, sameFields fs gs →
    RelatedFields SameScalar fs gs
  | [], [], _ => .nil
  | [], _ :: _, h | _ :: _, [], h => by simp [sameFields] at h
  | (n, x) :: fs, (m, y) :: gs, h => by
    rw [sameFields, Bool.and_eq_true, Bool.and_eq_true] at h
    cases eq_of_beq h.1.1
    exact .cons (related_of_sameValue h.1.2) (related_of_sameFields h.2)
theorem related_of_sameEntries : ∀ {es ds : List (HostValue × HostValue)}, sameEntries es ds →
    RelatedEntries SameScalar es ds
  | [], [], _ => .nil
  | [], _ :: _, h | _ :: _, [], h => by simp [sameEntries] at h
  | (k, x) :: es, (l, y) :: ds, h => by
    rw [sameEntries, Bool.and_eq_true, Bool.and_eq_true] at h
    exact .cons (related_of_sameValue h.1.1) (related_of_sameValue h.1.2) (related_of_sameEntries h.2)
end

/-! ## Canonical forms -/

theorem sameFields_iff {fs gs : List (String × HostValue)} :
    sameFields fs gs ↔ List.Forall₂ (fun f g => f.1 = g.1 ∧ f.2.sameValue g.2) fs gs := by
  induction fs generalizing gs with
  | nil => cases gs <;> simp [sameFields]
  | cons f fs ih =>
    obtain ⟨n, x⟩ := f
    cases gs with
    | nil => simp [sameFields]
    | cons g gs => rw [sameFields, Bool.and_eq_true, Bool.and_eq_true, ih, List.forall₂_cons, beq_iff_eq]

theorem canon_of_isGraphElement {b : BlobLength} {v : HostValue} (h : v.isGraphElement) : v.canon b = v := by
  cases v with
  | node | rel | path => rfl
  | _ => cases h

mutual
theorem Related.sameValue_canon (b : BlobLength) : ∀ {v w : HostValue}, Related SameScalar v w →
    (v.canon b).sameValue (w.canon b)
  | _, _, .null => by simp [canon, sameValue]
  | _, _, .scalar h => by
    rw [canon, canon, sameValue]
    exact Scalar.sameValue_canon b h
  | _, _, .list h => by
    rw [canon, canon, sameValue]
    exact h.sameItems_canon b
  | _, _, .struct h => by
    rw [canon, canon, sameValue, sameFields_iff]
    exact Fields.forall₂_sorted (R := fun x y => sameValue x y) (h.forall₂_canon b)
  | _, _, .map h => by
    rw [canon, canon, sameValue]
    exact h.sameEntries_canon b
  | _, _, .element hv hw h => by rwa [canon_of_isGraphElement hv, canon_of_isGraphElement hw]
theorem RelatedItems.sameItems_canon (b : BlobLength) : ∀ {xs ys : List HostValue}, RelatedItems SameScalar xs ys →
    sameItems (canonItems b xs) (canonItems b ys)
  | _, _, .nil => by simp [canonItems, sameItems]
  | _, _, .cons h hs => by
    rw [canonItems, canonItems, sameItems, Bool.and_eq_true]
    exact ⟨h.sameValue_canon b, hs.sameItems_canon b⟩
theorem RelatedFields.forall₂_canon (b : BlobLength) : ∀ {fs gs : List (String × HostValue)},
    RelatedFields SameScalar fs gs →
    List.Forall₂ (fun f g => f.1 = g.1 ∧ f.2.sameValue g.2) (canonFields b fs) (canonFields b gs)
  | _, _, .nil => .nil
  | _, _, .cons h hs => .cons ⟨rfl, h.sameValue_canon b⟩ (hs.forall₂_canon b)
theorem RelatedEntries.sameEntries_canon (b : BlobLength) : ∀ {es ds : List (HostValue × HostValue)},
    RelatedEntries SameScalar es ds → sameEntries (canonEntries b es) (canonEntries b ds)
  | _, _, .nil => by simp [canonEntries, sameEntries]
  | _, _, .cons hk h hs => by
    rw [canonEntries, canonEntries, sameEntries, Bool.and_eq_true, Bool.and_eq_true]
    exact ⟨⟨hk.sameValue_canon b, h.sameValue_canon b⟩, hs.sameEntries_canon b⟩
end

/-- **Equal values have equal canonical forms.** -/
theorem sameValue_canon (b : BlobLength) {v w : HostValue} (h : v.sameValue w) : (v.canon b).sameValue (w.canon b) :=
  (related_of_sameValue h).sameValue_canon b

/-! ## Overruns -/

theorem overruns_of_isGraphElement {v : HostValue} (h : v.isGraphElement) : v.overruns = [] := by
  cases v with
  | node | rel | path => simp only [overruns]
  | _ => cases h

mutual
theorem Related.overruns_eq : ∀ {v w : HostValue}, Related SameScalar v w → v.overruns = w.overruns
  | _, _, .null => rfl
  | _, _, .scalar h => by
    rw [overruns, overruns]
    exact Scalar.overruns_of_sameValue h
  | _, _, .list h => by rw [overruns, overruns, h.overruns_eq]
  | _, _, .struct h => by rw [overruns, overruns, h.overruns_eq]
  | _, _, .map h => by rw [overruns, overruns, h.overruns_eq]
  | _, _, .element hv hw _ => by rw [overruns_of_isGraphElement hv, overruns_of_isGraphElement hw]
theorem RelatedItems.overruns_eq : ∀ {xs ys : List HostValue}, RelatedItems SameScalar xs ys →
    overrunsOfItems xs = overrunsOfItems ys
  | _, _, .nil => rfl
  | _, _, .cons h hs => by rw [overrunsOfItems, overrunsOfItems, h.overruns_eq, hs.overruns_eq]
theorem RelatedFields.overruns_eq : ∀ {fs gs : List (String × HostValue)}, RelatedFields SameScalar fs gs →
    overrunsOfFields fs = overrunsOfFields gs
  | _, _, .nil => rfl
  | _, _, .cons h hs => by rw [overrunsOfFields, overrunsOfFields, h.overruns_eq, hs.overruns_eq]
theorem RelatedEntries.overruns_eq : ∀ {es ds : List (HostValue × HostValue)}, RelatedEntries SameScalar es ds →
    overrunsOfEntries es = overrunsOfEntries ds
  | _, _, .nil => rfl
  | _, _, .cons hk h hs => by
    rw [overrunsOfEntries, overrunsOfEntries, hk.overruns_eq, h.overruns_eq, hs.overruns_eq]
end

/-- **Equal values overrun the calendar at the same timestamps.** -/
theorem overruns_of_sameValue {v w : HostValue} (h : v.sameValue w) : v.overruns = w.overruns :=
  (related_of_sameValue h).overruns_eq

end HostValue

end ValueBridge
