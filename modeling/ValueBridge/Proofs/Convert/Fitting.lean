import ValueBridge.Proofs.Convert.Agreement
import ValueBridge.Proofs.Convert.Sparing
import ValueBridge.Proofs.Type.Fitting
/-!
# Fitting types are sound for decoding

A value is `Typed` if the types recorded for its collections are true of their parts.  Decoding a typed value into a
target that fits its type never fails because of a tag, neither at the value nor at any of its parts
(`Target.read_of_fits`).

Decoding into a target follows the target and the type down together (`Target.suits_decode`).  Tags are not to blame if the
target fits the type, and the depth is not if the value is shallow; each is needed only for the errors that it is to keep
away.
-/
namespace ValueBridge

open Tabled ValueBridge.Convert

/-! ## Typed values -/

namespace Stored

/-- The types recorded for collections are true of the parts, at every depth. -/
inductive Typed : Stored → Prop
  | null (t : LogicalType) : Typed (null t)
  | payload (p : Payload) : Typed (payload p)
  | list {t item : LogicalType} {items : List Stored} : (t = .list item ∨ t = .array item items.length) →
    (∀ v ∈ items, v.type.Below item) → (∀ v ∈ items, Typed v) → Typed (list t items)
  | struct {fields : List (String × Stored)} : (∀ f ∈ fields, Typed f.2) →
    Typed (struct (.struct (fields.map fun f => (f.1, f.2.type))) fields)
  | map {key value : LogicalType} {entries : List (Stored × Stored)} :
    (∀ e ∈ entries, e.1.type.Below key ∧ e.2.type.Below value) →
    (∀ e ∈ entries, Typed e.1) → (∀ e ∈ entries, Typed e.2) → Typed (map (.map key value) entries)
  | union (members : List (String × LogicalType)) (name : String) (v : Stored) : Typed (union (.union members) name v)
  | node (n : Node Stored) : Typed (node n)
  | rel (r : Rel Stored) : Typed (rel r)
  | path (p : Path Stored) : Typed (path p)

theorem WellFormed.typed {v : Stored} (h : v.WellFormed) : v.Typed := by
  induction h with
  | null t => exact .null t
  | payload _ => exact .payload _
  | list ht hbelow _ ih => exact .list ht hbelow ih
  | struct _ ih => exact .struct ih
  | map hbelow _ _ ihk ihv => exact .map hbelow ihk ihv
  | union _ _ _ _ => exact .union _ _ _
  | node _ _ => exact .node _
  | rel _ _ => exact .rel _
  | path _ _ _ _ => exact .path _

end Stored

variable {σ : Type} [Tabled σ] {s : σ} {h : Handle} {v : Stored}

/-! ## Decoding into a requested type -/

theorem Payload.not_foreign (p : Payload) : ¬ ScalarTarget.isForeign p.tag := by
  cases p with
  | int w n => cases w <;> exact Bool.false_ne_true
  | temporal t => cases t <;> exact Bool.false_ne_true
  | _ => exact Bool.false_ne_true

namespace ScalarTarget

theorem kind_of_intervalOf {p : Payload} {e : ConvertError} (h : intervalOf p = .error e) :
    e.kind = .conversionFailed := by
  unfold intervalOf at h
  split at h <;> cases h
  rfl

/-- A payload that cannot be read fails as a conversion, whatever was expected of it. -/
theorem kind_of_ofPayload {b : BlobLength} {s : ScalarTarget} {p : Payload} {e : ConvertError}
    (h : s.ofPayload b p = .error e) : e.kind = .conversionFailed := by
  revert h
  cases s with
  | interval => exact kind_of_intervalOf
  | decimal => exact Payload.kind_of_toDecimal
  | uuid => exact Payload.kind_of_toUuid
  | timestamp =>
    cases p with
    | temporal t => exact Payload.kind_of_temporal
    | _ =>
      rintro ⟨rfl⟩
      rfl
  | duration =>
    intro h
    rcases bind_eq_error.1 h with hi | ⟨i, -, hd⟩
    · exact kind_of_intervalOf hi
    · exact Payload.kind_of_interval hd
  | int w =>
    cases p with
    | int w' n =>
      rw [ofPayload]
      split
      · rintro ⟨⟩
      · rintro ⟨rfl⟩
        rfl
    | serial n => cases w <;> rintro ⟨rfl⟩ <;> rfl
    | _ =>
      rintro ⟨rfl⟩
      rfl
  | bool | float | double | string | id | blob => cases p <;> rintro ⟨rfl⟩ <;> rfl

end ScalarTarget

namespace Stored

/-- Only nulls have the type of an untyped null. -/
theorem Typed.type_ne_any (hv : v.Typed) (hn : v.isNull = false) : v.type ≠ .any := by
  intro ht
  cases hv with
  | null t => cases hn
  | payload p =>
    have htag : p.tag = .any := (Payload.tag_type p).symm.trans (congrArg LogicalType.tag ht)
    exact p.not_foreign (by rw [htag]; rfl)
  | list hlist => rcases hlist with rfl | rfl <;> cases ht
  | struct | map | union | node | rel | path => cases ht

end Stored

namespace Target

open Read

def isCollection : Target → Bool
  | list _ | struct _ | map _ _ => true
  | _ => false

theorem isComposite_of_mem {t : Target} {tag : Tag} (ht : t.isCollection) (h : tag ∈ t.accepts) : tag.isComposite := by
  cases t with
  | list t =>
    rcases List.mem_pair.1 h with rfl | rfl <;> rfl
  | struct t | map k t =>
    cases List.mem_singleton.1 h
    rfl
  | _ => cases ht

/-! ### The parts of a typed value fit the parts of the target -/

section Parts

variable {t k : Target} {w : Stored} {index : Nat}

theorem fits_element (hv : v.Typed) (ht : (list t).fits v.type) (hw : v.item? .element index = .ok w) :
    w.Typed ∧ t.fits w.type := by
  cases hv with
  | list hlist hbelow htyped =>
    have hmem := Stored.mem_of_at? hw
    refine ⟨htyped w hmem, fits_of_below (hbelow w hmem) ?_⟩
    rcases hlist with rfl | rfl <;> exact ht
  | _ => cases hw

/-- The fields of a struct type are the types of the fields, and a union is no struct. -/
theorem fits_field (hv : v.Typed) (ht : (struct t).fits v.type) (hw : v.item? .field index = .ok w) :
    w.Typed ∧ t.fits w.type := by
  cases hv with
  | struct htyped =>
    obtain ⟨f, hat, rfl⟩ := map_eq_ok.1 hw
    have hmem := Stored.mem_of_at? hat
    have hfields := List.all_eq_true.1 ht
    exact ⟨htyped f hmem, hfields _ (List.mem_map_of_mem hmem)⟩
  | union => cases ht
  | _ => cases hw

theorem fits_key (hv : v.Typed) (ht : (map k t).fits v.type) (hw : v.item? .key index = .ok w) :
    w.Typed ∧ k.fits w.type := by
  cases hv with
  | map hbelow hkeys _ =>
    obtain ⟨e, hat, rfl⟩ := map_eq_ok.1 hw
    have hmem := Stored.mem_of_at? hat
    exact ⟨hkeys e hmem, fits_of_below (hbelow e hmem).1 (Bool.and_eq_true_iff.1 ht).1⟩
  | _ => cases hw

theorem fits_value (hv : v.Typed) (ht : (map k t).fits v.type) (hw : v.item? .value index = .ok w) :
    w.Typed ∧ t.fits w.type := by
  cases hv with
  | map hbelow _ hvalues =>
    obtain ⟨e, hat, rfl⟩ := map_eq_ok.1 hw
    have hmem := Stored.mem_of_at? hat
    exact ⟨hvalues e hmem, fits_of_below (hbelow e hmem).2 (Bool.and_eq_true_iff.1 ht).2⟩
  | _ => cases hw

end Parts

/-- The value is typed and the target fits its type, unless every error that a tag causes is in the set. -/
def Fitted (A : ConvertError → Prop) (t : Target) (v : Stored) : Prop :=
  v.Typed ∧ t.fits v.type ∨ ∀ expected found, A ⟨.typeMismatch expected found, []⟩

section Decode

variable {A : ConvertError → Prop}

theorem Fitted.tag_mem {t : Target} (h : Fitted A t v) (hany : Tag.any ∉ t.accepts) (hn : v.isNull = false) :
    v.type.tag ∈ t.accepts ∨ A ⟨.typeMismatch t.accepts v.type.tag, []⟩ :=
  h.imp (fun ⟨hv, ht⟩ => tag_mem_of_fits hany (hv.type_ne_any hn) ht) fun hA => hA _ _

variable (hA : Tolerant A)
include hA

theorem suits_scalarOf (c : Config) (s : ScalarTarget) : Suits A (scalarOf c s : Handle → Convert σ s.Value) v :=
  .payloadOf hA fun _ _ he =>
    ConvertError.isPlain_of_isOwn (ScalarTarget.isOwn_of_ofPayload he) (ScalarTarget.kind_of_ofPayload he)

/-- **Decoding suits every target that fits the type of a value**, by recursion on the target. -/
theorem suits_decode (c : Config) : ∀ (t : Target) (left : Nat) {v : Stored}, Shallow A c left v → Fitted A t v →
    Suits A (t.decode c left : Handle → Convert σ t.Value) v
  | scalar s, left, v, _, ht =>
    .tagged hA (ht.tag_mem fun hany => s.not_foreign _ hany rfl) fun _ _ => suits_scalarOf hA c s
  | node, left, v, hv, ht => .tagged hA (ht.tag_mem (by decide)) fun hn htag =>
    suits_nodeAt hA (fun inner _ => suits_valueAt hA c inner) hv
      (Stored.depth_pos hn (by rw [List.mem_singleton.1 htag]; rfl))
  | rel, left, v, hv, ht => .tagged hA (ht.tag_mem (by decide)) fun hn htag =>
    suits_relAt hA (fun inner _ => suits_valueAt hA c inner) hv
      (Stored.depth_pos hn (by rw [List.mem_singleton.1 htag]; rfl))
  | path, left, v, hv, ht => .tagged hA (ht.tag_mem (by decide)) fun hn htag =>
    suits_pathAt hA (fun inner _ => suits_valueAt hA c inner) hv
      (Stored.depth_pos hn (by rw [List.mem_singleton.1 htag]; rfl))
  | host, left, v, hv, _ => suits_valueAt hA c left v hv
  | opt t, left, v, hv, ht => fun s h hs hbehind => .after hA (ends_isNull hs hbehind) fun null s₁ _ h₁ => by
    cases null with
    | true => exact .pure h₁.issued_after none
    | false => exact (suits_decode c t left hv ht s₁ h h₁.issued_after (h₁.behind_of_old hbehind)).map some
  | list t, left, v, hv, ht => by
    refine .tagged hA (ht.tag_mem (t := list t) (by simp [accepts])) fun hn htag => ?_
    have hpos : 0 < v.depth := Stored.depth_pos hn (isComposite_of_mem (t := list t) rfl htag)
    refine .nested hv hpos fun inner _ hparts => .elements hA fun w index hw => ?_
    exact suits_decode c t inner (hparts w (Stored.depth_lt_of_item? hw))
      (ht.imp_left fun ⟨hv, ht⟩ => fits_element hv ht hw)
  | struct t, left, v, hv, ht => by
    refine .tagged hA (ht.tag_mem (t := struct t) (by simp [accepts])) fun hn htag => ?_
    have hpos : 0 < v.depth := Stored.depth_pos hn (isComposite_of_mem (t := struct t) rfl htag)
    refine .nested hv hpos fun inner _ hparts => .named hA fun w index hw => ?_
    exact suits_decode c t inner (hparts w (Stored.depth_lt_of_item? hw))
      (ht.imp_left fun ⟨hv, ht⟩ => fits_field hv ht hw)
  | map key value, left, v, hv, ht => by
    refine .tagged hA (ht.tag_mem (t := map key value) (by simp [accepts])) fun hn htag => ?_
    have hpos : 0 < v.depth := Stored.depth_pos hn (isComposite_of_mem (t := map key value) rfl htag)
    refine .nested hv hpos fun inner _ hparts => .entries hA (fun w index hw => ?_) fun w index hw => ?_
    · exact suits_decode c key inner (hparts w (Stored.depth_lt_of_item? hw))
        (ht.imp_left fun ⟨hv, ht⟩ => fits_key hv ht hw)
    · exact suits_decode c value inner (hparts w (Stored.depth_lt_of_item? hw))
        (ht.imp_left fun ⟨hv, ht⟩ => fits_value hv ht hw)

end Decode

/-- **Types are sound for decoding.**  Decoding a typed value into a target that fits its type does not fail because of a
tag, at any depth, whichever calls the engine refuses on the way. -/
theorem read_of_fits (c : Config) {t : Target} (hs : Issued s) (hbehind : Behind s h v) (hv : v.Typed)
    (ht : t.fits v.type) : ∀ e s', t.read c h s = .error e s' → e.kind ≠ .typeMismatch := by
  intro e s' hread
  have hends : Spares (fun e => e.kind ≠ .typeMismatch) s (t.read c h) :=
    suits_decode tolerant_not_typeMismatch c t c.maxDepth (.inr nofun) (.inl ⟨hv, ht⟩) s h hs hbehind
  rw [Spares, hread] at hends
  exact hends

/-- Lists of flags beside a null of no type: one holds true, one holds a null of no type. -/
def trueBesideNulls : Stored :=
  .list (.list (.list (.plain .bool)))
    [.list (.list (.plain .bool)) [.payload (.bool true)], .null .any,
      .list (.list .any) [.null .any]]

theorem typed_trueBesideNulls : trueBesideNulls.Typed := by
  refine .list (.inl rfl) (by simp [Stored.type]; decide) ?_
  simp only [List.forall_mem_cons]
  refine ⟨.list (.inl rfl) (List.forall_mem_singleton.2 rfl) (List.forall_mem_singleton.2 (.payload _)), .null _,
    .list (.inl rfl) (List.forall_mem_singleton.2 rfl) (List.forall_mem_singleton.2 (.null _)), ?_⟩
  exact fun _ h => by cases h

/-- An engine that holds them. -/
def withTrueBesideNulls : Memory where
  entries := [(⟨1⟩, trueBesideNulls)]
  next := 2

/-- Lists of flags fit them, and reading them as such fails, but not because of a tag. -/
theorem read_of_fits_trueBesideNulls :
    (list (.opt (.list (.scalar .bool)))).fits trueBesideNulls.type ∧
    ∃ e m', (list (.opt (.list (.scalar .bool)))).read {} ⟨1⟩ withTrueBesideNulls = .error e m' ∧
      e.kind ≠ .typeMismatch := by
  have hs : Issued withTrueBesideNulls := List.forall_mem_singleton.2 (by decide)
  refine ⟨rfl, _, _, rfl, ?_⟩
  exact read_of_fits {} hs (h := ⟨1⟩) (v := trueBesideNulls) rfl typed_trueBesideNulls
    (t := list (.opt (.list (.scalar .bool)))) rfl _ _ rfl

end Target

end ValueBridge
