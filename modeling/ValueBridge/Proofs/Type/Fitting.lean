import ValueBridge.Convert.Target
import ValueBridge.Proofs.Type.Order
/-!
# Targets that fit a type

A target fits a logical type if nothing in the type speaks against decoding into the target: scalars and graph elements
go by the tag, collections by the types of their parts, and a host value fits any type.  The recorded type of a collection
is the common type of its parts, so what fits it must fit the types below it, down to that of an untyped null
(`fits_of_below`).
-/
namespace ValueBridge

namespace LogicalType

/-- A field of a struct type has one above it in every struct type above. -/
theorem FieldsBelow.exists_above : ∀ {fs gs : List (String × LogicalType)}, FieldsBelow fs gs →
    ∀ f ∈ fs, ∃ g ∈ gs, Below f.2 g.2
  | (n, t) :: fs, gs, h, f, hf => by
    obtain ⟨u, _, gs, _, rfl, hb, hu, hrest⟩ := of_joinFields?_cons h
    cases hb
    rcases List.mem_cons.1 hf with rfl | hf
    · exact ⟨_, List.mem_cons_self, hu⟩
    · obtain ⟨g, hg, hfg⟩ := exists_above hrest f hf
      exact ⟨g, List.mem_cons_of_mem _ hg, hfg⟩

end LogicalType

namespace Target

/-- Whether the type says nothing against decoding its values into the target. -/
def fits : Target → LogicalType → Bool
  | host, _ => true
  | opt t, l => t.fits l
  | _, .plain .any => true
  | list t, .list item | list t, .array item _ => t.fits item
  | struct t, .struct fields => fields.all fun f => t.fits f.2
  | map k v, .map key value => k.fits key && v.fits value
  | scalar s, l => s.accepts.contains l.tag
  | node, l => node.accepts.contains l.tag
  | rel, l => rel.accepts.contains l.tag
  | path, l => path.accepts.contains l.tag
  | _, _ => false

theorem fits_any (t : Target) : t.fits .any := by
  induction t with
  | opt t ih => exact ih
  | _ => rfl

/-- A type that a target fits has a tag that the target accepts, unless one of them stands for anything. -/
theorem tag_mem_of_fits {t : Target} {l : LogicalType} (ht : Tag.any ∉ t.accepts) (hl : l ≠ .any) (h : t.fits l) :
    l.tag ∈ t.accepts := by
  rw [← List.contains_iff_mem]
  induction t with
  | host => exact absurd (List.mem_singleton.2 rfl) ht
  | opt t ih => exact ih ht h
  | list _ | struct _ | map _ _ =>
    cases l with
    | plain tag => cases tag <;> first | exact absurd rfl hl | cases h
    | _ => first | rfl | cases h
  | scalar _ | node | rel | path =>
    cases l with
    | plain tag => cases tag <;> first | exact absurd rfl hl | exact h
    | _ => exact h

open LogicalType (Below)

/-- **A target that fits a type fits every type below it.** -/
theorem fits_of_below : ∀ {t : Target} {a b : LogicalType}, Below a b → t.fits b → t.fits a
  | host, _, _, _, _ => rfl
  | opt t, _, _, h, hb => fits_of_below (t := t) h hb
  | list t, _, _, h, hb => by
    cases h.narrows with
    | untyped => exact fits_any _
    | same => exact hb
    | list hu | array _ hu => exact fits_of_below (t := t) hu hb
    | _ => cases hb
  | struct t, _, _, h, hb => by
    cases h.narrows with
    | untyped => exact fits_any _
    | same => exact hb
    | struct hfs =>
      rw [fits, List.all_eq_true] at hb ⊢
      intro f hf
      obtain ⟨g, hg, hfg⟩ := hfs.exists_above f hf
      exact fits_of_below (t := t) hfg (hb g hg)
    | _ => cases hb
  | map key value, _, _, h, hb => by
    cases h.narrows with
    | untyped => exact fits_any _
    | same => exact hb
    | map hk hv =>
      rw [fits, Bool.and_eq_true] at hb ⊢
      exact ⟨fits_of_below (t := key) hk hb.1, fits_of_below (t := value) hv hb.2⟩
    | _ => cases hb
  | scalar _, _, _, h, hb | node, _, _, h, hb | rel, _, _, h, hb | path, _, _, h, hb => by
    -- These go by the tag, which two types of one shape share.
    cases h.narrows with
    | untyped => exact fits_any _
    | _ => exact hb

end Target
end ValueBridge
