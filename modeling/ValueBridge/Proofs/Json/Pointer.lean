import ValueBridge.Json.Value
import ValueBridge.Proofs.Fields
import ValueBridge.Proofs.Results
/-!
# Pointers into JSON values

A pointer leads from a JSON value to one inside it, through the items of arrays and the keys of objects.  Under a key an
object has the last value that was given for it (`step?_ofFields`).
-/
namespace ValueBridge.Json

/-- A step into a JSON value. -/
inductive Step where
  | item (index : Nat)
  | key (name : String)
deriving DecidableEq, Repr

/-- The steps from a JSON value to one inside it. -/
abbrev Pointer := List Step

def step? : Json → Step → Option Json
  | array items, .item i => items[i]?
  | object fields, .key name => fields.lookup name
  | _, _ => none

/-- The value that a pointer leads to. -/
def at? (j : Json) (p : Pointer) : Option Json := p.foldlM step? j

def integer? : Json → Option Int
  | number (.int n) => some n.val
  | _ => none

/-- The integer that a pointer leads to. -/
def integerAt? (j : Json) (p : Pointer) : Option Int := (j.at? p).bind integer?

variable {j : Json} {p q : Pointer} {k : Int} {fields : List (String × Json)}

theorem at?_cons (j : Json) (s : Step) (p : Pointer) : j.at? (s :: p) = (j.step? s).bind (·.at? p) := rfl

theorem at?_singleton (j : Json) (s : Step) : j.at? [s] = j.step? s := Option.bind_fun_some _

theorem at?_append (j : Json) (p q : Pointer) : j.at? (p ++ q) = (j.at? p).bind (·.at? q) := List.foldlM_append

theorem integerAt?_cons (j : Json) (s : Step) (p : Pointer) :
    j.integerAt? (s :: p) = (j.step? s).bind (·.integerAt? p) := Option.bind_assoc ..

theorem integerAt?_append (j : Json) (p q : Pointer) :
    j.integerAt? (p ++ q) = (j.at? p).bind (·.integerAt? q) := by
  rw [integerAt?, at?_append, Option.bind_assoc]
  rfl

/-- **Under a key, an object has the last value given for it.** -/
theorem step?_ofFields (fields : List (String × Json)) (name : String) :
    (ofFields fields).step? (.key name) = fields.reverse.lookup name := Fields.lookup_latest fields name

theorem at?_key {name : String} (h : fields.reverse.lookup name = some j) :
    (ofFields fields).at? (.key name :: p) = j.at? p := by rw [at?_cons, step?_ofFields, h, Option.bind_some]

theorem integerAt?_key {name : String} (h : fields.reverse.lookup name = some j) :
    (ofFields fields).integerAt? (.key name :: p) = j.integerAt? p := by rw [integerAt?, at?_key h, integerAt?]

/-! ## Where an integer can be -/

/-- A value that is neither an array nor an object has an integer nowhere but at itself. -/
theorem of_integerAt?_leaf (hleaf : ∀ s, j.step? s = none) (h : j.integerAt? p = some k) :
    p = [] ∧ j.integer? = some k := by
  cases p with
  | nil => exact ⟨rfl, h⟩
  | cons s p =>
    rw [integerAt?_cons, hleaf] at h
    cases h

theorem integerAt?_eq_none (hleaf : ∀ s, j.step? s = none) (hnone : j.integer? = none) (p : Pointer) :
    j.integerAt? p = none :=
  Option.eq_none_iff_forall_ne_some.2 fun k hk => by
    have hinteger := (of_integerAt?_leaf hleaf hk).2
    rw [hnone] at hinteger
    cases hinteger

theorem integerAt?_null (p : Pointer) : null.integerAt? p = none :=
  integerAt?_eq_none (fun t => by cases t <;> rfl) rfl p

theorem integerAt?_string (s : String) (p : Pointer) : (string s).integerAt? p = none :=
  integerAt?_eq_none (fun t => by cases t <;> rfl) rfl p

theorem of_integerAt?_map {α : Type} {f : α → Json} {as : List α} (h : (array (as.map f)).integerAt? p = some k) :
    ∃ i q a, p = .item i :: q ∧ as[i]? = some a ∧ (f a).integerAt? q = some k := by
  cases p with
  | nil => cases h
  | cons s p =>
    rw [integerAt?_cons] at h
    obtain ⟨j, hj, hk⟩ := Option.bind_eq_some_iff.1 h
    cases s with
    | item i =>
      rw [step?, List.getElem?_map] at hj
      obtain ⟨a, ha, rfl⟩ := Option.map_eq_some_iff.1 hj
      exact ⟨i, p, a, rfl, ha, hk⟩
    | key name => cases hj

theorem of_integerAt?_ofFields (h : (ofFields fields).integerAt? p = some k) :
    ∃ name q j, p = .key name :: q ∧ fields.reverse.lookup name = some j ∧ j.integerAt? q = some k := by
  cases p with
  | nil => cases h
  | cons s p =>
    rw [integerAt?_cons] at h
    obtain ⟨j, hj, hk⟩ := Option.bind_eq_some_iff.1 h
    cases s with
    | item i => cases hj
    | key name =>
      rw [step?_ofFields] at hj
      exact ⟨name, p, j, rfl, hj, hk⟩

/-- An integer in an object stands in one of the fields that the object was made of. -/
theorem mem_of_integerAt?_ofFields (h : (ofFields fields).integerAt? p = some k) :
    ∃ name q j, p = .key name :: q ∧ (name, j) ∈ fields ∧ j.integerAt? q = some k := by
  obtain ⟨name, q, j, hp, hj, hk⟩ := of_integerAt?_ofFields h
  exact ⟨name, q, j, hp, List.mem_reverse.1 (mem_of_lookup hj), hk⟩

end ValueBridge.Json
