import ValueBridge.Json.Document
import ValueBridge.Proofs.Fields
/-!
# Objects with ordered keys

A JSON value is `Ordered` if the keys of its objects are in ascending order, each once, at every depth.  Objects made of
fields are ordered (`Ordered.ofFields`), and so is everything that is read from a text (`ordered_of_ofText?`).
-/
namespace ValueBridge.Json

mutual
/-- The keys of every object are in ascending order, each once. -/
def Ordered : Json → Prop
  | array items => OrderedItems items
  | object fields => Fields.Ascending fields ∧ OrderedFields fields
  | _ => True
def OrderedItems : List Json → Prop
  | [] => True
  | j :: js => Ordered j ∧ OrderedItems js
def OrderedFields : List (String × Json) → Prop
  | [] => True
  | (_, j) :: fs => Ordered j ∧ OrderedFields fs
end

theorem orderedFields_iff {fs : List (String × Json)} : OrderedFields fs ↔ ∀ f ∈ fs, f.2.Ordered := by
  induction fs with
  | nil => simp [OrderedFields]
  | cons f fs ih =>
    obtain ⟨name, j⟩ := f
    rw [OrderedFields, ih, List.forall_mem_cons]

theorem Ordered.ofFields {fs : List (String × Json)} (h : OrderedFields fs) : (Json.ofFields fs).Ordered := by
  refine ⟨Fields.ascending_latest fs, orderedFields_iff.2 fun f hf => ?_⟩
  exact orderedFields_iff.1 h f (Fields.mem_of_mem_latest hf)

namespace Document

mutual
theorem ordered_of_meaning? : ∀ {levels : Nat} {d : Document} {j : Json}, d.meaning? levels = some j → j.Ordered
  | _, null, _, h => by
    cases h
    trivial
  | _, bool _, _, h => by
    cases h
    trivial
  | _, number n, _, h => by
    obtain ⟨_, -, rfl⟩ := Option.map_eq_some_iff.1 h
    trivial
  | _, string s, _, h => by
    obtain ⟨_, -, rfl⟩ := Option.map_eq_some_iff.1 h
    trivial
  | 0, array _, _, h => by cases h
  | 0, object _, _, h => by cases h
  | _ + 1, array items, _, h => by
    obtain ⟨js, hjs, rfl⟩ := Option.map_eq_some_iff.1 h
    exact ordered_of_meanings? hjs
  | _ + 1, object fields, _, h => by
    obtain ⟨fs, hfs, rfl⟩ := Option.map_eq_some_iff.1 h
    exact .ofFields (ordered_of_fieldMeanings? hfs)
theorem ordered_of_meanings? : ∀ {levels : Nat} {ds : List Document} {js : List Json},
    meanings? levels ds = some js → OrderedItems js
  | _, [], _, h => by
    cases h
    trivial
  | _, d :: ds, _, h => by
    obtain ⟨j, hj, h⟩ := Option.bind_eq_some_iff.1 h
    obtain ⟨js, hjs, rfl⟩ := Option.map_eq_some_iff.1 h
    exact ⟨ordered_of_meaning? hj, ordered_of_meanings? hjs⟩
theorem ordered_of_fieldMeanings? : ∀ {levels : Nat} {ds : List (Option String × Document)}
    {fs : List (String × Json)}, fieldMeanings? levels ds = some fs → OrderedFields fs
  | _, [], _, h => by
    cases h
    trivial
  | _, (name, d) :: ds, _, h => by
    obtain ⟨n, -, h⟩ := Option.bind_eq_some_iff.1 h
    obtain ⟨j, hj, h⟩ := Option.bind_eq_some_iff.1 h
    obtain ⟨fs, hfs, rfl⟩ := Option.map_eq_some_iff.1 h
    exact ⟨ordered_of_meaning? hj, ordered_of_fieldMeanings? hfs⟩
end

end Document

/-- **The JSON value of a text is ordered.** -/
theorem ordered_of_ofText? {s : String} {j : Json} (h : ofText? s = some j) : j.Ordered := by
  obtain ⟨d, -, hd⟩ := Option.bind_eq_some_iff.1 h
  exact Document.ordered_of_meaning? hd

end ValueBridge.Json
