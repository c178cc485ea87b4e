import ValueBridge.Proofs.Host.Exported
import ValueBridge.Proofs.Number.Value
/-!
# Integers in exported JSON

The numbers without a fraction that the JSON of a value holds are those that the exported parts hold themselves
(`integerAt?_iff`): an integer of any width, the microseconds of a duration, and the two numbers of an internal id.  So
they fit 64 bits with a sign unless a part holds an unsigned number that does not (`exported_integers`).  Decimals are
exported as texts, from which their values are read back.
-/
namespace ValueBridge

open Json (Pointer)

/-- What stands at places, under one more key. -/
def Json.under {α : Type} (name : String) (placed : List (Pointer × α)) : List (Pointer × α) :=
  placed.map fun i => (.key name :: i.1, i.2)

/-- The numbers of an internal id, with their places in its JSON. -/
def InternalId.numbers (i : InternalId) : List (Pointer × IntOf .uint64) :=
  [([.key "table"], i.table), ([.key "offset"], i.offset)]

namespace HostValue

/-- The unsigned 64-bit numbers of a value that are not those of a part, with their places in its JSON. -/
def unsigned : HostValue → List (Pointer × IntOf .uint64)
  | scalar (.int .uint64 n) => [([], n)]
  | scalar (.id i) => i.numbers
  | node n => Json.under "_id" n.id.numbers
  | rel r => Json.under "_id" r.id.numbers ++ Json.under "_src" r.source.numbers ++ Json.under "_dst" r.target.numbers
  | _ => []

/-- The integers of a value that are not those of a part, with their places in its JSON. -/
def ownIntegers : HostValue → List (Pointer × Int)
  | scalar (.int _ n) => [([], n.val)]
  | scalar (.duration d) => d.micros?.toList.map fun n => ([], n.val)
  | v => v.unsigned.map fun u => (u.1, u.2.val)

variable {v w : HostValue} {p q : Pointer} {k : Int} {name : String}

theorem mem_under {α : Type} {placed : List (Pointer × α)} {a : α} :
    (p, a) ∈ Json.under name placed ↔ ∃ q, p = .key name :: q ∧ (q, a) ∈ placed := by
  simp only [Json.under, List.mem_map, Prod.mk.injEq, Prod.exists]
  constructor
  · rintro ⟨q, n, hmem, rfl, rfl⟩
    exact ⟨q, rfl, hmem⟩
  · rintro ⟨q, rfl, hmem⟩
    exact ⟨q, a, hmem, rfl, rfl⟩

theorem mem_values {numbers : List (Pointer × IntOf .uint64)} :
    (p, k) ∈ numbers.map (fun u => (u.1, u.2.val)) ↔ ∃ n, (p, n) ∈ numbers ∧ n.val = k := by
  simp only [List.mem_map, Prod.mk.injEq, Prod.exists]
  constructor
  · rintro ⟨q, n, hmem, rfl, hk⟩
    exact ⟨n, hmem, hk⟩
  · rintro ⟨n, hmem, hk⟩
    exact ⟨p, n, hmem, rfl, hk⟩

/-! ## Integers of the value itself -/

theorem integerAt?_ofInt {width : IntWidth} {n : IntOf width} :
    (Json.ofInt n).integerAt? p = some k ↔ p = [] ∧ n.val = k := by
  constructor
  · intro h
    obtain ⟨hp, hk⟩ := Json.of_integerAt?_leaf (fun s => by cases s <;> rfl) h
    exact ⟨hp, Option.some.inj hk⟩
  · rintro ⟨rfl, rfl⟩
    rfl

theorem integerAt?_id {i : InternalId} : i.toJson.integerAt? p = some k ↔ ∃ n, (p, n) ∈ i.numbers ∧ n.val = k := by
  simp only [InternalId.numbers, List.mem_cons, Prod.mk.injEq, List.not_mem_nil, or_false]
  constructor
  · intro h
    obtain ⟨name, q, j, rfl, hmem, hk⟩ := Json.mem_of_integerAt?_ofFields h
    simp only [List.mem_cons, Prod.mk.injEq, List.not_mem_nil, or_false] at hmem
    obtain ⟨rfl, rfl⟩ | ⟨rfl, rfl⟩ := hmem
    · obtain ⟨rfl, hval⟩ := integerAt?_ofInt.1 hk
      exact ⟨i.table, .inl ⟨rfl, rfl⟩, hval⟩
    · obtain ⟨rfl, hval⟩ := integerAt?_ofInt.1 hk
      exact ⟨i.offset, .inr ⟨rfl, rfl⟩, hval⟩
  · rw [InternalId.toJson]
    rintro ⟨n, ⟨rfl, rfl⟩ | ⟨rfl, rfl⟩, hk⟩
    · rw [Json.integerAt?_key (j := .ofInt i.table) rfl]
      exact integerAt?_ofInt.2 ⟨rfl, hk⟩
    · rw [Json.integerAt?_key (j := .ofInt i.offset) rfl]
      exact integerAt?_ofInt.2 ⟨rfl, hk⟩

theorem integerAt?_ofDouble (x : Binary64) : (Json.ofDouble x).integerAt? p = none := by
  rw [Json.ofDouble]
  split
  all_goals exact Json.integerAt?_eq_none (fun s => by cases s <;> rfl) rfl p

/-- A scalar without an integer, whose JSON has none either. -/
theorem integerAt?_other {s : Scalar} (hjson : s.toJson.integerAt? p = none) (hown : (scalar s).ownIntegers = []) :
    s.toJson.integerAt? p = some k ↔ (p, k) ∈ (scalar s).ownIntegers := by
  rw [hjson, hown]
  exact iff_of_false nofun nofun

theorem integerAt?_scalar {s : Scalar} : s.toJson.integerAt? p = some k ↔ (p, k) ∈ (scalar s).ownIntegers := by
  cases s with
  | id i => exact integerAt?_id.trans mem_values.symm
  | int w n =>
    rw [Scalar.toJson, integerAt?_ofInt, ownIntegers, List.mem_singleton, Prod.mk.injEq, eq_comm (a := n.val)]
  | duration d =>
    rw [Scalar.toJson, ownIntegers]
    cases hd : d.micros? with
    | none => simp [Json.integerAt?_null]
    | some n => simp [integerAt?_ofInt, eq_comm (a := n.val)]
  | float x => exact integerAt?_other (integerAt?_ofDouble _) rfl
  | double x => exact integerAt?_other (integerAt?_ofDouble _) rfl
  | _ => exact integerAt?_other (Json.integerAt?_eq_none (fun s => by cases s <;> rfl) rfl p) rfl

theorem integerAt?_of_own (h : (p, k) ∈ v.ownIntegers) : v.toJson.integerAt? p = some k := by
  cases v with
  | scalar s => exact integerAt?_scalar.2 h
  | node n =>
    obtain ⟨a, hmem, hk⟩ := mem_values.1 h
    obtain ⟨q, rfl, hplace⟩ := mem_under.1 hmem
    rw [toJson_node, Json.integerAt?_key rfl]
    exact integerAt?_id.2 ⟨a, hplace, hk⟩
  | rel r =>
    obtain ⟨a, hmem, hk⟩ := mem_values.1 h
    simp only [unsigned, List.mem_append, mem_under] at hmem
    rw [toJson_rel]
    obtain (⟨q, rfl, hmem⟩ | ⟨q, rfl, hmem⟩) | ⟨q, rfl, hmem⟩ := hmem
    all_goals
      rw [Json.integerAt?_key rfl]
      exact integerAt?_id.2 ⟨a, hmem, hk⟩
  | _ => cases h

/-! ## Integers of the parts -/

/-- The integer is one of a part. -/
def IntegerBelow (v : HostValue) (p : Pointer) (k : Int) : Prop :=
  ∃ q r x, p = q ++ r ∧ v.PartAt q x ∧ x.toJson.integerAt? r = some k

theorem of_integerAt?_fieldsJson {fields : List (String × HostValue)} (h : (fieldsJson fields).integerAt? p = some k) :
    ∃ name q x, p = .key name :: q ∧ fields.reverse.lookup name = some x ∧ x.toJson.integerAt? q = some k := by
  obtain ⟨name, q, j, rfl, hj, hk⟩ := Json.of_integerAt?_ofFields h
  rw [← Json.step?_ofFields] at hj
  obtain ⟨x, hx, rfl⟩ := Option.map_eq_some_iff.1 ((step?_fieldsJson fields name).symm.trans hj)
  exact ⟨name, q, x, rfl, hx, hk⟩

theorem below_of_map {entries : List (HostValue × HostValue)} (h : (map entries).toJson.integerAt? p = some k) :
    (map entries).IntegerBelow p k := by
  rw [toJson, entriesToJson_eq_map] at h
  obtain ⟨i, q, e, rfl, he, hk⟩ := Json.of_integerAt?_map h
  obtain ⟨name, r, j, rfl, hmem, hk⟩ := Json.mem_of_integerAt?_ofFields hk
  simp only [List.mem_cons, Prod.mk.injEq, List.not_mem_nil, or_false] at hmem
  obtain ⟨rfl, rfl⟩ | ⟨rfl, rfl⟩ := hmem
  · exact ⟨_, r, e.1, rfl, .key he, hk⟩
  · exact ⟨_, r, e.2, rfl, .value he, hk⟩

theorem own_or_below_node {n : Node HostValue} (h : (node n).toJson.integerAt? p = some k) :
    (p, k) ∈ (node n).ownIntegers ∨ (node n).IntegerBelow p k := by
  rw [toJson_node] at h
  obtain ⟨name, q, j, rfl, hmem, hk⟩ := Json.mem_of_integerAt?_ofFields h
  simp only [List.mem_cons, Prod.mk.injEq, List.not_mem_nil, or_false] at hmem
  obtain ⟨rfl, rfl⟩ | ⟨rfl, rfl⟩ | ⟨rfl, rfl⟩ := hmem
  · obtain ⟨a, hmem, hk⟩ := integerAt?_id.1 hk
    exact .inl (mem_values.2 ⟨a, mem_under.2 ⟨q, rfl, hmem⟩, hk⟩)
  · rw [Json.integerAt?_string] at hk
    cases hk
  · obtain ⟨name, r, x, rfl, hx, hk⟩ := of_integerAt?_fieldsJson hk
    exact .inr ⟨_, r, x, rfl, .nodeProperty hx, hk⟩

theorem own_or_below_rel {r : Rel HostValue} (h : (rel r).toJson.integerAt? p = some k) :
    (p, k) ∈ (rel r).ownIntegers ∨ (rel r).IntegerBelow p k := by
  rw [toJson_rel] at h
  obtain ⟨name, q, j, rfl, hmem, hk⟩ := Json.mem_of_integerAt?_ofFields h
  simp only [List.mem_cons, Prod.mk.injEq, List.not_mem_nil, or_false] at hmem
  have hown {i : InternalId} (hk : i.toJson.integerAt? q = some k)
      (hunder : ∀ a, (q, a) ∈ i.numbers → (.key name :: q, a) ∈ (rel r).unsigned) :
      (.key name :: q, k) ∈ (rel r).ownIntegers := by
    obtain ⟨a, hmem, hk⟩ := integerAt?_id.1 hk
    exact mem_values.2 ⟨a, hunder a hmem, hk⟩
  simp only [unsigned, List.mem_append, mem_under] at hown
  obtain ⟨rfl, rfl⟩ | ⟨rfl, rfl⟩ | ⟨rfl, rfl⟩ | ⟨rfl, rfl⟩ | ⟨rfl, rfl⟩ := hmem
  · exact .inl (hown hk fun a hmem => .inl (.inl ⟨q, rfl, hmem⟩))
  · exact .inl (hown hk fun a hmem => .inl (.inr ⟨q, rfl, hmem⟩))
  · exact .inl (hown hk fun a hmem => .inr ⟨q, rfl, hmem⟩)
  · rw [Json.integerAt?_string] at hk
    cases hk
  · obtain ⟨name, t, x, rfl, hx, hk⟩ := of_integerAt?_fieldsJson hk
    exact .inr ⟨_, t, x, rfl, .relProperty hx, hk⟩

theorem below_of_path {g : Path HostValue} (h : (path g).toJson.integerAt? p = some k) :
    (path g).IntegerBelow p k := by
  rw [toJson_path, nodesToJson_eq_map, relsToJson_eq_map] at h
  obtain ⟨name, q, j, rfl, hmem, hk⟩ := Json.mem_of_integerAt?_ofFields h
  simp only [List.mem_cons, Prod.mk.injEq, List.not_mem_nil, or_false] at hmem
  obtain ⟨rfl, rfl⟩ | ⟨rfl, rfl⟩ := hmem
  · obtain ⟨i, t, n, rfl, hn, hk⟩ := Json.of_integerAt?_map hk
    exact ⟨_, t, node n, rfl, .pathNode hn, hk⟩
  · obtain ⟨i, t, r, rfl, hr, hk⟩ := Json.of_integerAt?_map hk
    exact ⟨_, t, rel r, rfl, .pathRel hr, hk⟩

/-- **An integer in the JSON of a value is its own or that of a part.** -/
theorem own_or_below (h : v.toJson.integerAt? p = some k) : (p, k) ∈ v.ownIntegers ∨ v.IntegerBelow p k := by
  cases v with
  | null =>
    rw [toJson, Json.integerAt?_null] at h
    cases h
  | scalar s => exact .inl (integerAt?_scalar.1 h)
  | list items =>
    rw [toJson, itemsToJson_eq_map] at h
    obtain ⟨i, q, x, rfl, hx, hk⟩ := Json.of_integerAt?_map h
    exact .inr ⟨_, q, x, rfl, .item hx, hk⟩
  | struct fields =>
    obtain ⟨name, q, x, rfl, hx, hk⟩ := of_integerAt?_fieldsJson h
    exact .inr ⟨_, q, x, rfl, .field hx, hk⟩
  | map entries => exact .inr (below_of_map h)
  | node n => exact own_or_below_node h
  | rel r => exact own_or_below_rel h
  | path g => exact .inr (below_of_path h)

theorem PartAt.pointer_ne_nil (h : PartAt v p w) : p ≠ [] := by
  cases h <;> exact List.cons_ne_nil _ _

/-- **The integers in the JSON of a value are those of all that it exports.** -/
theorem integerAt?_iff : v.toJson.integerAt? p = some k ↔
    ∃ q r w, p = q ++ r ∧ v.Exports q w ∧ (r, k) ∈ w.ownIntegers := by
  constructor
  · intro h
    -- The pointer gets shorter with every part that it enters.
    induction hn : p.length using Nat.strongRecOn generalizing v p with
    | ind n ih =>
      obtain hown | ⟨q, r, x, rfl, hx, hk⟩ := own_or_below h
      · exact ⟨[], p, v, rfl, .self v, hown⟩
      · have hlength := List.length_pos_iff.2 hx.pointer_ne_nil
        rw [List.length_append] at hn
        obtain ⟨q', r', w, rfl, hw, hmem⟩ := ih r.length (by omega) hk rfl
        exact ⟨q ++ q', r', w, (List.append_assoc ..).symm, .part hx hw, hmem⟩
  · rintro ⟨q, r, w, rfl, hw, hmem⟩
    rw [Json.integerAt?_append, at?_of_exports hw]
    exact integerAt?_of_own hmem

/-! ## Integers of 64 bits -/

theorem own_of_unsigned {n : IntOf .uint64} (h : (p, n) ∈ v.unsigned) : (p, n.val) ∈ v.ownIntegers := by
  have hvalue : (p, n.val) ∈ v.unsigned.map (fun u => (u.1, u.2.val)) := mem_values.2 ⟨n, h, rfl⟩
  cases v with
  | scalar s =>
    cases s with
    | int width m =>
      cases width with
      | uint64 => exact hvalue
      | _ => cases h
    | id i => exact hvalue
    | _ => cases h
  | node | rel => exact hvalue
  | _ => cases h

/-- An integer of a value fits 64 bits with a sign, or is one of its unsigned numbers. -/
theorem fits_or_unsigned (h : (p, k) ∈ v.ownIntegers) :
    IntWidth.int64.lo ≤ k ∧ k ≤ IntWidth.int64.hi ∨ ∃ n, (p, n) ∈ v.unsigned ∧ n.val = k := by
  cases v with
  | scalar s =>
    cases s with
    | int width n =>
      obtain ⟨rfl, rfl⟩ := Prod.mk.inj (List.mem_singleton.1 h)
      cases width with
      | uint64 => exact .inr ⟨n, List.mem_singleton.2 rfl, rfl⟩
      | _ => exact .inl ⟨Int.le_trans (by decide) n.lo_le, Int.le_trans n.le_hi (by decide)⟩
    | duration d =>
      obtain ⟨n, -, hn⟩ := List.mem_map.1 h
      obtain ⟨rfl, rfl⟩ := Prod.mk.inj hn
      exact .inl ⟨n.lo_le, n.le_hi⟩
    | id i => exact .inr (mem_values.1 h)
    | _ => cases h
  | node | rel => exact .inr (mem_values.1 h)
  | _ => cases h

/-- A decimal's text gives its number back. -/
theorem toRat_of_text {d : Decimal} (h : Decimal.scaleInRange d.scale) :
    ∃ e, Decimal.ofText? d.toText = some e ∧ e.toRat = d.toRat :=
  ⟨d.reread, Decimal.ofText?_toText h, Decimal.sameValue_iff_toRat.1 (Decimal.sameValue_reread d)⟩

/-- **Which integers are exported as numbers, and how decimals are.**  The unsigned 64-bit numbers that a value holds
all stand in its JSON as numbers, and an integer there that does not fit 64 bits with a sign is one of them.  A decimal
is a text with its exact value. -/
theorem exported_integers (v : HostValue) :
    (∀ p q w n, v.Exports p w → (q, n) ∈ w.unsigned → v.toJson.integerAt? (p ++ q) = some n.val) ∧
    (∀ p k, v.toJson.integerAt? p = some k → ¬(IntWidth.int64.lo ≤ k ∧ k ≤ IntWidth.int64.hi) →
      ∃ q r w n, p = q ++ r ∧ v.Exports q w ∧ (r, n) ∈ w.unsigned ∧ n.val = k) ∧
    ∀ p d, v.Exports p (scalar (.decimal d)) → v.toJson.at? p = some (.string d.toText) ∧
      (Decimal.scaleInRange d.scale → ∃ e, Decimal.ofText? d.toText = some e ∧ e.toRat = d.toRat) := by
  refine ⟨fun p q w n hw hn => ?_, fun p k h hlarge => ?_, fun p d hd => ⟨at?_of_exports hd, toRat_of_text⟩⟩
  · exact integerAt?_iff.2 ⟨p, q, w, rfl, hw, own_of_unsigned hn⟩
  · obtain ⟨q, r, w, rfl, hw, hown⟩ := integerAt?_iff.1 h
    obtain hfits | ⟨n, hn, hk⟩ := fits_or_unsigned hown
    · exact absurd hfits hlarge
    · exact ⟨q, r, w, n, rfl, hw, hn, hk⟩

/-- The least number that does not fit 64 bits with a sign. -/
def aboveSigned : IntOf .uint64 := ⟨2 ^ 63, by decide, by decide⟩

/-- In a list, the number above all signed ones stays a number, and a decimal becomes a text that gives it back. -/
theorem exported_integers_listed :
    (list [scalar (.int .uint64 aboveSigned), scalar (.decimal ⟨15, 1⟩)]).toJson.integerAt? [.item 0] =
      some aboveSigned.val ∧
    (∃ q r w n, [.item 0] = q ++ r ∧ (list [scalar (.int .uint64 aboveSigned), scalar (.decimal ⟨15, 1⟩)]).Exports q w ∧
      (r, n) ∈ w.unsigned ∧ n.val = aboveSigned.val) ∧
    ∃ e, Decimal.ofText? (Decimal.toText ⟨15, 1⟩) = some e ∧ e.toRat = Decimal.toRat ⟨15, 1⟩ := by
  obtain ⟨hnumbers, hlarge, hdecimals⟩ :=
    exported_integers (list [scalar (.int .uint64 aboveSigned), scalar (.decimal ⟨15, 1⟩)])
  have hfirst := hnumbers [.item 0] [] _ aboveSigned (.part (.item rfl) (.self _)) (List.mem_singleton.2 rfl)
  exact ⟨hfirst, hlarge _ _ hfirst (by decide), (hdecimals [.item 1] _ (.part (.item rfl) (.self _))).2 (by decide)⟩

/-- A number above all signed ones is not exported as a text. -/
theorem exported_above_signed : IntWidth.int64.hi < aboveSigned.val ∧
    (scalar (.int .uint64 aboveSigned)).toJson.integerAt? [] = some aboveSigned.val ∧
    (scalar (.int .uint64 aboveSigned)).jsonText = "9223372036854775808" := by
  refine ⟨by decide, rfl, ?_⟩
  decide

end HostValue
end ValueBridge
