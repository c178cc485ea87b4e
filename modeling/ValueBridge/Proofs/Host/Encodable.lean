import ValueBridge.Proofs.Host.Canon
/-!
# Encodable values

Which host values the engine can hold, and of which type they then are, said of the values alone.  A `Requirement` asks
something of one value and of what stands side by side in it; a value is `Encodable` if it and everything inside it meet
all requirements, and if it is not nested too deep.  Every requirement has the kind of error that says it is not met.

The type of a value depends on its siblings: a whole decimal is a 128-bit integer, unless a decimal with digits after
the point stands beside it in the same list or on the same side of a map.
-/
namespace ValueBridge

/-! ## Inferred types -/

/-- The type of a decimal, which may stand beside one with digits after the point. -/
def Decimal.inferred (beside : Bool) (d : Decimal) : LogicalType :=
  if d.isWhole then if beside then .decimal (digitCount d.truncate.natAbs) 0 else .plain .int128
  else .decimal (max d.width d.scale.toNat) d.scale.toNat

def Scalar.inferred (beside : Bool) : Scalar → LogicalType
  | bool _ => .plain .bool
  | int w _ => .plain w.tag
  | float _ => .plain .float
  | double _ => .plain .double
  | decimal d => d.inferred beside
  | string _ => .plain .string
  | blob _ => .plain .blob
  | uuid _ => .plain .uuid
  | timestamp _ => .plain .timestamp
  | duration _ => .plain .interval
  | id _ => .plain .internalId

namespace HostValue

/-- A decimal with digits after the point. -/
def isFractional : HostValue → Bool
  | scalar (.decimal d) => !d.isWhole
  | _ => false

mutual
/-- The type of a value, if its parts have types that join.  Whether a fractional decimal is its sibling is said by
`beside`. -/
def inferred (beside : Bool) : HostValue → Option LogicalType
  | null => some .any
  | scalar s => some (s.inferred beside)
  | list items => ((inferredItems (items.any isFractional) items).bind LogicalType.joinAll?).map .list
  | struct fields => (inferredFields fields).map fun ts => .struct (Fields.sorted ts)
  | map entries =>
    ((inferredKeys (entries.any (·.1.isFractional)) entries).bind LogicalType.joinAll?).bind fun key =>
      ((inferredValues (entries.any (·.2.isFractional)) entries).bind LogicalType.joinAll?).map fun value =>
        .map key value
  | node _ | rel _ | path _ => none
def inferredItems (beside : Bool) : List HostValue → Option (List LogicalType)
  | [] => some []
  | v :: vs => (inferred beside v).bind fun t => (inferredItems beside vs).map (t :: ·)
def inferredFields : List (String × HostValue) → Option (List (String × LogicalType))
  | [] => some []
  | (name, v) :: fs => (inferred false v).bind fun t => (inferredFields fs).map ((name, t) :: ·)
def inferredKeys (beside : Bool) : List (HostValue × HostValue) → Option (List LogicalType)
  | [] => some []
  | (k, _) :: es => (inferred beside k).bind fun t => (inferredKeys beside es).map (t :: ·)
def inferredValues (beside : Bool) : List (HostValue × HostValue) → Option (List LogicalType)
  | [] => some []
  | (_, v) :: es => (inferred beside v).bind fun t => (inferredValues beside es).map (t :: ·)
end

/-- The types of values that stand side by side. -/
def siblingTypes (siblings : List HostValue) : Option (List LogicalType) :=
  inferredItems (siblings.any isFractional) siblings

theorem inferredKeys_eq (beside : Bool) (es : List (HostValue × HostValue)) :
    inferredKeys beside es = inferredItems beside (es.map Prod.fst) := by
  induction es with
  | nil => rfl
  | cons e es ih => rw [inferredKeys, List.map_cons, inferredItems, ih]

theorem inferredValues_eq (beside : Bool) (es : List (HostValue × HostValue)) :
    inferredValues beside es = inferredItems beside (es.map Prod.snd) := by
  induction es with
  | nil => rfl
  | cons e es ih => rw [inferredValues, List.map_cons, inferredItems, ih]

theorem inferred_list (beside : Bool) (items : List HostValue) :
    (list items).inferred beside = ((siblingTypes items).bind LogicalType.joinAll?).map .list := by
  rw [inferred, siblingTypes]

theorem inferred_map (beside : Bool) (entries : List (HostValue × HostValue)) :
    (map entries).inferred beside =
      ((siblingTypes (entries.map Prod.fst)).bind LogicalType.joinAll?).bind fun key =>
        ((siblingTypes (entries.map Prod.snd)).bind LogicalType.joinAll?).map fun value => .map key value := by
  rw [inferred, inferredKeys_eq, inferredValues_eq, siblingTypes, siblingTypes, List.any_map, List.any_map]
  rfl

/-! ## What is inside a value -/

mutual
/-- The value itself and all values in its lists, structs and maps, at every depth. -/
def subvalues : HostValue → List HostValue
  | list items => list items :: subvaluesOfItems items
  | struct fields => struct fields :: subvaluesOfFields fields
  | map entries => map entries :: subvaluesOfEntries entries
  | v => [v]
def subvaluesOfItems : List HostValue → List HostValue
  | [] => []
  | v :: vs => subvalues v ++ subvaluesOfItems vs
def subvaluesOfFields : List (String × HostValue) → List HostValue
  | [] => []
  | (_, v) :: fs => subvalues v ++ subvaluesOfFields fs
def subvaluesOfEntries : List (HostValue × HostValue) → List HostValue
  | [] => []
  | (k, v) :: es => subvalues k ++ subvalues v ++ subvaluesOfEntries es
end

/-- The values that a list, a struct or a map consists of. -/
def parts : HostValue → List HostValue
  | list items => items
  | struct fields => fields.map Prod.snd
  | map entries => entries.map Prod.fst ++ entries.map Prod.snd
  | _ => []

/-- The parts that must have a common type. -/
def siblings : HostValue → List (List HostValue)
  | list items => [items]
  | map entries => [entries.map Prod.fst, entries.map Prod.snd]
  | _ => []

def isGraphElement : HostValue → Bool
  | node _ | rel _ | path _ => true
  | _ => false

def isCollection : HostValue → Bool
  | list _ | struct _ | map _ => true
  | _ => false

end HostValue

/-! ## Requirements -/

inductive Requirement where
  | noGraphElement | nonempty | durations | decimals | restatable | commonType
deriving DecidableEq, Repr

/-- The kind of the error that reports a requirement that is not met. -/
def Requirement.kind : Requirement → ErrorKind
  | noGraphElement => .unsupportedType
  | nonempty => .emptyCollection
  | durations | decimals | restatable => .conversionFailed
  | commonType => .heterogeneousType

/-- The whole microseconds fit 64 bits. -/
def Duration.Storable (d : Duration) : Prop :=
  IntWidth.int64.lo ≤ d.nanos.tdiv 1000 ∧ d.nanos.tdiv 1000 ≤ IntWidth.int64.hi

/-- A whole number fits 128 bits, any other has few enough digits. -/
def Decimal.Storable (d : Decimal) : Prop :=
  if d.isWhole then -2 ^ 127 ≤ d.truncate ∧ d.truncate ≤ 2 ^ 127 - 1
  else max (d.width : Int) d.scale ≤ maxPrecision

instance (d : Decimal) : Decidable d.Storable :=
  inferInstanceAs (Decidable (if d.isWhole then -2 ^ 127 ≤ d.truncate ∧ d.truncate ≤ 2 ^ 127 - 1
    else max (d.width : Int) d.scale ≤ maxPrecision))

namespace HostValue

/-- Beside a fractional decimal a whole one has no more digits than a decimal type can have. -/
def Restatable (siblings : List HostValue) : Prop :=
  siblings.any isFractional → ∀ d, scalar (.decimal d) ∈ siblings → d.isWhole →
    digitCount d.truncate.natAbs ≤ maxPrecision

/-- The types of the siblings join, if each has one. -/
def Joinable (siblings : List HostValue) : Prop :=
  siblings ≠ [] → ∀ ts, siblingTypes siblings = some ts → (LogicalType.joinAll? ts).isSome

/-- What a requirement asks of a value, apart from what it asks of the values inside. -/
def Meets (v : HostValue) : Requirement → Prop
  | .noGraphElement => v.isGraphElement = false
  | .nonempty => v.isCollection → v.parts ≠ []
  | .durations => ∀ d, v = scalar (.duration d) → d.Storable
  | .decimals => ∀ d, v = scalar (.decimal d) → d.Storable
  | .restatable => ∀ s ∈ v.siblings, Restatable s
  | .commonType => ∀ s ∈ v.siblings, Joinable s

/-- Nothing keeps the engine from holding the value, within the levels that are left. -/
structure Encodable (left : Nat) (v : HostValue) : Prop where
  nesting_le : v.nesting ≤ left
  meets : ∀ w ∈ v.subvalues, ∀ r, w.Meets r

/-- Some condition is violated that errors of the kind report. -/
def Violates (left : Nat) (v : HostValue) (kind : ErrorKind) : Prop :=
  left < v.nesting ∧ kind = .conversionFailed ∨ ∃ w ∈ v.subvalues, ∃ r : Requirement, ¬w.Meets r ∧ r.kind = kind

/-! ## From the parts to the whole -/

variable {left : Nat} {v w : HostValue}

theorem Violates.not_encodable {kind : ErrorKind} (h : v.Violates left kind) : ¬v.Encodable left := by
  rintro ⟨hnesting, hmeets⟩
  rcases h with ⟨hdeep, -⟩ | ⟨w, hw, r, hr, -⟩
  · exact absurd hnesting (Nat.not_le.2 hdeep)
  · exact hr (hmeets w hw r)

theorem mem_subvaluesOfItems {vs : List HostValue} : w ∈ subvaluesOfItems vs ↔ ∃ p ∈ vs, w ∈ p.subvalues := by
  induction vs with
  | nil => simp [subvaluesOfItems]
  | cons v vs ih =>
    rw [subvaluesOfItems, List.mem_append, ih]
    simp only [List.mem_cons, exists_eq_or_imp]

theorem mem_subvaluesOfFields {fs : List (String × HostValue)} :
    w ∈ subvaluesOfFields fs ↔ ∃ p ∈ fs.map Prod.snd, w ∈ p.subvalues := by
  induction fs with
  | nil => simp [subvaluesOfFields]
  | cons f fs ih =>
    rw [subvaluesOfFields, List.mem_append, ih]
    simp only [List.map_cons, List.mem_cons, exists_eq_or_imp]

theorem mem_subvaluesOfEntries {es : List (HostValue × HostValue)} :
    w ∈ subvaluesOfEntries es ↔ ∃ p ∈ es.map Prod.fst ++ es.map Prod.snd, w ∈ p.subvalues := by
  induction es with
  | nil => simp [subvaluesOfEntries]
  | cons e es ih =>
    rw [subvaluesOfEntries, List.mem_append, List.mem_append, ih]
    simp only [List.map_cons, List.cons_append, List.mem_cons, List.mem_append]
    grind

theorem mem_subvalues : ∀ {v : HostValue}, w ∈ v.subvalues ↔ w = v ∨ ∃ p ∈ v.parts, w ∈ p.subvalues
  | null | scalar _ | node _ | rel _ | path _ => by simp [subvalues, parts]
  | list items => by rw [subvalues, List.mem_cons, mem_subvaluesOfItems, parts]
  | struct fields => by rw [subvalues, List.mem_cons, mem_subvaluesOfFields, parts]
  | map entries => by rw [subvalues, List.mem_cons, mem_subvaluesOfEntries, parts]

theorem nestingItems_le {n : Nat} {vs : List HostValue} : nestingItems vs ≤ n ↔ ∀ p ∈ vs, p.nesting ≤ n := by
  induction vs with
  | nil => simp [nestingItems]
  | cons v vs ih => rw [nestingItems, Nat.max_le, ih, List.forall_mem_cons]

theorem nestingFields_le {n : Nat} {fs : List (String × HostValue)} :
    nestingFields fs ≤ n ↔ ∀ p ∈ fs.map Prod.snd, p.nesting ≤ n := by
  induction fs with
  | nil => simp [nestingFields]
  | cons f fs ih => rw [nestingFields, Nat.max_le, ih, List.map_cons, List.forall_mem_cons]

theorem nestingEntries_le {n : Nat} {es : List (HostValue × HostValue)} :
    nestingEntries es ≤ n ↔ ∀ p ∈ es.map Prod.fst ++ es.map Prod.snd, p.nesting ≤ n := by
  induction es with
  | nil => simp [nestingEntries]
  | cons e es ih =>
    rw [nestingEntries, Nat.max_le, Nat.max_le, ih]
    simp only [List.map_cons, List.cons_append, List.mem_cons, List.mem_append]
    grind

theorem nesting_le_succ (h : v.isCollection) : v.nesting ≤ left + 1 ↔ ∀ p ∈ v.parts, p.nesting ≤ left := by
  cases v with
  | list items => rw [nesting, Nat.succ_le_succ_iff, nestingItems_le, parts]
  | struct fields => rw [nesting, Nat.succ_le_succ_iff, nestingFields_le, parts]
  | map entries => rw [nesting, Nat.succ_le_succ_iff, nestingEntries_le, parts]
  | _ => cases h

theorem Encodable.of_parts (hv : v.isCollection) (hparts : ∀ p ∈ v.parts, p.Encodable left) (hv' : ∀ r, v.Meets r) :
    v.Encodable (left + 1) where
  nesting_le := (nesting_le_succ hv).2 fun p hp => (hparts p hp).nesting_le
  meets := by
    intro w hw
    rcases mem_subvalues.1 hw with rfl | ⟨p, hp, hw⟩
    · exact hv'
    · exact (hparts p hp).meets w hw

theorem Violates.of_part {p : HostValue} {kind : ErrorKind} (hv : v.isCollection) (hp : p ∈ v.parts)
    (h : p.Violates left kind) : v.Violates (left + 1) kind := by
  rcases h with ⟨hdeep, hkind⟩ | ⟨w, hw, r, hr, hkind⟩
  · refine .inl ⟨Nat.lt_of_not_le fun hle => ?_, hkind⟩
    exact absurd ((nesting_le_succ hv).1 hle p hp) (Nat.not_le.2 hdeep)
  · exact .inr ⟨w, mem_subvalues.2 (.inr ⟨p, hp, hw⟩), r, hr, hkind⟩

theorem Violates.here {r : Requirement} (h : ¬v.Meets r) : v.Violates left r.kind :=
  .inr ⟨v, mem_subvalues.2 (.inl rfl), r, h, rfl⟩

end HostValue

end ValueBridge
