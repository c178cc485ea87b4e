import ValueBridge.Host.Export
import ValueBridge.Proofs.Convert.RoundTrip
import ValueBridge.Proofs.Json.Ordered
/-!
# Encoding JSON values

A JSON value is encoded as the host value that it stands for (`draft_eq_host`), unless numbers must state their widths.
The canonical form of that host value is exported as the JSON value again (`toJson_canon_host`), so that a JSON value is
unchanged when it is encoded, decoded and exported.  When widths must be stated, a value with a number comes to nothing
(`numberless_draft`), and one without numbers is encoded as ever (`encode_stated`).
-/
namespace ValueBridge.Json

variable {c : Config} {left : Nat}

/-! ## JSON values as host values -/

section Widths

variable (i : Ranged (-2 ^ 63) (2 ^ 64 - 1))

theorem Number.int64_lo_le : IntWidth.int64.lo ≤ i.val := i.lo_le

theorem Number.uint64_lo_le (h : ¬i.val ≤ IntWidth.int64.hi) : IntWidth.uint64.lo ≤ i.val := lo_le_of_hi_lt h

theorem Number.le_uint64_hi : i.val ≤ IntWidth.uint64.hi := i.le_hi

end Widths

/-- A number as the first of INT64, UINT64 and DOUBLE that holds it. -/
def Number.scalar : Number → Scalar
  | .int i =>
    if h : i.val ≤ IntWidth.int64.hi then .int .int64 ⟨i.val, int64_lo_le i, h⟩
    else .int .uint64 ⟨i.val, uint64_lo_le i h, le_uint64_hi i⟩
  | .double x _ => .double x

mutual
/-- The host value that a JSON value stands for. -/
def host : Json → HostValue
  | null => .null
  | bool b => .scalar (.bool b)
  | number n => .scalar n.scalar
  | string s => .scalar (.string s)
  | array items => .list (hostItems items)
  | object fields => .struct (hostFields fields)
def hostItems : List Json → List HostValue
  | [] => []
  | j :: js => host j :: hostItems js
def hostFields : List (String × Json) → List (String × HostValue)
  | [] => []
  | (name, j) :: fs => (name, host j) :: hostFields fs
end

theorem Number.toPayload_scalar (hc : c.strictNumericWidth = false) (n : Number) : n.toPayload c = n.scalar.toPayload := by
  unfold Number.toPayload Number.scalar
  rw [if_neg (by rw [hc]; exact Bool.false_ne_true)]
  cases n with
  | int i =>
    dsimp only
    split <;> rfl
  | double x _ => rfl

mutual
theorem draft_eq_host (hc : c.strictNumericWidth = false) : ∀ j : Json, j.draft c = j.host.draft c
  | null | bool _ | string _ => rfl
  | number n => congrArg Draft.ofExcept (n.toPayload_scalar hc)
  | array items => congrArg (Draft.list c) (draftItems_eq_host hc items)
  | object fields => congrArg (Draft.struct c) (draftFields_eq_host hc fields)
theorem draftItems_eq_host (hc : c.strictNumericWidth = false) : ∀ js : List Json,
    draftItems c js = HostValue.draftItems c (hostItems js)
  | [] => rfl
  | j :: js => congr (congrArg List.cons (draft_eq_host hc j)) (draftItems_eq_host hc js)
theorem draftFields_eq_host (hc : c.strictNumericWidth = false) : ∀ fs : List (String × Json),
    draftFields c fs = HostValue.draftFields c (hostFields fs)
  | [] => rfl
  | (name, j) :: fs => congr (congrArg (fun d => List.cons (name, d)) (draft_eq_host hc j)) (draftFields_eq_host hc fs)
end

/-! ## No timestamps

A JSON value stands for no timestamp, so that all of it is read again. -/

theorem Number.overruns_scalar (n : Number) : n.scalar.overruns = [] := by
  unfold Number.scalar
  cases n with
  | int i =>
    dsimp only
    split <;> rfl
  | double x _ => rfl

mutual
theorem overruns_host : ∀ j : Json, j.host.overruns = []
  | null | bool _ | string _ => by simp only [host, HostValue.overruns, Scalar.overruns]
  | number n => by rw [host, HostValue.overruns, n.overruns_scalar]
  | array items => (HostValue.overruns_eq_nil_iff_parts rfl).2 (overruns_hostItems items)
  | object fields => (HostValue.overruns_eq_nil_iff_parts rfl).2 (List.forall_mem_map.2 (overruns_hostFields fields))
theorem overruns_hostItems : ∀ js : List Json, ∀ v ∈ hostItems js, v.overruns = []
  | [] => List.forall_mem_nil _
  | j :: js => List.forall_mem_cons.2 ⟨overruns_host j, overruns_hostItems js⟩
theorem overruns_hostFields : ∀ fs : List (String × Json), ∀ f ∈ hostFields fs, f.2.overruns = []
  | [] => List.forall_mem_nil _
  | (_, j) :: fs => List.forall_mem_cons.2 ⟨overruns_host j, overruns_hostFields fs⟩
end

/-! ## Export -/

theorem Number.canon_scalar (b : BlobLength) (n : Number) : n.scalar.canon b = n.scalar := by
  unfold Number.scalar
  cases n with
  | int i =>
    dsimp only
    split <;> rfl
  | double x _ => rfl

theorem Number.toJson_scalar (n : Number) : n.scalar.toJson = .number n := by
  unfold Number.scalar
  cases n with
  | int i =>
    dsimp only
    split <;> rfl
  | double x h => exact dif_pos h

theorem names_canon_host (b : BlobLength) : ∀ fs : List (String × Json),
    (HostValue.canonFields b (hostFields fs)).map Prod.fst = fs.map Prod.fst
  | [] => rfl
  | (_, _) :: fs => congrArg (List.cons _) (names_canon_host b fs)

mutual
/-- **What is kept of an ordered JSON value is exported as the value itself.** -/
theorem toJson_canon_host (b : BlobLength) : ∀ {j : Json}, j.Ordered → (j.host.canon b).toJson = j
  | null, _ | bool _, _ | string _, _ => rfl
  | number n, _ => by rw [host, HostValue.canon, HostValue.toJson, n.canon_scalar, n.toJson_scalar]
  | array items, h => congrArg array (itemsToJson_canon_host b h)
  | object fields, h => by
    have hascending := h.1.of_names (names_canon_host b fields)
    rw [host, HostValue.canon, Fields.sorted_of_ascending hascending, HostValue.toJson,
      fieldsToJson_canon_host b h.2, ofFields, Fields.latest_of_ascending h.1]
theorem itemsToJson_canon_host (b : BlobLength) : ∀ {js : List Json}, OrderedItems js →
    HostValue.itemsToJson (HostValue.canonItems b (hostItems js)) = js
  | [], _ => rfl
  | _ :: _, h => congr (congrArg List.cons (toJson_canon_host b h.1)) (itemsToJson_canon_host b h.2)
theorem fieldsToJson_canon_host (b : BlobLength) : ∀ {fs : List (String × Json)}, OrderedFields fs →
    HostValue.fieldsToJson (HostValue.canonFields b (hostFields fs)) = fs
  | [], _ => rfl
  | (name, _) :: _, h =>
    congr (congrArg (fun j => List.cons (name, j)) (toJson_canon_host b h.1)) (fieldsToJson_canon_host b h.2)
end

/-! ## Numbers without a width -/

mutual
/-- Whether the value holds a number, at any depth. -/
def hasNumber : Json → Bool
  | number _ => true
  | array items => itemsHaveNumber items
  | object fields => fieldsHaveNumber fields
  | _ => false
def itemsHaveNumber : List Json → Bool
  | [] => false
  | j :: js => hasNumber j || itemsHaveNumber js
def fieldsHaveNumber : List (String × Json) → Bool
  | [] => false
  | (_, j) :: fs => hasNumber j || fieldsHaveNumber fs
end

theorem itemsHaveNumber_eq_false : ∀ {js : List Json}, itemsHaveNumber js = false ↔ ∀ j ∈ js, j.hasNumber = false
  | [] => by simp [itemsHaveNumber]
  | j :: js => by simp [itemsHaveNumber, itemsHaveNumber_eq_false]

theorem fieldsHaveNumber_eq_false : ∀ {fs : List (String × Json)},
    fieldsHaveNumber fs = false ↔ ∀ f ∈ fs, f.2.hasNumber = false
  | [] => by simp [fieldsHaveNumber]
  | f :: fs => by simp [fieldsHaveNumber, fieldsHaveNumber_eq_false]

/-- The draft comes to nothing unless the JSON value is without numbers. -/
abbrev Numberless (d : Draft) (j : Json) : Prop := d.Meets (fun _ _ (j : Json) => j.hasNumber = false) j

theorem restatable_numberless : Draft.Restatable fun _ (j : Json) => j.hasNumber = false := fun _ _ _ h _ => h

mutual
/-- **When widths must be stated, nothing comes of a value with a number.** -/
theorem numberless_draft (hc : c.strictNumericWidth = true) : ∀ j : Json, Numberless (j.draft c) j
  | null | bool _ | string _ => fun _ _ _ => rfl
  | number n => fun left v hv => by
    have hrefused : n.toPayload c = .error ⟨.unsizedNumber n.text, []⟩ := if_pos hc
    obtain ⟨p, hp, -⟩ := Draft.eq_of_ofExcept hv
    cases hrefused.symm.trans hp
  | array items => fun left v hv => by
    obtain ⟨_, _, vs, -, -, hvs⟩ := Draft.of_list (fun _ => restatable_numberless) (numberless_items hc items) hv
    obtain ⟨ps, -, hps, hall⟩ := exists_pairs hvs
    rw [hasNumber, itemsHaveNumber_eq_false, hps, List.forall_mem_map]
    exact hall
  | object fields => fun left v hv => by
    obtain ⟨_, _, vs, -, -, hvs⟩ := Draft.of_struct (numberless_fields hc fields) hv
    obtain ⟨ps, -, hps, hall⟩ := exists_pairs hvs
    rw [hasNumber, fieldsHaveNumber_eq_false]
    intro f hf
    rw [← (Fields.sorted_perm fields).mem_iff, hps] at hf
    obtain ⟨p, hp, rfl⟩ := List.mem_map.1 hf
    exact (hall p hp).2
theorem numberless_items (hc : c.strictNumericWidth = true) : ∀ js : List Json,
    List.Forall₂ Numberless (draftItems c js) js
  | [] => .nil
  | j :: js => .cons (numberless_draft hc j) (numberless_items hc js)
theorem numberless_fields (hc : c.strictNumericWidth = true) : ∀ fs : List (String × Json),
    List.Forall₂ (fun f g => f.1 = g.1 ∧ Numberless f.2 g.2) (draftFields c fs) fs
  | [] => .nil
  | (_, j) :: fs => .cons ⟨rfl, numberless_draft hc j⟩ (numberless_fields hc fs)
end

end ValueBridge.Json

namespace ValueBridge

/-! ## Configurations that ask for widths -/

/-- The same configuration, but numbers must state their widths. -/
abbrev Config.stated (c : Config) : Config := { c with strictNumericWidth := true }

variable {σ : Type} {c : Config}

theorem Encoder.enter_stated (kind : CollectionKind) (isEmpty : Bool) (left : Nat) :
    (enter c.stated kind isEmpty left : Convert σ Nat) = enter c kind isEmpty left := by
  cases left <;> rfl

variable [Engine σ]

theorem Encoder.list_stated (items : List (Encoder σ)) : list c.stated items = list c items := by
  unfold list
  simp only [enter_stated]

theorem Encoder.struct_stated (fields : List (String × Encoder σ)) : struct c.stated fields = struct c fields := by
  unfold struct
  simp only [enter_stated]

namespace Json

mutual
/-- **A value without numbers is encoded alike**, whether widths must be stated or not. -/
theorem encode_stated : ∀ {j : Json}, j.hasNumber = false → (j.encode c.stated : Encoder σ) = j.encode c
  | null, _ | bool _, _ | string _, _ => by rw [encode, encode]
  | number _, h => by cases h
  | array items, h => by rw [encode, encode, Encoder.list_stated, encodeItems_stated h]
  | object fields, h => by rw [encode, encode, Encoder.struct_stated, encodeFields_stated h]
theorem encodeItems_stated : ∀ {js : List Json}, itemsHaveNumber js = false →
    (encodeItems c.stated js : List (Encoder σ)) = encodeItems c js
  | [], _ => rfl
  | _ :: _, h => by
    obtain ⟨hj, hjs⟩ := Bool.or_eq_false_iff.1 h
    rw [encodeItems, encodeItems, encode_stated hj, encodeItems_stated hjs]
theorem encodeFields_stated : ∀ {fs : List (String × Json)}, fieldsHaveNumber fs = false →
    (encodeFields c.stated fs : List (String × Encoder σ)) = encodeFields c fs
  | [], _ => rfl
  | (_, _) :: _, h => by
    obtain ⟨hj, hfs⟩ := Bool.or_eq_false_iff.1 h
    rw [encodeFields, encodeFields, encode_stated hj, encodeFields_stated hfs]
end

/-- **A JSON value is unchanged when it is encoded, decoded and exported**, on an engine with room for decoding.  When
numbers must state their widths, it is encoded exactly if it is otherwise and holds no number, as the same value. -/
theorem toJson_decode_encode (hc : c.strictNumericWidth = false) {j : Json} (hj : j.Ordered) {m : Memory}
    (hm : m.Reachable) :
    (∀ h m', m.live + 1 + 2 * j.host.nesting ≤ m.limit → (Source.json j).build c m = .ok h m' →
      ∃ v m'', Read.value c h m' = .ok v m'' ∧ v.toJson = j ∧ m''.entries = m'.entries) ∧
    ∀ h m', (Source.json j).build c.stated m = .ok h m' ↔ (Source.json j).build c m = .ok h m' ∧ j.hasNumber = false := by
  refine ⟨fun h m' hroom hbuild => ?_, fun h m' => ⟨fun hbuild => ?_, fun ⟨hbuild, hnumber⟩ => ?_⟩⟩
  · obtain ⟨sv, hsv, hmoves⟩ := Source.moves_of_build (s := m) hm.issued hbuild
    have hadds : Memory.Adds m [(h, sv)] m' := hmoves.adds
    have hhost : (j.host.draft c).value c.maxDepth = .ok sv := by
      rw [← draft_eq_host hc]
      exact hsv
    have hyields := HostValue.yields_draft hhost hadds hroom
    rw [j.overruns_host] at hyields
    obtain ⟨m'', hread, hentries⟩ := hyields.eq_ok
    exact ⟨_, m'', hread, toJson_canon_host c.blobLength hj, hentries⟩
  · obtain ⟨sv, hsv, -⟩ := Source.moves_of_build (s := m) hm.issued hbuild
    have hnumber := numberless_draft (c := c.stated) rfl j c.maxDepth sv hsv
    rw [Source.build, Source.encode, encode_stated hnumber] at hbuild
    exact ⟨hbuild, hnumber⟩
  · rw [Source.build, Source.encode, encode_stated hnumber]
    exact hbuild

/-- The largest integer, and a list of null and of the negative zero. -/
def largestAndZero : Json := .object
  [("largest", .number (.int ⟨2 ^ 64 - 1, by decide, by decide⟩)),
    ("zeros", .array [.null, .number (.double ⟨0x8000000000000000⟩ (by decide))])]

theorem ascending_largestAndZero {α : Type} (a b : α) : Fields.Ascending [("largest", a), ("zeros", b)] := by
  have hlt : "largest" < "zeros" := by decide
  exact List.pairwise_pair.2 hlt

theorem ordered_largestAndZero : largestAndZero.Ordered :=
  ⟨ascending_largestAndZero _ _, by simp [OrderedFields, Ordered, OrderedItems]⟩

theorem build_largestAndZero :
    ∃ (h : Handle) (m : Memory), (Source.json largestAndZero).build {} { limit := 5 } = .ok h m := by
  have hdraft : ∃ v, ((Source.json largestAndZero).draft {}).value 64 = .ok v := by
    have hsorted : ∀ d d' : Draft, Fields.sorted [("largest", d), ("zeros", d')] = [("largest", d), ("zeros", d')] :=
      fun d d' => Fields.sorted_of_ascending (ascending_largestAndZero d d')
    simp only [largestAndZero, Source.draft, draft, draftFields, Draft.struct, hsorted]
    exact ⟨_, rfl⟩
  obtain ⟨v, hv⟩ := hdraft
  obtain ⟨h, m, hbuild, -⟩ := Source.build_of_draft (s := ({ limit := 5 } : Memory)) (c := {})
    (Memory.Reachable.empty 5).issued ⟨trivial, by decide⟩ hv
  exact ⟨h, m, hbuild⟩

/-- They come back as they were, and are refused when numbers must state their widths. -/
theorem toJson_decode_encode_largestAndZero : largestAndZero.Ordered ∧
    (∃ (h : Handle) (v : HostValue) (m' m'' : Memory), (Source.json largestAndZero).build {} { limit := 5 } = .ok h m' ∧
      Read.value {} h m' = .ok v m'' ∧ v.toJson = largestAndZero) ∧
    ∀ (h : Handle) (m' : Memory),
      (Source.json largestAndZero).build { strictNumericWidth := true } { limit := 5 } ≠ .ok h m' := by
  obtain ⟨h, m', hbuild⟩ := build_largestAndZero
  have hround := toJson_decode_encode (c := {}) rfl ordered_largestAndZero (.empty 5)
  obtain ⟨v, m'', hread, hjson, -⟩ := hround.1 h m' (by decide) hbuild
  refine ⟨ordered_largestAndZero, ⟨h, v, m', m'', hbuild, hread, hjson⟩, fun h m' hstated => ?_⟩
  exact absurd ((hround.2 h m').1 hstated).2 (by decide)

end Json

end ValueBridge
