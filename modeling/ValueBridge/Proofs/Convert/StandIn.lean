import ValueBridge.Proofs.Convert.JsonRoundTrip
/-!
# Host values that stand for sources

A source of a known shape says the same as a host value: an absent value as null, a mapping as a struct with its fields
in any order that keeps those of one name in theirs, a list of pairs as a map, and a JSON value as the host value that it
stands for.  Whichever host value stands for a source, the source is encoded as the host value is, on every engine and in
every state (`Source.build_eq_standIn`).
-/
namespace ValueBridge

namespace Encoder

variable {σ : Type} [Engine σ] {c : Config}

/-- Sorted fields do not tell in which order they were given. -/
theorem struct_rearranged {fs gs : List (String × Encoder σ)} (h : Fields.Rearranged fs gs) :
    struct c fs = struct c gs := by
  have hempty : fs.isEmpty = gs.isEmpty := by
    rw [Bool.eq_iff_iff, List.isEmpty_iff, List.isEmpty_iff]
    exact h.eq_nil_iff
  unfold struct
  rw [hempty, h.sorted_eq]

end Encoder

namespace HostValue

theorem encodeFields_eq_map {σ : Type} [Engine σ] (c : Config) (fs : List (String × HostValue)) :
    (encodeFields c fs : List (String × Encoder σ)) = fs.map fun f => (f.1, f.2.encode c) := by
  induction fs with
  | nil => rfl
  | cons f fs ih => exact congrArg (List.cons _) ih

end HostValue

namespace Json

variable {σ : Type} [Engine σ] {c : Config}

mutual
/-- **A JSON value is encoded as the host value that it stands for**, if it holds no number or numbers need no width. -/
theorem encode_eq_host : ∀ {j : Json}, (c.strictNumericWidth → j.hasNumber = false) →
    (j.encode c : Encoder σ) = j.host.encode c
  | null, _ => by rw [encode, host, HostValue.encode]
  | bool _, _ | string _, _ => by
    rw [encode, host, HostValue.encode]
    rfl
  | number n, h => by
    have hc : c.strictNumericWidth = false := by
      by_contra hstrict
      cases h (Bool.not_eq_false _ ▸ hstrict)
    rw [encode, host, HostValue.encode, n.toPayload_scalar hc]
  | array items, h => by rw [encode, host, HostValue.encode, encodeItems_eq_host h]
  | object fields, h => by rw [encode, host, HostValue.encode, encodeFields_eq_host h]
theorem encodeItems_eq_host : ∀ {js : List Json}, (c.strictNumericWidth → itemsHaveNumber js = false) →
    (encodeItems c js : List (Encoder σ)) = HostValue.encodeItems c (hostItems js)
  | [], _ => rfl
  | _ :: _, h => by
    rw [encodeItems, hostItems, HostValue.encodeItems, encode_eq_host fun hc => (Bool.or_eq_false_iff.1 (h hc)).1,
      encodeItems_eq_host fun hc => (Bool.or_eq_false_iff.1 (h hc)).2]
theorem encodeFields_eq_host : ∀ {fs : List (String × Json)}, (c.strictNumericWidth → fieldsHaveNumber fs = false) →
    (encodeFields c fs : List (String × Encoder σ)) = HostValue.encodeFields c (hostFields fs)
  | [], _ => rfl
  | (_, _) :: _, h => by
    rw [encodeFields, hostFields, HostValue.encodeFields, encode_eq_host fun hc => (Bool.or_eq_false_iff.1 (h hc)).1,
      encodeFields_eq_host fun hc => (Bool.or_eq_false_iff.1 (h hc)).2]
end

end Json

namespace Source

variable {c : Config}

/-! ## Stand-ins -/

mutual
/-- The host value stands for the source under the configuration. -/
inductive StandIn (c : Config) : Source → HostValue → Prop
  | host (v : HostValue) : StandIn c (host v) v
  | json {j : Json} : (c.strictNumericWidth → j.hasNumber = false) → StandIn c (json j) j.host
  | scalar (s : Scalar) : StandIn c (scalar s) (.scalar s)
  | absent : StandIn c absent .null
  | present {s : Source} {v : HostValue} : StandIn c s v → StandIn c (present s) v
  | shared {s : Source} {v : HostValue} : StandIn c s v → StandIn c (shared s) v
  | sequence {ss : List Source} {vs : List HostValue} : ItemStandIns c ss vs → StandIn c (sequence ss) (.list vs)
  | fields {fs : List (String × Source)} {gs hs : List (String × HostValue)} : FieldStandIns c fs gs →
    Fields.Rearranged gs hs → StandIn c (fields fs) (.struct hs)
  | entries {es : List (Source × Source)} {ws : List (HostValue × HostValue)} : EntryStandIns c es ws →
    StandIn c (entries es) (.map ws)
inductive ItemStandIns (c : Config) : List Source → List HostValue → Prop
  | nil : ItemStandIns c [] []
  | cons {s : Source} {v : HostValue} {ss : List Source} {vs : List HostValue} : StandIn c s v →
    ItemStandIns c ss vs → ItemStandIns c (s :: ss) (v :: vs)
inductive FieldStandIns (c : Config) : List (String × Source) → List (String × HostValue) → Prop
  | nil : FieldStandIns c [] []
  | cons {name : String} {s : Source} {v : HostValue} {fs : List (String × Source)}
    {gs : List (String × HostValue)} : StandIn c s v → FieldStandIns c fs gs →
    FieldStandIns c ((name, s) :: fs) ((name, v) :: gs)
inductive EntryStandIns (c : Config) : List (Source × Source) → List (HostValue × HostValue) → Prop
  | nil : EntryStandIns c [] []
  | cons {k s : Source} {w v : HostValue} {es : List (Source × Source)} {ws : List (HostValue × HostValue)} :
    StandIn c k w → StandIn c s v → EntryStandIns c es ws → EntryStandIns c ((k, s) :: es) ((w, v) :: ws)
end

mutual
/-- Whether the source holds an interval of the engine's own kind, for which there is no host value, or a JSON value with
a number where numbers must state their widths. -/
def isForeign (c : Config) : Source → Bool
  | host _ => false
  | json j => c.strictNumericWidth && j.hasNumber
  | scalar _ => false
  | interval _ => true
  | absent => false
  | present s => isForeign c s
  | shared s => isForeign c s
  | sequence items => itemsForeign c items
  | fields fs => fieldsForeign c fs
  | entries es => entriesForeign c es
def itemsForeign (c : Config) : List Source → Bool
  | [] => false
  | s :: ss => isForeign c s || itemsForeign c ss
def fieldsForeign (c : Config) : List (String × Source) → Bool
  | [] => false
  | (_, s) :: fs => isForeign c s || fieldsForeign c fs
def entriesForeign (c : Config) : List (Source × Source) → Bool
  | [] => false
  | (k, s) :: es => isForeign c k || isForeign c s || entriesForeign c es
end

mutual
theorem exists_standIn : ∀ {s : Source}, s.isForeign c = false → ∃ v, StandIn c s v
  | host v, _ => ⟨v, .host v⟩
  | json j, h => ⟨j.host, .json fun hc => by rwa [isForeign, hc, Bool.true_and] at h⟩
  | scalar s, _ => ⟨_, .scalar s⟩
  | interval _, h => by cases h
  | absent, _ => ⟨_, .absent⟩
  | present s, h => (exists_standIn (s := s) h).imp fun _ => .present
  | shared s, h => (exists_standIn (s := s) h).imp fun _ => .shared
  | sequence _, h => (exists_itemStandIns h).elim fun _ hvs => ⟨_, .sequence hvs⟩
  | fields _, h => (exists_fieldStandIns h).elim fun gs hgs => ⟨_, .fields hgs (.refl gs)⟩
  | entries _, h => (exists_entryStandIns h).elim fun _ hws => ⟨_, .entries hws⟩
theorem exists_itemStandIns : ∀ {ss : List Source}, itemsForeign c ss = false → ∃ vs, ItemStandIns c ss vs
  | [], _ => ⟨_, .nil⟩
  | _ :: _, h => by
    obtain ⟨hs, hss⟩ := Bool.or_eq_false_iff.1 h
    obtain ⟨v, hv⟩ := exists_standIn hs
    obtain ⟨vs, hvs⟩ := exists_itemStandIns hss
    exact ⟨_, .cons hv hvs⟩
theorem exists_fieldStandIns : ∀ {fs : List (String × Source)}, fieldsForeign c fs = false →
    ∃ gs, FieldStandIns c fs gs
  | [], _ => ⟨_, .nil⟩
  | (_, _) :: _, h => by
    obtain ⟨hs, hfs⟩ := Bool.or_eq_false_iff.1 h
    obtain ⟨v, hv⟩ := exists_standIn hs
    obtain ⟨gs, hgs⟩ := exists_fieldStandIns hfs
    exact ⟨_, .cons hv hgs⟩
theorem exists_entryStandIns : ∀ {es : List (Source × Source)}, entriesForeign c es = false →
    ∃ ws, EntryStandIns c es ws
  | [], _ => ⟨_, .nil⟩
  | (_, _) :: _, h => by
    obtain ⟨hks, hes⟩ := Bool.or_eq_false_iff.1 h
    obtain ⟨hk, hs⟩ := Bool.or_eq_false_iff.1 hks
    obtain ⟨w, hw⟩ := exists_standIn hk
    obtain ⟨v, hv⟩ := exists_standIn hs
    obtain ⟨ws, hws⟩ := exists_entryStandIns hes
    exact ⟨_, .cons hw hv hws⟩
end

/-! ## Both are encoded alike -/

section Encoding

variable {σ : Type} [Engine σ]

mutual
/-- **A source is encoded as any host value that stands for it.** -/
theorem encode_eq_standIn : ∀ {s : Source} {v : HostValue}, StandIn c s v → (s.encode c : Encoder σ) = v.encode c
  | host _, _, h => by
    cases h
    rw [encode]
  | json _, _, h => by
    cases h with
    | json hj => rw [encode, Json.encode_eq_host hj]
  | scalar _, _, h => by
    cases h
    rw [encode, HostValue.encode]
  | interval _, _, h => by cases h
  | absent, _, h => by
    cases h
    rw [encode, HostValue.encode]
  | present _, _, h => by
    cases h with
    | present hs => rw [encode, encode_eq_standIn hs]
  | shared _, _, h => by
    cases h with
    | shared hs => rw [encode, encode_eq_standIn hs]
  | sequence _, _, h => by
    cases h with
    | sequence hss => rw [encode, HostValue.encode, encodeItems_eq_standIns hss]
  | fields _, _, h => by
    cases h with
    | fields hfs hgs =>
      have hrearranged := hgs.map fun v => (v.encode c : Encoder σ)
      rw [← HostValue.encodeFields_eq_map, ← HostValue.encodeFields_eq_map] at hrearranged
      rw [encode, HostValue.encode, encodeFields_eq_standIns hfs, Encoder.struct_rearranged hrearranged]
  | entries _, _, h => by
    cases h with
    | entries hes => rw [encode, HostValue.encode, encodeEntries_eq_standIns hes]
theorem encodeItems_eq_standIns : ∀ {ss : List Source} {vs : List HostValue}, ItemStandIns c ss vs →
    (encodeItems c ss : List (Encoder σ)) = HostValue.encodeItems c vs
  | [], _, h => by
    cases h
    rfl
  | _ :: _, _, h => by
    cases h with
    | cons hs hss => rw [encodeItems, HostValue.encodeItems, encode_eq_standIn hs, encodeItems_eq_standIns hss]
theorem encodeFields_eq_standIns : ∀ {fs : List (String × Source)} {gs : List (String × HostValue)},
    FieldStandIns c fs gs → (encodeFields c fs : List (String × Encoder σ)) = HostValue.encodeFields c gs
  | [], _, h => by
    cases h
    rfl
  | (_, _) :: _, _, h => by
    cases h with
    | cons hs hfs => rw [encodeFields, HostValue.encodeFields, encode_eq_standIn hs, encodeFields_eq_standIns hfs]
theorem encodeEntries_eq_standIns : ∀ {es : List (Source × Source)} {ws : List (HostValue × HostValue)},
    EntryStandIns c es ws → (encodeEntries c es : List (Encoder σ × Encoder σ)) = HostValue.encodeEntries c ws
  | [], _, h => by
    cases h
    rfl
  | (_, _) :: _, _, h => by
    cases h with
    | cons hk hs hes =>
      rw [encodeEntries, HostValue.encodeEntries, encode_eq_standIn hk, encode_eq_standIn hs,
        encodeEntries_eq_standIns hes]
end

end Encoding

/-- **For every source that is not foreign there is a host value, and encoding the source and encoding any host value that
stands for it end alike on every engine**: with the same handle or error, in the same state. -/
theorem build_eq_standIn {s : Source} (hs : s.isForeign c = false) : (∃ v, StandIn c s v) ∧
    ∀ v, StandIn c s v → ∀ {σ : Type} [Engine σ] (m : σ), s.build c m = (host v).build c m := by
  refine ⟨exists_standIn hs, fun v hv σ _ m => ?_⟩
  rw [build, build, encode_eq_standIn hv, encode]

/-- A mapping whose names are not in order, of a list with an absent item and of pairs with a JSON value. -/
theorem build_eq_standIn_nested :
    let pairs := [(shared (scalar (.string "k")), json (.array [.null, .bool true]))]
    let s := fields [("z", sequence [present (scalar (.bool true)), absent]), ("a", entries pairs)]
    let v := HostValue.struct [("a", .map [(.scalar (.string "k"), .list [.null, .scalar (.bool true)])]),
      ("z", .list [.scalar (.bool true), .null])]
    let c : Config := { strictNumericWidth := true }
    let m : Memory := { limit := 20 }
    s.isForeign c = false ∧ StandIn c s v ∧ s.build c m = (host v).build c m := by
  intro pairs s v c m
  have hpairs : EntryStandIns c pairs [(.scalar (.string "k"), .list [.null, .scalar (.bool true)])] :=
    .cons (.shared (.scalar _)) (.json fun _ => rfl) .nil
  have hitems : ItemStandIns c [present (scalar (.bool true)), absent] [.scalar (.bool true), .null] :=
    .cons (.present (.scalar _)) (.cons .absent .nil)
  have hfields : FieldStandIns c [("z", sequence [present (scalar (.bool true)), absent]), ("a", entries pairs)]
      [("z", .list [.scalar (.bool true), .null]),
        ("a", .map [(.scalar (.string "k"), .list [.null, .scalar (.bool true)])])] :=
    .cons (.sequence hitems) (.cons (.entries hpairs) .nil)
  have hstands : StandIn c s v := .fields hfields (.of_perm (.swap _ _ _) (by simp))
  exact ⟨rfl, hstands, (build_eq_standIn rfl).2 v hstands m⟩

end Source

end ValueBridge
