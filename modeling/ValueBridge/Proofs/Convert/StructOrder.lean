import ValueBridge.Proofs.Convert.Collected
import ValueBridge.Proofs.Convert.StandIn
import ValueBridge.Proofs.Text.ByteOrder
import ValueBridge.Proofs.Type.Joining
/-!
# The order of fields does not matter

Two sources are alike if they say the same in other words: as a host value or part by part, behind a pointer or not, and
with the fields of a struct in another order, those of one name in theirs.  Alike sources are encoded alike, on every
engine, at every level and in every state (`Alike.encode_eq`), so that the same error is met first as well.

A struct that is encoded has its fields in the order of the bytes of their names, each with what its value is encoded as
(`of_encodedAs_fields`).  So structs with the same names have their fields in the same order, and if the fields of one
name have types that join pair by pair, the structs can be put in one list (`structs_canonical`).
-/
namespace ValueBridge.Source

variable {c : Config} {left inner : Nat} {s t : Source} {v : Stored}

/-! ## Alike sources -/

/-- The sources say the same. -/
inductive Alike : Source → Source → Prop
  | refl (s : Source) : Alike s s
  | symm {s t : Source} : Alike s t → Alike t s
  | trans {s t u : Source} : Alike s t → Alike t u → Alike s u
  | present (s : Source) : Alike (present s) s
  | shared (s : Source) : Alike (shared s) s
  | hostNull : Alike (host .null) absent
  | hostScalar (s : Scalar) : Alike (host (.scalar s)) (scalar s)
  | hostList (vs : List HostValue) : Alike (host (.list vs)) (sequence (vs.map host))
  | hostStruct (fs : List (String × HostValue)) : Alike (host (.struct fs)) (fields (fs.map fun f => (f.1, host f.2)))
  | hostMap (es : List (HostValue × HostValue)) :
    Alike (host (.map es)) (entries (es.map fun e => (host e.1, host e.2)))
  | item {s t : Source} (before after : List Source) :
    Alike s t → Alike (sequence (before ++ s :: after)) (sequence (before ++ t :: after))
  | field {s t : Source} (before after : List (String × Source)) (name : String) :
    Alike s t → Alike (fields (before ++ (name, s) :: after)) (fields (before ++ (name, t) :: after))
  | key {s t : Source} (before after : List (Source × Source)) (value : Source) :
    Alike s t → Alike (entries (before ++ (s, value) :: after)) (entries (before ++ (t, value) :: after))
  | value {s t : Source} (before after : List (Source × Source)) (key : Source) :
    Alike s t → Alike (entries (before ++ (key, s) :: after)) (entries (before ++ (key, t) :: after))
  | rearranged {fs gs : List (String × Source)} : Fields.Rearranged fs gs → Alike (fields fs) (fields gs)

/-- Fields that are alike in turn. -/
theorem Alike.fields_of_forall₂ {fs gs : List (String × Source)}
    (h : List.Forall₂ (fun f g => f.1 = g.1 ∧ f.2.Alike g.2) fs gs) (before : List (String × Source)) :
    Alike (fields (before ++ fs)) (fields (before ++ gs)) := by
  induction h generalizing before with
  | nil => exact .refl _
  | @cons f g fs gs hfg _ ih =>
    obtain ⟨name, s⟩ := f
    obtain ⟨_, t⟩ := g
    obtain ⟨rfl, hst⟩ := hfg
    have hrest := ih (before ++ [(name, t)])
    rw [List.append_assoc, List.append_assoc] at hrest
    exact (Alike.field before fs name hst).trans hrest

/-- **Structs are alike if their fields are, name by name.** -/
theorem Alike.fields_of_paired {fs gs : List (String × Source)} (h : Fields.Paired Alike fs gs) :
    Alike (fields fs) (fields gs) :=
  (Alike.rearranged (Fields.rearranged_sorted fs)).trans
    ((Alike.fields_of_forall₂ h.forall₂_sorted []).trans (Alike.rearranged (Fields.rearranged_sorted gs)).symm)

section Encoding

variable {σ : Type} [Engine σ]

theorem encodeItems_eq_map (c : Config) (ss : List Source) :
    (encodeItems c ss : List (Encoder σ)) = ss.map fun s => s.encode c := by
  induction ss with
  | nil => rfl
  | cons s ss ih => exact congrArg (List.cons _) ih

theorem encodeFields_eq_map (c : Config) (fs : List (String × Source)) :
    (encodeFields c fs : List (String × Encoder σ)) = fs.map fun f => (f.1, f.2.encode c) := by
  induction fs with
  | nil => rfl
  | cons f fs ih => exact congrArg (List.cons _) ih

theorem encodeEntries_eq_map (c : Config) (es : List (Source × Source)) :
    (encodeEntries c es : List (Encoder σ × Encoder σ)) = es.map fun e => (e.1.encode c, e.2.encode c) := by
  induction es with
  | nil => rfl
  | cons e es ih => exact congrArg (List.cons _) ih

theorem encodeItems_host (c : Config) (vs : List HostValue) :
    (encodeItems c (vs.map host) : List (Encoder σ)) = HostValue.encodeItems c vs := by
  induction vs with
  | nil => rfl
  | cons v vs ih => rw [List.map_cons, encodeItems, HostValue.encodeItems, ih, encode]

theorem encodeEntries_host (c : Config) (es : List (HostValue × HostValue)) :
    (encodeEntries c (es.map fun e => (host e.1, host e.2)) : List (Encoder σ × Encoder σ)) =
      HostValue.encodeEntries c es := by
  induction es with
  | nil => rfl
  | cons e es ih => rw [List.map_cons, encodeEntries, HostValue.encodeEntries, ih, encode, encode]

/-- **Alike sources are encoded alike.** -/
theorem Alike.encode_eq (c : Config) {s t : Source} (h : Alike s t) : (s.encode c : Encoder σ) = t.encode c := by
  induction h with
  | refl => rfl
  | symm _ ih => exact ih.symm
  | trans _ _ ih ih' => exact ih.trans ih'
  | present | shared => rw [encode]
  | hostNull | hostScalar => rw [encode, encode, HostValue.encode]
  | hostList vs => rw [encode, encode, HostValue.encode, encodeItems_host]
  | hostStruct fs =>
    rw [encode, encode, HostValue.encode, encodeFields_eq_map, HostValue.encodeFields_eq_map, List.map_map]
    simp only [Function.comp_def, encode]
  | hostMap es => rw [encode, encode, HostValue.encode, encodeEntries_host]
  | item before after _ ih =>
    rw [encode, encode, encodeItems_eq_map, encodeItems_eq_map, List.map_append, List.map_append, List.map_cons,
      List.map_cons, ih]
  | field before after name _ ih =>
    rw [encode, encode, encodeFields_eq_map, encodeFields_eq_map, List.map_append, List.map_append, List.map_cons,
      List.map_cons, ih]
  | key before after value _ ih | value before after key _ ih =>
    rw [encode, encode, encodeEntries_eq_map, encodeEntries_eq_map, List.map_append, List.map_append, List.map_cons,
      List.map_cons, ih]
  | rearranged hrearranged =>
    rw [encode, encode, encodeFields_eq_map, encodeFields_eq_map,
      Encoder.struct_rearranged (hrearranged.map fun s => (s.encode c : Encoder σ))]

end Encoding

/-! ## What sources are encoded as -/

/-- Some engine encodes the source as the value, within the levels that are left. -/
def EncodedAs (c : Config) (left : Nat) (s : Source) (v : Stored) : Prop :=
  ∃ (m m' : Memory) (h : Handle), m.Reachable ∧ s.encode c left m = .ok h m' ∧ m'.find? h = .ok v

theorem encodedAs_iff : s.EncodedAs c left v ↔ (s.draft c).value left = .ok v := by
  constructor
  · rintro ⟨m, m', h, hm, hencode, hfind⟩
    have hbuilds := s.encodes_encode (σ := Memory) c left m hm.issued
    rw [hencode] at hbuilds
    obtain ⟨w, hw, hmoves⟩ := hbuilds
    have hbehind : m'.find? h = .ok w := hmoves.adds.find?_of_mem List.mem_cons_self
    rw [hfind] at hbehind
    cases hbehind
    exact hw
  · intro hv
    have hempty : Memory.Reachable { limit := (s.draft c).parts + 1 } := .empty _
    have hbuilds := s.encodes_encode (σ := Memory) c left _ hempty.issued
    cases hencode : s.encode c left ({ limit := (s.draft c).parts + 1 } : Memory) with
    | ok h m' =>
      rw [hencode] at hbuilds
      obtain ⟨w, hw, hmoves⟩ := hbuilds
      cases hv.symm.trans hw
      exact ⟨_, m', h, hempty, hencode, hmoves.adds.find?_of_mem List.mem_cons_self⟩
    | error e m' =>
      rw [hencode] at hbuilds
      have hroomy : Tabled.Roomy ({ limit := (s.draft c).parts + 1 } : Memory) ((s.draft c).parts + 1) :=
        ⟨trivial, Nat.le_of_eq (Nat.zero_add _)⟩
      cases hv.symm.trans (hbuilds.error hroomy)

/-- **A struct holds its fields in the order of their names**, each with what its value is encoded as. -/
theorem of_encodedAs_fields {fs : List (String × Source)} (h : (fields fs).EncodedAs c left v) :
    ∃ inner stored, left = inner + 1 ∧ v = .struct (.struct (stored.map fun f => (f.1, f.2.type))) stored ∧
      List.Forall₂ (fun g f => g.1 = f.1 ∧ f.2.EncodedAs c inner g.2) stored (Fields.sorted fs) := by
  have hv : (Draft.struct c (draftFields c fs)).value left = .ok v := encodedAs_iff.1 h
  have hparts : List.Forall₂ (fun d f => d.1 = f.1 ∧ d.2.Meets (fun left v s => EncodedAs c left s v) f.2)
      (draftFields c fs) fs := by
    rw [draftFields_eq_map, List.forall₂_map_left_iff, List.forall₂_same]
    exact fun f _ => ⟨rfl, fun left v hv => encodedAs_iff.2 hv⟩
  obtain ⟨inner, ts, stored, hinner, rfl, hstored⟩ := Draft.of_struct hparts hv
  exact ⟨inner, stored, hinner, by rw [Draft.type_of_struct hv], hstored⟩

/-! ## Structs -/

/-- The source is a struct with the fields: it lists them, it is a mapping that was given them and lists its bindings in
any order, or it is a host value. -/
inductive StructOf : Source → List (String × Source) → Prop
  | fields (fs : List (String × Source)) : StructOf (fields fs) fs
  | mapping {bindings fs : List (String × Source)} : fs.Perm (Fields.latest bindings) →
    StructOf (Source.fields fs) (Fields.latest bindings)
  | host (fs : List (String × HostValue)) : StructOf (host (.struct fs)) (fs.map fun f => (f.1, Source.host f.2))

theorem StructOf.alike {fs : List (String × Source)} (h : StructOf s fs) : Alike s (Source.fields fs) := by
  cases h with
  | fields => exact .refl _
  | mapping hperm =>
    exact .rearranged (.of_perm hperm ((hperm.map Prod.fst).nodup_iff.2 (Fields.nodup_latest _)))
  | host fs => exact .hostStruct fs

theorem EncodedAs.of_alike (hst : Alike s t) (h : s.EncodedAs c left v) : t.EncodedAs c left v := by
  obtain ⟨m, m', k, hm, hencode, hfind⟩ := h
  exact ⟨m, m', k, hm, hst.encode_eq (σ := Memory) c ▸ hencode, hfind⟩

/-- The types that the two sources are encoded with join. -/
def Unify (c : Config) (left : Nat) (s t : Source) : Prop :=
  ∀ v w, s.EncodedAs c left v → t.EncodedAs c left w → v.type.Joins w.type

/-- Structs with the same names have types that join if those of their fields do, name by name. -/
theorem joins_of_paired {fs gs : List (String × Source)} {w : Stored} (h : Fields.Paired (Unify c inner) fs gs)
    (hv : (fields fs).EncodedAs c (inner + 1) v) (hw : (fields gs).EncodedAs c (inner + 1) w) : v.type.Joins w.type := by
  obtain ⟨_, stored, hinner, rfl, hstored⟩ := of_encodedAs_fields hv
  obtain ⟨_, stored', hinner', rfl, hstored'⟩ := of_encodedAs_fields hw
  cases hinner
  cases hinner'
  -- From the first struct's values over its fields and those of the other to the other's values.
  have hfields : List.Forall₂ (fun g f => g.1 = f.1 ∧ ∀ w, f.2.EncodedAs c inner w → g.2.type.Joins w.type)
      stored (Fields.sorted gs) :=
    forall₂_through hstored.flip h.forall₂_sorted fun f g f' hf hfg => ⟨hf.1.trans hfg.1, fun w => hfg.2 g.2 w hf.2⟩
  have hvalues : List.Forall₂ (fun f g => f.1 = g.1 ∧ f.2.type.Joins g.2.type) stored stored' :=
    forall₂_through hfields.flip hstored'.flip fun f g g' hg hg' => ⟨hg.1.trans hg'.1.symm, hg.2 g'.2 hg'.2⟩
  exact LogicalType.joins_struct.2 (.of_forall₂ (List.forall₂_map_left_iff.2 (List.forall₂_map_right_iff.2 hvalues)))

theorem createList_of_joins {m : Memory} {hs : List Handle} {vs : List Stored} (hne : vs ≠ [])
    (hbehind : List.Forall₂ (fun h v => m.find? h = .ok v) hs vs)
    (hjoins : vs.Pairwise fun v w => v.type.Joins w.type) (hroom : m.live < m.limit) :
    ∃ h m', Memory.call (.createList hs) m = .ok h m' := by
  obtain ⟨es, rfl, rfl, hes⟩ := exists_pairs hbehind
  have htypes : (es.map Prod.snd).map Stored.type ≠ [] := mt List.map_eq_nil_iff.1 hne
  obtain ⟨t, ht⟩ := LogicalType.exists_joinAll?_of_pairwise htypes (List.pairwise_map.2 hjoins)
  have hlist : Stored.listOf? (es.map Prod.snd) = .ok (.list (.list t) (es.map Prod.snd)) := by
    rw [Stored.listOf?, Stored.elementType, if_neg (mt List.isEmpty_iff.1 hne), ht]
    rfl
  have hfound : (m.collect (es.map Prod.fst)).bind Stored.listOf? = .ok (.list (.list t) (es.map Prod.snd)) := by
    rw [collect_eq hes, ← hlist]
    rfl
  obtain ⟨h, m', hinsert⟩ := insert_of_room (w := .list (.list t) (es.map Prod.snd)) hroom
  have hcall : Memory.insertFrom (fun m => (m.collect (es.map Prod.fst)).bind Stored.listOf?) m = .ok h m' :=
    Memory.insertFrom_ok.2 ⟨_, hfound, hinsert⟩
  exact ⟨h, m', hcall⟩

/-- **Structs are encoded canonically.**  Structs whose fields are alike name by name are encoded alike, on every engine,
at every level and in every state.  What they are encoded as has its fields in the order of the bytes of their names, each
with what a value of its name is encoded as.  Hence structs with the same names, of which those of one name are encoded
with types that join, pair by pair, can be put in one list. -/
theorem structs_canonical (c : Config) (inner : Nat) :
    (∀ (s t : Source) (fs gs : List (String × Source)), StructOf s fs → StructOf t gs → Fields.Paired Alike fs gs →
      ∀ {σ : Type} [Engine σ] (left : Nat) (m : σ), s.encode c left m = t.encode c left m) ∧
    (∀ (s : Source) (fs : List (String × Source)) (left : Nat) (v : Stored), StructOf s fs → s.EncodedAs c left v →
      ∃ inner stored, left = inner + 1 ∧ v = .struct (.struct (stored.map fun f => (f.1, f.2.type))) stored ∧
        (stored.Pairwise fun f g => utf8Bytes f.1 ≤ utf8Bytes g.1) ∧ Fields.Paired (EncodedAs c inner) fs stored) ∧
    ∀ (structs : List (Source × List (String × Source))) (vs : List Stored) (hs : List Handle) (m : Memory),
      structs ≠ [] → (∀ s ∈ structs, StructOf s.1 s.2) →
      (structs.Pairwise fun s t => Fields.Paired (Unify c inner) s.2 t.2) →
      List.Forall₂ (fun s v => s.1.EncodedAs c (inner + 1) v) structs vs →
      List.Forall₂ (fun h v => m.find? h = .ok v) hs vs → m.live < m.limit →
      ∃ h m', Memory.call (.createList hs) m = .ok h m' := by
  refine ⟨fun s t fs gs hs ht hpaired σ _ left m => ?_, fun s fs left v hs hv => ?_,
    fun structs vs hs m hne hstructs hunify hvs hbehind hroom => ?_⟩
  · have halike : Alike s t := hs.alike.trans ((Alike.fields_of_paired hpaired).trans ht.alike.symm)
    rw [halike.encode_eq c]
  · obtain ⟨inner, stored, hinner, hv, hstored⟩ := of_encodedAs_fields (hv.of_alike hs.alike)
    refine ⟨inner, stored, hinner, hv, ?_, ?_⟩
    · have hnames : stored.map Prod.fst = (Fields.sorted fs).map Prod.fst :=
        map_eq_map_of_forall₂ (hstored.imp fun _ _ hf => hf.1)
      have hsorted := List.pairwise_map.2 (Fields.sorted_pairwise fs)
      rw [← hnames] at hsorted
      exact (List.pairwise_map.1 hsorted).imp fun hle => le_iff_bytes_le.1 hle
    · have hpaired := Fields.paired_of_forall₂ (hstored.flip.imp fun f g hf => ⟨hf.1.symm, hf.2⟩)
      exact hpaired.of_rearranged (Fields.rearranged_sorted fs)
  · obtain ⟨ps, rfl, rfl, hps⟩ := exists_pairs hvs
    have hjoins : (ps.map Prod.snd).Pairwise fun v w => v.type.Joins w.type := by
      rw [List.pairwise_map] at hunify ⊢
      refine hunify.imp_of_mem fun {p q} hp hq hpq => joins_of_paired hpq ?_ ?_
      · exact (hps p hp).of_alike (hstructs p.1 (List.mem_map_of_mem hp)).alike
      · exact (hps q hq).of_alike (hstructs q.1 (List.mem_map_of_mem hq)).alike
    refine createList_of_joins ?_ hbehind hjoins hroom
    rw [Ne, List.map_eq_nil_iff] at hne ⊢
    exact hne

/-- A struct of a null under `b` and a flag under `a`. -/
def flagAtA : List (String × HostValue) := [("b", .null), ("a", .scalar (.bool true))]

/-- A struct of nothing under `a` and a flag under `b`. -/
def flagAtB : List (String × Source) := [("a", absent), ("b", scalar (.bool false))]

/-- An engine with what the two are encoded as. -/
def withFlags : Memory where
  entries := [(⟨1⟩, .struct (.struct [("a", .plain .bool), ("b", .any)]) [("a", .payload (.bool true)), ("b", .null .any)]),
    (⟨2⟩, .struct (.struct [("a", .any), ("b", .plain .bool)]) [("a", .null .any), ("b", .payload (.bool false))])]
  next := 3

theorem encodedAs_pair {w : Stored} (hs : s.EncodedAs {} 0 v) (ht : t.EncodedAs {} 0 w) :
    (fields [("a", s), ("b", t)]).EncodedAs {} 1
      (.struct (.struct [("a", v.type), ("b", w.type)]) [("a", v), ("b", w)]) := by
  rw [encodedAs_iff] at hs ht ⊢
  have hlt : "a" < "b" := by decide
  have hascending : Fields.Ascending [("a", s.draft {}), ("b", t.draft {})] := List.pairwise_pair.2 hlt
  unfold draft draftFields draftFields draftFields Draft.struct
  dsimp only
  rw [Fields.sorted_of_ascending hascending]
  simp only [Draft.enter, Config.descend, List.isEmpty_cons, Bool.false_eq_true, if_false, Except.bind, List.map_cons,
    List.map_nil, hs, ht]
  rfl

/-- A null joins with a flag, so the two structs go into one list although their fields are given in different orders. -/
theorem structs_canonical_flags : ∃ h m', Memory.call (.createList [⟨1⟩, ⟨2⟩]) withFlags = .ok h m' := by
  have hflag : ∀ b, (scalar (.bool b)).EncodedAs {} 0 (.payload (.bool b)) := fun b => encodedAs_iff.2 rfl
  have hflag' : ∀ b, (host (.scalar (.bool b))).EncodedAs {} 0 (.payload (.bool b)) := fun b => encodedAs_iff.2 rfl
  have hnull : absent.EncodedAs {} 0 (.null .any) := encodedAs_iff.2 rfl
  have hnull' : (host .null).EncodedAs {} 0 (.null .any) := encodedAs_iff.2 rfl
  have hswap : Fields.Rearranged (flagAtA.map fun f => (f.1, host f.2))
      [("a", host (.scalar (.bool true))), ("b", host .null)] := .of_perm (.swap _ _ _) (by simp [flagAtA])
  have hA := StructOf.host flagAtA
  have hvA := (encodedAs_pair (hflag' true) hnull').of_alike (hA.alike.trans (.rearranged hswap)).symm
  have hvB : (fields flagAtB).EncodedAs {} 1 _ := encodedAs_pair hnull (hflag false)
  have hunify : Fields.Paired (Unify {} 0) [("a", host (.scalar (.bool true))), ("b", host .null)] flagAtB := by
    refine Fields.paired_of_forall₂ (.cons ⟨rfl, ?_⟩ (.cons ⟨rfl, ?_⟩ .nil))
    · intro v w hv hw
      cases encodedAs_iff.1 hv
      cases encodedAs_iff.1 hw
      exact ⟨_, rfl⟩
    · intro v w hv hw
      cases encodedAs_iff.1 hv
      cases encodedAs_iff.1 hw
      exact ⟨_, rfl⟩
  exact (structs_canonical {} 0).2.2 [(host (.struct flagAtA), _), (fields flagAtB, _)] _ _ withFlags (by simp)
    (List.forall_mem_cons.2 ⟨hA, List.forall_mem_singleton.2 (.fields flagAtB)⟩)
    (List.pairwise_pair.2 (hunify.of_rearranged hswap)) (.cons hvA (.cons hvB .nil)) (.cons rfl (.cons rfl .nil)) (by decide)

end ValueBridge.Source
