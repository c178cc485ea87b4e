import ValueBridge.Proofs.Convert.Acceptance
import ValueBridge.Proofs.Convert.Collected
import ValueBridge.Proofs.Convert.JsonRoundTrip
/-!
# Parts without a common type

A draft `Clashes` if it reaches a list, or a side of a map, whose parts all come to values and, with their decimals
restated, have no common type; the parts before the one that is reached come to values too.  Drafts that are made as
encoders make theirs are refused for heterogeneous types exactly if they clash (`Made.heterogeneous_iff`).
-/
namespace ValueBridge

namespace Draft

variable {c : Config} {inner left : Nat} {d : Draft} {ds : List Draft} {e : ConvertError}

/-! ## Parts that are reached -/

/-- The drafts come to the values. -/
def Become (inner : Nat) : List Draft → List Stored → Prop := List.Forall₂ fun d v => d.value inner = .ok v

/-- The draft is one of several, and those before it come to values. -/
def ReachedIn (inner : Nat) (ds : List Draft) (d : Draft) : Prop :=
  ∃ before after, ds = before ++ d :: after ∧ ∀ b ∈ before, ∃ v, b.value inner = .ok v

theorem ReachedIn.head : ReachedIn inner (d :: ds) d := ⟨[], ds, rfl, fun b hb => by cases hb⟩

theorem ReachedIn.cons {b : Draft} {v : Stored} (hb : b.value inner = .ok v) (h : ReachedIn inner ds d) :
    ReachedIn inner (b :: ds) d := by
  obtain ⟨before, after, rfl, hbefore⟩ := h
  exact ⟨b :: before, after, rfl, List.forall_mem_cons.2 ⟨⟨v, hb⟩, hbefore⟩⟩

theorem reachedIn_cons {b : Draft} (h : ReachedIn inner (b :: ds) d) :
    d = b ∨ (∃ v, b.value inner = .ok v) ∧ ReachedIn inner ds d := by
  obtain ⟨before, after, heq, hbefore⟩ := h
  cases before with
  | nil =>
    cases heq
    exact .inl rfl
  | cons b' before =>
    cases heq
    obtain ⟨hb, hbefore⟩ := List.forall_mem_cons.1 hbefore
    exact .inr ⟨hb, before, after, rfl, hbefore⟩

theorem ReachedIn.mem (h : ReachedIn inner ds d) : d ∈ ds := by
  obtain ⟨before, after, rfl, -⟩ := h
  exact List.mem_append_right _ List.mem_cons_self

/-- The results are those of the drafts, each located at some step. -/
def Located (inner : Nat) : List Draft → List (Except ConvertError Stored) → Prop :=
  List.Forall₂ fun d r => ∃ place, r = within place (d.value inner)

theorem within_eq_error {place : Place} {r : Except ConvertError Stored} (h : within place r = .error e) :
    ∃ e', r = .error e' ∧ e.cause = e'.cause := by
  obtain ⟨e', he', rfl⟩ := mapError_eq_error.1 h
  exact ⟨e', he', ConvertError.cause_within place e'⟩

namespace Located

variable {rs : List (Except ConvertError Stored)}

theorem all_eq_ok_iff (h : Located inner ds rs) {vs : List Stored} : all rs = .ok vs ↔ Become inner ds vs := by
  constructor
  · intro hall
    have hswap : List.Forall₂ (fun r d => ∃ place, r = within place (d.value inner)) rs ds := h.flip
    refine forall₂_through hswap (forall₂_all hall) fun r d v hr hv => ?_
    obtain ⟨place, rfl⟩ := hr
    exact within_eq_ok.1 hv
  · intro hvs
    induction hvs generalizing rs with
    | nil =>
      cases h
      rfl
    | cons hv _ ih =>
      cases h with
      | cons hr hrs =>
        obtain ⟨place, rfl⟩ := hr
        rw [all, hv, ih hrs]
        rfl

/-- An error of the parts is that of a part that was reached. -/
theorem of_all_eq_error (h : Located inner ds rs) (he : all rs = .error e) :
    ∃ d e', ReachedIn inner ds d ∧ d.value inner = .error e' ∧ e.cause = e'.cause := by
  induction h with
  | nil => cases he
  | cons hr _ ih =>
    obtain ⟨place, rfl⟩ := hr
    rcases bind_eq_error.1 he with he | ⟨v, hv, he⟩
    · obtain ⟨e', he', hcause⟩ := within_eq_error he
      exact ⟨_, e', .head, he', hcause⟩
    · obtain ⟨d, e', hreached, he', hcause⟩ := ih (map_eq_error.1 he)
      exact ⟨d, e', hreached.cons (within_eq_ok.1 hv), he', hcause⟩

/-- If a part that is reached ends with an error, so do the parts. -/
theorem exists_all_eq_error (h : Located inner ds rs) {e' : ConvertError} (hd : ReachedIn inner ds d)
    (he : d.value inner = .error e') : ∃ e, all rs = .error e ∧ e.cause = e'.cause := by
  induction h with
  | nil =>
    have hmem := hd.mem
    cases hmem
  | cons hr _ ih =>
    obtain ⟨place, rfl⟩ := hr
    rcases reachedIn_cons hd with rfl | ⟨⟨v, hv⟩, hd⟩
    · exact ⟨e'.within place, by rw [all, he]; rfl, ConvertError.cause_within place e'⟩
    · obtain ⟨e, he, hcause⟩ := ih hd
      exact ⟨e, by rw [all, hv, he]; rfl, hcause⟩

end Located

/-! ## Parts of collections -/

theorem located_items (inner : Nat) (ds : List Draft) :
    Located inner ds (ds.mapIdx fun i d => within (.element i) (d.value inner)) := by
  have hsame : List.Forall₂ (fun d d' => d = d') ds ds := List.forall₂_same.2 fun _ _ => rfl
  have hlocated := forall₂_mapIdx (f := fun _ d => d) (g := fun i (d : Draft) => within (.element i) (d.value inner))
    (S := fun d r => ∃ place, r = within place (d.value inner)) hsame fun i d d' hd => ⟨.element i, by rw [hd]⟩
  rwa [mapIdx_const, List.map_id'] at hlocated

theorem located_fields (inner : Nat) (fields : List (String × Draft)) :
    Located inner (fields.map Prod.snd) (fields.map fun f => within (.field f.1) (f.2.value inner)) := by
  rw [Located, List.forall₂_map_left_iff, List.forall₂_map_right_iff, List.forall₂_same]
  exact fun f _ => ⟨.field f.1, rfl⟩

/-- Keys and values in the order in which they are built. -/
def interleaved {α : Type} (entries : List (α × α)) : List α := entries.flatMap fun e => [e.1, e.2]

theorem mem_interleaved {α : Type} {entries : List (α × α)} {a : α} (h : a ∈ interleaved entries) :
    ∃ e ∈ entries, a = e.1 ∨ a = e.2 := by
  obtain ⟨e, he, ha⟩ := List.mem_flatMap.1 h
  exact ⟨e, he, List.mem_pair.1 ha⟩

/-- The results are those of the drafts of keys and values, each located at some step. -/
def LocatedPairs (inner : Nat) : List (Draft × Draft) → List (Except ConvertError Stored × Except ConvertError Stored) →
    Prop :=
  List.Forall₂ fun e r => (∃ place, r.1 = within place (e.1.value inner)) ∧ ∃ place, r.2 = within place (e.2.value inner)

theorem locatedPairs_entries (inner : Nat) (entries : List (Draft × Draft)) :
    LocatedPairs inner entries (entries.mapIdx fun i e =>
      (within (.mapEntry i) (e.1.value inner), within (.mapEntry i) (e.2.value inner))) := by
  have hsame : List.Forall₂ (fun e e' => e = e') entries entries := List.forall₂_same.2 fun _ _ => rfl
  have hlocated := forall₂_mapIdx (f := fun _ e => e) (g := fun i (e : Draft × Draft) =>
      (within (.mapEntry i) (e.1.value inner), within (.mapEntry i) (e.2.value inner)))
    (S := fun e r => (∃ place, r.1 = within place (e.1.value inner)) ∧ ∃ place, r.2 = within place (e.2.value inner))
    hsame fun i e e' he => ⟨⟨.mapEntry i, by rw [he]⟩, .mapEntry i, by rw [he]⟩
  rwa [mapIdx_const, List.map_id'] at hlocated

theorem LocatedPairs.interleaved {entries : List (Draft × Draft)}
    {rs : List (Except ConvertError Stored × Except ConvertError Stored)} (h : LocatedPairs inner entries rs) :
    Located inner (Draft.interleaved entries) (Draft.interleaved rs) :=
  List.rel_flatMap h fun _ _ hr => .cons hr.1 (.cons hr.2 .nil)

theorem LocatedPairs.allPairs_eq_ok {entries : List (Draft × Draft)}
    {rs : List (Except ConvertError Stored × Except ConvertError Stored)} {ks vs : List Stored}
    (h : LocatedPairs inner entries rs) (hks : Become inner (entries.map Prod.fst) ks)
    (hvs : Become inner (entries.map Prod.snd) vs) : allPairs rs = .ok (ks, vs) := by
  induction h generalizing ks vs with
  | nil =>
    cases hks
    cases hvs
    rfl
  | @cons e r _ _ hr _ ih =>
    obtain ⟨r, r'⟩ := r
    obtain ⟨⟨place, rfl⟩, place', rfl⟩ := hr
    cases hks with
    | cons hk hks =>
      cases hvs with
      | cons hv hvs =>
        rw [allPairs, hk, hv, ih hks hvs]
        rfl

theorem LocatedPairs.become {entries : List (Draft × Draft)}
    {rs : List (Except ConvertError Stored × Except ConvertError Stored)} {p : List Stored × List Stored}
    (h : LocatedPairs inner entries rs) (hp : allPairs rs = .ok p) :
    Become inner (entries.map Prod.fst) p.1 ∧ Become inner (entries.map Prod.snd) p.2 := by
  obtain ⟨hks, hvs⟩ := forall₂_allPairs hp
  refine ⟨List.forall₂_map_left_iff.2 (forall₂_through h.flip hks fun r e v hr hv => ?_),
    List.forall₂_map_left_iff.2 (forall₂_through h.flip hvs fun r e v hr hv => ?_)⟩
  · obtain ⟨⟨place, hplace⟩, -⟩ := hr
    rw [hplace] at hv
    exact within_eq_ok.1 hv
  · obtain ⟨-, place, hplace⟩ := hr
    rw [hplace] at hv
    exact within_eq_ok.1 hv

/-- Of several errors the same one is met, whether pairs or their parts are gone through. -/
theorem allPairs_eq_error_iff : ∀ {rs : List (Except ConvertError Stored × Except ConvertError Stored)},
    allPairs rs = .error e ↔ all (interleaved rs) = .error e
  | [] => by simp [allPairs, interleaved, all]
  | (r, r') :: rs => by
    have hflat : interleaved ((r, r') :: rs) = r :: r' :: interleaved rs := rfl
    rw [allPairs, hflat, all, all]
    cases r with
    | error e' => simp only [Except.bind, Except.error.injEq]
    | ok v =>
      cases r' with
      | error e' => simp only [Except.bind, Except.map, Except.error.injEq]
      | ok w =>
        change (allPairs rs).map _ = _ ↔ ((all (interleaved rs)).map _).map _ = _
        rw [map_eq_error, map_eq_error, map_eq_error, allPairs_eq_error_iff]

/-! ## Errors that are no clashes -/

theorem kind_of_answer_engine {α : Type} {r : Except Failure α} (h : answer .engine r = .error e) :
    e.kind = .conversionFailed := by
  obtain ⟨why, -, rfl⟩ := mapError_eq_error.1 h
  rfl

theorem kind_of_restatedPayload {p : Payload} (h : restatedPayload p = .error e) : e.kind = .conversionFailed := by
  cases p with
  | int128 n =>
    rcases bind_eq_error.1 h with h | ⟨q, -, h⟩
    · exact ((Decimal.outcome_toDecimalPayload (.ofInt n.val)).of_error h).2
    · exact kind_of_answer_engine h
  | _ =>
    cases h
    rfl

theorem kind_of_restateAll : ∀ {vs : List Stored}, restateAll vs = .error e → e.kind = .conversionFailed
  | [], h => by cases h
  | v :: vs, h => by
    rw [restateAll] at h
    split at h
    · rcases bind_eq_error.1 h with h | ⟨w, -, h⟩
      · rcases bind_eq_error.1 h with h | ⟨p, -, h⟩
        · exact kind_of_answer_engine h
        · exact kind_of_restatedPayload h
      · exact kind_of_restateAll (map_eq_error.1 h)
    · exact kind_of_restateAll (map_eq_error.1 h)

theorem kind_of_aligned {vs : List Stored} (h : aligned vs = .error e) : e.kind = .conversionFailed := by
  unfold aligned at h
  dsimp only at h
  split at h
  · exact kind_of_restateAll h
  · cases h

theorem kind_of_enter {kind : CollectionKind} {isEmpty : Bool} (h : enter c kind isEmpty left = .error e) :
    e.kind ≠ .heterogeneousType := by
  unfold enter at h
  split at h
  · cases h
    exact nofun
  · cases left with
    | zero =>
      cases h
      exact nofun
    | succ inner => cases h

theorem isEmpty_of_enter {kind : CollectionKind} {isEmpty : Bool} (h : enter c kind isEmpty left = .ok inner) :
    isEmpty = false := by
  unfold enter at h
  split at h
  · cases h
  · rename_i hempty
    exact Bool.eq_false_iff.2 hempty

/-! ## Drafts as encoders make them -/

/-- A draft that is made as the encoders make theirs, with no error of its own about heterogeneous types. -/
inductive Made (c : Config) : Draft → Prop
  | null : Made c null
  | ofPayload (p : Payload) : Made c (ofPayload p)
  | ofError {e : ConvertError} : e.kind ≠ .heterogeneousType → Made c (ofError e)
  | list {ds : List Draft} : (∀ d ∈ ds, Made c d) → Made c (list c ds)
  | struct {fields : List (String × Draft)} : (∀ f ∈ fields, Made c f.2) → Made c (struct c fields)
  | map {entries : List (Draft × Draft)} : (∀ e ∈ entries, Made c e.1) → (∀ e ∈ entries, Made c e.2) →
    Made c (map c entries)

/-- The types of the values have no common type. -/
abbrev Divided (vs : List Stored) : Prop := LogicalType.joinAll? (vs.map Stored.type) = none

/-- Within the levels that are left, the draft reaches a list or a map that has parts, all of which come to values, and
the values of the list, or the keys or the values of the map, are divided after their decimals were restated. -/
inductive Clashes (c : Config) : Draft → Nat → Prop
  | elements {ds : List Draft} {left inner : Nat} {vs ws : List Stored} :
    enter c .list ds.isEmpty left = .ok inner → Become inner ds vs → aligned vs = .ok ws → Divided ws →
    Clashes c (list c ds) left
  | sides {entries : List (Draft × Draft)} {left inner : Nat} {ks vs ks' vs' : List Stored} :
    enter c .map entries.isEmpty left = .ok inner → Become inner (entries.map Prod.fst) ks →
    Become inner (entries.map Prod.snd) vs → aligned ks = .ok ks' → aligned vs = .ok vs' →
    Divided ks' ∨ Divided vs' → Clashes c (map c entries) left
  | element {ds : List Draft} {d : Draft} {left inner : Nat} : enter c .list ds.isEmpty left = .ok inner →
    ReachedIn inner ds d → Clashes c d inner → Clashes c (list c ds) left
  | field {fields : List (String × Draft)} {d : Draft} {left inner : Nat} :
    enter c .struct fields.isEmpty left = .ok inner → ReachedIn inner ((Fields.sorted fields).map Prod.snd) d →
    Clashes c d inner → Clashes c (struct c fields) left
  | entry {entries : List (Draft × Draft)} {d : Draft} {left inner : Nat} :
    enter c .map entries.isEmpty left = .ok inner → ReachedIn inner (interleaved entries) d → Clashes c d inner →
    Clashes c (map c entries) left

theorem Become.length_aligned {vs ws : List Stored} (hvs : Become inner ds vs) (hws : aligned vs = .ok ws) :
    ws.length = ds.length := by rw [Draft.length_aligned hws, hvs.length_eq]

theorem Become.ne_nil {vs ws : List Stored} (hvs : Become inner ds vs) (hws : aligned vs = .ok ws)
    (hds : ds.isEmpty = false) : ws ≠ [] := by
  rw [List.isEmpty_eq_false_iff, ← List.length_pos_iff] at hds
  rwa [← List.length_pos_iff, hvs.length_aligned hws]

theorem outcome_mapOf?_of_become {entries : List (Draft × Draft)} {ks vs ks' vs' : List Stored}
    (hentries : entries.isEmpty = false) (hks : Become inner (entries.map Prod.fst) ks)
    (hvs : Become inner (entries.map Prod.snd) vs) (hks' : aligned ks = .ok ks') (hvs' : aligned vs = .ok vs') :
    Outcome (fun v => ∃ k t, LogicalType.joinAll? (ks'.map Stored.type) = some k ∧
        LogicalType.joinAll? (vs'.map Stored.type) = some t ∧ v = .map (.map k t) (ks'.zip vs'))
      (fun e => (Divided ks' ∨ Divided vs') ∧ e.IsMixed) (Stored.mapOf? (ks'.zip vs')) := by
  have hlength : ks'.length = vs'.length := by
    rw [hks.length_aligned hks', hvs.length_aligned hvs', List.length_map, List.length_map]
  exact Stored.outcome_mapOf? hlength (hks.ne_nil hks' (by rwa [List.isEmpty_map]))

/-- **What clashes is refused for heterogeneous types.** -/
theorem Clashes.exists_error (h : Clashes c d left) : ∃ e, d.value left = .error e ∧ e.kind = .heterogeneousType := by
  induction h with
  | @elements ds left inner vs ws henter hvs hws hdivided =>
    have houtcome := Stored.outcome_listOf? (hvs.ne_nil hws (isEmpty_of_enter henter))
    obtain ⟨why, hwhy, -⟩ := houtcome.exists_error fun v ⟨t, ht, _⟩ => nomatch hdivided.symm.trans ht
    have hall := (located_items inner ds).all_eq_ok_iff.2 hvs
    simp only [list, henter, hall, hws, hwhy, Except.bind]
    exact ⟨_, rfl, rfl⟩
  | @sides entries left inner ks vs ks' vs' henter hks hvs hks' hvs' hdivided =>
    have houtcome := outcome_mapOf?_of_become (isEmpty_of_enter henter) hks hvs hks' hvs'
    obtain ⟨why, hwhy, -⟩ := houtcome.exists_error fun v ⟨k, t, hk, ht, _⟩ => by
      rcases hdivided with hdivided | hdivided
      · cases hdivided.symm.trans hk
      · cases hdivided.symm.trans ht
    have hall := (locatedPairs_entries inner entries).allPairs_eq_ok hks hvs
    simp only [map, henter, hall, hks', hvs', hwhy, Except.bind]
    exact ⟨_, rfl, rfl⟩
  | @element ds d left inner henter hreached _ ih =>
    obtain ⟨e', he', hkind⟩ := ih
    obtain ⟨e, he, hcause⟩ := (located_items inner ds).exists_all_eq_error hreached he'
    exact ⟨e, by simp only [list, henter, he, Except.bind], by rw [ConvertError.kind, hcause]; exact hkind⟩
  | @field fields d left inner henter hreached _ ih =>
    obtain ⟨e', he', hkind⟩ := ih
    obtain ⟨e, he, hcause⟩ := (located_fields inner (Fields.sorted fields)).exists_all_eq_error hreached he'
    exact ⟨e, by simp only [struct, henter, he, Except.bind], by rw [ConvertError.kind, hcause]; exact hkind⟩
  | @entry entries d left inner henter hreached _ ih =>
    obtain ⟨e', he', hkind⟩ := ih
    obtain ⟨e, he, hcause⟩ := (locatedPairs_entries inner entries).interleaved.exists_all_eq_error hreached he'
    have hpairs := allPairs_eq_error_iff.2 he
    exact ⟨e, by simp only [map, henter, hpairs, Except.bind], by rw [ConvertError.kind, hcause]; exact hkind⟩

/-- **What is refused for heterogeneous types clashes**, and the error says that parts have no common type. -/
theorem Made.clashes (h : Made c d) : ∀ {left : Nat} {e : ConvertError}, d.value left = .error e →
    e.kind = .heterogeneousType →
    Clashes c d left ∧ ∃ kind why, e.cause = .heterogeneous kind why ∧ why.IsMixed := by
  induction h with
  | null => exact fun he => nomatch he
  | ofPayload p =>
    intro left e he hkind
    cases (kind_of_answer_engine he).symm.trans hkind
  | ofError hne =>
    intro left e he hkind
    cases he
    exact absurd hkind hne
  | @list ds _ ih =>
    intro left e he hkind
    rcases bind_eq_error.1 he with he | ⟨inner, henter, he⟩
    · exact absurd hkind (kind_of_enter he)
    rcases bind_eq_error.1 he with he | ⟨vs, hvs, he⟩
    · obtain ⟨d, e', hreached, he', hcause⟩ := (located_items inner ds).of_all_eq_error he
      rw [ConvertError.kind, hcause] at hkind
      obtain ⟨hclashes, hmixed⟩ := ih d hreached.mem he' hkind
      exact ⟨.element henter hreached hclashes, by rwa [hcause]⟩
    rcases bind_eq_error.1 he with he | ⟨ws, hws, he⟩
    · cases (kind_of_aligned he).symm.trans hkind
    have hbecome := (located_items inner ds).all_eq_ok_iff.1 hvs
    obtain ⟨why, hwhy, rfl⟩ := mapError_eq_error.1 he
    have houtcome := Stored.outcome_listOf? (hbecome.ne_nil hws (isEmpty_of_enter henter))
    obtain ⟨hdivided, hmixed⟩ := houtcome.of_error hwhy
    exact ⟨.elements henter hbecome hws hdivided, .list, why, rfl, hmixed⟩
  | @struct fields _ ih =>
    intro left e he hkind
    rcases bind_eq_error.1 he with he | ⟨inner, henter, he⟩
    · exact absurd hkind (kind_of_enter he)
    rcases bind_eq_error.1 he with he | ⟨vs, hvs, he⟩
    · obtain ⟨d, e', hreached, he', hcause⟩ := (located_fields inner (Fields.sorted fields)).of_all_eq_error he
      obtain ⟨f, hf, rfl⟩ := List.mem_map.1 hreached.mem
      rw [ConvertError.kind, hcause] at hkind
      obtain ⟨hclashes, hmixed⟩ := ih f ((Fields.sorted_perm fields).mem_iff.1 hf) he' hkind
      exact ⟨.field henter hreached hclashes, by rwa [hcause]⟩
    cases (kind_of_answer_engine he).symm.trans hkind
  | @map entries _ _ ihk ihv =>
    intro left e he hkind
    rcases bind_eq_error.1 he with he | ⟨inner, henter, he⟩
    · exact absurd hkind (kind_of_enter he)
    rcases bind_eq_error.1 he with he | ⟨p, hp, he⟩
    · obtain ⟨d, e', hreached, he', hcause⟩ :=
        (locatedPairs_entries inner entries).interleaved.of_all_eq_error (allPairs_eq_error_iff.1 he)
      rw [ConvertError.kind, hcause] at hkind
      have hclash : Clashes c d inner ∧ ∃ kind why, e'.cause = .heterogeneous kind why ∧ why.IsMixed := by
        obtain ⟨entry, hentry, rfl | rfl⟩ := mem_interleaved hreached.mem
        · exact ihk entry hentry he' hkind
        · exact ihv entry hentry he' hkind
      exact ⟨.entry henter hreached hclash.1, by rw [hcause]; exact hclash.2⟩
    rcases bind_eq_error.1 he with he | ⟨ks, hks, he⟩
    · cases (kind_of_aligned he).symm.trans hkind
    rcases bind_eq_error.1 he with he | ⟨vs, hvs, he⟩
    · cases (kind_of_aligned he).symm.trans hkind
    obtain ⟨hkeys, hvalues⟩ := (locatedPairs_entries inner entries).become hp
    obtain ⟨why, hwhy, rfl⟩ := mapError_eq_error.1 he
    have houtcome := outcome_mapOf?_of_become (isEmpty_of_enter henter) hkeys hvalues hks hvs
    obtain ⟨hdivided, hmixed⟩ := houtcome.of_error hwhy
    exact ⟨.sides henter hkeys hvalues hks hvs hdivided, .map, why, rfl, hmixed⟩

theorem Made.ofExcept {r : Except ConvertError Payload} (hr : ∀ e, r = .error e → e.kind ≠ .heterogeneousType) :
    Made c (.ofExcept r) := by
  cases r with
  | ok p => exact .ofPayload p
  | error e => exact .ofError (hr e rfl)

/-- A draft that encoders make is refused for heterogeneous types exactly if it clashes. -/
theorem Made.heterogeneous_iff (h : Made c d) :
    (∃ e, d.value left = .error e ∧ e.kind = .heterogeneousType) ↔ Clashes c d left :=
  ⟨fun ⟨_, he, hkind⟩ => (h.clashes he hkind).1, Clashes.exists_error⟩

end Draft

/-! ## What can be encoded -/

theorem Scalar.kind_of_toPayload {s : Scalar} {e : ConvertError} (h : s.toPayload = .error e) :
    e.kind ≠ .heterogeneousType := by
  intro hkind
  obtain ⟨r, hr, hrkind⟩ := (HostValue.outcome_toPayload s).of_error h
  cases r with
  | commonType => exact hr fun _ hs => nomatch hs
  | _ => cases hrkind.trans hkind

theorem Json.Number.kind_of_toPayload {c : Config} {n : Number} {e : ConvertError} (h : n.toPayload c = .error e) :
    e.kind ≠ .heterogeneousType := by
  by_cases hc : c.strictNumericWidth
  · unfold toPayload at h
    rw [if_pos hc] at h
    cases h
    exact nofun
  · rw [n.toPayload_scalar (Bool.eq_false_iff.2 hc)] at h
    exact Scalar.kind_of_toPayload h

namespace HostValue

mutual
theorem made_draft (c : Config) : ∀ v : HostValue, Draft.Made c (v.draft c)
  | null => .null
  | scalar _ => .ofExcept fun _ => Scalar.kind_of_toPayload
  | list items => .list (made_items c items)
  | struct fields => .struct (made_fields c fields)
  | map entries => .map (fun e he => (made_entries c entries e he).1) fun e he => (made_entries c entries e he).2
  | node _ | rel _ | path _ => .ofError nofun
theorem made_items (c : Config) : ∀ vs : List HostValue, ∀ d ∈ draftItems c vs, Draft.Made c d
  | [] => fun _ hd => nomatch hd
  | v :: vs => List.forall_mem_cons.2 ⟨made_draft c v, made_items c vs⟩
theorem made_fields (c : Config) : ∀ fs : List (String × HostValue), ∀ f ∈ draftFields c fs, Draft.Made c f.2
  | [] => fun _ hf => nomatch hf
  | (_, v) :: fs => List.forall_mem_cons.2 ⟨made_draft c v, made_fields c fs⟩
theorem made_entries (c : Config) : ∀ es : List (HostValue × HostValue),
    ∀ e ∈ draftEntries c es, Draft.Made c e.1 ∧ Draft.Made c e.2
  | [] => fun _ he => nomatch he
  | (k, v) :: es => List.forall_mem_cons.2 ⟨⟨made_draft c k, made_draft c v⟩, made_entries c es⟩
end

end HostValue

namespace Json

mutual
theorem made_draft (c : Config) : ∀ j : Json, Draft.Made c (j.draft c)
  | null => .null
  | bool b => .ofPayload (.bool b)
  | number _ => .ofExcept fun _ => Number.kind_of_toPayload
  | string s => .ofPayload (.string s)
  | array items => .list (made_items c items)
  | object fields => .struct (made_fields c fields)
theorem made_items (c : Config) : ∀ js : List Json, ∀ d ∈ draftItems c js, Draft.Made c d
  | [] => fun _ hd => nomatch hd
  | j :: js => List.forall_mem_cons.2 ⟨made_draft c j, made_items c js⟩
theorem made_fields (c : Config) : ∀ fs : List (String × Json), ∀ f ∈ draftFields c fs, Draft.Made c f.2
  | [] => fun _ hf => nomatch hf
  | (_, j) :: fs => List.forall_mem_cons.2 ⟨made_draft c j, made_fields c fs⟩
end

end Json

namespace Source

mutual
theorem made_draft (c : Config) : ∀ s : Source, Draft.Made c (s.draft c)
  | host v => v.made_draft c
  | json j => j.made_draft c
  | scalar _ => .ofExcept fun _ => Scalar.kind_of_toPayload
  | interval i => .ofPayload (.interval i)
  | absent => .null
  | present s => made_draft c s
  | shared s => made_draft c s
  | sequence items => .list (made_items c items)
  | fields fs => .struct (made_fields c fs)
  | entries es => .map (fun e he => (made_entries c es e he).1) fun e he => (made_entries c es e he).2
theorem made_items (c : Config) : ∀ ss : List Source, ∀ d ∈ draftItems c ss, Draft.Made c d
  | [] => fun _ hd => nomatch hd
  | s :: ss => List.forall_mem_cons.2 ⟨made_draft c s, made_items c ss⟩
theorem made_fields (c : Config) : ∀ fs : List (String × Source), ∀ f ∈ draftFields c fs, Draft.Made c f.2
  | [] => fun _ hf => nomatch hf
  | (_, s) :: fs => List.forall_mem_cons.2 ⟨made_draft c s, made_fields c fs⟩
theorem made_entries (c : Config) : ∀ es : List (Source × Source),
    ∀ e ∈ draftEntries c es, Draft.Made c e.1 ∧ Draft.Made c e.2
  | [] => fun _ he => nomatch he
  | (k, s) :: es => List.forall_mem_cons.2 ⟨⟨made_draft c k, made_draft c s⟩, made_entries c es⟩
end

end Source
end ValueBridge
