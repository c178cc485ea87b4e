import ValueBridge.Proofs.Convert.Acceptance
import ValueBridge.Proofs.Convert.Decimals
import ValueBridge.Proofs.Convert.RoundTrip
import ValueBridge.Proofs.Host.Equality
import ValueBridge.Proofs.Type.Joining
/-!
# Encoding equal values

Equal values need not be written alike, and the engine keeps the scale of a decimal that is not whole: the same number may
be stored when it is written with few digits, and refused when zeros are written behind it (`encode_digits`).  Nothing
else that equality does not see makes a difference.  What equal values are stored as are `Twin`s: they have the same type
up to the sizes of decimals, and are the same where a 128-bit integer might be restated.  So the drafts of equal values
come to twins or to errors of one kind, unless a decimal is overlong on one side only (`tied_draft`).
-/
namespace ValueBridge

variable {α β γ δ : Type} {P : Prop} {R : α → β → Prop} {S : γ → δ → Prop} {c : Config} {left : Nat}

/-! ## Results that go together -/

/-- The results are values in relation or errors of one kind.  Unless `P` holds, one may be a value and the other not, but
then because a conversion has failed. -/
def Tied (P : Prop) (R : α → β → Prop) : Except ConvertError α → Except ConvertError β → Prop
  | .ok a, .ok b => R a b
  | .error e, .error e' => P → e.kind = e'.kind
  | .error e, .ok _ => ¬P ∧ e.kind = .conversionFailed
  | .ok _, .error e => ¬P ∧ e.kind = .conversionFailed

namespace Tied

variable {r : Except ConvertError α} {r' : Except ConvertError β}

theorem exists_ok_iff (h : Tied P R r r') (hP : P) : (∃ a, r = .ok a) ↔ ∃ b, r' = .ok b := by
  cases r with
  | ok a =>
    cases r' with
    | ok b => exact iff_of_true ⟨a, rfl⟩ ⟨b, rfl⟩
    | error e' => exact absurd hP h.1
  | error e =>
    cases r' with
    | ok b => exact absurd hP h.1
    | error e' => exact iff_of_false (fun ⟨_, ha⟩ => by cases ha) fun ⟨_, hb⟩ => by cases hb

theorem bind {f : α → Except ConvertError γ} {f' : β → Except ConvertError δ} (h : Tied P R r r')
    (hf : ∀ a b, R a b → Tied P S (f a) (f' b)) : Tied P S (r.bind f) (r'.bind f') := by
  cases r with
  | error e =>
    cases r' with
    | error e' => exact h
    | ok b =>
      change Tied P S (.error e) (f' b)
      cases f' b with
      | error e' => exact fun hP => absurd hP h.1
      | ok d => exact h
  | ok a =>
    cases r' with
    | error e' =>
      change Tied P S (f a) (.error e')
      cases f a with
      | error e => exact fun hP => absurd hP h.1
      | ok d => exact h
    | ok b => exact hf a b h

theorem map {f : α → γ} {f' : β → δ} (h : Tied P R r r') (hf : ∀ a b, R a b → S (f a) (f' b)) :
    Tied P S (r.map f) (r'.map f') := by
  cases r <;> cases r'
  · exact h
  · exact h
  · exact h
  · exact hf _ _ h

theorem within (place place' : Place) (h : Tied P R r r') :
    Tied P R (Draft.within place r) (Draft.within place' r') := by
  cases r <;> cases r' <;> simpa only [Draft.within, Except.mapError, Tied, ConvertError.kind_within] using h

theorem same {R : α → α → Prop} (r : Except ConvertError α) (hR : ∀ a, r = .ok a → R a a) : Tied P R r r := by
  cases r with
  | error e => exact fun _ => rfl
  | ok a => exact hR a rfl

end Tied

/-! ## Twins -/

/-- The stored values have types of one shape, and are the same if they are 128-bit integers. -/
structure Twin (v w : Stored) : Prop where
  shape : v.type.shape = w.type.shape
  int128 : v.type.tag = .int128 → v = w

namespace Twin

variable {v w : Stored} {vs ws : List Stored}

theorem refl (v : Stored) : Twin v v := ⟨rfl, fun _ => rfl⟩

theorem tag (h : Twin v w) : v.type.tag = w.type.tag := by
  rw [← LogicalType.tag_shape, h.shape, LogicalType.tag_shape]

theorem shapes (h : List.Forall₂ Twin vs ws) :
    (vs.map Stored.type).map LogicalType.shape = (ws.map Stored.type).map LogicalType.shape := by
  rw [List.map_map, List.map_map]
  exact map_eq_map_of_forall₂ (h.imp fun _ _ hvw => hvw.shape)

theorem tags (h : List.Forall₂ Twin vs ws) : vs.map (·.type.tag) = ws.map (·.type.tag) :=
  map_eq_map_of_forall₂ (h.imp fun _ _ hvw => hvw.tag)

/-- Twins have a common type together, of the same shape. -/
theorem joinAll? (h : List.Forall₂ Twin vs ws) :
    LogicalType.joinAll? (vs.map Stored.type) = none ∧ LogicalType.joinAll? (ws.map Stored.type) = none ∨
      ∃ t u, LogicalType.joinAll? (vs.map Stored.type) = some t ∧
        LogicalType.joinAll? (ws.map Stored.type) = some u ∧ t.shape = u.shape := by
  have hshape : (LogicalType.joinAll? (vs.map Stored.type)).map LogicalType.shape =
      (LogicalType.joinAll? (ws.map Stored.type)).map LogicalType.shape := by
    rw [← LogicalType.joinAll?_shape, ← LogicalType.joinAll?_shape, shapes h]
  cases ht : LogicalType.joinAll? (vs.map Stored.type) with
  | none =>
    rw [ht] at hshape
    exact .inl ⟨rfl, Option.map_eq_none_iff.1 hshape.symm⟩
  | some t =>
    rw [ht] at hshape
    obtain ⟨u, hu, hut⟩ := Option.map_eq_some_iff.1 hshape.symm
    exact .inr ⟨t, u, rfl, hu, hut.symm⟩

end Twin

namespace Draft

variable {vs ws : List Stored}

/-! ## Decimals in one collection -/

theorem tied_restateAll (h : List.Forall₂ Twin vs ws) :
    Tied P (List.Forall₂ Twin) (restateAll vs) (restateAll ws) := by
  induction h with
  | nil => exact .nil
  | @cons v w vs ws hvw _ ih =>
    rw [restateAll, restateAll, ← hvw.tag]
    -- Twins are restated together, and then they are the same 128-bit integer.
    split
    · rename_i htag
      cases hvw.int128 htag
      exact (Tied.same _ fun v _ => Twin.refl v).bind fun v w hvw => ih.map fun _ _ h => .cons hvw h
    · exact ih.map fun _ _ h => .cons hvw h

theorem tied_aligned (h : List.Forall₂ Twin vs ws) : Tied P (List.Forall₂ Twin) (aligned vs) (aligned ws) := by
  unfold aligned
  dsimp only
  rw [Twin.tags h]
  split
  · exact tied_restateAll h
  · exact h

/-! ## Parts -/

theorem tied_all {rs rs' : List (Except ConvertError Stored)} (h : List.Forall₂ (Tied P Twin) rs rs') :
    Tied P (List.Forall₂ Twin) (all rs) (all rs') := by
  induction h with
  | nil => exact .nil
  | cons hr _ ih => exact hr.bind fun v w hvw => ih.map fun _ _ h => .cons hvw h

/-- Both sides of pairs are twins. -/
def TwinPairs (p q : List Stored × List Stored) : Prop := List.Forall₂ Twin p.1 q.1 ∧ List.Forall₂ Twin p.2 q.2

theorem tied_allPairs {rs rs' : List (Except ConvertError Stored × Except ConvertError Stored)}
    (h : List.Forall₂ (fun r r' => Tied P Twin r.1 r'.1 ∧ Tied P Twin r.2 r'.2) rs rs') :
    Tied P TwinPairs (allPairs rs) (allPairs rs') := by
  induction h with
  | nil => exact ⟨.nil, .nil⟩
  | cons hr _ ih =>
    exact hr.1.bind fun v w hvw => hr.2.bind fun v' w' hvw' => ih.map fun _ _ h => ⟨.cons hvw h.1, .cons hvw' h.2⟩

/-! ## Collections -/

theorem tied_listOf? (h : List.Forall₂ Twin vs ws) : Tied P Twin (answer (.heterogeneous .list) (Stored.listOf? vs))
    (answer (.heterogeneous .list) (Stored.listOf? ws)) := by
  have hempty : vs.isEmpty = ws.isEmpty := by cases h <;> rfl
  unfold Stored.listOf? Stored.elementType
  rw [hempty]
  split
  · exact fun _ => rfl
  · rcases Twin.joinAll? h with ⟨ht, hu⟩ | ⟨t, u, ht, hu, hshape⟩
    · rw [ht, hu]
      exact fun _ => rfl
    · rw [ht, hu]
      exact ⟨congrArg LogicalType.list hshape, fun htag => by cases htag⟩

theorem tied_structOf? {fs gs : List (String × Stored)}
    (h : List.Forall₂ (fun f g => f.1 = g.1 ∧ Twin f.2 g.2) fs gs) :
    Tied P Twin (answer .engine (Stored.structOf? fs)) (answer .engine (Stored.structOf? gs)) := by
  have hempty : fs.isEmpty = gs.isEmpty := by cases h <;> rfl
  unfold Stored.structOf?
  rw [hempty]
  split
  · exact fun _ => rfl
  · refine ⟨congrArg LogicalType.struct ?_, fun htag => by cases htag⟩
    rw [LogicalType.shapeFields_eq_map, LogicalType.shapeFields_eq_map, List.map_map, List.map_map]
    exact map_eq_map_of_forall₂ (h.imp fun f g hfg => Prod.ext hfg.1 hfg.2.shape)

theorem tied_mapOf? {es ds : List (Stored × Stored)}
    (h : List.Forall₂ (fun e d => Twin e.1 d.1 ∧ Twin e.2 d.2) es ds) :
    Tied P Twin (answer (.heterogeneous .map) (Stored.mapOf? es)) (answer (.heterogeneous .map) (Stored.mapOf? ds)) := by
  have hempty : es.isEmpty = ds.isEmpty := by cases h <;> rfl
  have hkeys : List.Forall₂ Twin (es.map Prod.fst) (ds.map Prod.fst) :=
    List.forall₂_map_left_iff.2 (List.forall₂_map_right_iff.2 (h.imp fun _ _ hed => hed.1))
  have hvalues : List.Forall₂ Twin (es.map Prod.snd) (ds.map Prod.snd) :=
    List.forall₂_map_left_iff.2 (List.forall₂_map_right_iff.2 (h.imp fun _ _ hed => hed.2))
  have hjoink := Twin.joinAll? hkeys
  have hjoinv := Twin.joinAll? hvalues
  simp only [List.map_map, Function.comp_def] at hjoink hjoinv
  unfold Stored.mapOf?
  rw [hempty]
  split
  · exact fun _ => rfl
  · rcases hjoink with ⟨ht, hu⟩ | ⟨k, l, ht, hu, hkshape⟩
    · rw [ht, hu]
      exact fun _ => rfl
    · rw [ht, hu]
      dsimp only
      rcases hjoinv with ⟨ht, hu⟩ | ⟨t, u, ht, hu, hvshape⟩
      · rw [ht, hu]
        exact fun _ => rfl
      · rw [ht, hu]
        exact ⟨congrArg₂ LogicalType.map hkshape hvshape, fun htag => by cases htag⟩

/-- The drafts come to twins or to errors of one kind, at every level. -/
def TiedDrafts (P : Prop) (d d' : Draft) : Prop := ∀ left, Tied P Twin (d.value left) (d'.value left)

theorem tied_list {ds ds' : List Draft} (h : List.Forall₂ (TiedDrafts P) ds ds') :
    TiedDrafts P (list c ds) (list c ds') := by
  intro left
  have hempty : ds.isEmpty = ds'.isEmpty := by cases h <;> rfl
  unfold list
  dsimp only
  rw [hempty]
  refine (Tied.same (R := Eq) _ fun _ _ => rfl).bind fun inner _ heq => ?_
  cases heq
  have hall := tied_all (forall₂_mapIdx (f := fun i d => within (.element i) (d.value inner))
    (g := fun i d => within (.element i) (d.value inner)) h fun i d d' hd => (hd inner).within (.element i) (.element i))
  exact hall.bind fun vs ws hvs => (tied_aligned hvs).bind fun vs ws hvs => tied_listOf? hvs

theorem tied_struct {fs gs : List (String × Draft)}
    (h : List.Forall₂ (fun f g => f.1 = g.1 ∧ TiedDrafts P f.2 g.2) fs gs) :
    TiedDrafts P (struct c fs) (struct c gs) := by
  intro left
  have hempty : fs.isEmpty = gs.isEmpty := by cases h <;> rfl
  have hsorted := Fields.forall₂_sorted h
  have hnames : (Fields.sorted fs).map Prod.fst = (Fields.sorted gs).map Prod.fst :=
    map_eq_map_of_forall₂ (hsorted.imp fun _ _ hfg => hfg.1)
  unfold struct
  dsimp only
  rw [hempty, hnames]
  refine (Tied.same (R := Eq) _ fun _ _ => rfl).bind fun inner _ heq => ?_
  cases heq
  have hall : Tied P (List.Forall₂ Twin) (all ((Fields.sorted fs).map fun f => within (.field f.1) (f.2.value inner)))
      (all ((Fields.sorted gs).map fun f => within (.field f.1) (f.2.value inner))) :=
    tied_all (List.forall₂_map_left_iff.2 (List.forall₂_map_right_iff.2
      (hsorted.imp fun f g hfg => (hfg.2 inner).within (.field f.1) (.field g.1))))
  exact hall.bind fun vs ws hvs => tied_structOf? (forall₂_zip (List.forall₂_same.2 fun _ _ => rfl) hvs)

theorem tied_map {es ds : List (Draft × Draft)}
    (h : List.Forall₂ (fun e d => TiedDrafts P e.1 d.1 ∧ TiedDrafts P e.2 d.2) es ds) :
    TiedDrafts P (map c es) (map c ds) := by
  intro left
  have hempty : es.isEmpty = ds.isEmpty := by cases h <;> rfl
  unfold map
  dsimp only
  rw [hempty]
  refine (Tied.same (R := Eq) _ fun _ _ => rfl).bind fun inner _ heq => ?_
  cases heq
  have hall := tied_allPairs (forall₂_mapIdx
    (f := fun i e => (within (.mapEntry i) (e.1.value inner), within (.mapEntry i) (e.2.value inner)))
    (g := fun i e => (within (.mapEntry i) (e.1.value inner), within (.mapEntry i) (e.2.value inner))) h
    fun i e d hed => ⟨(hed.1 inner).within (.mapEntry i) (.mapEntry i), (hed.2 inner).within (.mapEntry i) (.mapEntry i)⟩)
  exact hall.bind fun p q hpq => (tied_aligned hpq.1).bind fun ks ls hks => (tied_aligned hpq.2).bind fun vs ws hvs =>
    tied_mapOf? (forall₂_zip hks hvs)

/-! ## Scalars -/

theorem value_ofExcept {p : Payload} (hcheck : Stored.checkPayload p = .ok ()) :
    (ofExcept (.ok p)).value left = .ok (.payload p) := by
  rw [ofExcept, ofPayload, payload, hcheck]
  rfl

/-- Whole decimals of one number are stored alike. -/
theorem tied_whole {x y : Decimal} (h : x.toRat = y.toRat) (hx : x.isWhole) :
    TiedDrafts P (ofExcept x.toPayload) (ofExcept y.toPayload) := by
  intro left
  have hy : y.isWhole := by rwa [← Decimal.isWhole_congr h]
  cases hp : x.toPayload with
  | ok p =>
    obtain ⟨n, -, rfl⟩ := Decimal.int128_of_toPayload hp hx
    rw [Decimal.toPayload_eq_int128_iff.2 (h ▸ Decimal.toPayload_eq_int128_iff.1 hp)]
    exact .same _ fun v _ => .refl v
  | error e =>
    cases hq : y.toPayload with
    | ok q =>
      obtain ⟨n, -, rfl⟩ := Decimal.int128_of_toPayload hq hy
      cases hp.symm.trans (Decimal.toPayload_eq_int128_iff.2 (h.trans (Decimal.toPayload_eq_int128_iff.1 hq)))
    | error e' => exact fun _ => ((x.outcome_toPayload.of_error hp).2.trans (y.outcome_toPayload.of_error hq).2.symm)

/-- Whether a fractional decimal is stored depends on whether it is overlong. -/
theorem outcome_fractional {x : Decimal} (hx : ¬x.isWhole) (left : Nat) :
    Outcome (fun v => ¬x.Overlong ∧ ∃ p s, v.type = .decimal p s) (fun e => x.Overlong ∧ e.kind = .conversionFailed)
      ((ofExcept x.toPayload).value left) := by
  have houtcome := x.outcome_toPayload
  unfold Decimal.Storable Decimal.inferred at houtcome
  rw [if_neg hx] at houtcome
  cases hp : x.toPayload with
  | ok p =>
    rw [hp] at houtcome
    rw [value_ofExcept houtcome.2.1]
    exact ⟨fun hlong => hlong.2 houtcome.1, _, _, by rw [Stored.type, houtcome.2.2, if_neg hx]⟩
  | error e =>
    rw [hp] at houtcome
    exact ⟨⟨hx, houtcome.1⟩, houtcome.2⟩

theorem tied_fractional {x y : Decimal} (hx : ¬x.isWhole) (hy : ¬y.isWhole) (hP : P → (x.Overlong ↔ y.Overlong)) :
    TiedDrafts P (ofExcept x.toPayload) (ofExcept y.toPayload) := by
  intro left
  have houtcome := outcome_fractional hx left
  have houtcome' := outcome_fractional hy left
  cases hv : (ofExcept x.toPayload).value left with
  | ok v =>
    rw [hv] at houtcome
    obtain ⟨hlong, p, s, htype⟩ := houtcome
    cases hw : (ofExcept y.toPayload).value left with
    | ok w =>
      rw [hw] at houtcome'
      obtain ⟨-, q, r, htype'⟩ := houtcome'
      refine ⟨by rw [htype, htype']; rfl, fun htag => ?_⟩
      rw [htype] at htag
      cases htag
    | error e =>
      rw [hw] at houtcome'
      exact ⟨fun hp => hlong ((hP hp).2 houtcome'.1), houtcome'.2⟩
  | error e =>
    rw [hv] at houtcome
    cases hw : (ofExcept y.toPayload).value left with
    | ok w =>
      rw [hw] at houtcome'
      exact ⟨fun hp => houtcome'.1 ((hP hp).1 houtcome.1), houtcome.2⟩
    | error e' =>
      rw [hw] at houtcome'
      exact fun _ => houtcome.2.trans houtcome'.2.symm

theorem tied_scalar {s t : Scalar} (h : s.sameValue t) (hP : P → (s.Overlong ↔ t.Overlong)) :
    TiedDrafts P (ofExcept s.toPayload) (ofExcept t.toPayload) := by
  unfold Scalar.sameValue at h
  split at h
  · exact fun left => ⟨rfl, fun htag => by cases htag⟩
  · exact fun left => ⟨rfl, fun htag => by cases htag⟩
  · rename_i x y
    have hrat := Decimal.sameValue_iff_toRat.1 h
    by_cases hx : x.isWhole
    · exact tied_whole hrat hx
    · have hy : ¬y.isWhole := by rwa [← Decimal.isWhole_congr hrat]
      exact tied_fractional hx hy fun hp => by simpa only [Scalar.overlong_decimal] using hP hp
  · cases eq_of_beq h
    exact fun left => .same _ fun v _ => .refl v

end Draft

/-! ## Host values -/

namespace Scalar

/-- One is overlong exactly if the other is. -/
abbrev AlikeInLength (s t : Scalar) : Prop := s.Overlong ↔ t.Overlong

end Scalar

namespace HostValue

open Draft (TiedDrafts)
open Scalar (AlikeInLength)

theorem draft_of_isGraphElement {v : HostValue} (h : v.isGraphElement) : v.draft c = .ofError v.refused := by
  cases v with
  | node | rel | path => rfl
  | _ => cases h

theorem tied_refused {v w : HostValue} (hv : v.isGraphElement) (hw : w.isGraphElement) :
    TiedDrafts P (v.draft c) (w.draft c) := by
  rw [draft_of_isGraphElement hv, draft_of_isGraphElement hw]
  exact fun left _ => rfl

mutual
/-- **Equal values come to twins or to errors of one kind**, if they have overlong decimals in the same places. -/
theorem tied_draft (c : Config) : ∀ {v w : HostValue}, Related SameScalar v w → (P → Related AlikeInLength v w) →
    TiedDrafts P (v.draft c) (w.draft c)
  | _, _, .null, _ => fun _ => .same _ fun v _ => .refl v
  | _, _, .scalar h, hP => Draft.tied_scalar h fun hp => (hP hp).of_scalar
  | _, _, .list h, hP => Draft.tied_list (tied_items c h fun hp => (hP hp).items)
  | _, _, .struct h, hP => Draft.tied_struct (tied_fields c h fun hp => (hP hp).fields)
  | _, _, .map h, hP => Draft.tied_map (tied_entries c h fun hp => (hP hp).entries)
  | _, _, .element hv hw _, _ => tied_refused hv hw
theorem tied_items (c : Config) : ∀ {vs ws : List HostValue}, RelatedItems SameScalar vs ws →
    (P → RelatedItems AlikeInLength vs ws) → List.Forall₂ (TiedDrafts P) (draftItems c vs) (draftItems c ws)
  | _, _, .nil, _ => .nil
  | _, _, .cons h hs, hP =>
    .cons (tied_draft c h fun hp => (hP hp).head) (tied_items c hs fun hp => (hP hp).tail)
theorem tied_fields (c : Config) : ∀ {fs gs : List (String × HostValue)}, RelatedFields SameScalar fs gs →
    (P → RelatedFields AlikeInLength fs gs) →
    List.Forall₂ (fun f g => f.1 = g.1 ∧ TiedDrafts P f.2 g.2) (draftFields c fs) (draftFields c gs)
  | _, _, .nil, _ => .nil
  | _, _, .cons h hs, hP =>
    .cons ⟨rfl, tied_draft c h fun hp => (hP hp).head⟩ (tied_fields c hs fun hp => (hP hp).tail)
theorem tied_entries (c : Config) : ∀ {es ds : List (HostValue × HostValue)}, RelatedEntries SameScalar es ds →
    (P → RelatedEntries AlikeInLength es ds) →
    List.Forall₂ (fun e d => TiedDrafts P e.1 d.1 ∧ TiedDrafts P e.2 d.2) (draftEntries c es) (draftEntries c ds)
  | _, _, .nil, _ => .nil
  | _, _, .cons hk h hs, hP =>
    .cons ⟨tied_draft c hk fun hp => (hP hp).head.1, tied_draft c h fun hp => (hP hp).head.2⟩
      (tied_entries c hs fun hp => (hP hp).tail)
end

/-- **Equal values are encoded alike.**  If they have overlong decimals in the same places, both are encoded or neither,
and two failures have one kind.  Whenever both are encoded, they are decoded as equal values, or both not, with one error,
because they hold a timestamp that is counted in a second outside the calendar.  If only one is encoded, the other has
failed to convert. -/
theorem encode_sameValue (c : Config) {v w : HostValue} (h : v.sameValue w) {m n : Memory} (hm : m.Reachable)
    (hn : n.Reachable) (hroomv : m.live + v.subvalues.length + 2 * v.nesting ≤ m.limit)
    (hroomw : n.live + w.subvalues.length + 2 * w.nesting ≤ n.limit) :
    (v.Related AlikeInLength w →
      ((∃ k m', (Source.host v).build c m = .ok k m') ↔ ∃ k n', (Source.host w).build c n = .ok k n') ∧
      ∀ e e' m' n', (Source.host v).build c m = .error e m' → (Source.host w).build c n = .error e' n' →
        e.kind = e'.kind) ∧
    (∀ k k' m' n', (Source.host v).build c m = .ok k m' → (Source.host w).build c n = .ok k' n' →
      (v.Countable →
        ∃ v' w' m'' n'', Read.value c k m' = .ok v' m'' ∧ Read.value c k' n' = .ok w' n'' ∧ v'.sameValue w') ∧
      (¬v.Countable →
        ∃ e m'' n'', Read.value c k m' = .error e m'' ∧ Read.value c k' n' = .error e n'' ∧
          e.kind = .conversionFailed)) ∧
    (∀ k e m' n', (Source.host v).build c m = .ok k m' → (Source.host w).build c n = .error e n' →
      e.kind = .conversionFailed) ∧
    ∀ k e m' n', (Source.host v).build c m = .error e m' → (Source.host w).build c n = .ok k n' →
      e.kind = .conversionFailed := by
  -- Drafts are tied unless overlong decimals stand in different places, and engines with room do as the drafts say.
  have htied := tied_draft (P := v.Related AlikeInLength w) c (related_of_sameValue h) id c.maxDepth
  have hfits : m.live + v.subvalues.length ≤ m.limit := by omega
  have hfits' : n.live + w.subvalues.length ≤ n.limit := by omega
  refine ⟨fun halike => ⟨?_, fun e e' m' n' he he' => ?_⟩, fun k k' m' n' hk hk' => ?_, fun k e m' n' hk he => ?_,
    fun k e m' n' he hk => ?_⟩
  · rw [exists_build_iff hm hfits, exists_build_iff hn hfits']
    exact htied.exists_ok_iff halike
  · rw [draft_of_refused hm hfits he, draft_of_refused hn hfits' he'] at htied
    exact htied halike
  · obtain ⟨sv, hsv, hadds⟩ := adds_of_build hm hk
    obtain ⟨sw, hsw, hadds'⟩ := adds_of_build hn hk'
    have hparts := parts_draft c v
    have hparts' := parts_draft c w
    have hyields := yields_draft hsv hadds (by omega)
    have hyields' := yields_draft hsw hadds' (by omega)
    rw [← overruns_of_sameValue h] at hyields'
    refine ⟨fun hv => ?_, fun hv => ?_⟩
    · rw [v.overruns_eq_nil_iff.2 hv] at hyields hyields'
      obtain ⟨m'', hread, -⟩ := hyields.eq_ok
      obtain ⟨n'', hread', -⟩ := hyields'.eq_ok
      exact ⟨_, _, m'', n'', hread, hread', sameValue_canon c.blobLength h⟩
    · have hne := mt v.overruns_eq_nil_iff.1 hv
      obtain ⟨e, m'', hread, -, he⟩ := hyields.eq_error hne
      obtain ⟨e', n'', hread', -, he'⟩ := hyields'.eq_error hne
      cases he.symm.trans he'
      exact ⟨e, m'', n'', hread, hread', v.kind_of_mem_overruns e (List.mem_of_head? he)⟩
  · obtain ⟨sv, hsv, -⟩ := adds_of_build hm hk
    rw [hsv, draft_of_refused hn hfits' he] at htied
    exact htied.2
  · obtain ⟨sw, hsw, -⟩ := adds_of_build hn hk
    rw [draft_of_refused hm hfits he, hsw] at htied
    exact htied.2

/-- A list of one and a half and two. -/
def halves : HostValue := .list [.scalar (.decimal ⟨15, 1⟩), .scalar (.decimal ⟨2, 0⟩)]

/-- The same list, written with two digits after each point. -/
def halvesInHundredths : HostValue := .list [.scalar (.decimal ⟨150, 2⟩), .scalar (.decimal ⟨200, 2⟩)]

theorem sameValue_halves : halves.sameValue halvesInHundredths := by
  have hhalf : Decimal.sameValue ⟨15, 1⟩ ⟨150, 2⟩ = true := by decide
  have htwo : Decimal.sameValue ⟨2, 0⟩ ⟨200, 2⟩ = true := by decide
  simp [halves, halvesInHundredths, sameValue, sameItems, Scalar.sameValue, hhalf, htwo]

theorem alikeInLength_halves : halves.Related AlikeInLength halvesInHundredths := by
  have hshort : ∀ d ∈ [(⟨15, 1⟩ : Decimal), ⟨150, 2⟩, ⟨2, 0⟩, ⟨200, 2⟩], ¬(Scalar.decimal d).Overlong := by
    simp only [Scalar.overlong_decimal, Decimal.Overlong]
    decide
  exact .list (.cons (.scalar (iff_of_false (hshort _ (by simp)) (hshort _ (by simp))))
    (.cons (.scalar (iff_of_false (hshort _ (by simp)) (hshort _ (by simp)))) .nil))

/-- Both lists are encoded, though with decimals of different types, and decoded as equal lists. -/
theorem encode_sameValue_halves : ∃ (k k' : Handle) (m' n' : Memory) (v' w' : HostValue) (m'' n'' : Memory),
    (Source.host halves).build {} { limit := 5 } = .ok k m' ∧
    (Source.host halvesInHundredths).build {} { limit := 5 } = .ok k' n' ∧
    Read.value {} k m' = .ok v' m'' ∧ Read.value {} k' n' = .ok w' n'' ∧ v'.sameValue w' := by
  have hsame := encode_sameValue {} sameValue_halves (.empty 5) (.empty 5) (by decide) (by decide)
  have hok : ∃ (k : Handle) (m' : Memory), (Source.host halves).build {} { limit := 5 } = .ok k m' := ⟨_, _, rfl⟩
  obtain ⟨k', n', hw⟩ := (hsame.1 alikeInLength_halves).1.1 hok
  obtain ⟨k, m', hv⟩ := hok
  obtain ⟨v', w', m'', n'', hread⟩ := (hsame.2.1 k k' m' n' hv hw).1 (by decide)
  exact ⟨k, k', m', n', v', w', m'', n'', hv, hw, hread⟩

/-- One and a half is encoded, but not if forty zeros are written behind it; and a timestamp in a leap second after the
last second of the calendar equals itself and is encoded, but it is not decoded as anything. -/
theorem encode_digits :
    ((HostValue.scalar (.decimal ⟨15, 1⟩)).sameValue (.scalar (.decimal ⟨15 * 10 ^ 40, 41⟩)) ∧
    (∃ (k : Handle) (m' : Memory),
      (Source.host (.scalar (.decimal ⟨15, 1⟩))).build {} { limit := 5 } = .ok k m') ∧
    ∃ (e : ConvertError) (m' : Memory),
      (Source.host (.scalar (.decimal ⟨15 * 10 ^ 40, 41⟩))).build {} { limit := 5 } = .error e m' ∧
        e.kind = .conversionFailed) ∧
    (HostValue.scalar (.timestamp .lastLeapSecond)).sameValue (.scalar (.timestamp .lastLeapSecond)) ∧
    ∃ (k : Handle) (m' m'' : Memory) (e : ConvertError),
      (Source.host (.scalar (.timestamp .lastLeapSecond))).build {} { limit := 5 } = .ok k m' ∧
        Read.value {} k m' = .error e m'' ∧ e.kind = .conversionFailed := by
  have hdecimal : Decimal.sameValue ⟨15, 1⟩ ⟨15 * 10 ^ 40, 41⟩ = true := by decide
  have hinstant : (scalar (.timestamp .lastLeapSecond)).sameValue (scalar (.timestamp .lastLeapSecond)) = true := by
    simp only [sameValue, Scalar.sameValue, beq_self_eq_true]
  exact ⟨⟨by simp only [sameValue, Scalar.sameValue, hdecimal], ⟨_, _, rfl⟩, _, _, rfl, rfl⟩, hinstant, ⟨1⟩, _, _, _, rfl,
    rfl, rfl⟩

end HostValue

end ValueBridge
