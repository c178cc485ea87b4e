import ValueBridge.Proofs.Convert.Building
import ValueBridge.Proofs.Host.Encodable
import ValueBridge.Proofs.Stored.Recorded
/-!
# Exactly the encodable values are encoded

The draft of a host value judges it: it comes to a stored value of the inferred type if the host value is encodable, and
to an error whose kind reports a violated condition if it is not (`HostValue.judged_draft`).  Hence an encoder accepts
exactly the encodable values (`HostValue.build_iff_encodable`).
-/
namespace ValueBridge

/-! ## Scalars -/

namespace Decimal

variable {d : Decimal} {p : Payload} {e : ConvertError}

theorem outcome_toDecimalPayload (d : Decimal) :
    Outcome (fun p => max (d.width : Int) d.scale ≤ maxPrecision ∧ Stored.checkPayload p = .ok () ∧
        p.type = .decimal (max d.width d.scale.toNat) d.scale.toNat)
      (fun e => ¬max (d.width : Int) d.scale ≤ maxPrecision ∧ e.kind = .conversionFailed) d.toDecimalPayload := by
  unfold toDecimalPayload
  dsimp only
  split
  · rename_i hlong
    exact ⟨Int.not_le.2 hlong, rfl⟩
  · rename_i hfits
    have hprecision : (max (d.width : Int) d.scale).toNat = max d.width d.scale.toNat := by omega
    refine ⟨Int.not_lt.1 hfits, ?_, ?_⟩
    · rw [Stored.checkPayload, if_neg (by omega)]
    · rw [Payload.type, hprecision]

/-- A decimal becomes a payload of its inferred type if it can be stored. -/
theorem outcome_toPayload (d : Decimal) :
    Outcome (fun p => d.Storable ∧ Stored.checkPayload p = .ok () ∧ p.type = d.inferred false)
      (fun e => ¬d.Storable ∧ e.kind = .conversionFailed) d.toPayload := by
  unfold toPayload Storable inferred
  dsimp only
  by_cases hwhole : d.isWhole
  · rw [if_pos hwhole, if_pos hwhole, if_pos hwhole]
    cases hn : (Ranged.ofInt? d.truncate : Option Int128) with
    | some n =>
      have hval := Ranged.ofInt?_eq_some.1 hn
      exact ⟨⟨hval ▸ n.lo_le, hval ▸ n.le_hi⟩, rfl, rfl⟩
    | none =>
      have hrange := Ranged.ofInt?_eq_none.1 hn
      -- What fits 38 digits fits 128 bits, so the payload that would be tried instead cannot be had either.
      cases hp : (if d.scale < 0 then ofInt d.truncate else d).toDecimalPayload with
      | ok p =>
        have hsome := isSome_ofInt?_truncate hp
        rw [hn] at hsome
        cases hsome
      | error e =>
        have houtcome := outcome_toDecimalPayload (if d.scale < 0 then ofInt d.truncate else d)
        rw [hp] at houtcome
        exact ⟨by omega, houtcome.2⟩
  · have hscale : 0 < d.scale := Int.not_le.1 fun hle => hwhole (isWhole_of_nonpos hle)
    rw [if_neg hwhole, if_neg hwhole, if_neg hwhole, if_neg (Int.not_lt.2 (Int.le_of_lt hscale))]
    exact outcome_toDecimalPayload d

end Decimal

theorem Duration.outcome_toPayload (d : Duration) :
    Outcome (fun p => d.Storable ∧ Stored.checkPayload p = .ok () ∧ p.type = .plain .interval)
      (fun e => ¬d.Storable ∧ e.kind = .conversionFailed) d.toPayload := by
  unfold toPayload micros? Storable
  cases hn : (Ranged.ofInt? (d.nanos.tdiv 1000) : Option (IntOf .int64)) with
  | some n =>
    have hval := Ranged.ofInt?_eq_some.1 hn
    exact ⟨⟨hval ▸ n.lo_le, hval ▸ n.le_hi⟩, rfl, rfl⟩
  | none =>
    have hrange := Ranged.ofInt?_eq_none.1 hn
    exact ⟨by omega, rfl⟩

namespace HostValue

/-- The stored value has the type that is inferred of the host value, and a decimal is stored as its payload. -/
structure KeptAs (v : HostValue) (w : Stored) : Prop where
  inferred : v.inferred false = some w.type
  decimal : ∀ d, v = .scalar (.decimal d) → ∃ p, d.toPayload = .ok p ∧ w = .payload p

/-- A stored value for what is encodable, an error of the right kind for what is not. -/
def Judged (left : Nat) (v : HostValue) (r : Except ConvertError Stored) : Prop :=
  Outcome (fun w => v.Encodable left ∧ v.KeptAs w) (fun e => v.Violates left e.kind) r

variable {c : Config} {left inner : Nat} {v : HostValue} {vs : List HostValue} {ws : List Stored}

theorem Encodable.leaf (hsub : v.subvalues = [v]) (hnesting : v.nesting = 0) (h : ∀ r, v.Meets r) :
    v.Encodable left where
  nesting_le := by omega
  meets := by
    rw [hsub]
    exact List.forall_mem_singleton.2 h

theorem meets_scalar {s : Scalar} (hdurations : ∀ d, s = .duration d → d.Storable)
    (hdecimals : ∀ d, s = .decimal d → d.Storable) : ∀ r, (scalar s).Meets r
  | .noGraphElement => rfl
  | .nonempty => fun h => by cases h
  | .durations => fun d hd => by
    cases hd
    exact hdurations d rfl
  | .decimals => fun d hd => by
    cases hd
    exact hdecimals d rfl
  | .restatable | .commonType => fun _ h => by cases h

theorem outcome_toPayload (s : Scalar) :
    Outcome (fun p => (∀ r, (scalar s).Meets r) ∧ Stored.checkPayload p = .ok () ∧ p.type = s.inferred false)
      (fun e => ∃ r : Requirement, ¬(scalar s).Meets r ∧ r.kind = e.kind) s.toPayload := by
  cases s with
  | decimal d =>
    refine (Decimal.outcome_toPayload d).mono
      (fun p h => ⟨meets_scalar (fun d hd => by cases hd) fun d' hd => ?_, h.2⟩)
      fun e h => ⟨.decimals, fun hmeets => h.1 (hmeets d rfl), h.2.symm⟩
    cases hd
    exact h.1
  | duration d =>
    refine (Duration.outcome_toPayload d).mono
      (fun p h => ⟨meets_scalar (fun d' hd => ?_) (fun d hd => by cases hd), h.2⟩)
      fun e h => ⟨.durations, fun hmeets => h.1 (hmeets d rfl), h.2.symm⟩
    cases hd
    exact h.1
  | uuid u =>
    refine ⟨meets_scalar (fun d hd => by cases hd) (fun d hd => by cases hd), ?_, rfl⟩
    rw [Uuid.toPayload, Stored.checkPayload, if_pos (Uuid.isHyphenated_toText u)]
  | _ => exact ⟨meets_scalar (fun d hd => by cases hd) (fun d hd => by cases hd), rfl, rfl⟩

theorem judged_scalar (s : Scalar) : (scalar s).Judged left ((Draft.ofExcept s.toPayload).value left) := by
  have houtcome := outcome_toPayload s
  cases hp : s.toPayload with
  | error e =>
    rw [hp] at houtcome
    obtain ⟨r, hr, hkind⟩ := houtcome
    exact .inr ⟨scalar s, List.mem_singleton_self _, r, hr, hkind⟩
  | ok p =>
    rw [hp] at houtcome
    obtain ⟨hmeets, hcheck, htype⟩ := houtcome
    have hvalue : (Draft.ofExcept (.ok p)).value left = .ok (.payload p) := by
      rw [Draft.ofExcept, Draft.ofPayload, Draft.payload, hcheck]
      rfl
    rw [hvalue]
    refine ⟨.leaf rfl rfl hmeets, by rw [HostValue.inferred, Stored.type, htype], fun d hd => ?_⟩
    cases hd
    exact ⟨p, hp, rfl⟩

theorem judged_null : null.Judged left (Draft.null.value left) := by
  refine ⟨.leaf rfl rfl fun r => ?_, rfl, fun d hd => by cases hd⟩
  cases r with
  | noGraphElement => rfl
  | nonempty => exact fun h => by cases h
  | durations | decimals => exact fun d hd => by cases hd
  | restatable | commonType => exact fun s hs => by cases hs

theorem judged_refused (hgraph : v.isGraphElement) : v.Judged left ((Draft.ofError v.refused).value left) :=
  Violates.here (r := .noGraphElement) fun hmeets => by
    rw [Meets, hgraph] at hmeets
    cases hmeets

/-! ## Decimals side by side -/

theorem inferred_of_not_isWhole (beside : Bool) (h : ∀ d, v = .scalar (.decimal d) → ¬d.isWhole) :
    v.inferred beside = v.inferred false := by
  cases v with
  | scalar s =>
    cases s with
    | decimal d =>
      have hwhole := h d rfl
      rw [inferred, inferred, Scalar.inferred, Scalar.inferred, Decimal.inferred, Decimal.inferred, if_neg hwhole,
        if_neg hwhole]
    | _ => rfl
  | _ => simp only [inferred]

theorem tag_width_ne (w : IntWidth) : w.tag ≠ .decimal ∧ w.tag ≠ .int128 := by cases w <;> decide

theorem tag_scalar (s : Scalar) : ((s.inferred false).tag = .decimal ↔ (scalar s).isFractional) ∧
    ((s.inferred false).tag = .int128 ↔ ∃ d, scalar s = scalar (.decimal d) ∧ d.isWhole) := by
  cases s with
  | decimal d =>
    rw [Scalar.inferred, Decimal.inferred]
    by_cases hwhole : d.isWhole <;> simp [hwhole, isFractional, LogicalType.tag]
  | int w n =>
    obtain ⟨hdecimal, hint128⟩ := tag_width_ne w
    simp [Scalar.inferred, LogicalType.tag, isFractional, hdecimal, hint128]
  | _ => simp [Scalar.inferred, LogicalType.tag, isFractional]

/-- Only decimals are stored under the two tags of decimals: the fractional ones under one, the whole ones under the
other. -/
theorem tag_inferred {t : LogicalType} (h : v.inferred false = some t) : (t.tag = .decimal ↔ v.isFractional) ∧
    (t.tag = .int128 ↔ ∃ d, v = scalar (.decimal d) ∧ d.isWhole) := by
  cases v with
  | null =>
    cases h
    simp [LogicalType.tag, isFractional]
  | scalar s =>
    cases h
    exact tag_scalar s
  | list items =>
    rw [inferred] at h
    obtain ⟨_, -, rfl⟩ := Option.map_eq_some_iff.1 h
    simp [LogicalType.tag, isFractional]
  | struct fields =>
    rw [inferred] at h
    obtain ⟨_, -, rfl⟩ := Option.map_eq_some_iff.1 h
    simp [LogicalType.tag, isFractional]
  | map entries =>
    rw [inferred] at h
    obtain ⟨_, -, h⟩ := Option.bind_eq_some_iff.1 h
    obtain ⟨_, -, rfl⟩ := Option.map_eq_some_iff.1 h
    simp [LogicalType.tag, isFractional]
  | node _ | rel _ | path _ => cases h

theorem inferredItems_of_forall₂ {beside : Bool} {ts : List LogicalType}
    (h : List.Forall₂ (fun v t => v.inferred beside = some t) vs ts) : inferredItems beside vs = some ts := by
  induction h with
  | nil => rfl
  | cons hv _ ih =>
    rw [inferredItems, hv, ih]
    rfl

theorem forall₂_inferredItems {beside : Bool} : ∀ {vs : List HostValue} {ts : List LogicalType},
    inferredItems beside vs = some ts → List.Forall₂ (fun v t => v.inferred beside = some t) vs ts
  | [], _, h => by
    cases h
    exact .nil
  | v :: vs, ts, h => by
    obtain ⟨t, ht, h⟩ := Option.bind_eq_some_iff.1 h
    obtain ⟨ts, hts, rfl⟩ := Option.map_eq_some_iff.1 h
    exact .cons ht (forall₂_inferredItems hts)

/-- A whole decimal is restated as a decimal with all its digits before the point. -/
theorem KeptAs.outcome_restated {d : Decimal} {w : Stored} (h : (scalar (.decimal d)).KeptAs w) (hwhole : d.isWhole) :
    Outcome (fun w' => digitCount d.truncate.natAbs ≤ maxPrecision ∧
        (scalar (.decimal d)).inferred true = some w'.type)
      (fun e => ¬digitCount d.truncate.natAbs ≤ maxPrecision ∧ e.kind = .conversionFailed) (Draft.restated w) := by
  obtain ⟨p, hp, rfl⟩ := h.decimal d rfl
  obtain ⟨n, hn, rfl⟩ := Decimal.int128_of_toPayload hp hwhole
  have hwidth : (Decimal.ofInt n.val).width = digitCount d.truncate.natAbs := by rw [hn]; rfl
  have hscale : (Decimal.ofInt n.val).scale = 0 := rfl
  have houtcome := Decimal.outcome_toDecimalPayload (.ofInt n.val)
  rw [hwidth, hscale] at houtcome
  refine Outcome.bind (r := restatedInt128 n.val) houtcome (fun p' hp' => ?_) fun e he => ⟨by omega, he.2⟩
  obtain ⟨hfits, hcheck, htype⟩ := hp'
  rw [Draft.payload, hcheck]
  refine ⟨by omega, ?_⟩
  rw [HostValue.inferred, Scalar.inferred, Decimal.inferred, if_pos hwhole, if_pos rfl]
  change _ = some p'.type
  rw [htype]
  simp

/-- Restating is possible if no whole decimal has too many digits. -/
theorem outcome_restateAll (h : List.Forall₂ KeptAs vs ws) :
    Outcome (fun ws' => (∀ d, scalar (.decimal d) ∈ vs → d.isWhole → digitCount d.truncate.natAbs ≤ maxPrecision) ∧
        List.Forall₂ (fun v w => v.inferred true = some w.type) vs ws')
      (fun e => (∃ d, scalar (.decimal d) ∈ vs ∧ d.isWhole ∧ ¬digitCount d.truncate.natAbs ≤ maxPrecision) ∧
        e.kind = .conversionFailed) (Draft.restateAll ws) := by
  induction h with
  | nil => exact ⟨fun d hd => (by cases hd), .nil⟩
  | @cons v w vs ws hv _ hrest =>
    rw [Draft.restateAll]
    split
    · rename_i htag
      obtain ⟨d, rfl, hwhole⟩ := (tag_inferred hv.inferred).2.1 htag
      refine (hv.outcome_restated hwhole).bind (fun w' hw' => ?_) fun e he =>
        ⟨⟨d, List.mem_cons_self, hwhole, he.1⟩, he.2⟩
      refine hrest.map (fun ws' hws' => ⟨fun d' hd' hwhole' => ?_, .cons hw'.2 hws'.2⟩) fun e he => ?_
      · rcases List.mem_cons.1 hd' with heq | hmem
        · cases heq
          exact hw'.1
        · exact hws'.1 d' hmem hwhole'
      · obtain ⟨⟨d', hmem, hd'⟩, hkind⟩ := he
        exact ⟨⟨d', List.mem_cons_of_mem _ hmem, hd'⟩, hkind⟩
    · rename_i htag
      have hplain : ∀ d, v = scalar (.decimal d) → ¬d.isWhole := fun d hd hwhole =>
        htag ((tag_inferred hv.inferred).2.2 ⟨d, hd, hwhole⟩)
      refine hrest.map (fun ws' hws' => ⟨fun d' hd' hwhole' => ?_, .cons ?_ hws'.2⟩) fun e he => ?_
      · rcases List.mem_cons.1 hd' with heq | hmem
        · exact absurd hwhole' (hplain d' heq.symm)
        · exact hws'.1 d' hmem hwhole'
      · rw [inferred_of_not_isWhole true hplain]
        exact hv.inferred
      · obtain ⟨⟨d', hmem, hd'⟩, hkind⟩ := he
        exact ⟨⟨d', List.mem_cons_of_mem _ hmem, hd'⟩, hkind⟩

theorem contains_decimal (h : List.Forall₂ KeptAs vs ws) :
    (ws.map (·.type.tag)).contains .decimal = vs.any isFractional := by
  induction h with
  | nil => rfl
  | @cons v w vs ws hv _ ih =>
    have hhead : (Tag.decimal == w.type.tag) = v.isFractional := by
      rw [Bool.eq_iff_iff, beq_iff_eq, eq_comm]
      exact (tag_inferred hv.inferred).1
    rw [List.map_cons, List.contains_cons, List.any_cons, hhead, ih]

theorem contains_int128 (h : List.Forall₂ KeptAs vs ws) :
    (ws.map (·.type.tag)).contains .int128 ↔ ∃ d, scalar (.decimal d) ∈ vs ∧ d.isWhole := by
  induction h with
  | nil => simp
  | @cons v w vs ws hv _ ih =>
    have hhead : (Tag.int128 == w.type.tag) = true ↔ ∃ d, scalar (.decimal d) = v ∧ d.isWhole := by
      rw [beq_iff_eq, eq_comm, (tag_inferred hv.inferred).2]
      simp only [eq_comm]
    rw [List.map_cons, List.contains_cons, Bool.or_eq_true, hhead, ih]
    simp only [List.mem_cons, or_and_right, exists_or]

theorem inferredItems_of_not_isWhole (beside : Bool) : ∀ {vs : List HostValue},
    (∀ d, scalar (.decimal d) ∈ vs → ¬d.isWhole) → inferredItems beside vs = inferredItems false vs
  | [], _ => rfl
  | v :: vs, h => by
    have hv : ∀ d, v = scalar (.decimal d) → ¬d.isWhole := fun d hd => h d (hd ▸ List.mem_cons_self)
    rw [inferredItems, inferredItems, inferred_of_not_isWhole beside hv,
      inferredItems_of_not_isWhole beside fun d hd => h d (List.mem_cons_of_mem _ hd)]

theorem inferredItems_of_keptAs (h : List.Forall₂ KeptAs vs ws) :
    inferredItems false vs = some (ws.map Stored.type) :=
  inferredItems_of_forall₂ (List.forall₂_map_right_iff.2 (h.imp fun _ _ hv => hv.inferred))

/-- **Siblings are aligned** to the types that are inferred of them, unless one cannot be restated. -/
theorem outcome_aligned (h : List.Forall₂ KeptAs vs ws) :
    Outcome (fun ws' => Restatable vs ∧ siblingTypes vs = some (ws'.map Stored.type))
      (fun e => ¬Restatable vs ∧ e.kind = .conversionFailed) (Draft.aligned ws) := by
  unfold Draft.aligned siblingTypes
  dsimp only
  rw [contains_decimal h]
  split
  · rename_i hboth
    have hfractional : vs.any isFractional = true := (Bool.and_eq_true_iff.1 hboth).1
    refine (outcome_restateAll h).mono (fun ws' hws' => ⟨fun _ => hws'.1, ?_⟩) fun e he => ⟨fun hr => ?_, he.2⟩
    · rw [hfractional]
      exact inferredItems_of_forall₂ (List.forall₂_map_right_iff.2 hws'.2)
    · obtain ⟨d, hmem, hwhole, hlong⟩ := he.1
      exact hlong (hr hfractional d hmem hwhole)
  · rename_i hnot
    have hplain : vs.any isFractional = true → ∀ d, scalar (.decimal d) ∈ vs → ¬d.isWhole :=
      fun hfractional d hmem hwhole =>
        hnot (Bool.and_eq_true_iff.2 ⟨hfractional, (contains_int128 h).2 ⟨d, hmem, hwhole⟩⟩)
    refine ⟨fun hfractional d hmem hwhole => absurd hwhole (hplain hfractional d hmem), ?_⟩
    cases hfractional : vs.any isFractional with
    | false => exact inferredItems_of_keptAs h
    | true =>
      rw [inferredItems_of_not_isWhole true (hplain hfractional)]
      exact inferredItems_of_keptAs h

/-! ## Parts -/

/-- All values are kept, or one of them violates what the error reports. -/
def AllJudged (left : Nat) (vs : List HostValue) (r : Except ConvertError (List Stored)) : Prop :=
  Outcome (fun ws => (∀ v ∈ vs, v.Encodable left) ∧ List.Forall₂ KeptAs vs ws)
    (fun e => ∃ v ∈ vs, v.Violates left e.kind) r

theorem Judged.within {r : Except ConvertError Stored} (place : Place) (h : v.Judged left r) :
    v.Judged left (Draft.within place r) :=
  h.mapError (fun _ hw => hw) fun e he => by rwa [ConvertError.kind_within]

theorem allJudged_all {rs : List (Except ConvertError Stored)} (h : List.Forall₂ (Judged left) vs rs) :
    AllJudged left vs (Draft.all rs) := by
  induction h with
  | nil => exact ⟨fun v hv => (by cases hv), .nil⟩
  | @cons v r vs rs hr _ ih =>
    rw [Draft.all]
    refine Outcome.bind hr (fun w hw => ?_) fun e he => ⟨v, List.mem_cons_self, he⟩
    refine Outcome.map ih (fun ws hws => ?_) fun e he => ?_
    · exact ⟨List.forall_mem_cons.2 ⟨hw.1, hws.1⟩, .cons hw.2 hws.2⟩
    · obtain ⟨p, hp, hviolates⟩ := he
      exact ⟨p, List.mem_cons_of_mem _ hp, hviolates⟩

theorem allJudged_allPairs {es : List (HostValue × HostValue)}
    {rs : List (Except ConvertError Stored × Except ConvertError Stored)}
    (h : List.Forall₂ (fun e r => e.1.Judged left r.1 ∧ e.2.Judged left r.2) es rs) :
    Outcome (fun p => (∀ v ∈ es.map Prod.fst ++ es.map Prod.snd, v.Encodable left) ∧
        List.Forall₂ KeptAs (es.map Prod.fst) p.1 ∧ List.Forall₂ KeptAs (es.map Prod.snd) p.2)
      (fun e => ∃ v ∈ es.map Prod.fst ++ es.map Prod.snd, v.Violates left e.kind) (Draft.allPairs rs) := by
  induction h with
  | nil => exact ⟨fun v hv => (by cases hv), .nil, .nil⟩
  | @cons e r es rs hr _ ih =>
    obtain ⟨k, v⟩ := e
    rw [Draft.allPairs, List.map_cons, List.map_cons]
    refine Outcome.bind hr.1 (fun w hw => ?_) fun e he => ⟨k, List.mem_cons_self, he⟩
    refine Outcome.bind hr.2 (fun w' hw' => ?_) fun e he => ⟨v, ?_, he⟩
    · refine Outcome.map ih (fun p hp => ?_) fun e he => ?_
      · obtain ⟨hall, hkeys, hvalues⟩ := hp
        rw [List.forall_mem_append] at hall
        refine ⟨?_, .cons hw.2 hkeys, .cons hw'.2 hvalues⟩
        rw [List.forall_mem_append, List.forall_mem_cons, List.forall_mem_cons]
        exact ⟨⟨hw.1, hall.1⟩, hw'.1, hall.2⟩
      · obtain ⟨p, hp, hviolates⟩ := he
        refine ⟨p, ?_, hviolates⟩
        rw [List.mem_append] at hp ⊢
        exact hp.imp (List.mem_cons_of_mem _) (List.mem_cons_of_mem _)
    · exact List.mem_append_right _ List.mem_cons_self

/-! ## Collections -/

theorem outcome_enter (kind : CollectionKind) (hv : v.isCollection) :
    Outcome (fun inner => left = inner + 1 ∧ v.parts ≠ []) (fun e => v.Violates left e.kind)
      (Draft.enter c kind v.parts.isEmpty left) := by
  unfold Draft.enter
  split
  · rename_i hempty
    exact Violates.here (r := .nonempty) fun hmeets => hmeets hv (List.isEmpty_iff.1 hempty)
  · rename_i hparts
    cases left with
    | zero =>
      refine .inl ⟨?_, rfl⟩
      cases v with
      | list _ | struct _ | map _ => exact Nat.succ_pos _
      | _ => cases hv
    | succ inner => exact ⟨rfl, fun hempty => hparts (List.isEmpty_iff.2 hempty)⟩

theorem meets_collection (hv : v.isCollection) (hparts : v.parts ≠ []) (hrestatable : ∀ s ∈ v.siblings, Restatable s)
    (hjoinable : ∀ s ∈ v.siblings, Joinable s) : ∀ r, v.Meets r
  | .noGraphElement => by
    cases v with
    | list _ | struct _ | map _ => rfl
    | _ => cases hv
  | .nonempty => fun _ => hparts
  | .durations | .decimals => fun d hd => by
    subst hd
    cases hv
  | .restatable => hrestatable
  | .commonType => hjoinable

theorem joinable_of_isSome {ts : List LogicalType} (hts : siblingTypes vs = some ts)
    (h : (LogicalType.joinAll? ts).isSome) : Joinable vs := by
  intro _ us hus
  rw [hts] at hus
  cases hus
  exact h

theorem not_joinable {ts : List LogicalType} (hts : siblingTypes vs = some ts) (hvs : vs ≠ [])
    (h : LogicalType.joinAll? ts = none) : ¬Joinable vs := by
  intro hjoinable
  have hsome := hjoinable hvs ts hts
  rw [h] at hsome
  cases hsome

theorem length_inferredItems {beside : Bool} {ts : List LogicalType} (h : inferredItems beside vs = some ts) :
    ts.length = vs.length :=
  (forall₂_inferredItems h).length_eq.symm

theorem length_eq_of_siblingTypes (h : siblingTypes vs = some (ws.map Stored.type)) : ws.length = vs.length := by
  have hlength := length_inferredItems h
  rwa [List.length_map] at hlength

theorem ne_nil_of_siblingTypes (hvs : vs ≠ []) (h : siblingTypes vs = some (ws.map Stored.type)) : ws ≠ [] := by
  rintro rfl
  exact hvs (List.length_eq_zero_iff.1 (length_eq_of_siblingTypes h).symm)

theorem judged_list {ds : List Draft} (h : List.Forall₂ (fun v d => ∀ left, v.Judged left (d.value left)) vs ds)
    (left : Nat) : (list vs).Judged left ((Draft.list c ds).value left) := by
  have hempty : ds.isEmpty = (list vs).parts.isEmpty := by cases h <;> rfl
  unfold Draft.list
  dsimp only
  rw [hempty]
  refine (outcome_enter .list rfl).bind (fun inner hinner => ?_) fun e he => he
  obtain ⟨rfl, hparts⟩ := hinner
  have hall : AllJudged inner vs (Draft.all (ds.mapIdx fun i d => Draft.within (.element i) (d.value inner))) := by
    have hjudged := forall₂_mapIdx (f := fun _ v => v) (S := Judged inner)
      (g := fun i d => Draft.within (.element i) (d.value inner)) h fun i v d hd => (hd inner).within (.element i)
    rw [mapIdx_const, List.map_id'] at hjudged
    exact allJudged_all hjudged
  refine Outcome.bind hall (fun ws hws => ?_) fun e he => ?_
  · refine (outcome_aligned hws.2).bind (fun ws' hws' => ?_) fun e he => ?_
    · obtain ⟨hrestatable, htypes⟩ := hws'
      refine (Stored.outcome_listOf? (ne_nil_of_siblingTypes hparts htypes)).mapError (fun w hw => ?_) fun e he => ?_
      · obtain ⟨t, ht, rfl⟩ := hw
        refine ⟨.of_parts rfl hws.1 (meets_collection rfl hparts ?_ ?_), ?_, fun d hd => by cases hd⟩
        · exact List.forall_mem_singleton.2 hrestatable
        · exact List.forall_mem_singleton.2 (joinable_of_isSome htypes (by rw [ht]; rfl))
        · rw [inferred_list, htypes, Option.bind_some, ht]
          rfl
      · exact Violates.here (r := .commonType) fun hmeets =>
          not_joinable htypes hparts he.1 (hmeets vs (List.mem_singleton_self vs))
    · rw [he.2]
      exact Violates.here (r := .restatable) fun hmeets => he.1 (hmeets vs (List.mem_singleton_self vs))
  · obtain ⟨p, hp, hviolates⟩ := he
    exact .of_part rfl hp hviolates

theorem exists_inferredFields : ∀ {fs : List (String × HostValue)},
    (∀ f ∈ fs, ∃ t, f.2.inferred false = some t) → ∃ ts, inferredFields fs = some ts ∧
      List.Forall₂ (fun f t => f.1 = t.1 ∧ f.2.inferred false = some t.2) fs ts
  | [], _ => ⟨[], rfl, .nil⟩
  | (name, v) :: fs, h => by
    obtain ⟨⟨t, ht⟩, hfs⟩ := List.forall_mem_cons.1 h
    obtain ⟨ts, hts, hall⟩ := exists_inferredFields hfs
    exact ⟨(name, t) :: ts, by rw [inferredFields, ht, hts]; rfl, .cons ⟨rfl, ht⟩ hall⟩

theorem exists_of_mem_keptAs {ws : List Stored} (h : List.Forall₂ KeptAs vs ws) :
    ∀ v ∈ vs, ∃ t, v.inferred false = some t := by
  induction h with
  | nil => exact fun v hv => by cases hv
  | cons hv _ ih => exact List.forall_mem_cons.2 ⟨⟨_, hv.inferred⟩, ih⟩

/-- Fields that are kept in the order of their names have the types that are inferred, in that order. -/
theorem inferred_struct {fields : List (String × HostValue)}
    (h : List.Forall₂ KeptAs ((Fields.sorted fields).map Prod.snd) ws) :
    (struct fields).inferred false = some (.struct
      ((((Fields.sorted fields).map Prod.fst).zip ws).map fun f => (f.1, f.2.type))) := by
  have hperm := Fields.sorted_perm fields
  have htyped : ∀ f ∈ fields, ∃ t, f.2.inferred false = some t := fun f hf =>
    exists_of_mem_keptAs h f.2 (List.mem_map_of_mem (hperm.mem_iff.2 hf))
  obtain ⟨ts, hts, hfields⟩ := exists_inferredFields htyped
  have hsorted := Fields.forall₂_sorted (R := fun v t => inferred false v = some t) hfields
  have hnames : List.Forall₂ (fun name f => name = f.1) ((Fields.sorted fields).map Prod.fst) (Fields.sorted fields) :=
    List.forall₂_map_left_iff.2 (List.forall₂_same.2 fun _ _ => rfl)
  have hkept : List.Forall₂ (fun w f => f.2.KeptAs w) ws (Fields.sorted fields) := (List.forall₂_map_left_iff.1 h).flip
  have hzipped := (forall₂_zipped (S := fun w v => KeptAs v w) hnames hkept).flip
  have heq : List.Forall₂ (fun t f => id t = (f.1, f.2.type)) (Fields.sorted ts)
      (((Fields.sorted fields).map Prod.fst).zip ws) :=
    forall₂_through hsorted hzipped fun f t w ht hw =>
      Prod.ext (ht.1.symm.trans hw.1.symm) (Option.some.inj (ht.2.symm.trans hw.2.inferred))
  rw [inferred, hts, Option.map_some, ← map_eq_map_of_forall₂ heq, List.map_id]

theorem judged_struct {fields : List (String × HostValue)} {ds : List (String × Draft)}
    (h : List.Forall₂ (fun f d => f.1 = d.1 ∧ ∀ left, f.2.Judged left (d.2.value left)) fields ds) (left : Nat) :
    (struct fields).Judged left ((Draft.struct c ds).value left) := by
  have hempty : ds.isEmpty = (struct fields).parts.isEmpty := by cases h <;> rfl
  have hsorted := Fields.forall₂_sorted (R := fun v (d : Draft) => ∀ left, Judged left v (d.value left)) h
  have hperm := Fields.sorted_perm fields
  have hnames : (Fields.sorted fields).map Prod.fst = (Fields.sorted ds).map Prod.fst :=
    map_eq_map_of_forall₂ (hsorted.imp fun _ _ hfd => hfd.1)
  unfold Draft.struct
  dsimp only
  rw [hempty, ← hnames]
  refine (outcome_enter .struct rfl).bind (fun inner hinner => ?_) fun e he => he
  obtain ⟨rfl, hparts⟩ := hinner
  have hall : AllJudged inner ((Fields.sorted fields).map Prod.snd)
      (Draft.all ((Fields.sorted ds).map fun d => Draft.within (.field d.1) (d.2.value inner))) :=
    allJudged_all (List.forall₂_map_left_iff.2 (List.forall₂_map_right_iff.2
      (hsorted.imp fun f d hfd => (hfd.2 inner).within (.field d.1))))
  refine Outcome.bind hall (fun ws hws => ?_) fun e he => ?_
  · have hlength : ws.length = fields.length := by
      rw [← hws.2.length_eq, List.length_map, hperm.length_eq]
    have hne : (((Fields.sorted fields).map Prod.fst).zip ws).isEmpty = false := by
      rw [List.isEmpty_eq_false_iff, ← List.length_pos_iff, List.length_zip, List.length_map, hperm.length_eq, hlength,
        Nat.min_self, List.length_pos_iff]
      rintro rfl
      exact hparts rfl
    rw [Stored.structOf?, hne]
    refine ⟨.of_parts rfl (fun v hv => ?_) (meets_collection rfl hparts ?_ ?_), inferred_struct hws.2,
      fun d hd => by cases hd⟩
    · exact hws.1 v ((hperm.map Prod.snd).mem_iff.2 hv)
    · exact fun s hs => by cases hs
    · exact fun s hs => by cases hs
  · obtain ⟨p, hp, hviolates⟩ := he
    exact .of_part rfl ((hperm.map Prod.snd).mem_iff.1 hp) hviolates

theorem judged_map {es : List (HostValue × HostValue)} {ds : List (Draft × Draft)}
    (h : List.Forall₂ (fun e d => (∀ left, e.1.Judged left (d.1.value left)) ∧ ∀ left, e.2.Judged left (d.2.value left))
      es ds) (left : Nat) : (map es).Judged left ((Draft.map c ds).value left) := by
  have hempty : ds.isEmpty = (map es).parts.isEmpty := by cases h <;> rfl
  unfold Draft.map
  dsimp only
  rw [hempty]
  refine (outcome_enter .map rfl).bind (fun inner hinner => ?_) fun e he => he
  obtain ⟨rfl, hparts⟩ := hinner
  have hkeysne : es.map Prod.fst ≠ [] := fun hnil => hparts (by rw [parts, List.map_eq_nil_iff.1 hnil]; rfl)
  have hvaluesne : es.map Prod.snd ≠ [] := fun hnil => hparts (by rw [parts, List.map_eq_nil_iff.1 hnil]; rfl)
  have hpairs : List.Forall₂ (fun e r => e.1.Judged inner r.1 ∧ e.2.Judged inner r.2) es (ds.mapIdx fun i d =>
      (Draft.within (.mapEntry i) (d.1.value inner), Draft.within (.mapEntry i) (d.2.value inner))) := by
    have hjudged := forall₂_mapIdx (f := fun _ e => e)
      (S := fun e (r : Except ConvertError Stored × Except ConvertError Stored) =>
        Judged inner e.1 r.1 ∧ Judged inner e.2 r.2)
      (g := fun i (d : Draft × Draft) =>
        (Draft.within (.mapEntry i) (d.1.value inner), Draft.within (.mapEntry i) (d.2.value inner))) h
      fun i e d hd => ⟨(hd.1 inner).within (.mapEntry i), (hd.2 inner).within (.mapEntry i)⟩
    rwa [mapIdx_const, List.map_id'] at hjudged
  refine (allJudged_allPairs hpairs).bind (fun p hp => ?_) fun e he => ?_
  · obtain ⟨hencodable, hkeys, hvalues⟩ := hp
    refine (outcome_aligned hkeys).bind (fun ks hks => ?_) fun e he => ?_
    · refine (outcome_aligned hvalues).bind (fun vs hvs => ?_) fun e he => ?_
      · have hlength : ks.length = vs.length := by
          rw [length_eq_of_siblingTypes hks.2, length_eq_of_siblingTypes hvs.2, List.length_map, List.length_map]
        refine (Stored.outcome_mapOf? hlength (ne_nil_of_siblingTypes hkeysne hks.2)).mapError (fun w hw => ?_) fun e he => ?_
        · obtain ⟨k, t, hk, ht, rfl⟩ := hw
          refine ⟨.of_parts rfl hencodable (meets_collection rfl hparts ?_ ?_), ?_, fun d hd => by cases hd⟩
          · exact List.forall_mem_cons.2 ⟨hks.1, List.forall_mem_singleton.2 hvs.1⟩
          · exact List.forall_mem_cons.2 ⟨joinable_of_isSome hks.2 (by rw [hk]; rfl),
              List.forall_mem_singleton.2 (joinable_of_isSome hvs.2 (by rw [ht]; rfl))⟩
          · rw [inferred_map, hks.2, hvs.2, Option.bind_some, Option.bind_some, hk, ht]
            rfl
        · rcases he.1 with he | he
          · exact Violates.here (r := .commonType) fun hmeets =>
              not_joinable hks.2 hkeysne he (hmeets _ List.mem_cons_self)
          · exact Violates.here (r := .commonType) fun hmeets =>
              not_joinable hvs.2 hvaluesne he (hmeets _ (List.mem_cons_of_mem _ List.mem_cons_self))
      · rw [he.2]
        exact Violates.here (r := .restatable) fun hmeets =>
          he.1 (hmeets _ (List.mem_cons_of_mem _ List.mem_cons_self))
    · rw [he.2]
      exact Violates.here (r := .restatable) fun hmeets => he.1 (hmeets _ List.mem_cons_self)
  · obtain ⟨p, hp, hviolates⟩ := he
    exact .of_part rfl hp hviolates

/-! ## Host values -/

mutual
/-- **The draft of a host value judges it.** -/
theorem judged_draft (c : Config) : ∀ (v : HostValue) (left : Nat), v.Judged left ((v.draft c).value left)
  | null => fun _ => judged_null
  | scalar s => fun _ => judged_scalar s
  | list items => judged_list (judged_items c items)
  | struct fields => judged_struct (judged_fields c fields)
  | map entries => judged_map (judged_entries c entries)
  | node _ | rel _ | path _ => fun _ => judged_refused rfl
theorem judged_items (c : Config) : ∀ vs : List HostValue,
    List.Forall₂ (fun v d => ∀ left, Judged left v (Draft.value d left)) vs (draftItems c vs)
  | [] => .nil
  | v :: vs => .cons (judged_draft c v) (judged_items c vs)
theorem judged_fields (c : Config) : ∀ fs : List (String × HostValue),
    List.Forall₂ (fun f d => f.1 = d.1 ∧ ∀ left, Judged left f.2 (Draft.value d.2 left)) fs (draftFields c fs)
  | [] => .nil
  | (_, v) :: fs => .cons ⟨rfl, judged_draft c v⟩ (judged_fields c fs)
theorem judged_entries (c : Config) : ∀ es : List (HostValue × HostValue),
    List.Forall₂ (fun e d => (∀ left, Judged left e.1 (Draft.value d.1 left)) ∧
      ∀ left, Judged left e.2 (Draft.value d.2 left)) es (draftEntries c es)
  | [] => .nil
  | (k, v) :: es => .cons ⟨judged_draft c k, judged_draft c v⟩ (judged_entries c es)
end

mutual
/-- As many values are built as there are in the host value. -/
theorem parts_draft (c : Config) : ∀ v : HostValue, (v.draft c).parts + 1 = v.subvalues.length
  | null | node _ | rel _ | path _ => rfl
  | scalar s => by
    have hone : (scalar s).subvalues.length = 1 := rfl
    rw [hone, draft]
    cases s.toPayload <;> rfl
  | list items => by
    rw [draft, subvalues, List.length_cons, ← total_items c items]
    rfl
  | struct fields => by
    rw [draft, subvalues, List.length_cons, ← total_fields c fields]
    rfl
  | map entries => by
    rw [draft, subvalues, List.length_cons, ← total_entries c entries]
    rfl
theorem total_items (c : Config) : ∀ vs : List HostValue,
    Draft.total (draftItems c vs) = (subvaluesOfItems vs).length
  | [] => rfl
  | v :: vs => by
    rw [draftItems, subvaluesOfItems, List.length_append, ← parts_draft c v, ← total_items c vs]
    rfl
theorem total_fields (c : Config) : ∀ fs : List (String × HostValue),
    Draft.total ((draftFields c fs).map Prod.snd) = (subvaluesOfFields fs).length
  | [] => rfl
  | (_, v) :: fs => by
    rw [draftFields, subvaluesOfFields, List.length_append, ← parts_draft c v, ← total_fields c fs]
    rfl
theorem total_entries (c : Config) : ∀ es : List (HostValue × HostValue),
    Draft.total ((draftEntries c es).map Prod.fst) + Draft.total ((draftEntries c es).map Prod.snd) =
      (subvaluesOfEntries es).length
  | [] => rfl
  | (k, v) :: es => by
    rw [draftEntries, subvaluesOfEntries, List.length_append, List.length_append, ← parts_draft c k, ← parts_draft c v,
      ← total_entries c es]
    simp only [Draft.total, List.map_cons, List.sum_cons]
    omega
end

/-- On an engine with room, a host value is built or refused as its draft says. -/
theorem build_cases_draft (c : Config) (v : HostValue) {m : Memory} (hm : m.Reachable)
    (hroom : m.live + v.subvalues.length ≤ m.limit) :
    (∃ h m' sv, (Source.host v).build c m = .ok h m' ∧ (v.draft c).value c.maxDepth = .ok sv ∧
      Memory.Adds m [(h, sv)] m') ∨
    ∃ e m', (Source.host v).build c m = .error e m' ∧ (v.draft c).value c.maxDepth = .error e := by
  have hroomy : Tabled.Roomy m (((Source.host v).draft c).parts + 1) := ⟨trivial, by rwa [Source.draft, parts_draft]⟩
  rcases Source.build_cases (s := m) hm.issued hroomy with ⟨h, m', sv, hbuild, hsv, hmoves⟩ | hrefused
  · exact .inl ⟨h, m', sv, hbuild, hsv, hmoves.adds⟩
  · exact .inr hrefused

theorem exists_build_iff {m : Memory} (hm : m.Reachable) (hroom : m.live + v.subvalues.length ≤ m.limit) :
    (∃ h m', (Source.host v).build c m = .ok h m') ↔ ∃ sv, (v.draft c).value c.maxDepth = .ok sv := by
  rcases build_cases_draft c v hm hroom with ⟨h, m', sv, hbuild, hsv, -⟩ | ⟨e, m', hbuild, he⟩
  · exact iff_of_true ⟨h, m', hbuild⟩ ⟨sv, hsv⟩
  · exact iff_of_false (fun ⟨_, _, hok⟩ => by cases hbuild.symm.trans hok) fun ⟨_, hsv⟩ => by cases he.symm.trans hsv

theorem draft_of_refused {m m' : Memory} {e : ConvertError} (hm : m.Reachable)
    (hroom : m.live + v.subvalues.length ≤ m.limit) (hbuild : (Source.host v).build c m = .error e m') :
    (v.draft c).value c.maxDepth = .error e := by
  rcases build_cases_draft c v hm hroom with ⟨_, _, _, hok, -⟩ | ⟨_, _, hfail, he⟩
  · cases hbuild.symm.trans hok
  · cases hbuild.symm.trans hfail
    exact he

theorem adds_of_build {m m' : Memory} {h : Handle} (hm : m.Reachable)
    (hbuild : (Source.host v).build c m = .ok h m') :
    ∃ sv, (v.draft c).value c.maxDepth = .ok sv ∧ Memory.Adds m [(h, sv)] m' := by
  obtain ⟨sv, hsv, hmoves⟩ := Source.moves_of_build (s := m) hm.issued hbuild
  exact ⟨sv, hsv, hmoves.adds⟩

theorem exists_build_iff_encodable {m : Memory} (hm : m.Reachable) (hroom : m.live + v.subvalues.length ≤ m.limit) :
    (∃ h m', (Source.host v).build c m = .ok h m') ↔ v.Encodable c.maxDepth := by
  rw [exists_build_iff hm hroom]
  have hjudged := judged_draft c v c.maxDepth
  cases hsv : (v.draft c).value c.maxDepth with
  | ok sv =>
    rw [hsv] at hjudged
    exact iff_of_true ⟨sv, rfl⟩ hjudged.1
  | error e =>
    rw [hsv] at hjudged
    exact iff_of_false (fun ⟨_, hok⟩ => nomatch hok) hjudged.not_encodable

theorem violates_of_refused {m m' : Memory} {e : ConvertError} (hm : m.Reachable)
    (hroom : m.live + v.subvalues.length ≤ m.limit) (hbuild : (Source.host v).build c m = .error e m') :
    v.Violates c.maxDepth e.kind := by
  have hjudged := judged_draft c v c.maxDepth
  rwa [draft_of_refused hm hroom hbuild] at hjudged

/-- **Exactly the encodable values are encoded**, on an engine with room for them.  The value that is stored has the
inferred type, and a failure is of the kind of a condition that is violated. -/
theorem build_iff_encodable (c : Config) (v : HostValue) {m : Memory} (hm : m.Reachable)
    (hroom : m.live + v.subvalues.length ≤ m.limit) :
    ((∃ h m', (Source.host v).build c m = .ok h m') ↔ v.Encodable c.maxDepth) ∧
    (∀ h m', (Source.host v).build c m = .ok h m' →
      ∃ w, m'.find? h = .ok w ∧ v.inferred false = some w.type) ∧
    ∀ e m', (Source.host v).build c m = .error e m' → v.Violates c.maxDepth e.kind := by
  refine ⟨exists_build_iff_encodable hm hroom, fun h m' hbuild => ?_, fun e m' => violates_of_refused hm hroom⟩
  obtain ⟨w, hw, hadds⟩ := adds_of_build hm hbuild
  have hjudged := judged_draft c v c.maxDepth
  rw [hw] at hjudged
  exact ⟨w, hadds.find?_of_mem List.mem_cons_self, hjudged.2.inferred⟩

/-- A null, and a list of one and a half and two. -/
def nestedHalves : HostValue := .list [.null, .list [.scalar (.decimal ⟨15, 1⟩), .scalar (.decimal ⟨2, 0⟩)]]

/-- The two is restated for the half beside it, and the null has any type. -/
theorem build_iff_encodable_nestedHalves : nestedHalves.Encodable 64 ∧
    ∃ (h : Handle) (m' : Memory), (Source.host nestedHalves).build {} { limit := 5 } = .ok h m' ∧
      ∃ w, m'.find? h = .ok w ∧ w.type = .list (.list (.decimal 2 1)) := by
  obtain ⟨hiff, htype, -⟩ := build_iff_encodable {} nestedHalves (.empty 5) (by decide)
  have hok : ∃ (h : Handle) (m' : Memory), (Source.host nestedHalves).build {} { limit := 5 } = .ok h m' := ⟨_, _, rfl⟩
  refine ⟨hiff.1 hok, ?_⟩
  obtain ⟨h, m', hbuild⟩ := hok
  obtain ⟨w, hw, hinferred⟩ := htype h m' hbuild
  exact ⟨h, m', hbuild, w, hw, (Option.some.inj hinferred).symm⟩

end HostValue

end ValueBridge
