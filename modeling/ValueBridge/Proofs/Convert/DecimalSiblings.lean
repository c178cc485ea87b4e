import ValueBridge.Proofs.Convert.Columns
import ValueBridge.Proofs.Convert.StandIn
import ValueBridge.Proofs.Convert.TargetRoundTrip
import ValueBridge.Proofs.Type.Decimals
import ValueBridge.Proofs.Type.Joining
/-!
# Decimals in one collection

Decimals and nulls that stand side by side, in a list or on one side of a map, are stored as a column of payloads under one
element type: 128-bit integers if all decimals are whole, and otherwise decimals, the whole ones restated.  The only thing
that can fail is converting a decimal (`DecimalColumn.fits_iff_encodable`, `Seat.Allows.violates_collect`), since the types
of such a column always join (`DecimalColumn.joinable_ofDecimal?`).  What is stored is decoded as the same column, by its
tag or as optional decimals (`DecimalColumn.share_collection`).
-/
namespace ValueBridge

open HostValue (Joinable siblingTypes)

variable {c : Config} {inner left : Nat}

/-! ## Decimals and nulls -/

/-- A decimal or null as a host value. -/
def HostValue.ofDecimal? : Option Decimal → HostValue
  | none => .null
  | some d => .scalar (.decimal d)

namespace DecimalColumn

open HostValue (ofDecimal?)

variable {items : List (Option Decimal)}

/-- Every decimal is stored on its own, and beside one that is not whole every whole one has at most 38 digits. -/
structure Fits (items : List (Option Decimal)) : Prop where
  storable : ∀ d, some d ∈ items → ∃ p, d.toPayload = .ok p
  restatable : (∃ d, some d ∈ items ∧ ¬d.isWhole) → ∀ d, some d ∈ items → d.isWhole → digitCount d.truncate.natAbs ≤ 38

/-- The type of a decimal or null, which may stand beside a decimal that is not whole. -/
def typeOf (beside : Bool) : Option Decimal → LogicalType
  | none => .any
  | some d => d.inferred beside

theorem mem_map_ofDecimal? {d : Decimal} : HostValue.scalar (.decimal d) ∈ items.map ofDecimal? ↔ some d ∈ items := by
  rw [List.mem_map]
  constructor
  · rintro ⟨o, ho, heq⟩
    cases o with
    | none => cases heq
    | some e =>
      cases heq
      exact ho
  · exact fun h => ⟨some d, h, rfl⟩

/-- Whether a decimal is not whole. -/
def isMixed (items : List (Option Decimal)) : Bool := (items.map ofDecimal?).any HostValue.isFractional

theorem isMixed_iff : isMixed items ↔ ∃ d, some d ∈ items ∧ ¬d.isWhole := by
  rw [isMixed, List.any_map, List.any_eq_true]
  constructor
  · rintro ⟨o, ho, hfractional⟩
    cases o with
    | none => cases hfractional
    | some d => exact ⟨d, ho, by simpa [ofDecimal?, HostValue.isFractional] using hfractional⟩
  · rintro ⟨d, hd, hwhole⟩
    exact ⟨some d, hd, by simpa [ofDecimal?, HostValue.isFractional] using hwhole⟩

theorem storable_iff {d : Decimal} : d.Storable ↔ ∃ p, d.toPayload = .ok p := by
  have houtcome := d.outcome_toPayload
  cases hp : d.toPayload with
  | ok p =>
    rw [hp] at houtcome
    exact iff_of_true houtcome.1 ⟨p, rfl⟩
  | error e =>
    rw [hp] at houtcome
    exact iff_of_false houtcome.1 fun ⟨p, h⟩ => by cases h

/-! ## When they can be encoded -/

theorem encodable_ofDecimal? {o : Option Decimal} (h : ∀ d, o = some d → d.Storable) :
    (ofDecimal? o).Encodable left := by
  cases o with
  | none => exact HostValue.judged_null.1
  | some d =>
    refine .leaf rfl rfl (HostValue.meets_scalar (fun _ hd => by cases hd) fun e he => ?_)
    cases he
    exact h d rfl

theorem kind_of_violates {o : Option Decimal} {kind : ErrorKind} (h : (ofDecimal? o).Violates left kind) :
    kind = .conversionFailed := by
  rcases h with ⟨-, hkind⟩ | ⟨w, hw, r, hr, hkind⟩
  · exact hkind
  · have hself : w = ofDecimal? o := by cases o <;> exact List.mem_singleton.1 hw
    subst hself
    cases r with
    | durations | decimals | restatable => exact hkind.symm
    | noGraphElement => exact absurd (by cases o <;> rfl) hr
    | nonempty => exact absurd (fun hcollection => by cases o <;> cases hcollection) hr
    | commonType => exact absurd (fun s hs => by cases o <;> cases hs) hr

theorem inferred_ofDecimal? (beside : Bool) (o : Option Decimal) :
    (ofDecimal? o).inferred beside = some (typeOf beside o) := by
  cases o <;> rw [ofDecimal?, HostValue.inferred, typeOf]
  rw [Scalar.inferred]

theorem siblingTypes_ofDecimal? (items : List (Option Decimal)) : siblingTypes (items.map ofDecimal?) =
    some (items.map (typeOf (isMixed items))) :=
  HostValue.inferredItems_of_forall₂ (List.forall₂_map_left_iff.2 (List.forall₂_map_right_iff.2
    (List.forall₂_same.2 fun o _ => inferred_ofDecimal? _ o)))

/-- The type beside a decimal that is not whole. -/
theorem typeOf_beside (o : Option Decimal) : typeOf true o = .any ∨ ∃ p s, typeOf true o = .decimal p s := by
  cases o with
  | none => exact .inl rfl
  | some d =>
    rw [typeOf, Decimal.inferred]
    split <;> exact .inr ⟨_, _, rfl⟩

/-- The type among whole decimals. -/
theorem typeOf_whole {o : Option Decimal} (h : ∀ d, o = some d → d.isWhole) :
    typeOf false o = .any ∨ typeOf false o = .plain .int128 := by
  cases o with
  | none => exact .inl rfl
  | some d => exact .inr (by rw [typeOf, Decimal.inferred, if_pos (h d rfl), if_neg Bool.false_ne_true])

theorem isWhole_of_not_isMixed (h : isMixed items = false) :
    ∀ o ∈ items, ∀ d, o = some d → d.isWhole := by
  rintro o ho d rfl
  by_contra hwhole
  rw [isMixed_iff.2 ⟨d, ho, hwhole⟩] at h
  cases h

/-- **Decimals and nulls always have a common type.** -/
theorem joinable_ofDecimal? (items : List (Option Decimal)) : Joinable (items.map ofDecimal?) := by
  intro hne ts hts
  rw [siblingTypes_ofDecimal?, Option.some.injEq] at hts
  subst hts
  rw [Option.isSome_iff_exists]
  have hne' : items ≠ [] := fun hnil => hne (by rw [hnil, List.map_nil])
  refine LogicalType.exists_joinAll?_of_pairwise (fun hnil => hne' (List.map_eq_nil_iff.1 hnil)) ?_
  refine List.pairwise_map.2 (List.pairwise_of_forall_mem_list fun o ho o' ho' => ?_)
  -- Beside a decimal that is not whole there are only decimal types, and otherwise only 128-bit integers.
  cases hmixed : isMixed items with
  | true =>
    rcases typeOf_beside o with ht | ⟨p, s, ht⟩
    · exact ⟨_, by rw [ht, LogicalType.join?_any_left]⟩
    · rcases typeOf_beside o' with hu | ⟨q, r, hu⟩
      · rw [hu]
        exact LogicalType.joins_any_right _
      · rw [ht, hu]
        exact LogicalType.joins_decimal p s q r
  | false =>
    rcases typeOf_whole (isWhole_of_not_isMixed hmixed o ho) with ht | ht
    · exact ⟨_, by rw [ht, LogicalType.join?_any_left]⟩
    · rcases typeOf_whole (isWhole_of_not_isMixed hmixed o' ho') with hu | hu
      · rw [hu]
        exact LogicalType.joins_any_right _
      · rw [ht, hu]
        exact ⟨_, LogicalType.join?_self _⟩

/-- **A column fits exactly if the collection is encodable.** -/
theorem fits_iff_encodable {seat : Seat} (hseat : seat.Allows inner (items.map ofDecimal?).length)
    (hitems : items ≠ []) : Fits items ↔ (seat.collect (items.map ofDecimal?)).Encodable (inner + 1) := by
  have hne : items.map ofDecimal? ≠ [] := fun hnil => hitems (List.map_eq_nil_iff.1 hnil)
  constructor
  · intro h
    refine hseat.encodable_collect hne (List.forall_mem_map.2 fun o ho => ?_) (fun hfractional d hd hwhole => ?_)
      (joinable_ofDecimal? items)
    · exact encodable_ofDecimal? fun d hd => storable_iff.2 (h.storable d (hd ▸ ho))
    · exact h.restatable (isMixed_iff.1 hfractional) d (mem_map_ofDecimal?.1 hd) hwhole
  · intro h
    have hself : seat.collect (items.map ofDecimal?) ∈ (seat.collect (items.map ofDecimal?)).subvalues :=
      HostValue.mem_subvalues.2 (.inl rfl)
    refine ⟨fun d hd => storable_iff.1 (h.meets (.scalar (.decimal d)) ?_ .decimals d rfl),
      fun hfractional d hd hwhole => ?_⟩
    · refine HostValue.mem_subvalues.2 (.inr ⟨.scalar (.decimal d), ?_, List.mem_singleton_self _⟩)
      exact (Seat.mem_parts_collect hseat.pairs).2 (.inl (mem_map_ofDecimal?.2 hd))
    · exact h.meets _ hself .restatable _ (Seat.mem_siblings_collect hseat.pairs).1 (isMixed_iff.2 hfractional) d
        (mem_map_ofDecimal?.2 hd) hwhole

/-! ## The element type -/

/-- The common type of a column whose payloads have the types `ts`: `ANY` for nothing but nulls, a 128-bit integer if every
decimal is whole, and otherwise a decimal with the largest scale and the largest number of digits before the point. -/
structure ElementType (items : List (Option Decimal)) (ts : List LogicalType) (t : LogicalType) : Prop where
  any : (∀ o ∈ items, o = none) → t = .any
  int128 : (∃ d, some d ∈ items) → (∀ d, some d ∈ items → d.isWhole) → t = .plain .int128
  decimal : (∃ d, some d ∈ items ∧ ¬d.isWhole) → ∃ I S, IsGreatest (LogicalType.integrals ts) I ∧
    IsGreatest (LogicalType.scales ts) S ∧ t = .decimal (min 38 (I + S)) S

theorem isDecimalOrAny_typeOf (h : Fits items) (hmixed : ∃ d, some d ∈ items ∧ ¬d.isWhole) {o : Option Decimal}
    (ho : o ∈ items) : (typeOf true o).IsDecimalOrAny := by
  cases o with
  | none => exact .inl rfl
  | some d =>
    rw [typeOf, Decimal.inferred]
    split
    · rename_i hwhole
      exact .inr ⟨_, _, rfl, Nat.zero_le _, h.restatable hmixed d ho hwhole⟩
    · rename_i hwhole
      have hstorable := storable_iff.2 (h.storable d ho)
      rw [Decimal.Storable, if_neg hwhole] at hstorable
      exact .inr ⟨_, _, rfl, Nat.le_max_right _ _, by omega⟩

theorem exists_decimal_mem {d : Decimal} (hd : some d ∈ items) :
    ∃ p s, LogicalType.decimal p s ∈ items.map (typeOf true) := by
  rcases typeOf_beside (some d) with ht | ⟨p, s, ht⟩
  · rw [typeOf, Decimal.inferred] at ht
    split at ht <;> cases ht
  · exact ⟨p, s, List.mem_map.2 ⟨some d, hd, ht⟩⟩

/-- **The common type of a column that fits.** -/
theorem elementType_of_joinAll? {ts : List LogicalType} {t : LogicalType} (h : Fits items) (hitems : items ≠ [])
    (hts : ts = items.map (typeOf (isMixed items))) (ht : LogicalType.joinAll? ts = some t) : ElementType items ts t := by
  subst hts
  refine ⟨fun hnulls => ?_, fun ⟨d, hd⟩ hwhole => ?_, fun hmixed => ?_⟩
  · have hany : ∀ o ∈ items, typeOf (isMixed items) o = .any := fun o ho => by rw [hnulls o ho, typeOf]
    obtain ⟨o, ho⟩ := List.exists_mem_of_ne_nil items hitems
    have hjoin := LogicalType.joinAll?_of_mem (List.mem_map.2 ⟨o, ho, hany o ho⟩)
      (List.forall_mem_map.2 fun o ho => .inl (hany o ho))
    exact Option.some.inj (ht.symm.trans hjoin)
  · have hwholes : isMixed items = false := by
      rw [← Bool.not_eq_true, isMixed_iff]
      exact fun ⟨e, he, hfractional⟩ => hfractional (hwhole e he)
    rw [hwholes] at ht
    have hint128 : typeOf false (some d) = .plain .int128 := by
      rw [typeOf, Decimal.inferred, if_pos (hwhole d hd), if_neg Bool.false_ne_true]
    have hjoin := LogicalType.joinAll?_of_mem (List.mem_map.2 ⟨some d, hd, hint128⟩)
      (List.forall_mem_map.2 fun o ho => typeOf_whole fun e he => hwhole e (he ▸ ho))
    exact Option.some.inj (ht.symm.trans hjoin)
  · have hbeside : isMixed items = true := isMixed_iff.2 hmixed
    rw [hbeside] at ht ⊢
    have hbounds : ∀ u ∈ items.map (typeOf true), u.IsDecimalOrAny :=
      List.forall_mem_map.2 fun o ho => isDecimalOrAny_typeOf h hmixed ho
    obtain ⟨d, hd, -⟩ := hmixed
    obtain ⟨I, S, hI, hS, hjoin⟩ := LogicalType.joinAll?_decimals hbounds (exists_decimal_mem hd)
    exact ⟨I, S, hI, hS, Option.some.inj (ht.symm.trans hjoin)⟩

end DecimalColumn

/-! ## Decoding -/

namespace Seat

open HostValue (ofDecimal?)
open Read

/-- The values that a decoded collection holds side by side. -/
def decoded? : Seat → HostValue → Option (List HostValue)
  | items, .list vs => some vs
  | keys _, .map es => some (es.map Prod.fst)
  | values _, .map es => some (es.map Prod.snd)
  | _, _ => none

/-- Optional decimals. -/
abbrev decimals : Target := .opt (.scalar .decimal)

/-- The type of a collection of optional decimals.  What stands on the other side of a map is decoded by its tag. -/
def target : Seat → Target
  | items => .list decimals
  | keys _ => .map decimals .host
  | values _ => .map .host decimals

/-- The optional decimals in a value of that type. -/
def typed : (seat : Seat) → seat.target.Value → List (Option Decimal)
  | items, xs => xs
  | keys _, es => es.map Prod.fst
  | values _, es => es.map Prod.snd

variable {seat : Seat} {vs : List HostValue} {xs : List (Option Decimal)}

theorem decoded_canon (b : BlobLength) (hpairs : seat.Pairs vs.length) :
    seat.decoded? ((seat.collect vs).canon b) = some (vs.map (HostValue.canon b)) := by
  cases seat with
  | items => rw [collect, HostValue.canon, decoded?, HostValue.canonItems_eq_map]
  | keys os =>
    rw [collect, HostValue.canon, decoded?, HostValue.canonEntries_eq_map, List.map_map]
    change some ((vs.zip os).map (HostValue.canon b ∘ Prod.fst)) = _
    rw [← List.map_map, List.map_fst_zip (Nat.le_of_eq hpairs.symm)]
  | values os =>
    rw [collect, HostValue.canon, decoded?, HostValue.canonEntries_eq_map, List.map_map]
    change some ((os.zip vs).map (HostValue.canon b ∘ Prod.snd)) = _
    rw [← List.map_map, List.map_snd_zip (Nat.le_of_eq hpairs.symm)]

theorem canon_ofDecimal? (b : BlobLength) (o : Option Decimal) :
    (ofDecimal? o).canon b = ofDecimal? (o.map Decimal.canon) := by
  cases o <;> rfl

theorem meets_ofDecimal? (c : Config) (o : Option Decimal) : ((ofDecimal? o).draft c).Meets (decimals.Holds c) o := by
  have hholds := Target.holds_of_draft c decimals rfl o
  cases o <;> exact hholds

theorem column_meets (c : Config) (xs : List (Option Decimal)) :
    List.Forall₂ (fun d x => Draft.Meets d (decimals.Holds c) x) ((xs.map ofDecimal?).map (HostValue.draft c)) xs :=
  List.forall₂_map_left_iff.2 (List.forall₂_map_left_iff.2 (List.forall₂_same.2 fun o _ => meets_ofDecimal? c o))

theorem others_carry (c : Config) {n : Nat} {os : List HostValue} (h : ∀ v ∈ os, v.nesting ≤ n) :
    List.Forall₂ (fun d v => Draft.Carries c d n v) (os.map (HostValue.draft c)) os :=
  List.forall₂_map_left_iff.2 (List.forall₂_same.2 fun v hv => (HostValue.carries_draft c v).mono (h v hv))

/-- No decimal is a timestamp, so only what stands on the other side of a map may overrun the calendar. -/
theorem overruns_collect (hpairs : seat.Pairs (xs.map ofDecimal?).length) (hothers : ∀ v ∈ seat.others, v.Countable) :
    (seat.collect (xs.map ofDecimal?)).overruns = [] := by
  refine (HostValue.overruns_eq_nil_iff_parts (isCollection_collect seat _)).2 fun v hv => ?_
  rcases (mem_parts_collect hpairs).1 hv with hv | hv
  · obtain ⟨o, -, rfl⟩ := List.mem_map.1 hv
    cases o <;> simp only [ofDecimal?, HostValue.overruns, Scalar.overruns]
  · exact v.overruns_eq_nil_iff.2 (hothers v hv)

theorem reads_decimal {v : Stored} {x : Option Decimal} (n : Nat) (h : decimals.Holds c left v x) :
    Reads (decimals.decode c left) v n [] (x.map Decimal.canon) := by
  have hread := (Target.reads_decode c decimals h).mono (Nat.zero_le n)
  cases x <;> exact hread

theorem reads_map {α β γ δ : Type} {n : Nat} {key value : LogicalType} {read : Nat → Handle → Convert Memory β}
    {read' : Nat → Handle → Convert Memory δ} {vs : List (Stored × Stored)} {es : List (α × γ)}
    {f : α → β} {g : γ → δ} (faults : α → List ConvertError) (faults' : γ → List ConvertError)
    (h : List.Forall₂ (fun v e => Reads (read inner) v.1 (2 * n) (faults e.1) (f e.1) ∧
      Reads (read' inner) v.2 (2 * n) (faults' e.2) (g e.2)) vs es)
    (hnone : ∀ e ∈ es, faults e.1 = [] ∧ faults' e.2 = []) :
    Reads (tagged [.map] (nested c (fun left => entries (read left) (read' left)) (inner + 1)))
      (.map (.map key value) vs) (2 * (n + 1)) [] (es.map fun e => (f e.1, g e.2)) := by
  have hread : Reads (entries (read inner) (read' inner)) (.map (.map key value) vs) (2 * n + 2)
      (Stored.faultsByIndex .mapEntry (es.map fun e => faults e.1 ++ faults' e.2)) (es.map fun e => (f e.1, g e.2)) :=
    .mapOf h
  have hfaultless : Stored.faultsByIndex .mapEntry (es.map fun e => faults e.1 ++ faults' e.2) = [] :=
    Stored.faultsByIndex_eq_nil.2 (List.forall_mem_map.2 fun e he => List.append_eq_nil_iff.2 (hnone e he))
  rw [hfaultless] at hread
  have hnested : Reads (nested c (fun left => entries (read left) (read' left)) (inner + 1)) (.map (.map key value) vs)
      (2 * n + 2) [] (es.map fun e => (f e.1, g e.2)) := hread.nested_succ
  have htag : Tag.map ∈ [Tag.map] := List.mem_cons_self
  exact hnested.tagged rfl htag

/-- **A collection of decimals and nulls is decoded as optional decimals.** -/
theorem reads_typed {w : Stored} (hpairs : seat.Pairs (xs.map ofDecimal?).length)
    (hcountable : ∀ v ∈ seat.others, v.Countable)
    (hw : ((seat.collect (xs.map ofDecimal?)).draft c).value left = .ok w) :
    ∃ y, seat.typed y = xs.map (Option.map Decimal.canon) ∧
      Reads (seat.target.decode c left) w (2 * (seat.collect (xs.map ofDecimal?)).nesting) [] y := by
  obtain ⟨n, hn⟩ : ∃ n, (seat.collect (xs.map ofDecimal?)).nesting = n + 1 := by cases seat <;> exact ⟨_, rfl⟩
  have hothers : ∀ v ∈ seat.others, v.nesting ≤ n := fun v hv =>
    (HostValue.nesting_le_succ (isCollection_collect seat _)).1 (Nat.le_of_eq hn) v
      ((mem_parts_collect hpairs).2 (.inr hv))
  have hnone : ∀ v ∈ seat.others, v.overruns = [] := fun v hv => v.overruns_eq_nil_iff.2 (hcountable v hv)
  rw [hn]
  clear hn
  cases seat with
  | items =>
    rw [collect, HostValue.draft, HostValue.draftItems_eq_map] at hw
    obtain ⟨inner, t, ws, rfl, rfl, hws⟩ := Draft.of_list (Target.restatable_holds decimals) (column_meets c xs) hw
    have hholds : (Target.list decimals).Holds c (inner + 1) (.list (.list t) ws) xs := ⟨inner, t, ws, rfl, rfl, hws⟩
    have hlevels : (Target.list decimals).levels ≤ n + 1 := Nat.succ_le_succ (Nat.zero_le n)
    have hread := (Target.reads_decode c _ hholds).mono (Nat.mul_le_mul_left 2 hlevels)
    have hfaultless : (Target.list decimals).overruns xs = [] :=
      Stored.faultsByIndex_eq_nil.2 (List.forall_mem_map.2 fun x _ => by cases x <;> rfl)
    rw [hfaultless] at hread
    exact ⟨_, rfl, hread⟩
  | keys os =>
    have hlength : os.length = xs.length := by simpa [Pairs] using hpairs
    rw [collect, HostValue.draft, HostValue.draftEntries_eq_map] at hw
    have hparts := forall₂_zip (column_meets c xs) (others_carry c hothers)
    rw [List.zip_map] at hparts
    obtain ⟨inner, key, value, es, rfl, rfl, hes⟩ :=
      Draft.of_map (Target.restatable_holds decimals) (Draft.restatable_readsAs n) hparts hw
    refine ⟨_, ?_, reads_map (fun _ => []) HostValue.overruns
      (hes.imp fun _ _ h => ⟨reads_decimal _ h.1, h.2.reads⟩) fun e he => ⟨rfl, hnone _ (List.of_mem_zip he).2⟩⟩
    change ((xs.zip os).map (Prod.map (Option.map Decimal.canon) (HostValue.canon c.blobLength))).map Prod.fst = _
    rw [← List.zip_map, List.map_fst_zip (by simp [hlength])]
  | values os =>
    have hlength : os.length = xs.length := by simpa [Pairs] using hpairs
    rw [collect, HostValue.draft, HostValue.draftEntries_eq_map] at hw
    have hparts := forall₂_zip (others_carry c hothers) (column_meets c xs)
    rw [List.zip_map] at hparts
    obtain ⟨inner, key, value, es, rfl, rfl, hes⟩ :=
      Draft.of_map (Draft.restatable_readsAs n) (Target.restatable_holds decimals) hparts hw
    refine ⟨_, ?_, reads_map HostValue.overruns (fun _ => [])
      (hes.imp fun _ _ h => ⟨h.1.reads, reads_decimal _ h.2⟩) fun e he => ⟨hnone _ (List.of_mem_zip he).1, rfl⟩⟩
    change ((os.zip xs).map (Prod.map (HostValue.canon c.blobLength) (Option.map Decimal.canon))).map Prod.snd = _
    rw [← List.zip_map, List.map_snd_zip (by simp [hlength])]

end Seat

namespace DecimalColumn

open HostValue (ofDecimal?)

variable {items : List (Option Decimal)}

/-- The same nulls, and decimals of the same numbers, in the same order. -/
def SameColumn (items xs : List (Option Decimal)) : Prop :=
  List.Forall₂ (Option.Rel fun d e => e.sameValue d) items xs

theorem sameColumn_canon (items : List (Option Decimal)) : SameColumn items (items.map (Option.map Decimal.canon)) := by
  refine List.forall₂_map_right_iff.2 (List.forall₂_same.2 fun o _ => ?_)
  cases o with
  | none => exact .none
  | some d => exact .some d.sameValue_canon

/-- **Decimals share one collection.**  If every decimal is stored on its own and every whole one has at most 38 digits
beside one that is not whole, the collection is encoded under one element type, and decoded, by its tag or as optional
decimals, as the same nulls and numbers in the same order, if what stands on the other side of a map can be decoded too.
Otherwise the conversion fails. -/
theorem share_collection (c : Config) (seat : Seat) (hitems : items ≠ []) (hdepth : c.maxDepth = inner + 1)
    (hseat : seat.Allows inner items.length) {source : Source}
    (hsource : Source.StandIn c source (seat.collect (items.map ofDecimal?))) {m : Memory} (hm : m.Reachable)
    (hroom : m.live + (seat.collect (items.map ofDecimal?)).subvalues.length +
      2 * (seat.collect (items.map ofDecimal?)).nesting ≤ m.limit) :
    (Fits items → ∃ h m', source.build c m = .ok h m' ∧
      (∃ w t ws, m'.find? h = .ok w ∧ seat.stored? w = some (t, ws) ∧
        ws.map Stored.type = items.map (typeOf (isMixed items)) ∧ ElementType items (ws.map Stored.type) t) ∧
      ((∀ v ∈ seat.others, v.Countable) → ∃ xs, SameColumn items xs ∧
        (∃ v m'', Read.value c h m' = .ok v m'' ∧ seat.decoded? v = some (xs.map ofDecimal?)) ∧
        ∃ y m'', seat.target.read c h m' = .ok y m'' ∧ seat.typed y = xs)) ∧
    (¬Fits items → ∃ e m', source.build c m = .error e m' ∧ e.kind = .conversionFailed) := by
  have hseat' : seat.Allows inner (items.map ofDecimal?).length := by rwa [List.length_map]
  have hne : items.map ofDecimal? ≠ [] := fun hnil => hitems (List.map_eq_nil_iff.1 hnil)
  have hiff := fits_iff_encodable hseat' hitems
  have hstands : source.build c m = (Source.host (seat.collect (items.map ofDecimal?))).build c m := by
    rw [Source.build, Source.build, Source.encode_eq_standIn hsource, Source.encode]
  -- The draft judges the collection: it comes to a value exactly if the column fits.
  have hjudged := HostValue.judged_draft c (seat.collect (items.map ofDecimal?)) c.maxDepth
  have hcases := HostValue.build_cases_draft c (seat.collect (items.map ofDecimal?)) hm (by omega)
  rcases hcases with ⟨h, m', w, hbuild, hw, hadds⟩ | ⟨e, m', hbuild, he⟩
  · have hlive : m.live + 1 + 2 * (seat.collect (items.map ofDecimal?)).nesting ≤ m.limit := by
      have hparts := HostValue.parts_draft c (seat.collect (items.map ofDecimal?))
      omega
    rw [hw, hdepth] at hjudged
    refine ⟨fun hfits => ⟨h, m', hstands.trans hbuild, ?_, fun hothers => ⟨_, sameColumn_canon items, ?_, ?_⟩⟩,
      fun hnot => absurd (hiff.2 hjudged.1) hnot⟩
    · obtain ⟨t, ws, hstored, htypes, hjoin⟩ := Seat.stored_of_draft hseat'.pairs hw
      have hcolumn := Option.some.inj (htypes.symm.trans (siblingTypes_ofDecimal? items))
      exact ⟨w, t, ws, hadds.find?_of_mem List.mem_cons_self, hstored, hcolumn,
        elementType_of_joinAll? hfits hitems hcolumn hjoin⟩
    · have hyields := HostValue.yields_draft hw hadds hlive
      rw [Seat.overruns_collect hseat'.pairs hothers] at hyields
      obtain ⟨m'', hread, -⟩ := hyields.eq_ok
      refine ⟨_, m'', hread, ?_⟩
      rw [Seat.decoded_canon c.blobLength hseat'.pairs, List.map_map, List.map_map]
      exact congrArg some (List.map_congr_left fun o _ => Seat.canon_ofDecimal? c.blobLength o)
    · obtain ⟨y, hy, hreads⟩ := Seat.reads_typed hseat'.pairs hothers hw
      obtain ⟨m'', hread, -⟩ := (hreads.added hadds hlive).eq_ok
      exact ⟨y, m'', hread, hy⟩
  · rw [he, hdepth] at hjudged
    refine ⟨fun hfits => absurd (hiff.1 hfits) hjudged.not_encodable, fun _ => ⟨e, m', hstands.trans hbuild, ?_⟩⟩
    rcases hseat'.violates_collect hne (joinable_ofDecimal? items) hjudged with hkind | ⟨v, hv, hviolates⟩
    · exact hkind
    · obtain ⟨o, -, rfl⟩ := List.mem_map.1 hv
      exact kind_of_violates hviolates

/-- One and a half, nothing, and two with a digit after the point. -/
def halvesAndGap : List (Option Decimal) := [some ⟨15, 1⟩, none, some ⟨20, 1⟩]

/-- Three names. -/
def names : List HostValue := [.scalar (.string "a"), .scalar (.string "b"), .scalar (.string "c")]

theorem allows_names : (Seat.values names).Allows 63 3 where
  pairs := rfl
  encodable := by
    have hname : ∀ name, (HostValue.scalar (.string name)).Encodable 63 := fun name =>
      .leaf rfl rfl (HostValue.meets_scalar (fun _ h => by cases h) fun _ h => by cases h)
    simp [Seat.others, names, hname]
  restatable := fun h => by cases h
  joinable := fun _ ts h => by
    cases h
    rfl

theorem fits_halvesAndGap : Fits halvesAndGap := by
  constructor
  · simp only [halvesAndGap, List.mem_cons, Option.some.injEq, reduceCtorEq, List.not_mem_nil, or_false, false_or]
    rintro d (rfl | rfl)
    · exact ⟨_, rfl⟩
    · exact ⟨_, rfl⟩
  · simp only [halvesAndGap, List.mem_cons, Option.some.injEq, reduceCtorEq, List.not_mem_nil, or_false, false_or]
    rintro - d (rfl | rfl) hwhole
    · cases hwhole
    · decide

theorem not_fits_long : ¬Fits [some ⟨15, 1⟩, some ⟨10 ^ 38, 0⟩] := fun h =>
  absurd (h.restatable ⟨⟨15, 1⟩, List.mem_cons_self, by decide⟩ ⟨10 ^ 38, 0⟩ (by simp) (by decide)) (by decide)

/-- Beside one and a half, two becomes a decimal without digits after the point, under the common type of both.  Ten to
the 38th has one digit too many. -/
theorem share_collection_halvesAndGap :
    (∃ (h : Handle) (m' : Memory) (w : Stored) (t : LogicalType) (ws : List Stored),
      (Source.entries [(.scalar (.string "a"), .present (.scalar (.decimal ⟨15, 1⟩))), (.scalar (.string "b"), .absent),
        (.scalar (.string "c"), .shared (.scalar (.decimal ⟨20, 1⟩)))]).build {} { limit := 12 } = .ok h m' ∧
      m'.find? h = .ok w ∧ (Seat.values names).stored? w = some (t, ws) ∧ ElementType halvesAndGap (ws.map Stored.type) t ∧
      ws.map Stored.type = [.decimal 2 1, .any, .decimal 1 0]) ∧
    ∃ (e : ConvertError) (m' : Memory),
      (Source.host (.list [.scalar (.decimal ⟨15, 1⟩), .scalar (.decimal ⟨10 ^ 38, 0⟩)])).build {} { limit := 12 } =
        .error e m' ∧ e.kind = .conversionFailed := by
  constructor
  · obtain ⟨h, m', hbuild, ⟨w, t, ws, hfind, hstored, htypes, helement⟩, -⟩ :=
      (share_collection {} (.values names) (show halvesAndGap ≠ [] by decide) rfl allows_names
        (.entries (.cons (.scalar _) (.present (.scalar _)) (.cons (.scalar _) .absent
          (.cons (.scalar _) (.shared (.scalar _)) .nil)))) (.empty 12) (by decide)).1 fits_halvesAndGap
    exact ⟨h, m', w, t, ws, hbuild, hfind, hstored, helement, htypes⟩
  · have hne : ([some ⟨15, 1⟩, some ⟨10 ^ 38, 0⟩] : List (Option Decimal)) ≠ [] := by decide
    exact (share_collection {} .items hne rfl (Seat.allows_items 63 2) (.host _) (.empty 12) (by decide)).2 not_fits_long

end DecimalColumn

end ValueBridge
