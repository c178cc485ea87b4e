import ValueBridge.Proofs.Stored.WellFormed
import ValueBridge.Proofs.Type.Holding
import ValueBridge.Proofs.Results
/-!
# What a collection records about its parts

A list, an array and a map record the common types of their items, keys and values.  Joining types is commutative,
associative and idempotent where it is defined, and so a collection is accepted or not, and records what it does,
whatever order its parts stand in (`commonTypes_orderless`).

The common type need not hold every part: where the digits before the point of one part and after the point of another
make more than 38, the former are cut off (`recorded_clamped_and_declared_narrow`).  A collection holds its parts where
some type of at most 38 digits could, and a union agrees with its member but for the digits of decimals
(`recorded_accommodates`).
-/
namespace ValueBridge

namespace LogicalType

/-- Where it is defined, the operation is a least upper bound, and the given type is the least of all. -/
structure PartialJoin (join : LogicalType → LogicalType → Option LogicalType) (bottom : LogicalType) : Prop where
  self (a : LogicalType) : join a a = some a
  comm (a b : LogicalType) : join a b = join b a
  assoc (a b c : LogicalType) : (join a b).bind (join · c) = (join b c).bind (join a)
  bottom_left (a : LogicalType) : join bottom a = some a
  bottom_right (a : LogicalType) : join a bottom = some a
  absorbs {a b c : LogicalType} : join a b = some c → join a c = some c ∧ join b c = some c

theorem partialJoin_join? : PartialJoin join? any where
  self := join?_self
  comm := join?_comm
  assoc := join?_assoc
  bottom_left := join?_any_left
  bottom_right := join?_any_right
  absorbs := join?_absorbs

end LogicalType

/-- The failure says that parts have no common type. -/
def Failure.IsMixed : Failure → Prop
  | mixedElements _ types => LogicalType.joinAll? types = none
  | mixedKeys | mixedValues => True
  | _ => False

namespace Stored

open LogicalType (join? joinAll? Below Holds ShapedAlike)

/-! ## When collections are refused -/

theorem outcome_listOf? {items : List Stored} (hitems : items ≠ []) :
    Outcome (fun v => ∃ t, joinAll? (items.map type) = some t ∧ v = .list (.list t) items)
      (fun e => joinAll? (items.map type) = none ∧ e.IsMixed) (listOf? items) := by
  unfold listOf? elementType
  rw [if_neg fun hempty => hitems (List.isEmpty_iff.1 hempty)]
  cases ht : joinAll? (items.map type) with
  | some t => exact ⟨t, rfl, rfl⟩
  | none => exact ⟨rfl, ht⟩

theorem outcome_mapOf? {ks vs : List Stored} (hlength : ks.length = vs.length) (hks : ks ≠ []) :
    Outcome (fun v => ∃ k t, joinAll? (ks.map type) = some k ∧ joinAll? (vs.map type) = some t ∧
        v = .map (.map k t) (ks.zip vs))
      (fun e => (joinAll? (ks.map type) = none ∨ joinAll? (vs.map type) = none) ∧ e.IsMixed) (mapOf? (ks.zip vs)) := by
  have hfirst : (ks.zip vs).map Prod.fst = ks := List.map_fst_zip (Nat.le_of_eq hlength)
  have hsecond : (ks.zip vs).map Prod.snd = vs := List.map_snd_zip (Nat.le_of_eq hlength.symm)
  have hkeys : (ks.zip vs).map (·.1.type) = ks.map type := by
    rw [← congrArg (List.map type) hfirst, List.map_map]
    rfl
  have hvalues : (ks.zip vs).map (·.2.type) = vs.map type := by
    rw [← congrArg (List.map type) hsecond, List.map_map]
    rfl
  have hne : (ks.zip vs).isEmpty = false := by
    rw [List.isEmpty_eq_false_iff, ← List.length_pos_iff, List.length_zip, ← hlength, Nat.min_self, List.length_pos_iff]
    exact hks
  unfold mapOf?
  rw [hne, if_neg Bool.false_ne_true, hkeys, hvalues]
  cases hk : joinAll? (ks.map type) with
  | none => exact ⟨.inl rfl, trivial⟩
  | some k =>
    dsimp only
    cases ht : joinAll? (vs.map type) with
    | none => exact ⟨.inr rfl, trivial⟩
    | some t => exact ⟨k, t, rfl, rfl, rfl⟩

/-! ## What is recorded -/

/-- The type of what was made, if anything was. -/
def recorded (made : Except Failure Stored) : Option LogicalType := made.toOption.map type

theorem toOption_elementType (form : SequenceForm) (items : List Stored) :
    (elementType form items).toOption = joinAll? (items.map type) := by
  unfold elementType
  split
  · rename_i h
    rw [List.isEmpty_iff.1 h]
    rfl
  · split <;> rename_i h <;> rw [h] <;> rfl

theorem recorded_listOf? (items : List Stored) :
    recorded (listOf? items) = (joinAll? (items.map type)).map .list := by
  rw [← toOption_elementType .list, recorded, listOf?]
  cases elementType .list items <;> rfl

theorem recorded_arrayOf? (items : List Stored) :
    recorded (arrayOf? items) = (joinAll? (items.map type)).map (.array · items.length) := by
  rw [← toOption_elementType .array, recorded, arrayOf?]
  cases elementType .array items <;> rfl

theorem recorded_mapOf? (entries : List (Stored × Stored)) : recorded (mapOf? entries) =
    (joinAll? (entries.map (·.1.type))).bind fun k => (joinAll? (entries.map (·.2.type))).map (.map k ·) := by
  unfold mapOf?
  split
  · rename_i h
    rw [List.isEmpty_iff.1 h]
    rfl
  · split <;> rename_i hk <;> rw [hk]
    · rfl
    · split <;> rename_i hv <;> rw [hv] <;> rfl

/-! ## The order of the parts -/

theorem recorded_listOf?_perm {items others : List Stored} (h : items.Perm others) :
    recorded (listOf? items) = recorded (listOf? others) := by
  rw [recorded_listOf?, recorded_listOf?, LogicalType.joinAll?_perm (h.map type)]

theorem recorded_arrayOf?_perm {items others : List Stored} (h : items.Perm others) :
    recorded (arrayOf? items) = recorded (arrayOf? others) := by
  rw [recorded_arrayOf?, recorded_arrayOf?, LogicalType.joinAll?_perm (h.map type), h.length_eq]

/-- Keys and values may be put in order apart from each other. -/
theorem recorded_mapOf?_perm {entries others : List (Stored × Stored)}
    (hkeys : (entries.map Prod.fst).Perm (others.map Prod.fst))
    (hvalues : (entries.map Prod.snd).Perm (others.map Prod.snd)) :
    recorded (mapOf? entries) = recorded (mapOf? others) := by
  have hk := LogicalType.joinAll?_perm (hkeys.map type)
  have hv := LogicalType.joinAll?_perm (hvalues.map type)
  rw [List.map_map, List.map_map] at hk hv
  rw [recorded_mapOf?, recorded_mapOf?]
  exact congrArg₂ (fun k v => Option.bind k fun key => v.map (LogicalType.map key ·)) hk hv

/-- **Joining is a partial join with `ANY` at the bottom; the common type of a list is the least one that absorbs its
members, in any order, and what collections accept and record does not depend on the order of their parts.** -/
theorem commonTypes_orderless :
    LogicalType.PartialJoin join? .any ∧
    (∀ ts us : List LogicalType, ts.Perm us → joinAll? ts = joinAll? us) ∧
    (∀ (ts : List LogicalType) (c : LogicalType), joinAll? ts = some c → ∀ t ∈ ts, join? t c = some c) ∧
    (∀ (ts : List LogicalType) (d : LogicalType), ts ≠ [] → (∀ t ∈ ts, join? t d = some d) →
      ∃ c, joinAll? ts = some c ∧ join? c d = some d) ∧
    (∀ items others : List Stored, items.Perm others →
      recorded (listOf? items) = recorded (listOf? others) ∧ recorded (arrayOf? items) = recorded (arrayOf? others)) ∧
    ∀ entries others : List (Stored × Stored), (entries.map Prod.fst).Perm (others.map Prod.fst) →
      (entries.map Prod.snd).Perm (others.map Prod.snd) → recorded (mapOf? entries) = recorded (mapOf? others) :=
  ⟨LogicalType.partialJoin_join?, fun _ _ => LogicalType.joinAll?_perm, fun _ _ => LogicalType.below_joinAll?,
    fun _ _ => LogicalType.exists_joinAll?_of_below,
    fun _ _ h => ⟨recorded_listOf?_perm h, recorded_arrayOf?_perm h⟩, fun _ _ => recorded_mapOf?_perm⟩

/-- Decimals of different widths and an untyped null, in either order. -/
theorem commonTypes_orderless_decimals :
    let narrow := payload (.decimal "1.25" 3 2)
    let wide := payload (.decimal "7" 38 0)
    recorded (listOf? [narrow, null .any, wide]) = some (.list (.decimal 38 2)) ∧
      recorded (listOf? [wide, narrow, null .any]) = some (.list (.decimal 38 2)) := by
  intro narrow wide
  have hperm : [narrow, null .any, wide].Perm [wide, narrow, null .any] :=
    @List.perm_append_comm _ [narrow, null .any] [wide]
  have hsame := (commonTypes_orderless.2.2.2.2.1 _ _ hperm).1
  have hfirst : recorded (listOf? [narrow, null .any, wide]) = some (.list (.decimal 38 2)) := rfl
  exact ⟨hfirst, hsame.symm.trans hfirst⟩

/-! ## What the recorded types hold -/

/-- **The recorded types of a list, an array and a map hold what stands in it but for full decimals, and hold it in full
where a bounded type could; the declared type of a union, if no part of it is untyped, agrees with that of the active
member.** -/
theorem recorded_accommodates :
    (∀ (items : List Stored) (made : LogicalType), recorded (listOf? items) = some made →
      ∃ t, made = .list t ∧ t.Accommodates (items.map type)) ∧
    (∀ (items : List Stored) (made : LogicalType), recorded (arrayOf? items) = some made →
      ∃ t, made = .array t items.length ∧ t.Accommodates (items.map type)) ∧
    (∀ (entries : List (Stored × Stored)) (made : LogicalType), recorded (mapOf? entries) = some made →
      ∃ k v, made = .map k v ∧ k.Accommodates (entries.map (·.1.type)) ∧ v.Accommodates (entries.map (·.2.type))) ∧
    ∀ (members : List (String × LogicalType)) (name : String) (member : Stored) (made : LogicalType),
      recorded (unionOf? members name member) = some made →
      ∃ declared, members.lookup name = some declared ∧ made = .union members ∧
        (declared.Typed → ShapedAlike declared member.type) := by
  refine ⟨fun items made h => ?_, fun items made h => ?_, fun entries made h => ?_, fun members name member made h => ?_⟩
  · rw [recorded_listOf?] at h
    obtain ⟨t, ht, rfl⟩ := Option.map_eq_some_iff.1 h
    exact ⟨t, rfl, LogicalType.accommodates_joinAll? ht⟩
  · rw [recorded_arrayOf?] at h
    obtain ⟨t, ht, rfl⟩ := Option.map_eq_some_iff.1 h
    exact ⟨t, rfl, LogicalType.accommodates_joinAll? ht⟩
  · rw [recorded_mapOf?] at h
    obtain ⟨k, hk, h⟩ := Option.bind_eq_some_iff.1 h
    obtain ⟨v, hv, rfl⟩ := Option.map_eq_some_iff.1 h
    exact ⟨k, v, rfl, LogicalType.accommodates_joinAll? hk, LogicalType.accommodates_joinAll? hv⟩
  · unfold unionOf? at h
    split at h
    · cases h
    · rename_i declared hdeclared
      split at h
      · cases h
      · rename_i c hc
        cases h
        exact ⟨declared, hdeclared, rfl, fun ht => LogicalType.shapedAlike_of_join? ht hc⟩

/-- The digits of 12 and 0.25 go into `DECIMAL(4, 2)`, so that the list of both records a type that holds them. -/
theorem recorded_accommodates_decimals :
    ∃ t, recorded (listOf? [payload (.decimal "12" 2 0), payload (.decimal "0.25" 2 2)]) = some (.list t) ∧
      Holds t (.decimal 2 0) ∧ Holds t (.decimal 2 2) := by
  have hmade : recorded (listOf? [payload (.decimal "12" 2 0), payload (.decimal "0.25" 2 2)]) =
    some (.list (.decimal 4 2)) := rfl
  obtain ⟨t, ht, haccommodates⟩ := recorded_accommodates.1 _ _ hmade
  have hholds := haccommodates.ofBounded (.decimal 4 2) (by simp [LogicalType.Bounded, maxPrecision]) fun u hu => by
    rcases List.mem_pair.1 hu with rfl | rfl <;> exact LogicalType.holds_decimal.2 (by decide)
  exact ⟨t, by rw [hmade, ht], hholds _ List.mem_cons_self, hholds _ (List.mem_cons_of_mem _ List.mem_cons_self)⟩

/-- Well-formed decimals of 38 digits, all before the point of one and all after that of the other, make a list whose
element type has no digit before the point; and a union takes in a decimal with more digits than its member declares. -/
theorem recorded_clamped_and_declared_narrow :
    let whole := payload (.decimal "1" 38 0)
    let fraction := payload (.decimal "0.1" 38 38)
    let declared := LogicalType.decimal 2 1
    let long := payload (.decimal "1" 10 0)
    (whole.WellFormed ∧ fraction.WellFormed ∧ whole.type.Bounded ∧ fraction.type.Bounded ∧
      recorded (listOf? [whole, fraction]) = some (.list (.decimal 38 38)) ∧
      ¬Holds (.decimal 38 38) whole.type) ∧
    long.WellFormed ∧ long.type.Bounded ∧ declared.Typed ∧
      recorded (unionOf? [("a", declared)] "a" long) = some (.union [("a", declared)]) ∧ ¬Holds declared long.type := by
  intro whole fraction declared long
  have hbounds : ∀ {p s : Nat}, s ≤ p → p ≤ 38 → (LogicalType.decimal p s).Bounded := fun hs hp => by
    rw [LogicalType.Bounded]
    exact ⟨hs, hp⟩
  refine ⟨⟨.payload rfl, .payload rfl, hbounds (by decide) (by decide), hbounds (by decide) (by decide), rfl, ?_⟩,
    .payload rfl, hbounds (by decide) (by decide), by rw [LogicalType.Typed]; trivial, rfl, ?_⟩
  · exact fun h => absurd (LogicalType.holds_decimal.1 h) (by decide)
  · exact fun h => absurd (LogicalType.holds_decimal.1 h) (by decide)

end Stored
end ValueBridge
