import ValueBridge.Proofs.Convert.Draft
import ValueBridge.Proofs.Fields
import ValueBridge.Proofs.Indexed
/-!
# What drafts of collections come to

When the draft of a collection comes to a value, a level was left for its parts, and the value holds what the drafts of
the parts come to, in their order or in that of the names.  So whatever relates the parts to something else relates the
values in the collection to it (`of_list`, `of_struct`, `of_map`), if it does not mind that 128-bit integers are restated
as decimals beside decimals (`Restatable`).
-/
namespace ValueBridge.Draft

variable {α β : Type} {c : Config} {left inner : Nat}

/-! ## Results -/

theorem answer_eq_ok {onFailure : Failure → Cause} {r : Except Failure α} {a : α} :
    answer onFailure r = .ok a ↔ r = .ok a :=
  mapError_eq_ok

theorem within_eq_ok {place : Place} {r : Except ConvertError α} {a : α} : within place r = .ok a ↔ r = .ok a :=
  mapError_eq_ok

theorem eq_of_payload {p : Payload} {v : Stored} (h : payload p = .ok v) : v = .payload p := by
  obtain ⟨-, -, rfl⟩ := map_eq_ok.1 (answer_eq_ok.1 h)
  rfl

theorem eq_of_ofExcept {r : Except ConvertError Payload} {v : Stored} (h : (ofExcept r).value left = .ok v) :
    ∃ p, r = .ok p ∧ v = .payload p := by
  cases r with
  | error e => cases h
  | ok p => exact ⟨p, rfl, eq_of_payload h⟩

theorem enter_eq_ok {kind : CollectionKind} {isEmpty : Bool} (h : enter c kind isEmpty left = .ok inner) :
    left = inner + 1 := by
  unfold enter at h
  split at h
  · cases h
  · cases left with
    | zero => cases h
    | succ left =>
      cases h
      rfl

/-! ## Decimals in one collection -/

/-- Only 128-bit integers are restated, and only as decimals. -/
theorem of_restated {v v' : Stored} (h : restated v = .ok v') : ∃ (n : Int128) (p : Payload),
    v = .payload (.int128 n) ∧ restatedInt128 n.val = .ok p ∧ v' = .payload p := by
  obtain ⟨p, hp, hv'⟩ := bind_eq_ok.1 h
  clear h
  cases v with
  | payload p =>
    cases hp
    cases p with
    | int128 n =>
      obtain ⟨q, hq, hv'⟩ := bind_eq_ok.1 hv'
      exact ⟨n, q, rfl, hq, eq_of_payload hv'⟩
    | _ => cases hv'
  | _ => cases hp

/-- Restating a 128-bit integer as a decimal keeps the relation. -/
def Restatable (R : Stored → α → Prop) : Prop := ∀ v v' a, R v a → restated v = .ok v' → R v' a

variable {R : Stored → α → Prop}

theorem forall₂_of_restateAll (hR : Restatable R) : ∀ {vs vs' : List Stored} {as : List α}, restateAll vs = .ok vs' →
    List.Forall₂ R vs as → List.Forall₂ R vs' as
  | [], vs', as, h, has => by
    cases h
    exact has
  | v :: vs, vs', as, h, has => by
    obtain _ | ⟨hv, hvs⟩ := has
    rw [restateAll] at h
    split at h
    · obtain ⟨v', hv', h⟩ := bind_eq_ok.1 h
      obtain ⟨rest, hrest, rfl⟩ := map_eq_ok.1 h
      exact .cons (hR v v' _ hv hv') (forall₂_of_restateAll hR hrest hvs)
    · obtain ⟨rest, hrest, rfl⟩ := map_eq_ok.1 h
      exact .cons hv (forall₂_of_restateAll hR hrest hvs)

theorem forall₂_of_aligned (hR : Restatable R) {vs vs' : List Stored} {as : List α} (h : aligned vs = .ok vs')
    (has : List.Forall₂ R vs as) : List.Forall₂ R vs' as := by
  unfold aligned at h
  dsimp only at h
  split at h
  · exact forall₂_of_restateAll hR h has
  · cases h
    exact has

/-! ## Collections -/

variable {R : Nat → Stored → α → Prop} {S : Nat → Stored → β → Prop} {v : Stored}

/-- The draft comes to nothing but values in relation to `a`, whatever levels are left. -/
def Meets (d : Draft) (R : Nat → Stored → α → Prop) (a : α) : Prop := ∀ left v, d.value left = .ok v → R left v a

/-- What a list was made of: the values of its items, aligned, under their common type. -/
theorem parts_of_list {ds : List Draft} (hv : (list c ds).value left = .ok v) : ∃ inner vs vs' t, left = inner + 1 ∧
    List.Forall₂ (fun d w => d.value inner = .ok w) ds vs ∧ aligned vs = .ok vs' ∧
    LogicalType.joinAll? (vs'.map Stored.type) = some t ∧ v = .list (.list t) vs' := by
  obtain ⟨inner, hinner, hv⟩ := bind_eq_ok.1 hv
  obtain ⟨vs, hvs, hv⟩ := bind_eq_ok.1 hv
  obtain ⟨vs', hvs', hv⟩ := bind_eq_ok.1 hv
  obtain ⟨t, ht, rfl⟩ := map_eq_ok.1 (answer_eq_ok.1 hv)
  unfold Stored.elementType at ht
  split at ht
  · cases ht
  · split at ht
    · rename_i hjoin
      cases ht
      exact ⟨inner, vs, vs', _, enter_eq_ok hinner, forall₂_of_mapIdx (forall₂_all hvs) fun _ _ _ => within_eq_ok.1,
        hvs', hjoin, rfl⟩
    · cases ht

/-- **A list holds what the drafts of its items come to.** -/
theorem of_list (hR : ∀ inner, Restatable (R inner)) {ds : List Draft} {as : List α}
    (h : List.Forall₂ (fun d a => d.Meets R a) ds as) (hv : (list c ds).value left = .ok v) :
    ∃ inner t vs, left = inner + 1 ∧ v = .list (.list t) vs ∧ List.Forall₂ (R inner) vs as := by
  obtain ⟨inner, vs, vs', t, hleft, hparts, haligned, -, rfl⟩ := parts_of_list hv
  have hrelated := forall₂_through hparts h fun d v a hdv hda => hda inner v hdv
  exact ⟨inner, t, vs', hleft, rfl, forall₂_of_aligned (hR inner) haligned hrelated⟩

/-- **A struct holds what the drafts of its fields come to**, in the order of their names. -/
theorem of_struct {fields : List (String × Draft)} {as : List (String × α)}
    (h : List.Forall₂ (fun f a => f.1 = a.1 ∧ f.2.Meets R a.2) fields as)
    (hv : (struct c fields).value left = .ok v) :
    ∃ inner ts vs, left = inner + 1 ∧ v = .struct (.struct ts) vs ∧
      List.Forall₂ (fun f a => f.1 = a.1 ∧ R inner f.2 a.2) vs (Fields.sorted as) := by
  obtain ⟨inner, hinner, hv⟩ := bind_eq_ok.1 hv
  obtain ⟨vs, hvs, hv⟩ := bind_eq_ok.1 hv
  have hstruct := answer_eq_ok.1 hv
  unfold Stored.structOf? at hstruct
  split at hstruct
  · cases hstruct
  · cases hstruct
    have hparts : List.Forall₂ (fun f v => f.2.value inner = .ok v) (Fields.sorted fields) vs :=
      (List.forall₂_map_left_iff.1 (forall₂_all hvs)).imp fun _ _ => within_eq_ok.1
    have hsorted := Fields.forall₂_sorted (R := fun d a => Meets d R a) h
    have hnames : List.Forall₂ (fun name a => name = a.1) ((Fields.sorted fields).map Prod.fst) (Fields.sorted as) :=
      List.forall₂_map_left_iff.2 (hsorted.imp fun _ _ hfa => hfa.1)
    have hrelated := forall₂_through hparts hsorted fun f v a hfv hfa => hfa.2 inner v hfv
    exact ⟨inner, _, _, enter_eq_ok hinner, rfl, forall₂_zipped hnames hrelated⟩

/-- The type of a struct says what its fields are. -/
theorem type_of_struct {fields : List (String × Draft)} {t : LogicalType} {vs : List (String × Stored)}
    (hv : (struct c fields).value left = .ok (.struct t vs)) : t = .struct (vs.map fun f => (f.1, f.2.type)) := by
  obtain ⟨inner, -, hv⟩ := bind_eq_ok.1 hv
  obtain ⟨vs', -, hv⟩ := bind_eq_ok.1 hv
  have hstruct := answer_eq_ok.1 hv
  unfold Stored.structOf? at hstruct
  split at hstruct <;> cases hstruct
  rfl

/-- What a map was made of: the values of its keys and those of its values, aligned, under a common type each. -/
theorem parts_of_map {entries : List (Draft × Draft)} (hv : (map c entries).value left = .ok v) :
    ∃ inner ks vs ks' vs' key value, left = inner + 1 ∧
      List.Forall₂ (fun e w => e.1.value inner = .ok w) entries ks ∧ aligned ks = .ok ks' ∧
      List.Forall₂ (fun e w => e.2.value inner = .ok w) entries vs ∧ aligned vs = .ok vs' ∧
      LogicalType.joinAll? ((ks'.zip vs').map (·.1.type)) = some key ∧
      LogicalType.joinAll? ((ks'.zip vs').map (·.2.type)) = some value ∧ v = .map (.map key value) (ks'.zip vs') := by
  obtain ⟨inner, hinner, hv⟩ := bind_eq_ok.1 hv
  obtain ⟨p, hp, hv⟩ := bind_eq_ok.1 hv
  obtain ⟨ks, hks, hv⟩ := bind_eq_ok.1 hv
  obtain ⟨vs, hvs, hv⟩ := bind_eq_ok.1 hv
  have hmap := answer_eq_ok.1 hv
  obtain ⟨hkeys, hvalues⟩ := forall₂_allPairs hp
  unfold Stored.mapOf? at hmap
  split at hmap
  · cases hmap
  · split at hmap
    · cases hmap
    · rename_i hkey
      split at hmap
      · cases hmap
      · rename_i hvalue
        cases hmap
        exact ⟨inner, p.1, p.2, ks, vs, _, _, enter_eq_ok hinner, forall₂_of_mapIdx hkeys fun _ _ _ => within_eq_ok.1,
          hks, forall₂_of_mapIdx hvalues fun _ _ _ => within_eq_ok.1, hvs, hkey, hvalue, rfl⟩

/-- **A map holds what the drafts of its keys and values come to.** -/
theorem of_map (hR : ∀ inner, Restatable (R inner)) (hS : ∀ inner, Restatable (S inner))
    {entries : List (Draft × Draft)} {as : List (α × β)}
    (h : List.Forall₂ (fun e a => e.1.Meets R a.1 ∧ e.2.Meets S a.2) entries as)
    (hv : (map c entries).value left = .ok v) :
    ∃ inner key value es, left = inner + 1 ∧ v = .map (.map key value) es ∧
      List.Forall₂ (fun e a => R inner e.1 a.1 ∧ S inner e.2 a.2) es as := by
  obtain ⟨inner, ks, vs, ks', vs', key, value, hleft, hks, hks', hvs, hvs', -, -, rfl⟩ := parts_of_map hv
  have hkeys := forall₂_through hks h fun e v a hev hea => hea.1 inner v hev
  have hvalues := forall₂_through hvs h fun e v a hev hea => hea.2 inner v hev
  have hkeys' := List.forall₂_map_right_iff.1
    (forall₂_of_aligned (hR inner) hks' (List.forall₂_map_right_iff.2 hkeys))
  have hvalues' := List.forall₂_map_right_iff.1
    (forall₂_of_aligned (hS inner) hvs' (List.forall₂_map_right_iff.2 hvalues))
  exact ⟨inner, key, value, _, hleft, rfl, forall₂_zipped hkeys' hvalues'⟩

end ValueBridge.Draft
