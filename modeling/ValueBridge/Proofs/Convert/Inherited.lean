import ValueBridge.Convert.Source
import Mathlib.Data.List.Basic
/-!
# What encoders inherit from their parts

Encoders are put together from calls of the engine by sequencing, releasing handles and locating errors.  A property of
conversions that calls have and that these combinators keep is `Inherited`, and then every encoder has it
(`Inherited.source`).
-/
namespace ValueBridge

open ValueBridge.Convert

/-- A property of what conversions do: the calls of the encoders have it, and the combinators keep it. -/
structure Inherited {σ : Type} [Engine σ] (P : ∀ {α : Type}, Convert σ α → Prop) : Prop where
  ask {r : Request} : r.operation ≠ .execute → P (ask r)
  createList (hs : List Handle) : P (createList hs)
  createMap (ks vs : List Handle) : P (createMap ks vs)
  pure {α : Type} (a : α) : P (pure a : Convert σ α)
  throw {α : Type} (e : ConvertError) : P (throw e : Convert σ α)
  bind {α β : Type} {p : Convert σ α} {f : α → Convert σ β} : P p → (∀ a, P (f a)) → P (p >>= f)
  within {α : Type} {p : Convert σ α} (place : Place) : P p → P (p.within place)
  releasing {α : Type} {p : Convert σ α} (hs : List Handle) : P p → P (releasing hs p)
  orReleasing {α : Type} {p : Convert σ α} (hs : List Handle) : P p → P (orReleasing hs p)

namespace Inherited

variable {σ : Type} [Engine σ] {P : ∀ {α : Type}, Convert σ α → Prop} {α β : Type}

theorem ofExcept (h : Inherited @P) (r : Except ConvertError α) : P (Convert.ofExcept r : Convert σ α) := by
  cases r with
  | ok a => exact h.pure a
  | error e => exact h.throw e

theorem mapM (h : Inherited @P) {f : β → Convert σ α} (hf : ∀ b, P (f b)) : ∀ bs : List β, P (bs.mapM f)
  | [] => h.pure []
  | b :: bs => by
    rw [List.mapM_cons]
    exact h.bind (hf b) fun a => h.bind (mapM h hf bs) fun as => h.pure (a :: as)

theorem acquireAll (h : Inherited @P) : ∀ {cs : List (Convert σ Handle)}, (∀ c ∈ cs, P c) → P (acquireAll cs)
  | [], _ => h.pure []
  | c :: cs, hall => by
    obtain ⟨hc, hcs⟩ := List.forall_mem_cons.1 hall
    exact h.bind hc fun k => h.bind (h.orReleasing [k] (acquireAll h hcs)) fun ks => h.pure (k :: ks)

theorem acquirePairs (h : Inherited @P) : ∀ {cs : List (Convert σ Handle × Convert σ Handle)},
    (∀ c ∈ cs, P c.1 ∧ P c.2) → P (acquirePairs cs)
  | [], _ => h.pure _
  | (first, second) :: cs, hall => by
    obtain ⟨hc, hcs⟩ := List.forall_mem_cons.1 hall
    refine h.bind hc.1 fun k => h.bind (h.orReleasing [k] hc.2) fun k' => ?_
    exact h.bind (h.orReleasing [k, k'] (acquirePairs h hcs)) fun ks => h.pure _

/-! ## Encoders -/

variable {c : Config}

theorem restated (h : Inherited @P) (k : Handle) : P (Encoder.restated k : Convert σ Handle) := by
  refine h.bind (h.ask (r := .payload k) nofun) fun p => ?_
  cases p with
  | int128 n => exact h.bind (h.ofExcept _) fun q => h.ask (r := .createPayload q) nofun
  | _ => exact h.throw _

theorem restateAll (h : Inherited @P) : ∀ hs : List (Handle × Tag), P (Encoder.restateAll hs : Convert σ (List Handle))
  | [] => h.pure []
  | (k, tag) :: rest => by
    rw [Encoder.restateAll]
    split
    · refine h.bind (h.orReleasing _ (h.releasing [k] (h.restated k))) fun new => ?_
      exact h.bind (h.orReleasing [new] (restateAll h rest)) fun news => h.pure _
    · exact h.bind (h.orReleasing [k] (restateAll h rest)) fun news => h.pure _

theorem aligned (h : Inherited @P) (hs : List Handle) : P (Encoder.aligned hs : Convert σ (List Handle)) := by
  have htag : ∀ k, P (tagOf k : Convert σ Tag) := fun k =>
    h.bind (h.ask (r := .type k) nofun) fun t => h.pure t.tag
  refine h.bind (h.orReleasing hs (h.mapM htag hs)) fun tags => ?_
  split
  · exact h.restateAll _
  · exact h.pure hs

theorem enter (h : Inherited @P) (kind : CollectionKind) (isEmpty : Bool) (left : Nat) :
    P (Encoder.enter c kind isEmpty left : Convert σ Nat) := by
  unfold Encoder.enter
  split
  · exact h.throw _
  · exact h.ofExcept _

theorem list (h : Inherited @P) {items : List (Encoder σ)} (hitems : ∀ item ∈ items, ∀ left, P (item left))
    (left : Nat) : P (Encoder.list c items left) := by
  refine h.bind (h.enter _ _ left) fun inner => h.bind (h.acquireAll ?_) fun hs => ?_
  · intro p hp
    obtain ⟨i, hi, rfl⟩ := List.mem_mapIdx.1 hp
    exact h.within _ (hitems _ (List.getElem_mem hi) inner)
  · exact h.bind (h.aligned hs) fun hs => h.releasing hs (h.createList hs)

theorem struct (h : Inherited @P) {fields : List (String × Encoder σ)} (hfields : ∀ f ∈ fields, ∀ left, P (f.2 left))
    (left : Nat) : P (Encoder.struct c fields left) := by
  refine h.bind (h.enter _ _ left) fun inner => h.bind (h.acquireAll ?_) fun hs => ?_
  · rw [List.forall_mem_map]
    exact fun f hf => h.within _ (hfields f (List.mem_mergeSort.1 hf) inner)
  · exact h.releasing hs (h.ask (r := .createStruct _) nofun)

theorem map (h : Inherited @P) {entries : List (Encoder σ × Encoder σ)}
    (hentries : ∀ e ∈ entries, (∀ left, P (e.1 left)) ∧ ∀ left, P (e.2 left)) (left : Nat) :
    P (Encoder.map c entries left) := by
  refine h.bind (h.enter _ _ left) fun inner => h.bind (h.acquirePairs ?_) fun p => ?_
  · intro q hq
    obtain ⟨i, hi, rfl⟩ := List.mem_mapIdx.1 hq
    obtain ⟨hk, hv⟩ := hentries _ (List.getElem_mem hi)
    exact ⟨h.within _ (hk inner), h.within _ (hv inner)⟩
  · refine h.bind (h.orReleasing _ (h.aligned p.1)) fun ks => ?_
    exact h.bind (h.orReleasing _ (h.aligned p.2)) fun vs => h.releasing _ (h.createMap ks vs)

theorem null (h : Inherited @P) (left : Nat) : P ((Encoder.null : Encoder σ) left) :=
  h.ask (r := .createNull .any) nofun

theorem ofPayload (h : Inherited @P) (p : Payload) (left : Nat) : P ((Encoder.ofPayload p : Encoder σ) left) :=
  h.ask (r := .createPayload p) nofun

theorem ofScalar (h : Inherited @P) (r : Except ConvertError Payload) (left : Nat) :
    P ((Encoder.ofExcept r : Encoder σ) left) := by
  cases r with
  | ok p => exact h.ofPayload p left
  | error e => exact h.throw e

/-! ## What can be encoded -/

mutual
theorem host (h : Inherited @P) : ∀ (v : HostValue) (left : Nat), P ((v.encode c : Encoder σ) left)
  | .null, left => h.null left
  | .scalar s, left => h.ofScalar s.toPayload left
  | .list items, left => h.list (hostItems h items) left
  | .struct fields, left => h.struct (hostFields h fields) left
  | .map entries, left => h.map (hostEntries h entries) left
  | .node _, _ | .rel _, _ | .path _, _ => h.throw _
theorem hostItems (h : Inherited @P) : ∀ vs : List HostValue,
    ∀ p ∈ (HostValue.encodeItems c vs : List (Encoder σ)), ∀ left, P (p left)
  | [] => fun p hp => by cases hp
  | v :: vs => List.forall_mem_cons.2 ⟨host h v, hostItems h vs⟩
theorem hostFields (h : Inherited @P) : ∀ fs : List (String × HostValue),
    ∀ p ∈ (HostValue.encodeFields c fs : List (String × Encoder σ)), ∀ left, P (p.2 left)
  | [] => fun p hp => by cases hp
  | (_, v) :: fs => List.forall_mem_cons.2 ⟨host h v, hostFields h fs⟩
theorem hostEntries (h : Inherited @P) : ∀ es : List (HostValue × HostValue),
    ∀ p ∈ (HostValue.encodeEntries c es : List (Encoder σ × Encoder σ)), (∀ left, P (p.1 left)) ∧ ∀ left, P (p.2 left)
  | [] => fun p hp => by cases hp
  | (k, v) :: es => List.forall_mem_cons.2 ⟨⟨host h k, host h v⟩, hostEntries h es⟩
end

mutual
theorem json (h : Inherited @P) : ∀ (j : Json) (left : Nat), P ((j.encode c : Encoder σ) left)
  | .null, left => h.null left
  | .bool b, left => h.ofPayload (.bool b) left
  | .number n, left => h.ofScalar (n.toPayload c) left
  | .string s, left => h.ofPayload (.string s) left
  | .array items, left => h.list (jsonItems h items) left
  | .object fields, left => h.struct (jsonFields h fields) left
theorem jsonItems (h : Inherited @P) : ∀ js : List Json,
    ∀ p ∈ (Json.encodeItems c js : List (Encoder σ)), ∀ left, P (p left)
  | [] => fun p hp => by cases hp
  | j :: js => List.forall_mem_cons.2 ⟨json h j, jsonItems h js⟩
theorem jsonFields (h : Inherited @P) : ∀ fs : List (String × Json),
    ∀ p ∈ (Json.encodeFields c fs : List (String × Encoder σ)), ∀ left, P (p.2 left)
  | [] => fun p hp => by cases hp
  | (_, j) :: fs => List.forall_mem_cons.2 ⟨json h j, jsonFields h fs⟩
end

mutual
/-- **Every encoder has what it can inherit.** -/
theorem source (h : Inherited @P) : ∀ (s : Source) (left : Nat), P ((s.encode c : Encoder σ) left)
  | .host v, left => h.host v left
  | .json j, left => h.json j left
  | .scalar s, left => h.ofScalar s.toPayload left
  | .interval i, left => h.ofPayload (.interval i) left
  | .absent, left => h.null left
  | .present s, left => source h s left
  | .shared s, left => source h s left
  | .sequence items, left => h.list (sourceItems h items) left
  | .fields fs, left => h.struct (sourceFields h fs) left
  | .entries es, left => h.map (sourceEntries h es) left
theorem sourceItems (h : Inherited @P) : ∀ ss : List Source,
    ∀ p ∈ (Source.encodeItems c ss : List (Encoder σ)), ∀ left, P (p left)
  | [] => fun p hp => by cases hp
  | s :: ss => List.forall_mem_cons.2 ⟨source h s, sourceItems h ss⟩
theorem sourceFields (h : Inherited @P) : ∀ fs : List (String × Source),
    ∀ p ∈ (Source.encodeFields c fs : List (String × Encoder σ)), ∀ left, P (p.2 left)
  | [] => fun p hp => by cases hp
  | (_, s) :: fs => List.forall_mem_cons.2 ⟨source h s, sourceFields h fs⟩
theorem sourceEntries (h : Inherited @P) : ∀ es : List (Source × Source),
    ∀ p ∈ (Source.encodeEntries c es : List (Encoder σ × Encoder σ)), (∀ left, P (p.1 left)) ∧ ∀ left, P (p.2 left)
  | [] => fun p hp => by cases hp
  | (k, s) :: es => List.forall_mem_cons.2 ⟨⟨source h k, source h s⟩, sourceEntries h es⟩
end

end Inherited

end ValueBridge
