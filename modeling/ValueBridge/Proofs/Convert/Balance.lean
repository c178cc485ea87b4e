import ValueBridge.Proofs.Convert.Routes
import ValueBridge.Proofs.Engine.Tabled
/-!
# Decoding keeps the table

A computation is `Balanced` if it leaves the table of live handles as it found it, whether it ends well or not, and
calls nothing after a failed call.  Sequencing keeps this, and so does holding a handle that was just taken over; every
decoder is made in these ways, so every decoder is balanced (`balanced_valueAt`, `Target.balanced_decode`), on any
engine that answers from a table.
-/
namespace ValueBridge

open Tabled ValueBridge.Convert

variable {σ : Type} {ε ε' α β : Type}

/-- How a computation ends: well with `ok`, otherwise with `bad`. -/
def Ends (r : EStateM.Result ε σ α) (ok : α → σ → Prop) (bad : ε → σ → Prop) : Prop :=
  match r with
  | .ok a s => ok a s
  | .error e s => bad e s

namespace Ends

variable {ok : α → σ → Prop} {bad : ε → σ → Prop} {s : σ}

theorem mono {ok' : α → σ → Prop} {bad' : ε → σ → Prop} {r : EStateM.Result ε σ α} (h : Ends r ok bad)
    (hok : ∀ a s, ok a s → ok' a s) (hbad : ∀ e s, bad e s → bad' e s) : Ends r ok' bad' := by
  cases r with
  | ok a s => exact hok a s h
  | error e s => exact hbad e s h

theorem bind {p : EStateM ε σ α} {f : α → EStateM ε σ β} {ok' : β → σ → Prop} {bad' : ε → σ → Prop}
    (h : Ends (p s) ok bad) (hok : ∀ a s₁, ok a s₁ → Ends (f a s₁) ok' bad') (hbad : ∀ e s₁, bad e s₁ → bad' e s₁) :
    Ends ((p >>= f) s) ok' bad' := by
  simp only [Bind.bind, EStateM.bind]
  cases hp : p s with
  | ok a s₁ =>
    rw [hp] at h
    exact hok a s₁ h
  | error e s₁ =>
    rw [hp] at h
    exact hbad e s₁ h

theorem adapt {p : EStateM ε σ α} {f : ε → ε'} {bad' : ε' → σ → Prop} (h : Ends (p s) ok bad)
    (hbad : ∀ e s₁, bad e s₁ → bad' (f e) s₁) : Ends (p.adaptExcept f s) ok bad' := by
  unfold EStateM.adaptExcept
  cases hp : p s with
  | ok a s₁ =>
    rw [hp] at h
    exact h
  | error e s₁ =>
    rw [hp] at h
    exact hbad e s₁ h

theorem releasing [Engine σ] {hs : List Handle} {p : EStateM ε σ α} {ok' : α → σ → Prop} {bad' : ε → σ → Prop}
    (h : Ends (p s) ok bad) (hok : ∀ a s₁, ok a s₁ → ok' a (Engine.destroyAll hs s₁))
    (hbad : ∀ e s₁, bad e s₁ → bad' e (Engine.destroyAll hs s₁)) : Ends (Convert.releasing hs p s) ok' bad' := by
  unfold Convert.releasing
  cases hp : p s with
  | ok a s₁ =>
    rw [hp] at h
    exact hok a s₁ h
  | error e s₁ =>
    rw [hp] at h
    exact hbad e s₁ h

theorem orReleasing [Engine σ] {hs : List Handle} {p : EStateM ε σ α} {bad' : ε → σ → Prop} (h : Ends (p s) ok bad)
    (hbad : ∀ e s₁, bad e s₁ → bad' e (Engine.destroyAll hs s₁)) : Ends (Convert.orReleasing hs p s) ok bad' := by
  unfold Convert.orReleasing
  cases hp : p s with
  | ok a s₁ =>
    rw [hp] at h
    exact h
  | error e s₁ =>
    rw [hp] at h
    exact hbad e s₁ h

end Ends

variable [Tabled σ]

/-- **A request moves on by the handles of its answer, or stops without a trace.** -/
theorem ends_askOr (onFailure : Failure → Cause) (r : Request) {s : σ} (hs : Issued s) :
    Ends (askOr onFailure r s) (fun a s' => ∃ es, es.map Prod.fst = r.created a ∧ Moves s es s')
      (fun _ s' => Stops s [] s') := by
  have hcall : Ends (Engine.call r s) (fun a s' => ∃ es, es.map Prod.fst = r.created a ∧ Moves s es s')
      (fun _ s' => Stops s [] s') := by
    cases hr : Engine.call r s with
    | ok a s₁ => exact Moves.call_ok hs hr
    | error e s₁ => exact Stops.call_error hs hr
  exact hcall.adapt fun _ _ h => h

/-! ## Balanced computations -/

/-- A computation that leaves the table as it found it, and calls nothing after a failed call. -/
def Balanced (p : EStateM ε σ α) : Prop :=
  ∀ s, Issued s → Ends (p s) (fun _ s' => Moves s [] s') (fun _ s' => Stops s [] s')

/-- A computation that adds one handle to the table, which it returns, or nothing if it fails. -/
def Takes (p : EStateM ε σ Handle) : Prop :=
  ∀ s, Issued s → Ends (p s) (fun h s' => ∃ v, Moves s [(h, v)] s') (fun _ s' => Stops s [] s')

namespace Balanced

theorem pure (a : α) : Balanced (pure a : EStateM ε σ α) := fun _ hs => Moves.refl hs

theorem throw (e : ε) : Balanced (throw e : EStateM ε σ α) := fun _ hs => Stops.refl hs

theorem bind {p : EStateM ε σ α} {f : α → EStateM ε σ β} (hp : Balanced p) (hf : ∀ a, Balanced (f a)) :
    Balanced (p >>= f) := by
  intro s hs
  refine (hp s hs).bind (fun a s₁ h₁ => ?_) fun _ _ h => h
  exact (hf a s₁ h₁.issued_after).mono (fun _ _ h₂ => h₁.trans h₂) fun _ _ h₂ => h₁.stops h₂

theorem map {p : EStateM ε σ α} (f : α → β) (hp : Balanced p) : Balanced (f <$> p) :=
  hp.bind fun a => pure (f a)

theorem ofExcept (r : Except ConvertError α) : Balanced (Convert.ofExcept r : Convert σ α) := by
  cases r with
  | ok a => exact pure a
  | error e => exact throw e

theorem within {p : Convert σ α} (place : Place) (hp : Balanced p) : Balanced (p.within place) :=
  fun s hs => (hp s hs).adapt fun _ _ h => h

theorem ask {r : Request} (hr : ∀ a, r.created a = []) : Balanced (Convert.ask r : Convert σ r.Reply) := by
  intro s hs
  refine (ends_askOr _ r hs).mono (fun a s' h => ?_) fun _ _ h => h
  obtain ⟨es, hes, hm⟩ := h
  rw [hr a] at hes
  rwa [List.map_eq_nil_iff.1 hes] at hm

theorem holding {acquire : Convert σ Handle} {use : Handle → Convert σ α} (ha : Takes acquire)
    (hu : ∀ h, Balanced (use h)) : Balanced (Convert.holding acquire use) := by
  intro s hs
  refine (ha s hs).bind (fun h s₁ h₁ => ?_) fun _ _ h => h
  obtain ⟨v, hv⟩ := h₁
  refine (hu h s₁ hv.issued_after).releasing (fun _ s₂ h₂ => ?_) fun _ s₂ h₂ => ?_
  · exact (hv.trans h₂).release_cons
  · exact (hv.stops h₂).release_cons

theorem forIndices {body : Nat → Convert σ α} (hb : ∀ i, Balanced (body i)) :
    ∀ count start, Balanced (Convert.forIndices body start count)
  | 0, _ => pure []
  | count + 1, start => (hb start).bind fun a => (forIndices hb count (start + 1)).bind fun rest => pure (a :: rest)

end Balanced

theorem takes_item (i : Item) (h : Handle) (index : Nat) : Takes (itemOf i h index : Convert σ Handle) := by
  intro s hs
  refine (ends_askOr _ (.item i h index) hs).mono (fun k s' hk => ?_) fun _ _ h => h
  obtain ⟨es, hes, hm⟩ := hk
  obtain ⟨e, rfl, rfl⟩ := List.map_eq_singleton_iff.1 hes
  exact ⟨e.2, hm⟩

theorem takes_role (r : Role) (h : Handle) : Takes (roleOf r h : Convert σ Handle) := by
  intro s hs
  refine (ends_askOr _ (.role r h) hs).mono (fun k s' hk => ?_) fun _ _ h => h
  obtain ⟨es, hes, hm⟩ := hk
  obtain ⟨e, rfl, rfl⟩ := List.map_eq_singleton_iff.1 hes
  exact ⟨e.2, hm⟩

theorem balanced_isNull (h : Handle) : Balanced (isNull h : Convert σ Bool) := .ask (r := .isNull h) fun _ => rfl

theorem balanced_typeOf (h : Handle) : Balanced (typeOf h : Convert σ LogicalType) := .ask (r := .type h) fun _ => rfl

theorem balanced_payloadOf (h : Handle) : Balanced (payloadOf h : Convert σ Payload) :=
  .ask (r := .payload h) fun _ => rfl

theorem balanced_countOf (c : Counted) (h : Handle) : Balanced (countOf c h : Convert σ Nat) :=
  .ask (r := .count c h) fun _ => rfl

theorem balanced_nameOf (c : Named) (h : Handle) (index : Nat) : Balanced (nameOf c h index : Convert σ String) :=
  .ask (r := .name c h index) fun _ => rfl

/-! ## Decoding by the value's own tag -/

namespace Read

variable {read : Handle → Convert σ α}

theorem balanced_elements (hr : ∀ h, Balanced (read h)) (h : Handle) : Balanced (elements read h) := by
  refine (balanced_typeOf h).bind fun t => ?_
  have hloop : ∀ count, Balanced (forIndices
      (fun i => holding (itemOf .element h i) fun part => (read part).within (.element i)) 0 count) := fun count =>
    .forIndices (fun i => .holding (takes_item .element h i) fun k => (hr k).within _) count 0
  dsimp only
  cases t.arraySize? with
  | some n => exact hloop n
  | none => exact (balanced_countOf .list h).bind hloop

theorem balanced_named {counted : Counted} {names : Named} {item : Item} {place : String → Place}
    (hr : ∀ h, Balanced (read h)) (h : Handle) : Balanced (named counted names item place read h) := by
  refine (balanced_countOf counted h).bind fun count => .forIndices (fun i => ?_) count 0
  refine (balanced_nameOf names h i).bind fun name => .holding (takes_item item h i) fun k => ?_
  exact ((hr k).within (place name)).map _

theorem balanced_entries {key : Handle → Convert σ α} {value : Handle → Convert σ β} (hk : ∀ h, Balanced (key h))
    (hv : ∀ h, Balanced (value h)) (h : Handle) : Balanced (entries key value h) := by
  refine (balanced_countOf .map h).bind fun count => .forIndices (fun i => ?_) count 0
  refine .holding (takes_item .key h i) fun k => .holding (takes_item .value h i) fun v => .within _ ?_
  exact (hk k).bind fun a => (hv v).bind fun b => .pure (a, b)

theorem balanced_idOf (r : Role) (h : Handle) : Balanced (idOf r h : Convert σ InternalId) := by
  refine .holding (takes_role r h) fun k => (balanced_payloadOf k).bind fun p => ?_
  cases p with
  | id i => exact .pure i
  | _ => exact .throw _

theorem balanced_labelOf (r : Role) (h : Handle) : Balanced (labelOf r h : Convert σ String) := by
  refine .holding (takes_role r h) fun k => (balanced_payloadOf k).bind fun p => ?_
  cases p with
  | string s => exact .pure s
  | _ => exact .throw _

theorem balanced_node (hr : ∀ h, Balanced (read h)) (h : Handle) : Balanced (node read h) :=
  (balanced_idOf .nodeId h).bind fun _ => (balanced_labelOf .nodeLabel h).bind fun _ =>
    (balanced_named hr h).bind fun _ => .pure _

theorem balanced_rel (hr : ∀ h, Balanced (read h)) (h : Handle) : Balanced (rel read h) :=
  (balanced_idOf .relId h).bind fun _ => (balanced_idOf .relSource h).bind fun _ =>
    (balanced_idOf .relTarget h).bind fun _ => (balanced_labelOf .relLabel h).bind fun _ =>
      (balanced_named hr h).bind fun _ => .pure _

theorem balanced_path {nodes : Handle → Convert σ (List (Node α))} {rels : Handle → Convert σ (List (Rel α))}
    (hn : ∀ h, Balanced (nodes h)) (hr : ∀ h, Balanced (rels h)) (h : Handle) : Balanced (path nodes rels h) :=
  .holding (takes_role .pathNodes h) fun ns => .holding (takes_role .pathRels h) fun rs =>
    (hn ns).bind fun _ => (hr rs).bind fun _ => .pure _

theorem balanced_nested {c : Config} {read : Nat → Handle → Convert σ α} {left : Nat}
    (hr : ∀ inner < left, ∀ h, Balanced (read inner h)) (h : Handle) : Balanced (nested c read left h) := by
  cases left with
  | zero => exact .throw _
  | succ inner => exact hr inner (Nat.lt_succ_self inner) h

theorem balanced_expectTag (accepted : List Tag) (h : Handle) : Balanced (expectTag accepted h : Convert σ Unit) := by
  refine (balanced_isNull h).bind fun null => ?_
  cases null with
  | true => exact .throw _
  | false =>
    refine ((balanced_typeOf h).map _).bind fun tag => ?_
    split
    · exact .pure _
    · exact .throw _

theorem balanced_tagged {accepted : List Tag} (hr : ∀ h, Balanced (read h)) (h : Handle) :
    Balanced (tagged accepted read h) :=
  (balanced_expectTag accepted h).bind fun _ => hr h

theorem balanced_leaf (c : Config) (tag : Tag) (h : Handle) : Balanced (leaf c tag h : Convert σ HostValue) := by
  unfold leaf
  split
  · exact .throw _
  · exact .throw _
  · exact ((balanced_payloadOf h).bind fun p => .ofExcept _).map _

theorem balanced_unlessNull {read : Tag → Handle → Convert σ HostValue} (hr : ∀ tag h, Balanced (read tag h))
    (h : Handle) : Balanced (unlessNull read h) := by
  refine (balanced_isNull h).bind fun null => ?_
  cases null with
  | true => exact .pure _
  | false => exact ((balanced_typeOf h).map _).bind fun tag => hr tag h

section Levels

variable {c : Config} {left : Nat} (ih : ∀ inner < left, ∀ h, Balanced (valueAt c inner h : Convert σ HostValue))
include ih

theorem balanced_nodeAt (h : Handle) : Balanced (nodeAt c left h : Convert σ (Node HostValue)) :=
  balanced_nested (fun inner hi => balanced_node (ih inner hi)) h

theorem balanced_relAt (h : Handle) : Balanced (relAt c left h : Convert σ (Rel HostValue)) :=
  balanced_nested (fun inner hi => balanced_rel (ih inner hi)) h

theorem balanced_pathAt (h : Handle) : Balanced (pathAt c left h : Convert σ (Path HostValue)) := by
  refine balanced_nested (fun l₁ h₁ => balanced_path (fun ns => ?_) fun rs => ?_) h
  · refine balanced_nested (fun l₂ h₂ => balanced_elements (balanced_tagged (balanced_nodeAt fun l₃ h₃ => ?_))) ns
    exact ih l₃ (by omega)
  · refine balanced_nested (fun l₂ h₂ => balanced_elements (balanced_tagged (balanced_relAt fun l₃ h₃ => ?_))) rs
    exact ih l₃ (by omega)

theorem balanced_routed (tag : Tag) (h : Handle) : Balanced (routed c left tag h : Convert σ HostValue) := by
  unfold routed
  split
  · exact (balanced_nested (fun inner hi => balanced_elements (ih inner hi)) h).map _
  · exact (balanced_nested (fun inner hi => balanced_elements (ih inner hi)) h).map _
  · exact (balanced_nested (fun inner hi => balanced_named (ih inner hi)) h).map _
  · exact (balanced_nested (fun inner hi => balanced_entries (ih inner hi) (ih inner hi)) h).map _
  · exact balanced_nested (fun inner hi h => .holding (takes_item .field h 0) (ih inner hi)) h
  · exact (balanced_nodeAt ih h).map _
  · exact (balanced_relAt ih h).map _
  · exact (balanced_pathAt ih h).map _
  · exact balanced_leaf c tag h

end Levels

/-- **Decoding by the value's own tag keeps the table**, on every route. -/
theorem balanced_valueAt (c : Config) (left : Nat) : ∀ h, Balanced (valueAt c left h : Convert σ HostValue) := by
  induction left using Nat.strongRecOn with
  | ind left ih =>
    rw [valueAt_eq]
    exact balanced_unlessNull (balanced_routed ih)

end Read

/-! ## Decoding into a requested type -/

namespace Target

open Read

/-- **Decoding into any requested type keeps the table.** -/
theorem balanced_decode (c : Config) : ∀ (t : Target) (left : Nat) (h : Handle),
    Balanced (t.decode c left h : Convert σ t.Value)
  | scalar s, _, h => balanced_tagged (fun h => (balanced_payloadOf h).bind fun p => .ofExcept _) h
  | node, _, h => balanced_tagged (balanced_nodeAt fun inner _ => balanced_valueAt c inner) h
  | rel, _, h => balanced_tagged (balanced_relAt fun inner _ => balanced_valueAt c inner) h
  | path, _, h => balanced_tagged (balanced_pathAt fun inner _ => balanced_valueAt c inner) h
  | host, left, h => balanced_valueAt c left h
  | opt t, left, h => by
    refine (balanced_isNull h).bind fun null => ?_
    cases null with
    | true => exact .pure none
    | false => exact (balanced_decode c t left h).map _
  | list t, _, h =>
    balanced_tagged (balanced_nested fun inner _ => balanced_elements (balanced_decode c t inner)) h
  | struct t, _, h => balanced_tagged (balanced_nested fun inner _ => balanced_named (balanced_decode c t inner)) h
  | map k v, _, h =>
    balanced_tagged (balanced_nested fun inner _ => balanced_entries (balanced_decode c k inner)
      (balanced_decode c v inner)) h

end Target

end ValueBridge
