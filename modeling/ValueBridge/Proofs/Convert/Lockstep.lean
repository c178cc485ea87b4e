import ValueBridge.Proofs.Convert.Routes
import ValueBridge.Proofs.Engine.Reachable
/-!
# Decoders in step

The decoders are put together from requests, sequencing, located errors and handles that are held while a part is read.
So two runs of one decoder, on two engines or with two depths, are compared step by step: a relation between
conversions that the requests have and these combinators keep holds between the runs (`Lockstep.valueAt`,
`Lockstep.decode`).

The relation knows how many handles a conversion may hold at a time.  Holding one more takes one, and as a level holds
at most two, a decoder that has `left` levels left holds at most `2 * left`.
-/
namespace ValueBridge

open ValueBridge.Convert

/-- Whether the cause lies in the engine or in the depth that is configured, and not in what was read. -/
def Cause.isForeign : Cause → Bool
  | engine _ | heterogeneous .. | tooDeep _ => true
  | _ => false

/-- The cause lies in what was read. -/
def ConvertError.IsOwn (e : ConvertError) : Prop := e.cause.isForeign = false

/-- A relation between conversions that hold at most so many handles at a time, on two engines.  The second configuration
allows `gap` levels more; without a gap the levels end for both at once. -/
structure Lockstep {σ τ : Type} [Engine σ] [Engine τ] (c c' : Config) (gap : Nat)
    (R : ∀ {α : Type}, Nat → Convert σ α → Convert τ α → Prop) : Prop where
  blobLength_eq : c'.blobLength = c.blobLength
  mono {α : Type} {p : Convert σ α} {q : Convert τ α} {k n : Nat} : R k p q → k ≤ n → R n p q
  value {α : Type} {n : Nat} (a : α) : R n (pure a) (pure a)
  raise {α : Type} {e : ConvertError} {n : Nat} : e.IsOwn → R n (throw e : Convert σ α) (throw e)
  tooDeep {α : Type} {q : Convert τ α} {n : Nat} : (gap = 0 → q = throw c'.tooDeep) → R n (throw c.tooDeep) q
  request {r : Request} {n : Nat} : (∀ a, r.created a = []) → R n (ask r) (ask r)
  bind {α β : Type} {p : Convert σ α} {q : Convert τ α} {f : α → Convert σ β} {g : α → Convert τ β} {n : Nat} :
    R n p q → (∀ a, R n (f a) (g a)) → R n (p >>= f) (q >>= g)
  within {α : Type} {p : Convert σ α} {q : Convert τ α} {n : Nat} (place : Place) :
    R n p q → R n (p.within place) (q.within place)
  item {α : Type} {p : Handle → Convert σ α} {q : Handle → Convert τ α} {n : Nat} (i : Item) (h : Handle) (index : Nat) :
    (∀ k, R n (p k) (q k)) → R (n + 1) (holding (itemOf i h index) p) (holding (itemOf i h index) q)
  role {α : Type} {p : Handle → Convert σ α} {q : Handle → Convert τ α} {n : Nat} (r : Role) (h : Handle) :
    (∀ k, R n (p k) (q k)) → R (n + 1) (holding (roleOf r h) p) (holding (roleOf r h) q)

/-! ## Errors of what was read -/

namespace Payload

variable {b : BlobLength} {p : Payload} {e : ConvertError}

theorem isOwn_of_temporal {t : Temporal} (h : t.toInstant = .error e) : e.IsOwn := by
  unfold Temporal.toInstant at h
  dsimp only at h
  split at h <;> cases h
  rfl

theorem isOwn_of_toInstant (h : p.toInstant = .error e) : e.IsOwn := by
  cases p with
  | temporal t => exact isOwn_of_temporal h
  | _ =>
    cases h
    rfl

theorem isOwn_of_interval {i : Interval} (h : i.toDuration = .error e) : e.IsOwn := by
  unfold Interval.toDuration at h
  split at h <;> cases h
  rfl

theorem isOwn_of_toDecimal (h : p.toDecimal = .error e) : e.IsOwn := by
  unfold toDecimal at h
  split at h
  · split at h <;> cases h
    rfl
  · cases h
  · cases h
    rfl

theorem isOwn_of_toUuid (h : p.toUuid = .error e) : e.IsOwn := by
  unfold toUuid at h
  split at h
  · split at h <;> cases h
    rfl
  · cases h
    rfl

theorem isOwn_of_toScalar (h : p.toScalar b = .error e) : e.IsOwn := by
  cases p with
  | interval i => exact isOwn_of_interval (map_eq_error.1 h)
  | temporal t => exact isOwn_of_temporal (map_eq_error.1 h)
  | decimal text p s => exact isOwn_of_toDecimal (map_eq_error.1 h)
  | uuid text => exact isOwn_of_toUuid (map_eq_error.1 h)
  | _ => cases h

end Payload

namespace ScalarTarget

theorem isOwn_of_intervalOf {p : Payload} {e : ConvertError} (h : intervalOf p = .error e) : e.IsOwn := by
  unfold intervalOf at h
  split at h
  · cases h
  · cases h
    rfl

theorem isOwn_of_ofPayload {b : BlobLength} {s : ScalarTarget} {p : Payload} {e : ConvertError}
    (h : s.ofPayload b p = .error e) : e.IsOwn := by
  unfold ofPayload at h
  split at h
  case h_2 =>
    split at h <;> cases h
    rfl
  case h_8 => exact isOwn_of_intervalOf h
  case h_9 => exact Payload.isOwn_of_toDecimal h
  case h_10 => exact Payload.isOwn_of_toUuid h
  case h_11 => exact Payload.isOwn_of_toInstant h
  case h_12 =>
    rcases bind_eq_error.1 h with h | ⟨i, -, h⟩
    · exact isOwn_of_intervalOf h
    · exact Payload.isOwn_of_interval h
  all_goals cases h <;> rfl

end ScalarTarget

/-! ## Decoding by the value's own tag -/

theorem Read.routed_of_not_composite {σ : Type} [Engine σ] {c : Config} {left : Nat} {tag : Tag} {h : Handle}
    (htag : ¬tag.isComposite) : (routed c left tag h : Convert σ HostValue) = leaf c tag h := by
  cases tag <;> first | rfl | exact absurd rfl htag

namespace Lockstep

open Read

variable {σ τ : Type} [Engine σ] [Engine τ] {c c' : Config} {gap n k left : Nat} {α β : Type}
variable {R : ∀ {α : Type}, Nat → Convert σ α → Convert τ α → Prop}

theorem map (s : Lockstep c c' gap @R) {p : Convert σ α} {q : Convert τ α} (f : α → β) (h : R n p q) :
    R n (f <$> p) (f <$> q) := by
  rw [← bind_pure_comp, ← bind_pure_comp]
  exact s.bind h fun a => s.value (f a)

theorem ofExcept (s : Lockstep c c' gap @R) {r : Except ConvertError α} (hr : ∀ e, r = .error e → e.IsOwn) :
    R n (Convert.ofExcept r : Convert σ α) (Convert.ofExcept r) := by
  cases r with
  | ok a => exact s.value a
  | error e => exact s.raise (hr e rfl)

theorem forIndices (s : Lockstep c c' gap @R) {body : Nat → Convert σ α} {body' : Nat → Convert τ α}
    (h : ∀ i, R n (body i) (body' i)) :
    ∀ count start, R n (Convert.forIndices body start count) (Convert.forIndices body' start count)
  | 0, _ => s.value []
  | count + 1, start => s.bind (h start) fun a => s.bind (forIndices s h count (start + 1)) fun rest => s.value (a :: rest)

theorem isNull (s : Lockstep c c' gap @R) (h : Handle) : R n (Convert.isNull h) (Convert.isNull h) :=
  s.request (r := .isNull h) fun _ => rfl

theorem typeOf (s : Lockstep c c' gap @R) (h : Handle) : R n (Convert.typeOf h) (Convert.typeOf h) :=
  s.request (r := .type h) fun _ => rfl

theorem tagOf (s : Lockstep c c' gap @R) (h : Handle) : R n (Convert.tagOf h) (Convert.tagOf h) :=
  s.map LogicalType.tag (s.typeOf h)

theorem payloadOf (s : Lockstep c c' gap @R) (h : Handle) : R n (Convert.payloadOf h) (Convert.payloadOf h) :=
  s.request (r := .payload h) fun _ => rfl

theorem countOf (s : Lockstep c c' gap @R) (counted : Counted) (h : Handle) :
    R n (Convert.countOf counted h) (Convert.countOf counted h) :=
  s.request (r := .count counted h) fun _ => rfl

theorem nameOf (s : Lockstep c c' gap @R) (names : Named) (h : Handle) (index : Nat) :
    R n (Convert.nameOf names h index) (Convert.nameOf names h index) :=
  s.request (r := .name names h index) fun _ => rfl

variable {read : Handle → Convert σ α} {read' : Handle → Convert τ α}

/-! One handle is held at a time, while an element or a member is read. -/

theorem elements (s : Lockstep c c' gap @R) (hr : ∀ k, R n (read k) (read' k)) (h : Handle) :
    R (n + 1) (Read.elements read h) (Read.elements read' h) := by
  have hloop : ∀ count, R (n + 1)
      (Convert.forIndices (fun i => holding (itemOf .element h i) fun k => (read k).within (.element i)) 0 count)
      (Convert.forIndices (fun i => holding (itemOf .element h i) fun k => (read' k).within (.element i)) 0 count) :=
    fun count => s.forIndices (fun i => s.item .element h i fun k => s.within (.element i) (hr k)) count 0
  refine s.bind (s.typeOf h) fun t => ?_
  dsimp only
  cases t.arraySize? with
  | some size => exact hloop size
  | none => exact s.bind (s.countOf .list h) hloop

theorem named (s : Lockstep c c' gap @R) {counted : Counted} {names : Named} {item : Item} {place : String → Place}
    (hr : ∀ k, R n (read k) (read' k)) (h : Handle) :
    R (n + 1) (Read.named counted names item place read h) (Read.named counted names item place read' h) := by
  refine s.bind (s.countOf counted h) fun count => s.forIndices (fun i => ?_) count 0
  refine s.bind (s.nameOf names h i) fun name => s.item item h i fun k => ?_
  exact s.bind (s.within (place name) (hr k)) fun a => s.value (name, a)

/-- The key and the value of an entry are held together. -/
theorem entries (s : Lockstep c c' gap @R) {value : Handle → Convert σ β} {value' : Handle → Convert τ β}
    (hk : ∀ k, R n (read k) (read' k)) (hv : ∀ k, R n (value k) (value' k)) (h : Handle) :
    R (n + 2) (Read.entries read value h) (Read.entries read' value' h) := by
  refine s.bind (s.countOf .map h) fun count => s.forIndices (fun i => ?_) count 0
  refine s.item .key h i fun k => s.item .value h i fun v => s.within (.mapEntry i) ?_
  exact s.bind (hk k) fun a => s.bind (hv v) fun b => s.value (a, b)

theorem idOf (s : Lockstep c c' gap @R) (r : Role) (h : Handle) : R (n + 1) (Read.idOf r h) (Read.idOf r h) := by
  refine s.role r h fun k => s.bind (s.payloadOf k) fun p => ?_
  cases p with
  | id i => exact s.value i
  | _ => exact s.raise rfl

theorem labelOf (s : Lockstep c c' gap @R) (r : Role) (h : Handle) :
    R (n + 1) (Read.labelOf r h) (Read.labelOf r h) := by
  refine s.role r h fun k => s.bind (s.payloadOf k) fun p => ?_
  cases p with
  | string text => exact s.value text
  | _ => exact s.raise rfl

theorem node (s : Lockstep c c' gap @R) (hr : ∀ k, R n (read k) (read' k)) (h : Handle) :
    R (n + 1) (Read.node read h) (Read.node read' h) :=
  s.bind (s.idOf .nodeId h) fun _ => s.bind (s.labelOf .nodeLabel h) fun _ => s.bind (s.named hr h) fun _ => s.value _

theorem rel (s : Lockstep c c' gap @R) (hr : ∀ k, R n (read k) (read' k)) (h : Handle) :
    R (n + 1) (Read.rel read h) (Read.rel read' h) :=
  s.bind (s.idOf .relId h) fun _ => s.bind (s.idOf .relSource h) fun _ => s.bind (s.idOf .relTarget h) fun _ =>
    s.bind (s.labelOf .relLabel h) fun _ => s.bind (s.named hr h) fun _ => s.value _

/-- The two lists of a path are held together. -/
theorem path (s : Lockstep c c' gap @R) {nodes : Handle → Convert σ (List (Node α))}
    {nodes' : Handle → Convert τ (List (Node α))} {rels : Handle → Convert σ (List (Rel α))}
    {rels' : Handle → Convert τ (List (Rel α))} (hn : ∀ k, R n (nodes k) (nodes' k)) (hr : ∀ k, R n (rels k) (rels' k))
    (h : Handle) : R (n + 2) (Read.path nodes rels h) (Read.path nodes' rels' h) :=
  s.role .pathNodes h fun ns => s.role .pathRels h fun rs => s.bind (hn ns) fun _ => s.bind (hr rs) fun _ => s.value _

/-! Where the levels of the first configuration end, those of the second may go on. -/

theorem nested (s : Lockstep c c' gap @R) {read : Nat → Handle → Convert σ α} {read' : Nat → Handle → Convert τ α}
    (hr : ∀ inner < left, ∀ k, R n (read inner k) (read' (inner + gap) k)) (h : Handle) :
    R n (Read.nested c read left h) (Read.nested c' read' (left + gap) h) := by
  cases left with
  | zero =>
    refine s.tooDeep ?_
    rintro rfl
    rfl
  | succ inner =>
    rw [Nat.succ_add]
    exact hr inner (Nat.lt_succ_self inner) h

theorem expectTag (s : Lockstep c c' gap @R) (accepted : List Tag) (h : Handle) :
    R n (Read.expectTag accepted h) (Read.expectTag accepted h) := by
  refine s.bind (s.isNull h) fun null => ?_
  cases null with
  | true => exact s.raise rfl
  | false =>
    refine s.bind (s.tagOf h) fun tag => ?_
    split
    · exact s.value ()
    · exact s.raise rfl

theorem tagged (s : Lockstep c c' gap @R) {accepted : List Tag} (hr : ∀ k, R n (read k) (read' k)) (h : Handle) :
    R n (Read.tagged accepted read h) (Read.tagged accepted read' h) :=
  s.bind (s.expectTag accepted h) fun _ => hr h

theorem leaf (s : Lockstep c c' gap @R) (tag : Tag) (h : Handle) : R n (Read.leaf c tag h) (Read.leaf c' tag h) := by
  have hscalar : R n (Read.scalarOf c h) (Read.scalarOf c' h) := by
    refine s.bind (s.payloadOf h) fun p => ?_
    rw [s.blobLength_eq]
    exact s.ofExcept fun e => Payload.isOwn_of_toScalar
  cases tag with
  | any | pointer => exact s.raise rfl
  | _ => exact s.map HostValue.scalar hscalar

theorem unlessNull (s : Lockstep c c' gap @R) {read : Tag → Handle → Convert σ HostValue}
    {read' : Tag → Handle → Convert τ HostValue} (hr : ∀ tag k, R n (read tag k) (read' tag k)) (h : Handle) :
    R n (Read.unlessNull read h) (Read.unlessNull read' h) := by
  refine s.bind (s.isNull h) fun null => ?_
  cases null with
  | true => exact s.value HostValue.null
  | false => exact s.bind (s.tagOf h) fun tag => hr tag h

section Levels

variable (ih : ∀ inner < left, ∀ k, R (2 * inner) (valueAt c inner k) (valueAt c' (inner + gap) k))
include ih

theorem nodeAt (s : Lockstep c c' gap @R) (h : Handle) :
    R (2 * left) (Read.nodeAt c left h) (Read.nodeAt c' (left + gap) h) :=
  s.nested (fun inner hi k => s.mono (s.node (ih inner hi) k) (by omega)) h

theorem relAt (s : Lockstep c c' gap @R) (h : Handle) :
    R (2 * left) (Read.relAt c left h) (Read.relAt c' (left + gap) h) :=
  s.nested (fun inner hi k => s.mono (s.rel (ih inner hi) k) (by omega)) h

/-- The elements of the two lists are two levels further in, and each is held one level before it is read. -/
theorem pathAt (s : Lockstep c c' gap @R) (h : Handle) :
    R (2 * left) (Read.pathAt c left h) (Read.pathAt c' (left + gap) h) := by
  have hlist : ∀ {α : Type} {tag : Tag} {part : Nat → Handle → Convert σ α} {part' : Nat → Handle → Convert τ α},
      ∀ l₁ < left, (∀ l₂ < l₁, ∀ k, R (2 * l₂) (part l₂ k) (part' (l₂ + gap) k)) → ∀ k,
        R (2 * l₁) (Read.nested c (fun left => Read.elements (Read.tagged [tag] (part left))) l₁ k)
          (Read.nested c' (fun left => Read.elements (Read.tagged [tag] (part' left))) (l₁ + gap) k) :=
    fun l₁ h₁ hpart k => s.nested (fun l₂ h₂ k => s.mono (s.elements (s.tagged (hpart l₂ h₂)) k) (by omega)) k
  refine s.nested (fun l₁ h₁ k => s.mono (s.path (hlist l₁ h₁ fun l₂ h₂ => ?_) (hlist l₁ h₁ fun l₂ h₂ => ?_) k)
    (by omega)) h
  · exact s.nodeAt fun inner hi => ih inner (by omega)
  · exact s.relAt fun inner hi => ih inner (by omega)

theorem routed (s : Lockstep c c' gap @R) (tag : Tag) (h : Handle) :
    R (2 * left) (Read.routed c left tag h) (Read.routed c' (left + gap) tag h) := by
  by_cases htag : tag.isComposite
  · have hlist : R (2 * left) (Read.nested c (fun left => Read.elements (valueAt c left)) left h)
        (Read.nested c' (fun left => Read.elements (valueAt c' left)) (left + gap) h) :=
      s.nested (fun inner hi k => s.mono (s.elements (ih inner hi) k) (by omega)) h
    cases tag with
    | list | array => exact s.map HostValue.list hlist
    | struct =>
      exact s.map HostValue.struct (s.nested (fun inner hi k => s.mono (s.named (ih inner hi) k) (by omega)) h)
    | map =>
      exact s.map HostValue.map
        (s.nested (fun inner hi k => s.mono (s.entries (ih inner hi) (ih inner hi) k) (by omega)) h)
    | union => exact s.nested (fun inner hi k => s.mono (s.item .field k 0 (ih inner hi)) (by omega)) h
    | node => exact s.map HostValue.node (s.nodeAt ih h)
    | rel => exact s.map HostValue.rel (s.relAt ih h)
    | path => exact s.map HostValue.path (s.pathAt ih h)
    | _ => cases htag
  · rw [routed_of_not_composite htag, routed_of_not_composite htag]
    exact s.leaf tag h

end Levels

/-- **Two runs of the dynamic decoder are in step.** -/
theorem valueAt (s : Lockstep c c' gap @R) (left : Nat) : ∀ h,
    R (2 * left) (Read.valueAt c left h) (Read.valueAt c' (left + gap) h) := by
  induction left using Nat.strongRecOn with
  | ind left ih =>
    rw [valueAt_eq, valueAt_eq]
    exact s.unlessNull (s.routed ih)

/-! ## Decoding into a requested type -/

/-- **Two runs of the decoder of a requested type are in step.** -/
theorem decode (s : Lockstep c c' gap @R) : ∀ (t : Target) (left : Nat) (h : Handle),
    R (2 * left) (t.decode c left h) (t.decode c' (left + gap) h)
  | .scalar target, left, h => by
    refine s.tagged (fun k => s.bind (s.payloadOf k) fun p => ?_) h
    rw [s.blobLength_eq]
    exact s.ofExcept fun e => ScalarTarget.isOwn_of_ofPayload
  | .node, _, h => s.tagged (s.nodeAt fun inner _ => s.valueAt inner) h
  | .rel, _, h => s.tagged (s.relAt fun inner _ => s.valueAt inner) h
  | .path, _, h => s.tagged (s.pathAt fun inner _ => s.valueAt inner) h
  | .host, left, h => s.valueAt left h
  | .opt t, left, h => by
    refine s.bind (s.isNull h) fun null => ?_
    cases null with
    | true => exact s.value none
    | false => exact s.map some (decode s t left h)
  | .list t, left, h =>
    s.tagged (s.nested fun inner hi k => s.mono (s.elements (decode s t inner) k) (by omega)) h
  | .struct t, left, h =>
    s.tagged (s.nested fun inner hi k => s.mono (s.named (decode s t inner) k) (by omega)) h
  | .map key value, left, h =>
    s.tagged (s.nested fun inner hi k => s.mono (s.entries (decode s key inner) (decode s value inner) k) (by omega)) h

end Lockstep

end ValueBridge
