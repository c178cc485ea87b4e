import ValueBridge.Proofs.Convert.Balance
import ValueBridge.Proofs.Convert.Lockstep
import ValueBridge.Proofs.Convert.Payload
import ValueBridge.Proofs.Stored.Making
import ValueBridge.Proofs.Stored.Reading
/-!
# Why decoding does not fail

Decoders compare tags and count levels, and everything else that goes wrong lies in the engine or in a payload: such an
error is plain (`ConvertError.IsPlain`).  A set of errors is `Tolerant` if it has all plain errors, wherever they are
located.  `Spares A s p` says that a computation fails with errors of the tolerant set `A` only, and `Suits A read v` that
a decoder does so when it reads `v`, from any engine that answers from a table.  The combinators of the decoders keep such
a description.

Decoding by the value's own tag suits every value that is `Shallow`: it is not nested deeper than there are levels left,
unless the set has the error that says so (`Read.suits_valueAt`).  Tags do not matter there, as only the lists of a path
are asked for one.
-/
namespace ValueBridge

open Tabled ValueBridge.Convert

variable {σ α β : Type} [Tabled σ] {s s' : σ} {h : Handle} {v : Stored}

/-! ## Plain errors -/

namespace ConvertError

/-- The value is nested deeper than the depth that was configured, whatever that was. -/
def IsDepth (e : ConvertError) : Prop := ∃ limit, e.cause = .tooDeep limit

/-- Neither the tag of a value nor its depth is to blame. -/
def IsPlain (e : ConvertError) : Prop := e.kind ≠ .typeMismatch ∧ ¬e.IsDepth

theorem IsOwn.not_isDepth {e : ConvertError} (h : e.IsOwn) : ¬e.IsDepth := by
  rintro ⟨n, hcause⟩
  rw [IsOwn, hcause] at h
  cases h

theorem isPlain_of_isOwn {e : ConvertError} (h : e.IsOwn) (hkind : e.kind = .conversionFailed) : e.IsPlain :=
  ⟨by rw [hkind]; decide, h.not_isDepth⟩

theorem isPlain_engine (e : Failure) : IsPlain ⟨.engine e, []⟩ := ⟨nofun, fun ⟨_, h⟩ => nomatch h⟩

theorem not_isDepth_typeMismatch (expected : List Tag) (found : Tag) : ¬IsDepth ⟨.typeMismatch expected found, []⟩ :=
  fun ⟨_, h⟩ => nomatch h

end ConvertError

/-- A set of errors that has the plain ones, wherever they are located. -/
structure Tolerant (A : ConvertError → Prop) : Prop where
  plain : ∀ e, e.IsPlain → A e
  within : ∀ place e, A e → A (e.within place)

theorem tolerant_not_typeMismatch : Tolerant fun e => e.kind ≠ .typeMismatch where
  plain _ h := h.1
  within place e h := by rwa [ConvertError.kind_within]

theorem tolerant_not_isDepth : Tolerant fun e => ¬e.IsDepth where
  plain _ h := h.2
  within place e h := by rwa [ConvertError.IsDepth, ConvertError.cause_within]

/-! ## What the engine answers about a value -/

/-- What is asked of the engine is answered by its table; otherwise the error is plain. -/
theorem ends_ask (r : Request) (hs : Issued s) :
    Ends (ask r s) (fun a s' => Memory.call r (memory s) = .ok a (memory s') ∧
      ∃ es, es.map Prod.fst = r.created a ∧ Moves s es s') (fun e _ => e.IsPlain) := by
  have hcall : Ends (Engine.call r s) (fun a s' => Memory.call r (memory s) = .ok a (memory s') ∧
      ∃ es, es.map Prod.fst = r.created a ∧ Moves s es s') (fun _ _ => True) := by
    cases hr : Engine.call r s with
    | ok a s₁ => exact ⟨(Tabled.call_ok hr).1, Moves.call_ok hs hr⟩
    | error e s₁ => trivial
  exact hcall.adapt fun e _ _ => ConvertError.isPlain_engine e

theorem ends_inspection {r : Request} {f : Memory → Except Failure r.Reply} (hs : Issued s)
    (hcall : Memory.call r = Memory.inspect f) (hr : ∀ a, r.created a = []) :
    Ends (ask r s) (fun a s' => f (memory s) = .ok a ∧ Moves s [] s') (fun e _ => e.IsPlain) := by
  refine (ends_ask r hs).mono (fun a s' ⟨hanswer, es, hes, hmoves⟩ => ?_) fun _ _ h => h
  rw [hcall] at hanswer
  rw [hr a] at hes
  rw [List.map_eq_nil_iff.1 hes] at hmoves
  exact ⟨(Memory.inspect_ok.1 hanswer).1, hmoves⟩

theorem ends_isNull (hs : Issued s) (hv : Behind s h v) :
    Ends (isNull h s) (fun b s' => b = v.isNull ∧ Moves s [] s') (fun e _ => e.IsPlain) := by
  refine (ends_inspection (r := .isNull h) hs rfl fun _ => rfl).mono (fun b s' ⟨hb, hmoves⟩ => ?_) fun _ _ h => h
  rw [show (memory s).find? h = .ok v from hv] at hb
  cases hb
  exact ⟨rfl, hmoves⟩

theorem ends_tagOf (hs : Issued s) (hv : Behind s h v) :
    Ends (tagOf h s) (fun tag s' => tag = v.type.tag ∧ Moves s [] s') (fun e _ => e.IsPlain) := by
  refine (ends_inspection (r := .type h) hs rfl fun _ => rfl).bind (fun t s' ⟨ht, hmoves⟩ => ?_) fun _ _ h => h
  rw [show (memory s).find? h = .ok v from hv] at ht
  cases ht
  exact ⟨rfl, hmoves⟩

theorem part_of_insertFrom (part : Stored → Except Failure Stored) {k : Handle} {es : List (Handle × Stored)}
    (hs : Issued s) (hv : Behind s h v) (hmoves : Moves s es s')
    (hk : Memory.insertFrom (fun m => (m.find? h).bind part) (memory s) = .ok k (memory s')) :
    ∃ w, part v = .ok w ∧ Moves s [(k, w)] s' := by
  obtain ⟨w, hw, hadds⟩ := Memory.adds_of_insertFrom_ok hs hk
  rw [show (memory s).find? h = .ok v from hv] at hw
  exact ⟨w, hw, hadds, hmoves.answered⟩

theorem ends_itemOf {i : Item} {index : Nat} (hs : Issued s) (hv : Behind s h v) :
    Ends (itemOf i h index s) (fun k s' => ∃ w, v.item? i index = .ok w ∧ Moves s [(k, w)] s')
      (fun e _ => e.IsPlain) :=
  (ends_ask (.item i h index) hs).mono (fun _ _ ⟨hanswer, _, _, hmoves⟩ =>
    part_of_insertFrom (Stored.item? i · index) hs hv hmoves hanswer) fun _ _ h => h

theorem ends_roleOf {r : Role} (hs : Issued s) (hv : Behind s h v) :
    Ends (roleOf r h s) (fun k s' => ∃ w, v.role? r = .ok w ∧ Moves s [(k, w)] s')
      (fun e _ => e.IsPlain) :=
  (ends_ask (.role r h) hs).mono (fun _ _ ⟨hanswer, _, _, hmoves⟩ =>
    part_of_insertFrom (Stored.role? r) hs hv hmoves hanswer) fun _ _ h => h

/-! ## Computations that fail within a set of errors -/

/-- The computation keeps the table; if it fails, then with an error of the set. -/
def Spares (A : ConvertError → Prop) (s : σ) (p : Convert σ α) : Prop :=
  Ends (p s) (fun _ s' => Moves s [] s') (fun e _ => A e)

variable {A : ConvertError → Prop}

namespace Spares

theorem pure (hs : Issued s) (a : α) : Spares A s (pure a : Convert σ α) := Moves.refl hs

theorem throw {e : ConvertError} (he : A e) : Spares A s (throw e : Convert σ α) := he

theorem bind {p : Convert σ α} {f : α → Convert σ β} (h : Spares A s p)
    (hf : ∀ a s', Moves s [] s' → Spares A s' (f a)) : Spares A s (p >>= f) :=
  Ends.bind h (fun a s₁ h₁ => (hf a s₁ h₁).mono (fun _ _ h₂ => h₁.trans h₂) fun _ _ h => h) fun _ _ h => h

theorem map {p : Convert σ α} (f : α → β) (h : Spares A s p) : Spares A s (f <$> p) :=
  h.bind fun a _ hmoves => pure hmoves.issued_after (f a)

theorem forIndices {body : Nat → Convert σ α} : ∀ (count start : Nat) {s : σ}, Issued s →
    (∀ i s', Moves s [] s' → Spares A s' (body i)) → Spares A s (Convert.forIndices body start count)
  | 0, _, _, hs, _ => pure hs []
  | count + 1, start, s, hs, h => by
    refine (h start s (.refl hs)).bind fun a s₁ h₁ => ?_
    exact (forIndices count (start + 1) h₁.issued_after fun i s' h' => h i s' (h₁.trans h')).map (a :: ·)

variable (hA : Tolerant A)
include hA

theorem within {p : Convert σ α} (place : Place) (h : Spares A s p) : Spares A s (p.within place) :=
  Ends.adapt h fun e _ he => hA.within place e he

theorem ofExcept {r : Except ConvertError α} (hs : Issued s) (hr : ∀ e, r = .error e → e.IsPlain) :
    Spares A s (Convert.ofExcept r) := by
  cases r with
  | ok a => exact pure hs a
  | error e => exact throw (hA.plain e (hr e rfl))

/-- After a request of which all that counts is that it makes no handles. -/
theorem ask {r : Request} (hs : Issued s) (hr : ∀ a, r.created a = []) : Spares A s (Convert.ask r) := by
  refine (ends_ask r hs).mono (fun a s' ⟨_, es, hes, hmoves⟩ => ?_) fun e _ => hA.plain e
  rw [hr a] at hes
  rwa [List.map_eq_nil_iff.1 hes] at hmoves

theorem after {p : Convert σ α} {f : α → Convert σ β} {answer : α → Prop}
    (h : Ends (p s) (fun a s' => answer a ∧ Moves s [] s') (fun e _ => e.IsPlain))
    (hf : ∀ a s', answer a → Moves s [] s' → Spares A s' (f a)) : Spares A s (p >>= f) :=
  h.bind (fun a s₁ ⟨ha, h₁⟩ => (hf a s₁ ha h₁).mono (fun _ _ h₂ => h₁.trans h₂) fun _ _ h => h)
    fun e _ => hA.plain e

theorem holding {acquire : Convert σ Handle} {use : Handle → Convert σ α} {part : Stored → Prop}
    (ha : Ends (acquire s) (fun k s' => ∃ w, part w ∧ Moves s [(k, w)] s') (fun e _ => e.IsPlain))
    (hu : ∀ w, part w → ∀ k s', Moves s [(k, w)] s' → Spares A s' (use k)) : Spares A s (Convert.holding acquire use) :=
  ha.bind (fun k s₁ ⟨w, hw, h₁⟩ =>
    Ends.releasing (hu w hw k s₁ h₁) (fun _ _ h₂ => (h₁.trans h₂).release_cons) fun _ _ he => he)
    fun e _ => hA.plain e

end Spares

/-! ## Decoders that fail within a set of errors -/

/-- The decoder fails with errors of the set only when it reads the value. -/
def Suits (A : ConvertError → Prop) (read : Handle → Convert σ α) (v : Stored) : Prop :=
  ∀ s h, Issued s → Behind s h v → Spares A s (read h)

namespace Suits

variable {read : Handle → Convert σ α}

theorem map (f : α → β) (hr : Suits A read v) : Suits A (fun h => f <$> read h) v :=
  fun s h hs hv => (hr s h hs hv).map f

theorem andThen {next : α → Handle → Convert σ β} (hr : Suits A read v) (hnext : ∀ a, Suits A (next a) v) :
    Suits A (fun h => read h >>= fun a => next a h) v := fun s h hs hv =>
  (hr s h hs hv).bind fun a s₁ h₁ => hnext a s₁ h h₁.issued_after (h₁.behind_of_old hv)

variable (hA : Tolerant A)
include hA

theorem unlessNull {read : Tag → Handle → Convert σ HostValue} (hr : v.isNull = false → Suits A (read v.type.tag) v) :
    Suits A (Read.unlessNull read) v := by
  intro s h hs hv
  refine .after hA (ends_isNull hs hv) fun null s₁ hnull h₁ => ?_
  subst hnull
  cases hn : v.isNull with
  | true => exact .pure h₁.issued_after _
  | false =>
    refine .after hA (ends_tagOf h₁.issued_after (h₁.behind_of_old hv)) fun tag s₂ htag h₂ => ?_
    subst htag
    exact hr hn s₂ h h₂.issued_after (h₂.behind_of_old (h₁.behind_of_old hv))

/-- A null fails as a null. -/
theorem tagged {accepted : List Tag}
    (htag : v.isNull = false → v.type.tag ∈ accepted ∨ A ⟨.typeMismatch accepted v.type.tag, []⟩)
    (hr : v.isNull = false → v.type.tag ∈ accepted → Suits A read v) : Suits A (Read.tagged accepted read) v := by
  intro s h hs hv
  have hexpect : Ends (Read.expectTag accepted h s)
      (fun _ s' => (v.isNull = false ∧ v.type.tag ∈ accepted) ∧ Moves s [] s') (fun e _ => A e) := by
    refine (ends_isNull hs hv).bind (fun null s₁ ⟨hnull, h₁⟩ => ?_) fun e _ => hA.plain e
    subst hnull
    cases hn : v.isNull with
    | true => exact hA.plain _ ⟨by decide, fun ⟨_, h⟩ => nomatch h⟩
    | false =>
      refine (ends_tagOf h₁.issued_after (h₁.behind_of_old hv)).bind (fun tag s₂ ⟨htag', h₂⟩ => ?_)
        fun e _ => hA.plain e
      subst htag'
      by_cases haccepted : v.type.tag ∈ accepted
      · rw [if_pos (List.contains_iff_mem.2 haccepted)]
        exact ⟨⟨rfl, haccepted⟩, h₁.trans h₂⟩
      · rw [if_neg fun hcontains => haccepted (List.contains_iff_mem.1 hcontains)]
        exact (htag hn).resolve_left haccepted
  refine hexpect.bind (fun _ s₁ ⟨⟨hn, haccepted⟩, h₁⟩ => ?_) fun _ _ h => h
  exact (hr hn haccepted s₁ h h₁.issued_after (h₁.behind_of_old hv)).mono (fun _ _ h₂ => h₁.trans h₂) fun _ _ h => h

/-! ### Collections -/

theorem item {i : Item} {index : Nat} {place : Place} (hr : ∀ w, v.item? i index = .ok w → Suits A read w) :
    Suits A (fun h => holding (itemOf i h index) fun part => (read part).within place) v := fun _ _ hs hv =>
  .holding hA (ends_itemOf hs hv) fun w hw k s₁ h₁ =>
    (hr w hw s₁ k h₁.issued_after (h₁.behind List.mem_cons_self)).within hA place

theorem elements (hr : ∀ w index, v.item? .element index = .ok w → Suits A read w) :
    Suits A (Read.elements read) v := by
  intro s h hs hv
  have hloop : ∀ count s', Moves s [] s' → Spares A s' (forIndices
      (fun i => holding (itemOf .element h i) fun part => (read part).within (.element i)) 0 count) :=
    fun count s' h' => .forIndices count 0 h'.issued_after fun i s'' h'' =>
      item hA (fun w hw => hr w i hw) s'' h h''.issued_after (h''.behind_of_old (h'.behind_of_old hv))
  refine (Spares.ask hA (r := .type h) hs fun _ => rfl).bind fun t s₁ h₁ => ?_
  cases LogicalType.arraySize? t with
  | some n => exact hloop n s₁ h₁
  | none =>
    exact (Spares.ask hA (r := .count .list h) h₁.issued_after fun _ => rfl).bind fun n s₂ h₂ =>
      hloop n s₂ (h₁.trans h₂)

theorem named {counted : Counted} {names : Named} {i : Item} {place : String → Place}
    (hr : ∀ w index, v.item? i index = .ok w → Suits A read w) : Suits A (Read.named counted names i place read) v := by
  intro s h hs hv
  refine (Spares.ask hA (r := .count counted h) hs fun _ => rfl).bind fun n s₁ h₁ => ?_
  refine .forIndices n 0 h₁.issued_after fun index s₂ h₂ => ?_
  refine (Spares.ask hA (r := .name names h index) h₂.issued_after fun _ => rfl).bind fun name s₃ h₃ => ?_
  refine .holding hA (ends_itemOf h₃.issued_after (h₃.behind_of_old (h₂.behind_of_old (h₁.behind_of_old hv))))
    fun w hw k s₄ h₄ => ?_
  have hread := hr w index hw s₄ k h₄.issued_after (h₄.behind List.mem_cons_self)
  exact (hread.within hA (place name)).map (Prod.mk name)

theorem entries {key : Handle → Convert σ α} {value : Handle → Convert σ β}
    (hk : ∀ w index, v.item? .key index = .ok w → Suits A key w)
    (hv : ∀ w index, v.item? .value index = .ok w → Suits A value w) : Suits A (Read.entries key value) v := by
  intro s h hs hbehind
  refine (Spares.ask hA (r := .count .map h) hs fun _ => rfl).bind fun n s₁ h₁ => ?_
  refine .forIndices n 0 h₁.issued_after fun index s₂ h₂ => ?_
  have hbehind₂ := h₂.behind_of_old (h₁.behind_of_old hbehind)
  refine .holding hA (ends_itemOf h₂.issued_after hbehind₂) fun w hw k s₃ h₃ => ?_
  refine .holding hA (ends_itemOf h₃.issued_after (h₃.behind_of_old hbehind₂)) fun x hx l s₄ h₄ => .within hA _ ?_
  have hw₄ : Behind s₄ k w := h₄.behind_of_old (h₃.behind List.mem_cons_self)
  refine (hk w index hw s₄ k h₄.issued_after hw₄).bind fun a s₅ h₅ => ?_
  have hx₅ : Behind s₅ l x := h₅.behind_of_old (h₄.behind List.mem_cons_self)
  exact (hv x index hx s₅ l h₅.issued_after hx₅).map (Prod.mk a)

/-! ### Graph elements -/

theorem payloadOf {f : Payload → Except ConvertError α} (hf : ∀ p e, f p = .error e → e.IsPlain) :
    Suits A (fun h => (Convert.payloadOf h : Convert σ Payload) >>= fun p => Convert.ofExcept (f p)) v :=
  fun _ h hs _ => (Spares.ask hA (r := .payload h) hs fun _ => rfl).bind fun p _ h₁ =>
    .ofExcept hA h₁.issued_after (hf p)

theorem idOf (r : Role) : Suits A (Read.idOf r : Handle → Convert σ InternalId) v := fun s h hs hv =>
  .holding hA (ends_roleOf hs hv) fun w _ k s₁ h₁ =>
    (Spares.ask hA (r := .payload k) h₁.issued_after fun _ => rfl).bind fun p s₂ h₂ => by
      cases p with
      | id i => exact .pure h₂.issued_after i
      | _ => exact .throw (hA.plain _ (ConvertError.isPlain_of_isOwn rfl rfl))

theorem labelOf (r : Role) : Suits A (Read.labelOf r : Handle → Convert σ String) v := fun s h hs hv =>
  .holding hA (ends_roleOf hs hv) fun w _ k s₁ h₁ =>
    (Spares.ask hA (r := .payload k) h₁.issued_after fun _ => rfl).bind fun p s₂ h₂ => by
      cases p with
      | string text => exact .pure h₂.issued_after text
      | _ => exact .throw (hA.plain _ (ConvertError.isPlain_of_isOwn rfl rfl))

theorem node (hr : ∀ w index, v.item? .nodeProperty index = .ok w → Suits A read w) : Suits A (Read.node read) v :=
  (idOf hA .nodeId).andThen fun id => (labelOf hA .nodeLabel).andThen fun label =>
    (named hA hr).map (Node.mk id label)

theorem rel (hr : ∀ w index, v.item? .relProperty index = .ok w → Suits A read w) : Suits A (Read.rel read) v :=
  (idOf hA .relId).andThen fun id => (idOf hA .relSource).andThen fun source =>
    (idOf hA .relTarget).andThen fun target => (labelOf hA .relLabel).andThen fun label =>
      (named hA hr).map (Rel.mk id source target label)

theorem path {nodes : Handle → Convert σ (List (Node α))} {rels : Handle → Convert σ (List (Rel α))}
    (hn : ∀ w, v.role? .pathNodes = .ok w → Suits A nodes w) (hr : ∀ w, v.role? .pathRels = .ok w → Suits A rels w) :
    Suits A (Read.path nodes rels) v := by
  intro s h hs hv
  refine .holding hA (ends_roleOf hs hv) fun w hw k s₁ h₁ => ?_
  refine .holding hA (ends_roleOf h₁.issued_after (h₁.behind_of_old hv)) fun x hx l s₂ h₂ => ?_
  have hw₂ : Behind s₂ k w := h₂.behind_of_old (h₁.behind List.mem_cons_self)
  refine (hn w hw s₂ k h₂.issued_after hw₂).bind fun ns s₃ h₃ => ?_
  have hx₃ : Behind s₃ l x := h₃.behind_of_old (h₂.behind List.mem_cons_self)
  exact (hr x hx s₃ l h₃.issued_after hx₃).map (Path.mk ns)

end Suits

/-! ## Depth -/

namespace Stored

/-- A value whose tag says that it has parts takes a level, unless it is null. -/
theorem depth_pos (hnull : v.isNull = false) (htag : v.type.tag.isComposite) : 0 < v.depth := by
  cases v with
  | null t => cases hnull
  | payload p =>
    rw [type, Payload.tag_type] at htag
    cases p with
    | int w n => cases w <;> cases htag
    | temporal t => cases t <;> cases htag
    | _ => cases htag
  | list | struct | map | union | node | rel | path =>
    rw [depth]
    omega

theorem part_of_item? {w : Stored} {i : Item} {index : Nat} (h : v.item? i index = .ok w) : Part w v := by
  cases i with
  | element =>
    cases v with
    | list t items => exact .item (mem_of_at? h)
    | _ => cases h
  | field =>
    cases v with
    | struct t fields =>
      obtain ⟨f, hat, rfl⟩ := map_eq_ok.1 h
      exact .field (mem_of_at? hat)
    | union t name member =>
      obtain ⟨f, hat, rfl⟩ := map_eq_ok.1 h
      cases List.mem_singleton.1 (mem_of_at? hat)
      exact .member
    | _ => cases h
  | key =>
    cases v with
    | map t entries =>
      obtain ⟨e, hat, rfl⟩ := map_eq_ok.1 h
      exact .key (mem_of_at? hat)
    | _ => cases h
  | value =>
    cases v with
    | map t entries =>
      obtain ⟨e, hat, rfl⟩ := map_eq_ok.1 h
      exact .value (mem_of_at? hat)
    | _ => cases h
  | nodeProperty =>
    cases v with
    | node n =>
      obtain ⟨f, hat, rfl⟩ := map_eq_ok.1 h
      exact .nodeProperty (mem_of_at? hat)
    | _ => cases h
  | relProperty =>
    cases v with
    | rel r =>
      obtain ⟨f, hat, rfl⟩ := map_eq_ok.1 h
      exact .relProperty (mem_of_at? hat)
    | _ => cases h

theorem depth_lt_of_item? {w : Stored} {i : Item} {index : Nat} (h : v.item? i index = .ok w) : w.depth < v.depth :=
  (part_of_item? h).depth_lt

/-- The lists of a path take a level of their own. -/
theorem depth_pathNodes_lt {p : Path Stored} (h : v.asPath = .ok p) :
    (list (.list (.plain .node)) (p.nodes.map node)).depth < v.depth := by
  have hnodes : (p.nodes.map node).map depth =
      p.nodes.map fun n => largest (n.properties.map fun f => f.2.depth) + 1 := by
    rw [List.map_map]
    exact List.map_congr_left fun n _ => by rw [Function.comp_apply, depth]
  cases v with
  | path p =>
    cases h
    rw [depth, depth, hnodes]
    omega
  | _ => cases h

theorem depth_pathRels_lt {p : Path Stored} (h : v.asPath = .ok p) :
    (list (.list (.plain .rel)) (p.rels.map rel)).depth < v.depth := by
  have hrels : (p.rels.map rel).map depth =
      p.rels.map fun r => largest (r.properties.map fun f => f.2.depth) + 1 := by
    rw [List.map_map]
    exact List.map_congr_left fun r _ => by rw [Function.comp_apply, depth]
  cases v with
  | path p =>
    cases h
    rw [depth, depth, hrels]
    omega
  | _ => cases h

end Stored

/-- The value is not nested deeper than there are levels left, unless the error that says so is in the set. -/
def Shallow (A : ConvertError → Prop) (c : Config) (left : Nat) (v : Stored) : Prop := v.depth ≤ left ∨ A c.tooDeep

/-- What takes a level finds its parts within the levels that are left then, and does not fail for want of one. -/
theorem Suits.nested {c : Config} {left : Nat} {read : Nat → Handle → Convert σ α} (hv : Shallow A c left v)
    (hpos : 0 < v.depth)
    (hr : ∀ inner < left, (∀ w, w.depth < v.depth → Shallow A c inner w) → Suits A (read inner) v) :
    Suits A (Read.nested c read left) v := by
  cases left with
  | zero => exact fun s k hs _ => .throw (hv.resolve_left (Nat.not_le.2 hpos))
  | succ inner => exact hr inner (Nat.lt_succ_self inner) fun w hw => hv.imp_left fun hle => by omega

/-! ## Decoding by the value's own tag -/

namespace Read

variable (hA : Tolerant A)
include hA

theorem suits_leaf (c : Config) (tag : Tag) (v : Stored) : Suits A (leaf c tag : Handle → Convert σ HostValue) v := by
  have hplain : ∀ tag, A ⟨.noDecoder tag, []⟩ := fun tag => hA.plain _ ⟨nofun, fun ⟨_, h⟩ => nomatch h⟩
  have hscalar : Suits A (fun h => HostValue.scalar <$> (scalarOf c h : Convert σ Scalar)) v :=
    (Suits.payloadOf hA fun p e he =>
      ConvertError.isPlain_of_isOwn (Payload.isOwn_of_toScalar he) (Payload.kind_of_toScalar he)).map HostValue.scalar
  intro s h hs hv
  unfold leaf
  split
  · exact .throw (hplain .any)
  · exact .throw (hplain .pointer)
  · exact hscalar s h hs hv

section Levels

variable {c : Config} {left : Nat}
  (ih : ∀ inner < left, ∀ v, Shallow A c inner v → Suits A (valueAt c inner : Handle → Convert σ HostValue) v)
include ih

theorem suits_nodeAt (hv : Shallow A c left v) (hpos : 0 < v.depth) :
    Suits A (nodeAt c left : Handle → Convert σ (Node HostValue)) v :=
  .nested hv hpos fun inner hi hparts => .node hA fun w _ hw =>
    ih inner hi w (hparts w (Stored.depth_lt_of_item? hw))

theorem suits_relAt (hv : Shallow A c left v) (hpos : 0 < v.depth) :
    Suits A (relAt c left : Handle → Convert σ (Rel HostValue)) v :=
  .nested hv hpos fun inner hi hparts => .rel hA fun w _ hw =>
    ih inner hi w (hparts w (Stored.depth_lt_of_item? hw))

/-- The lists of a path hold nodes and relationships only. -/
theorem suits_pathAt (hv : Shallow A c left v) (hpos : 0 < v.depth) :
    Suits A (pathAt c left : Handle → Convert σ (Path HostValue)) v := by
  refine .nested hv hpos fun l₁ h₁ hparts => .path hA (fun w hw => ?_) fun w hw => ?_
  · obtain ⟨p, hp, rfl⟩ := map_eq_ok.1 hw
    have hdepth := Stored.depth_pathNodes_lt hp
    refine .nested (hparts _ hdepth) (Stored.depth_pos rfl rfl) fun l₂ h₂ hitems => .elements hA fun x index hx => ?_
    have hlevel := hitems x (Stored.depth_lt_of_item? hx)
    obtain ⟨n, -, rfl⟩ := List.mem_map.1 (Stored.mem_of_at? hx)
    exact .tagged hA (fun _ => .inl (List.mem_singleton.2 rfl)) fun _ _ =>
      suits_nodeAt hA (fun l₃ h₃ => ih l₃ (by omega)) hlevel (Stored.depth_pos rfl rfl)
  · obtain ⟨p, hp, rfl⟩ := map_eq_ok.1 hw
    have hdepth := Stored.depth_pathRels_lt hp
    refine .nested (hparts _ hdepth) (Stored.depth_pos rfl rfl) fun l₂ h₂ hitems => .elements hA fun x index hx => ?_
    have hlevel := hitems x (Stored.depth_lt_of_item? hx)
    obtain ⟨r, -, rfl⟩ := List.mem_map.1 (Stored.mem_of_at? hx)
    exact .tagged hA (fun _ => .inl (List.mem_singleton.2 rfl)) fun _ _ =>
      suits_relAt hA (fun l₃ h₃ => ih l₃ (by omega)) hlevel (Stored.depth_pos rfl rfl)

theorem suits_routed (hv : Shallow A c left v) (hnull : v.isNull = false) :
    Suits A (routed c left v.type.tag : Handle → Convert σ HostValue) v := by
  have hpos : v.type.tag.isComposite → 0 < v.depth := Stored.depth_pos hnull
  generalize v.type.tag = tag at hpos
  have hinner : ∀ inner < left, (∀ w, w.depth < v.depth → Shallow A c inner w) → ∀ i w index,
      v.item? i index = .ok w → Suits A (valueAt c inner : Handle → Convert σ HostValue) w :=
    fun inner hi hparts i w index hw => ih inner hi w (hparts w (Stored.depth_lt_of_item? hw))
  intro s h hs hbehind
  unfold routed
  split
  · exact (Suits.nested hv (hpos rfl) fun inner hi hparts => .elements hA (hinner inner hi hparts .element)).map
      HostValue.list s h hs hbehind
  · exact (Suits.nested hv (hpos rfl) fun inner hi hparts => .elements hA (hinner inner hi hparts .element)).map
      HostValue.list s h hs hbehind
  · exact (Suits.nested hv (hpos rfl) fun inner hi hparts => .named hA (hinner inner hi hparts .field)).map
      HostValue.struct s h hs hbehind
  · exact (Suits.nested hv (hpos rfl) fun inner hi hparts =>
      .entries hA (hinner inner hi hparts .key) (hinner inner hi hparts .value)).map HostValue.map s h hs hbehind
  · refine Suits.nested hv (hpos rfl) (fun inner hi hparts s h hs hv => ?_) s h hs hbehind
    exact .holding hA (ends_itemOf hs hv) fun w hw k s₁ h₁ =>
      hinner inner hi hparts .field w 0 hw s₁ k h₁.issued_after (h₁.behind List.mem_cons_self)
  · exact (suits_nodeAt hA ih hv (hpos rfl)).map HostValue.node s h hs hbehind
  · exact (suits_relAt hA ih hv (hpos rfl)).map HostValue.rel s h hs hbehind
  · exact (suits_pathAt hA ih hv (hpos rfl)).map HostValue.path s h hs hbehind
  · exact suits_leaf hA c _ v s h hs hbehind

end Levels

/-- **Decoding by the value's own tag suits every shallow value.** -/
theorem suits_valueAt (c : Config) (left : Nat) : ∀ v, Shallow A c left v →
    Suits A (valueAt c left : Handle → Convert σ HostValue) v := by
  induction left using Nat.strongRecOn with
  | ind left ih =>
    rw [valueAt_eq]
    exact fun v hv => .unlessNull hA fun hnull => suits_routed hA ih hv hnull

end Read

end ValueBridge
