import ValueBridge.Proofs.Convert.Balance
import ValueBridge.Proofs.Convert.Draft
import ValueBridge.Proofs.Fields
import ValueBridge.Proofs.Indexed
/-!
# Encoders build their drafts

`Builds p plan` ties a computation to what it means to build, the plan's result: it ends well only with a new handle for
that value, which is then the only entry that it has added; otherwise it has added nothing, and if the engine is trusty
and has room for the handles that the plan needs, the error is the plan's.  The combinators of the encoders keep this
(`encodes_list`, `encodes_struct`, `encodes_map`), and so every encoder builds its draft (`HostValue.encodes_encode`,
`Json.encodes_encode`, `Source.encodes_encode`).
-/
namespace ValueBridge

open Tabled ValueBridge.Convert
open Draft (answer)

variable {σ : Type} [Tabled σ] {s s' s₁ : σ} {α β : Type} {e : ConvertError}

/-! ## Failing -/

/-- The computation stops with the entries `es` added, and with the error of the result `r` if the engine is trusty and
has room for `n` handles. -/
structure Fails (s : σ) (es : List (Handle × Stored)) (n : Nat) (r : Except ConvertError α) (e : ConvertError)
    (s' : σ) : Prop where
  stops : Stops s es s'
  error : Roomy s n → r = .error e

namespace Fails

variable {es fs : List (Handle × Stored)} {n n' : Nat} {r : Except ConvertError α} {r' : Except ConvertError β}

theorem imp (h : Fails s es n r e s') (hn : n ≤ n') (hr : r = .error e → r' = .error e) : Fails s es n' r' e s' :=
  ⟨h.stops, fun hroom => hr (h.error (hroom.mono hn))⟩

theorem after (hm : Moves s es s₁) (h : Fails s₁ [] n r e s') : Fails s es (n + es.length) r e s' :=
  ⟨hm.stops h.stops, fun hroom => h.error (hm.roomy hroom)⟩

theorem release (h : Fails s (es ++ fs) n r e s') : Fails s fs n r e (Engine.destroyAll (es.map Prod.fst) s') :=
  ⟨h.stops.release, h.error⟩

theorem release_cons {k : Handle} {v : Stored} (h : Fails s ((k, v) :: fs) n r e s') :
    Fails s fs n r e (Engine.destroyAll [k] s') :=
  ⟨h.stops.release_cons, h.error⟩

theorem release_all (h : Fails s es n r e s') : Fails s [] n r e (Engine.destroyAll (es.map Prod.fst) s') := by
  have happend : Fails s (es ++ []) n r e s' := by rwa [List.append_nil]
  exact happend.release

end Fails

/-! ## Requests -/

theorem ends_inspected {r : Request} {f : Memory → Except Failure r.Reply} (hs : Issued s)
    (hr : ∀ a, r.created a = []) (hm : Memory.call r (memory s) = Memory.inspect f (memory s)) :
    Ends (ask r s) (fun a s' => answer .engine (f (memory s)) = .ok a ∧ Moves s [] s')
      (Fails s [] 0 (answer .engine (f (memory s)))) := by
  have hcall : Ends (Engine.call r s) (fun a s' => answer .engine (f (memory s)) = .ok a ∧ Moves s [] s')
      (fun e => Fails s [] 0 (answer .engine (f (memory s))) ⟨.engine e, []⟩) := by
    cases hc : Engine.call r s with
    | ok a s' =>
      obtain ⟨es, hes, hmove⟩ := Moves.call_ok hs hc
      rw [hr a] at hes
      rw [List.map_eq_nil_iff.1 hes] at hmove
      have ha := (Tabled.call_ok hc).1
      rw [hm] at ha
      exact ⟨by rw [(Memory.inspect_ok.1 ha).1]; rfl, hmove⟩
    | error e s' =>
      refine ⟨Stops.call_error hs hc, fun hroom => ?_⟩
      have he := (Tabled.call_error hc).2.2 hroom.1
      rw [hm] at he
      rw [(Memory.inspect_error.1 he).1]
      rfl
  exact hcall.adapt fun _ _ h => h

theorem ends_typeOf {h : Handle} {v : Stored} (hs : Issued s) (hv : Behind s h v) :
    Ends (typeOf h s) (fun t s' => t = v.type ∧ Moves s [] s') (Fails s [] 0 (.ok v.type)) := by
  have ht := ends_inspected (r := .type h) (f := fun m => (m.find? h).map Stored.type) hs (fun _ => rfl) rfl
  rw [show (memory s).find? h = .ok v from hv] at ht
  refine ht.mono (fun t s' h => ?_) fun e s' h => h
  obtain ⟨he, hmove⟩ := h
  cases he
  exact ⟨rfl, hmove⟩

theorem ends_payloadOf {h : Handle} {v : Stored} (hs : Issued s) (hv : Behind s h v) :
    Ends (payloadOf h s) (fun p s' => answer .engine v.asPayload = .ok p ∧ Moves s [] s')
      (Fails s [] 0 (answer .engine v.asPayload)) := by
  have hp := ends_inspected (r := .payload h) (f := fun m => (m.find? h).bind Stored.asPayload) hs (fun _ => rfl) rfl
  rw [show (memory s).find? h = .ok v from hv] at hp
  exact hp

/-- A request for a new value, which the table determines by `f`. -/
structure Inserts (call : Call σ Handle) (f : Memory → Except Failure Stored) : Prop where
  ok : ∀ {h s s'}, call s = .ok h s' → Memory.insertFrom f (memory s) = .ok h (memory s') ∧ Answered s s'
  error : ∀ {e s s'}, Issued s → call s = .error e s' → Stops s [] s' ∧
    (trusty σ → Memory.insertFrom f (memory s) = .error e (memory s'))

theorem inserts_createNull (t : LogicalType) :
    Inserts (Engine.call (.createNull t) : Call σ Handle) fun _ => .ok (.null t) :=
  ⟨Tabled.call_ok, fun hs hc => ⟨Stops.call_error hs hc, (Tabled.call_error hc).2.2⟩⟩

theorem inserts_createPayload (p : Payload) : Inserts (Engine.call (.createPayload p) : Call σ Handle)
    fun _ => (Stored.checkPayload p).map fun _ => .payload p :=
  ⟨Tabled.call_ok, fun hs hc => ⟨Stops.call_error hs hc, (Tabled.call_error hc).2.2⟩⟩

theorem inserts_createList (hs : List Handle) : Inserts (Engine.call (.createList hs) : Call σ Handle)
    fun m => (m.collect hs).bind Stored.listOf? :=
  ⟨Tabled.call_ok, fun hs hc => ⟨Stops.call_error hs hc, (Tabled.call_error hc).2.2⟩⟩

theorem inserts_createStruct (fs : List (String × Handle)) : Inserts (Engine.call (.createStruct fs) : Call σ Handle)
    fun m => (m.collectFields fs).bind Stored.structOf? :=
  ⟨Tabled.call_ok, fun hs hc => ⟨Stops.call_error hs hc, (Tabled.call_error hc).2.2⟩⟩

theorem inserts_createMap (ks vs : List Handle) : Inserts (Engine.call (.createMap ks vs) : Call σ Handle)
    (Memory.createMap ks vs) :=
  ⟨Tabled.call_ok, fun hs hc => ⟨Stops.call_error hs hc, (Tabled.call_error hc).2.2⟩⟩

theorem Inserts.ends {call : Call σ Handle} {f : Memory → Except Failure Stored} (h : Inserts call f)
    (onFailure : Failure → Cause) (hs : Issued s) :
    Ends (EStateM.adaptExcept (fun e => ⟨onFailure e, []⟩) call s)
      (fun h s' => ∃ v, answer onFailure (f (memory s)) = .ok v ∧ Moves s [(h, v)] s')
      (Fails s [] 1 (answer onFailure (f (memory s)))) := by
  have hcall : Ends (call s) (fun h s' => ∃ v, answer onFailure (f (memory s)) = .ok v ∧ Moves s [(h, v)] s')
      (fun e => Fails s [] 1 (answer onFailure (f (memory s))) ⟨onFailure e, []⟩) := by
    cases hc : call s with
    | ok k s' =>
      obtain ⟨hi, ha⟩ := h.ok hc
      obtain ⟨v, hv, hadds⟩ := Memory.adds_of_insertFrom_ok hs hi
      exact ⟨v, by rw [hv]; rfl, hadds, ha⟩
    | error e s' =>
      obtain ⟨hstop, hi⟩ := h.error hs hc
      refine ⟨hstop, fun hroom => ?_⟩
      rcases Memory.insertFrom_error.1 (hi hroom.1) with ⟨hf, -⟩ | ⟨v, -, hv⟩
      · rw [hf]
        rfl
      · have hfull := (Memory.insert_error.1 hv).1
        have hfree := hroom.2
        omega
  exact hcall.adapt fun _ _ h => h

/-! ## Plans -/

/-- What a computation means to build, and how many values it builds before. -/
abbrev Plan := Except ConvertError Stored × Nat

/-- **The computation builds what the plan says**, or fails as it says when the engine is trusty and has room. -/
def Builds (p : Convert σ Handle) (plan : Plan) : Prop :=
  ∀ s, Issued s → Ends (p s) (fun h s' => ∃ v, plan.1 = .ok v ∧ Moves s [(h, v)] s') (Fails s [] (plan.2 + 1) plan.1)

namespace Builds

theorem throw (e : ConvertError) (n : Nat) : Builds (throw e : Convert σ Handle) (.error e, n) :=
  fun _ hs => ⟨Stops.refl hs, fun _ => rfl⟩

theorem within {p : Convert σ Handle} {plan : Plan} (place : Place) (h : Builds p plan) :
    Builds (p.within place) (Draft.within place plan.1, plan.2) := by
  intro s hs
  refine ((h s hs).mono (fun k s' hk => ?_) fun _ _ h => h).adapt fun e s' he => ⟨he.stops, fun hroom => ?_⟩
  · obtain ⟨v, hv, hmove⟩ := hk
    exact ⟨v, by rw [hv]; rfl, hmove⟩
  · rw [he.error hroom]
    rfl

theorem createNull (t : LogicalType) : Builds (createNull t : Convert σ Handle) (.ok (.null t), 0) :=
  fun _ hs => (inserts_createNull t).ends .engine hs

theorem createPayload (p : Payload) : Builds (createPayload p : Convert σ Handle) (Draft.payload p, 0) :=
  fun _ hs => (inserts_createPayload p).ends .engine hs

end Builds

/-! ## Parts -/

/-- The room that values take that are built one after the other and kept. -/
def room (plans : List Plan) : Nat := (plans.map (·.2 + 1)).sum

theorem room_cons (plan : Plan) (plans : List Plan) : room (plan :: plans) = plan.2 + 1 + room plans := by
  rw [room, List.map_cons, List.sum_cons]
  rfl

/-- All parts are built, or those before the first that fails are released. -/
theorem ends_acquireAll : ∀ {cs : List (Convert σ Handle)} {plans : List Plan}, List.Forall₂ Builds cs plans →
    ∀ {s : σ}, Issued s → Ends (acquireAll cs s)
      (fun hs s' => ∃ es : List (Handle × Stored), es.map Prod.fst = hs ∧
        Draft.all (plans.map Prod.fst) = .ok (es.map Prod.snd) ∧ Moves s es s')
      (Fails s [] (room plans) (Draft.all (plans.map Prod.fst)))
  | [], _, .nil, s, hs => ⟨[], rfl, rfl, Moves.refl hs⟩
  | c :: cs, plan :: plans, .cons hc hcs, s, hs => by
    rw [room_cons, List.map_cons]
    refine (hc s hs).bind (fun h s₁ h₁ => ?_) fun e s₁ h₁ => h₁.imp (Nat.le_add_right _ _) fun he => ?_
    · obtain ⟨v, hv, hmove⟩ := h₁
      have hcons : Draft.all (plan.1 :: plans.map Prod.fst) = (Draft.all (plans.map Prod.fst)).map (v :: ·) := by
        rw [Draft.all, hv]
        rfl
      refine Ends.bind ((ends_acquireAll hcs hmove.issued_after).orReleasing fun e s₂ h₂ =>
        (h₂.after hmove).release_cons) (fun ks s₂ h₂ => ?_) fun e s₂ h₂ => h₂.imp ?_ fun he => ?_
      · obtain ⟨es, rfl, hall, hmove'⟩ := h₂
        exact ⟨(h, v) :: es, rfl, by rw [hcons, hall]; rfl,
          (hmove.trans hmove').perm (List.perm_append_singleton _ _)⟩
      · rw [List.length_singleton]
        omega
      · rw [hcons, he]
        rfl
    · rw [Draft.all, he]
      rfl

theorem allPairs_cons {v w : Stored} (rs : List (Except ConvertError Stored × Except ConvertError Stored)) :
    Draft.allPairs ((.ok v, .ok w) :: rs) = (Draft.allPairs rs).map fun p => (v :: p.1, w :: p.2) := rfl

/-- All pairs are built, or the parts before the first that fails are released. -/
theorem ends_acquirePairs : ∀ {cs : List (Convert σ Handle × Convert σ Handle)} {plans : List (Plan × Plan)},
    List.Forall₂ (fun c plan => Builds c.1 plan.1 ∧ Builds c.2 plan.2) cs plans → ∀ {s : σ}, Issued s →
    Ends (acquirePairs cs s)
      (fun hs s' => ∃ ks vs : List (Handle × Stored), (ks.map Prod.fst, vs.map Prod.fst) = hs ∧
        Draft.allPairs (plans.map fun p => (p.1.1, p.2.1)) = .ok (ks.map Prod.snd, vs.map Prod.snd) ∧
        Moves s (ks ++ vs) s')
      (Fails s [] (room (plans.map Prod.fst) + room (plans.map Prod.snd))
        (Draft.allPairs (plans.map fun p => (p.1.1, p.2.1))))
  | [], _, .nil, s, hs => ⟨[], [], rfl, rfl, Moves.refl hs⟩
  | (c, c') :: cs, (plan, plan') :: plans, .cons hc hcs, s, hs => by
    simp only [List.map_cons, room_cons]
    refine (hc.1 s hs).bind (fun h s₁ h₁ => ?_) fun e s₁ h₁ => h₁.imp (by dsimp only; omega) fun he => ?_
    · obtain ⟨v, hv, hmove⟩ := h₁
      refine Ends.bind ((hc.2 s₁ hmove.issued_after).orReleasing fun e s₂ h₂ => (h₂.after hmove).release_cons)
        (fun k s₂ h₂ => ?_) fun e s₂ h₂ => h₂.imp (by simp only [List.length_singleton]; omega) fun he => ?_
      · obtain ⟨w, hw, hmove'⟩ := h₂
        have hboth : Moves s [(h, v), (k, w)] s₂ := (hmove.trans hmove').perm (List.Perm.swap _ _ _)
        rw [hv, hw, allPairs_cons]
        refine Ends.bind ((ends_acquirePairs hcs hboth.issued_after).orReleasing fun e s₃ h₃ =>
          (h₃.after hboth).release_cons.release_cons) (fun hs s₃ h₃ => ?_) fun e s₃ h₃ => h₃.imp ?_ fun he => ?_
        · obtain ⟨ks, vs, rfl, hall, hmove''⟩ := h₃
          have hmiddle : ((k, w) :: (ks ++ vs)).Perm (ks ++ (k, w) :: vs) := List.perm_middle.symm
          exact ⟨(h, v) :: ks, (k, w) :: vs, rfl, by rw [hall]; rfl,
            (hboth.trans hmove'').perm (List.perm_append_comm.trans (hmiddle.cons (h, v)))⟩
        · simp only [List.length_cons, List.length_nil]
          omega
        · rw [he]
          rfl
      · rw [Draft.allPairs, hv, he]
        rfl
    · rw [Draft.allPairs, he]
      rfl

/-! ## Owned handles -/

theorem collect_eq {m : Memory} : ∀ {es : List (Handle × Stored)}, (∀ e ∈ es, m.find? e.1 = .ok e.2) →
    m.collect (es.map Prod.fst) = .ok (es.map Prod.snd)
  | [], _ => rfl
  | e :: es, h => by
    have hrest := collect_eq fun e' he' => h e' (List.mem_cons_of_mem _ he')
    unfold Memory.collect at hrest ⊢
    rw [List.map_cons, List.mapM_cons, h e List.mem_cons_self, hrest]
    rfl

theorem collectFields_eq {m : Memory} : ∀ {names : List String} {es : List (Handle × Stored)},
    (∀ e ∈ es, m.find? e.1 = .ok e.2) →
    m.collectFields (names.zip (es.map Prod.fst)) = .ok (names.zip (es.map Prod.snd))
  | [], _, _ => rfl
  | _ :: _, [], _ => rfl
  | name :: names, e :: es, h => by
    have hrest : m.collectFields (names.zip (es.map Prod.fst)) = .ok (names.zip (es.map Prod.snd)) :=
      collectFields_eq fun e' he' => h e' (List.mem_cons_of_mem _ he')
    unfold Memory.collectFields at hrest ⊢
    rw [List.map_cons, List.zip_cons_cons, List.mapM_cons, h e List.mem_cons_self, hrest]
    rfl

theorem ends_tags : ∀ {es : List (Handle × Stored)} {s : σ}, Issued s → (∀ e ∈ es, Behind s e.1 e.2) →
    Ends ((es.map Prod.fst).mapM tagOf s) (fun tags s' => tags = es.map (·.2.type.tag) ∧ Moves s [] s')
      (Fails s [] 0 (.ok (es.map (·.2.type.tag))))
  | [], s, hs, _ => ⟨rfl, Moves.refl hs⟩
  | (h, v) :: es, s, hs, hbehind => by
    rw [List.map_cons, List.mapM_cons]
    have hhead := ends_typeOf hs (hbehind (h, v) List.mem_cons_self)
    have htag : Ends (tagOf h s) (fun tag s' => tag = v.type.tag ∧ Moves s [] s')
        (Fails s [] 0 (.ok (((h, v) :: es).map (·.2.type.tag)))) := by
      refine hhead.bind (fun t s₁ h₁ => ?_) fun e s₁ h₁ => h₁.imp (Nat.le_refl 0) fun he => by cases he
      exact ⟨congrArg LogicalType.tag h₁.1, h₁.2⟩
    refine htag.bind (fun tag s₁ h₁ => ?_) fun _ _ h => h
    obtain ⟨rfl, hmove⟩ := h₁
    have hrest := ends_tags hmove.issued_after fun e he => hmove.behind_of_old (hbehind e (List.mem_cons_of_mem _ he))
    refine hrest.bind (fun tags s₂ h₂ => ?_) fun e s₂ h₂ => ?_
    · obtain ⟨rfl, hmove'⟩ := h₂
      exact ⟨rfl, hmove.trans hmove'⟩
    · exact (h₂.after hmove).imp (Nat.le_refl 0) fun he => by cases he

/-! ## Decimals in one collection -/

/-- The handles and values that a computation owns are replaced by others, or all are released. -/
def Replaces (s : σ) (es fs : List (Handle × Stored)) (r : Except ConvertError (List Stored))
    (result : EStateM.Result ConvertError σ (List Handle)) : Prop :=
  Ends result (fun hs s' => ∃ es' : List (Handle × Stored), es'.map Prod.fst = hs ∧ r = .ok (es'.map Prod.snd) ∧
    Moves s (es' ++ fs) s') (Fails s fs (es.length + fs.length + 1) r)

theorem ends_restated {h : Handle} {v : Stored} (hs : Issued s) (hv : Behind s h v) :
    Ends (Encoder.restated h s) (fun k s' => ∃ w, Draft.restated v = .ok w ∧ Moves s [(k, w)] s')
      (Fails s [] 1 (Draft.restated v)) := by
  refine (ends_payloadOf hs hv).bind (fun p s₁ h₁ => ?_) fun e s₁ h₁ => h₁.imp (Nat.zero_le 1) fun he => ?_
  · obtain ⟨hp, hmove⟩ := h₁
    have hr : Draft.restated v = Draft.restatedPayload p := by
      rw [Draft.restated, hp]
      rfl
    rw [hr]
    cases p with
    | int128 n =>
      rw [Draft.restatedPayload]
      dsimp only
      cases restatedInt128 n.val with
      | ok q =>
        refine (Builds.createPayload q s₁ hmove.issued_after).mono (fun k s₂ h₂ => ?_) fun e s₂ h₂ => h₂.after hmove
        obtain ⟨w, hw, hmove'⟩ := h₂
        exact ⟨w, hw, hmove.trans hmove'⟩
      | error e => exact ⟨hmove.stops (Stops.refl hmove.issued_after), fun _ => rfl⟩
    | _ => exact ⟨hmove.stops (Stops.refl hmove.issued_after), fun _ => rfl⟩
  · rw [Draft.restated, he]
    rfl

theorem Replaces.cons {es fs : List (Handle × Stored)} {k : Handle} {w : Stored}
    {r : Except ConvertError (List Stored)} {p : Convert σ (List Handle)} (e : Handle × Stored)
    (h : Replaces s es ((k, w) :: fs) r (p s₁)) :
    Replaces s (e :: es) fs (r.map (w :: ·)) ((do
      let news ← orReleasing [k] p
      return k :: news) s₁) := by
  refine Ends.bind (h.orReleasing fun _ _ h₂ => h₂.release_cons) (fun ks s₂ h₂ => ?_)
    fun e s₂ h₂ => h₂.imp ?_ fun he => ?_
  · obtain ⟨es', rfl, hr, hmove⟩ := h₂
    exact ⟨(k, w) :: es', rfl, by rw [hr]; rfl, hmove.perm List.perm_middle⟩
  · simp only [List.length_cons]
    omega
  · rw [he]
    rfl

/-- Every owned 128-bit integer is replaced by a decimal. -/
theorem replaces_restateAll : ∀ (es : List (Handle × Stored)) {fs : List (Handle × Stored)} {s s₁ : σ},
    Moves s (es ++ fs) s₁ → Replaces s es fs (Draft.restateAll (es.map Prod.snd))
      (Encoder.restateAll ((es.map Prod.fst).zip (es.map (·.2.type.tag))) s₁)
  | [], fs, s, s₁, hmove => ⟨[], rfl, rfl, hmove⟩
  | (h, v) :: es, fs, s, s₁, hmove => by
    simp only [List.map_cons, List.zip_cons_cons, Encoder.restateAll, Draft.restateAll]
    have hzip : ((es.map Prod.fst).zip (es.map (·.2.type.tag))).map Prod.fst = es.map Prod.fst :=
      List.map_fst_zip (by simp)
    by_cases htag : v.type.tag = .int128
    · rw [if_pos htag, if_pos htag, hzip]
      have hnew : Ends (orReleasing (es.map Prod.fst) (releasing [h] (Encoder.restated h)) s₁)
          (fun k s₂ => ∃ w, Draft.restated v = .ok w ∧ Moves s (es ++ (k, w) :: fs) s₂)
          (Fails s fs (((h, v) :: es).length + fs.length + 1) (Draft.restated v)) := by
        refine Ends.orReleasing (Ends.releasing (ends_restated hmove.issued_after (hmove.behind List.mem_cons_self))
          (fun k s₂ h₂ => ?_) fun e s₂ h₂ => (h₂.after hmove).release_cons) fun e s₂ h₂ => h₂.release.imp ?_ id
        · obtain ⟨w, hw, hmove'⟩ := h₂
          have hboth : Moves s ((h, v) :: (k, w) :: (es ++ fs)) s₂ := (hmove.trans hmove').perm (List.Perm.swap _ _ _)
          exact ⟨w, hw, hboth.release_cons.perm List.perm_middle.symm⟩
        · simp only [List.length_append, List.length_cons]
          omega
      refine hnew.bind (fun k s₂ h₂ => ?_) fun e s₂ h₂ => h₂.imp (Nat.le_refl _) fun he => by rw [he]; rfl
      obtain ⟨w, hw, hmove'⟩ := h₂
      rw [hw]
      exact (replaces_restateAll es hmove').cons (h, v)
    · rw [if_neg htag, if_neg htag]
      exact (replaces_restateAll es (hmove.perm List.perm_middle.symm)).cons (h, v)

/-- **Owned handles are aligned**: the decimals among them have one type, or all are released. -/
theorem replaces_aligned {es fs : List (Handle × Stored)} (hmove : Moves s (es ++ fs) s₁) :
    Replaces s es fs (Draft.aligned (es.map Prod.snd)) (Encoder.aligned (es.map Prod.fst) s₁) := by
  have htags := ends_tags hmove.issued_after fun e he => hmove.behind (List.mem_append_left fs he)
  refine Ends.bind (htags.orReleasing fun e s₂ h₂ => (h₂.after hmove).release) (fun tags s₂ h₂ => ?_)
    fun e s₂ h₂ => h₂.imp ?_ fun he => by cases he
  · obtain ⟨rfl, hmove'⟩ := h₂
    have hnow : Moves s (es ++ fs) s₂ := hmove.trans hmove'
    rw [Draft.aligned, List.map_map]
    dsimp only [Function.comp_def]
    split
    · exact replaces_restateAll es hnow
    · exact ⟨es, rfl, rfl, hnow⟩
  · rw [List.length_append]
    omega

/-! ## Collections -/

/-- An encoder builds a draft on every level. -/
def Encodes (encoder : Encoder σ) (d : Draft) : Prop := ∀ left, Builds (encoder left) (d.value left, d.parts)

/-- A new value is made of owned handles, which are released. -/
theorem Inserts.consumed {call : Call σ Handle} {f : Memory → Except Failure Stored} {made : Except Failure Stored}
    {es : List (Handle × Stored)} (h : Inserts call f) (onFailure : Failure → Cause) (hmove : Moves s es s₁)
    (hf : f (memory s₁) = made) :
    Ends (releasing (es.map Prod.fst) (EStateM.adaptExcept (fun e => ⟨onFailure e, []⟩) call) s₁)
      (fun h s' => ∃ v, answer onFailure made = .ok v ∧ Moves s [(h, v)] s')
      (Fails s [] (1 + es.length) (answer onFailure made)) := by
  rw [← hf]
  refine (h.ends onFailure hmove.issued_after).releasing (fun h s₂ h₂ => ?_) fun e s₂ h₂ => ?_
  · obtain ⟨v, hv, hmove'⟩ := h₂
    have hboth : Moves s (es ++ [(h, v)]) s₂ := (hmove.trans hmove').perm List.perm_append_comm
    exact ⟨v, hv, hboth.release⟩
  · exact (h₂.after hmove).release_all

theorem ends_createList {es : List (Handle × Stored)} (hmove : Moves s es s₁) :
    Ends (releasing (es.map Prod.fst) (createList (es.map Prod.fst)) s₁)
      (fun h s' => ∃ v, answer (.heterogeneous .list) (Stored.listOf? (es.map Prod.snd)) = .ok v ∧ Moves s [(h, v)] s')
      (Fails s [] (1 + es.length) (answer (.heterogeneous .list) (Stored.listOf? (es.map Prod.snd)))) := by
  refine (inserts_createList _).consumed (.heterogeneous .list) hmove ?_
  rw [collect_eq fun e he => hmove.behind he]
  rfl

theorem ends_createStruct {es : List (Handle × Stored)} (names : List String) (hmove : Moves s es s₁) :
    Ends (releasing (es.map Prod.fst) (createStruct (names.zip (es.map Prod.fst))) s₁)
      (fun h s' => ∃ v, answer .engine (Stored.structOf? (names.zip (es.map Prod.snd))) = .ok v ∧ Moves s [(h, v)] s')
      (Fails s [] (1 + es.length) (answer .engine (Stored.structOf? (names.zip (es.map Prod.snd))))) := by
  refine (inserts_createStruct _).consumed .engine hmove ?_
  rw [collectFields_eq fun e he => hmove.behind he]
  rfl

theorem ends_createMap {ks vs : List (Handle × Stored)} (hlen : ks.length = vs.length)
    (hmove : Moves s (ks ++ vs) s₁) :
    Ends (releasing (ks.map Prod.fst ++ vs.map Prod.fst) (createMap (ks.map Prod.fst) (vs.map Prod.fst)) s₁)
      (fun h s' => ∃ v, answer (.heterogeneous .map) (Stored.mapOf? ((ks.map Prod.snd).zip (vs.map Prod.snd))) = .ok v ∧
        Moves s [(h, v)] s')
      (Fails s [] (1 + (ks ++ vs).length)
        (answer (.heterogeneous .map) (Stored.mapOf? ((ks.map Prod.snd).zip (vs.map Prod.snd))))) := by
  rw [← List.map_append]
  refine (inserts_createMap _ _).consumed (.heterogeneous .map) hmove ?_
  rw [Memory.createMap, if_pos (by rw [List.length_map, List.length_map, hlen]),
    collect_eq fun e he => hmove.behind (List.mem_append_left vs he),
    collect_eq fun e he => hmove.behind (List.mem_append_right ks he)]
  rfl

theorem length_le_room (plans : List Plan) : plans.length ≤ room plans := by
  induction plans with
  | nil => exact Nat.le_refl 0
  | cons plan plans ih =>
    rw [room_cons, List.length_cons]
    omega

theorem Builds.enter {c : Config} {kind : CollectionKind} {isEmpty : Bool} {left n : Nat}
    {build : Nat → Convert σ Handle} {value : Nat → Except ConvertError Stored}
    (h : ∀ inner, Builds (build inner) (value inner, n)) :
    Builds (Encoder.enter c kind isEmpty left >>= build) ((Draft.enter c kind isEmpty left).bind value, n) := by
  unfold Encoder.enter Draft.enter
  cases isEmpty with
  | true => exact .throw _ n
  | false =>
    cases left with
    | zero => exact .throw _ n
    | succ inner => exact h inner

/-- **A list of what is built is built.** -/
theorem encodes_list (c : Config) {items : List (Encoder σ)} {ds : List Draft} (h : List.Forall₂ Encodes items ds) :
    Encodes (Encoder.list c items) (.list c ds) := by
  intro left
  have hempty : items.isEmpty = ds.isEmpty := by
    cases h <;> rfl
  unfold Encoder.list
  rw [hempty]
  refine Builds.enter fun inner s hs => ?_
  let plans : List Plan := ds.mapIdx fun i d => (Draft.within (.element i) (d.value inner), d.parts)
  have hplans : List.Forall₂ Builds (items.mapIdx fun i item => (item inner).within (.element i)) plans :=
    forall₂_mapIdx h fun i item d hd => (hd inner).within (.element i)
  have hfst : plans.map Prod.fst = ds.mapIdx fun i d => Draft.within (.element i) (d.value inner) := map_mapIdx _ _ _
  have hroom : room plans = Draft.total ds := by
    rw [room, map_mapIdx, Draft.total, ← mapIdx_const]
  have hacquired := ends_acquireAll hplans hs
  rw [hfst, hroom] at hacquired
  refine hacquired.bind (fun hs' s₁ h₁ => ?_) fun e s₁ h₁ => h₁.imp (Nat.le_succ _) fun he => by rw [he]; rfl
  obtain ⟨es, rfl, hall, hmove⟩ := h₁
  have hlen : es.length ≤ Draft.total ds := by
    have hlength := Draft.length_all hall
    rw [List.length_map, List.length_mapIdx] at hlength
    have hle := length_le_room plans
    rw [hroom, List.length_mapIdx] at hle
    omega
  have hmove₀ : Moves s (es ++ []) s₁ := by rwa [List.append_nil]
  rw [hall]
  refine (replaces_aligned hmove₀).bind (fun hs' s₂ h₂ => ?_) fun e s₂ h₂ => h₂.imp ?_ fun he => ?_
  · obtain ⟨es', rfl, haligned, hmove'⟩ := h₂
    rw [List.append_nil] at hmove'
    have hlen' := Draft.length_aligned haligned
    rw [List.length_map, List.length_map] at hlen'
    refine (ends_createList hmove').mono (fun h s₃ h₃ => ?_) fun e s₃ h₃ => h₃.imp ?_ fun he => ?_
    · obtain ⟨v, hv, hmove''⟩ := h₃
      exact ⟨v, by simp only [Except.bind, haligned, hv], hmove''⟩
    · dsimp only [Draft.list]
      omega
    · simp only [Except.bind, haligned, he]
  · dsimp only [Draft.list, List.length_nil]
    omega
  · simp only [Except.bind, he]

/-- **A struct of what is built is built**, its fields in the order of their names. -/
theorem encodes_struct (c : Config) {fields : List (String × Encoder σ)} {ds : List (String × Draft)}
    (h : List.Forall₂ (fun f d => f.1 = d.1 ∧ Encodes f.2 d.2) fields ds) :
    Encodes (Encoder.struct c fields) (.struct c ds) := by
  intro left
  have hempty : fields.isEmpty = ds.isEmpty := by
    cases h <;> rfl
  unfold Encoder.struct
  rw [hempty]
  refine Builds.enter fun inner s hs => ?_
  have hsorted := Fields.forall₂_sorted h
  have hnames : (Fields.sorted fields).map Prod.fst = (Fields.sorted ds).map Prod.fst :=
    map_eq_map_of_forall₂ (hsorted.imp fun _ _ hfd => hfd.1)
  let plans : List Plan := (Fields.sorted ds).map fun d => (Draft.within (.field d.1) (d.2.value inner), d.2.parts)
  have hplans : List.Forall₂ Builds ((Fields.sorted fields).map fun f => (f.2 inner).within (.field f.1)) plans := by
    rw [List.forall₂_map_left_iff, List.forall₂_map_right_iff]
    refine hsorted.imp fun f d hfd => ?_
    rw [hfd.1]
    exact (hfd.2 inner).within (.field d.1)
  have hfst : plans.map Prod.fst = (Fields.sorted ds).map fun d => Draft.within (.field d.1) (d.2.value inner) :=
    List.map_map
  have hroom : room plans = Draft.total (ds.map Prod.snd) := by
    rw [room, List.map_map, Draft.total, List.map_map]
    exact ((Fields.sorted_perm ds).map _).sum_nat
  have hacquired := ends_acquireAll hplans hs
  rw [hfst, hroom] at hacquired
  refine hacquired.bind (fun hs' s₁ h₁ => ?_) fun e s₁ h₁ => h₁.imp (Nat.le_succ _) fun he => by rw [he]; rfl
  obtain ⟨es, rfl, hall, hmove⟩ := h₁
  have hlen : es.length ≤ Draft.total (ds.map Prod.snd) := by
    have hlength := Draft.length_all hall
    have hle := length_le_room plans
    rw [List.length_map, List.length_map] at hlength
    rw [hroom, List.length_map] at hle
    omega
  rw [hall, hnames]
  refine (ends_createStruct _ hmove).mono (fun h s₂ h₂ => h₂) fun e s₂ h₂ => h₂.imp ?_ id
  dsimp only [Draft.struct]
  omega

/-- **A map of what is built is built.** -/
theorem encodes_map (c : Config) {entries : List (Encoder σ × Encoder σ)} {ds : List (Draft × Draft)}
    (h : List.Forall₂ (fun e d => Encodes e.1 d.1 ∧ Encodes e.2 d.2) entries ds) :
    Encodes (Encoder.map c entries) (.map c ds) := by
  intro left
  have hempty : entries.isEmpty = ds.isEmpty := by
    cases h <;> rfl
  unfold Encoder.map
  rw [hempty]
  refine Builds.enter fun inner s hs => ?_
  let plans : List (Plan × Plan) := ds.mapIdx fun i d =>
    ((Draft.within (.mapEntry i) (d.1.value inner), d.1.parts),
      (Draft.within (.mapEntry i) (d.2.value inner), d.2.parts))
  have hplans : List.Forall₂ (fun c plan => Builds c.1 plan.1 ∧ Builds c.2 plan.2)
      (entries.mapIdx fun i e => ((e.1 inner).within (.mapEntry i), (e.2 inner).within (.mapEntry i))) plans :=
    forall₂_mapIdx h fun i e d hed => ⟨(hed.1 inner).within (.mapEntry i), (hed.2 inner).within (.mapEntry i)⟩
  have hvalues : plans.map (fun p => (p.1.1, p.2.1)) = ds.mapIdx fun i d =>
      (Draft.within (.mapEntry i) (d.1.value inner), Draft.within (.mapEntry i) (d.2.value inner)) := map_mapIdx _ _ _
  have hkeys : room (plans.map Prod.fst) = Draft.total (ds.map Prod.fst) := by
    rw [room, List.map_map, map_mapIdx, Draft.total, List.map_map, ← mapIdx_const]
    rfl
  have hitems : room (plans.map Prod.snd) = Draft.total (ds.map Prod.snd) := by
    rw [room, List.map_map, map_mapIdx, Draft.total, List.map_map, ← mapIdx_const]
    rfl
  have hacquired := ends_acquirePairs hplans hs
  rw [hvalues, hkeys, hitems] at hacquired
  refine hacquired.bind (fun hs' s₁ h₁ => ?_) fun e s₁ h₁ => h₁.imp (Nat.le_succ _) fun he => by rw [he]; rfl
  obtain ⟨ks, vs, rfl, hall, hmove⟩ := h₁
  have hlength := Draft.length_allPairs hall
  simp only [List.length_map, List.length_mapIdx] at hlength
  have hks := length_le_room (plans.map Prod.fst)
  have hvs := length_le_room (plans.map Prod.snd)
  rw [hkeys, List.length_map, List.length_mapIdx] at hks
  rw [hitems, List.length_map, List.length_mapIdx] at hvs
  rw [hall]
  refine Ends.bind ((replaces_aligned hmove).orReleasing fun e s₂ h₂ => h₂.release_all) (fun keys s₂ h₂ => ?_)
    fun e s₂ h₂ => h₂.imp ?_ fun he => ?_
  · obtain ⟨ks', rfl, haligned, hmove'⟩ := h₂
    have hks' := Draft.length_aligned haligned
    rw [List.length_map, List.length_map] at hks'
    refine Ends.bind ((replaces_aligned (hmove'.perm List.perm_append_comm)).orReleasing fun e s₃ h₃ => h₃.release_all)
      (fun values s₃ h₃ => ?_) fun e s₃ h₃ => h₃.imp ?_ fun he => ?_
    · obtain ⟨vs', rfl, haligned', hmove''⟩ := h₃
      have hvs' := Draft.length_aligned haligned'
      rw [List.length_map, List.length_map] at hvs'
      refine (ends_createMap (by omega) (hmove''.perm List.perm_append_comm)).mono (fun h s₄ h₄ => ?_)
        fun e s₄ h₄ => h₄.imp ?_ fun he => ?_
      · obtain ⟨v, hv, hmade⟩ := h₄
        exact ⟨v, by simp only [Except.bind, haligned, haligned', hv], hmade⟩
      · simp only [Draft.map, List.length_append]
        omega
      · simp only [Except.bind, haligned, haligned', he]
    · dsimp only [Draft.map]
      omega
    · simp only [Except.bind, haligned, he]
  · dsimp only [Draft.map]
    omega
  · simp only [Except.bind, he]

/-! ## What can be encoded -/

theorem encodes_null : Encodes (Encoder.null : Encoder σ) .null := fun _ => .createNull .any

theorem encodes_ofError (e : ConvertError) : Encodes (Encoder.ofError e : Encoder σ) (.ofError e) :=
  fun _ => .throw e 0

theorem encodes_ofPayload (p : Payload) : Encodes (Encoder.ofPayload p : Encoder σ) (.ofPayload p) :=
  fun _ => .createPayload p

theorem encodes_ofExcept (r : Except ConvertError Payload) :
    Encodes (Encoder.ofExcept r : Encoder σ) (.ofExcept r) := by
  cases r with
  | ok p => exact encodes_ofPayload p
  | error e => exact encodes_ofError e

namespace HostValue

mutual
/-- **A host value builds its draft.** -/
theorem encodes_encode (c : Config) : ∀ v : HostValue, Encodes (v.encode c : Encoder σ) (v.draft c)
  | null => encodes_null
  | scalar s => encodes_ofExcept s.toPayload
  | list items => encodes_list c (encodes_items c items)
  | struct fields => encodes_struct c (encodes_fields c fields)
  | map entries => encodes_map c (encodes_entries c entries)
  | node _ => encodes_ofError _
  | rel _ => encodes_ofError _
  | path _ => encodes_ofError _
theorem encodes_items (c : Config) : ∀ vs : List HostValue,
    List.Forall₂ Encodes (encodeItems c vs : List (Encoder σ)) (draftItems c vs)
  | [] => .nil
  | v :: vs => .cons (encodes_encode c v) (encodes_items c vs)
theorem encodes_fields (c : Config) : ∀ fs : List (String × HostValue),
    List.Forall₂ (fun f d => f.1 = d.1 ∧ Encodes f.2 d.2) (encodeFields c fs : List (String × Encoder σ))
      (draftFields c fs)
  | [] => .nil
  | (_, v) :: fs => .cons ⟨rfl, encodes_encode c v⟩ (encodes_fields c fs)
theorem encodes_entries (c : Config) : ∀ es : List (HostValue × HostValue),
    List.Forall₂ (fun e d => Encodes e.1 d.1 ∧ Encodes e.2 d.2) (encodeEntries c es : List (Encoder σ × Encoder σ))
      (draftEntries c es)
  | [] => .nil
  | (k, v) :: es => .cons ⟨encodes_encode c k, encodes_encode c v⟩ (encodes_entries c es)
end

end HostValue

namespace Json

mutual
/-- **A JSON value builds its draft.** -/
theorem encodes_encode (c : Config) : ∀ j : Json, Encodes (j.encode c : Encoder σ) (j.draft c)
  | null => encodes_null
  | bool b => encodes_ofPayload (.bool b)
  | number n => encodes_ofExcept (n.toPayload c)
  | string s => encodes_ofPayload (.string s)
  | array items => encodes_list c (encodes_items c items)
  | object fields => encodes_struct c (encodes_fields c fields)
theorem encodes_items (c : Config) : ∀ js : List Json,
    List.Forall₂ Encodes (encodeItems c js : List (Encoder σ)) (draftItems c js)
  | [] => .nil
  | j :: js => .cons (encodes_encode c j) (encodes_items c js)
theorem encodes_fields (c : Config) : ∀ fs : List (String × Json),
    List.Forall₂ (fun f d => f.1 = d.1 ∧ Encodes f.2 d.2) (encodeFields c fs : List (String × Encoder σ))
      (draftFields c fs)
  | [] => .nil
  | (_, j) :: fs => .cons ⟨rfl, encodes_encode c j⟩ (encodes_fields c fs)
end

end Json

namespace Source

mutual
/-- **A source builds its draft.** -/
theorem encodes_encode (c : Config) : ∀ s : Source, Encodes (s.encode c : Encoder σ) (s.draft c)
  | host v => v.encodes_encode c
  | json j => j.encodes_encode c
  | scalar s => encodes_ofExcept s.toPayload
  | interval i => encodes_ofPayload (.interval i)
  | absent => encodes_null
  | present s => encodes_encode c s
  | shared s => encodes_encode c s
  | sequence items => encodes_list c (encodes_items c items)
  | fields fs => encodes_struct c (encodes_fields c fs)
  | entries es => encodes_map c (encodes_entries c es)
theorem encodes_items (c : Config) : ∀ ss : List Source,
    List.Forall₂ Encodes (encodeItems c ss : List (Encoder σ)) (draftItems c ss)
  | [] => .nil
  | s :: ss => .cons (encodes_encode c s) (encodes_items c ss)
theorem encodes_fields (c : Config) : ∀ fs : List (String × Source),
    List.Forall₂ (fun f d => f.1 = d.1 ∧ Encodes f.2 d.2) (encodeFields c fs : List (String × Encoder σ))
      (draftFields c fs)
  | [] => .nil
  | (_, s) :: fs => .cons ⟨rfl, encodes_encode c s⟩ (encodes_fields c fs)
theorem encodes_entries (c : Config) : ∀ es : List (Source × Source),
    List.Forall₂ (fun e d => Encodes e.1 d.1 ∧ Encodes e.2 d.2) (encodeEntries c es : List (Encoder σ × Encoder σ))
      (draftEntries c es)
  | [] => .nil
  | (k, s) :: es => .cons ⟨encodes_encode c k, encodes_encode c s⟩ (encodes_entries c es)
end

variable {c : Config} {source : Source} {h : Handle} {v : Stored}

/-- A source that was built has become what its draft comes to. -/
theorem moves_of_build (hs : Issued s) (hbuild : source.build c s = .ok h s') :
    ∃ v, (source.draft c).value c.maxDepth = .ok v ∧ Moves s [(h, v)] s' := by
  have hbuilds := source.encodes_encode (σ := σ) c c.maxDepth s hs
  rw [build] at hbuild
  rwa [hbuild] at hbuilds

/-- On an engine that refuses nothing and has room, a source is built or refused as its draft says. -/
theorem build_cases (hs : Issued s) (hroom : Roomy s ((source.draft c).parts + 1)) :
    (∃ h s' v, source.build c s = .ok h s' ∧ (source.draft c).value c.maxDepth = .ok v ∧ Moves s [(h, v)] s') ∨
      ∃ e s', source.build c s = .error e s' ∧ (source.draft c).value c.maxDepth = .error e := by
  have hbuilds := source.encodes_encode (σ := σ) c c.maxDepth s hs
  rw [build]
  generalize source.encode c c.maxDepth s = r at hbuilds ⊢
  cases r with
  | ok h s' =>
    obtain ⟨v, hv, hmoves⟩ := hbuilds
    exact .inl ⟨h, s', v, rfl, hv, hmoves⟩
  | error e s' => exact .inr ⟨e, s', rfl, hbuilds.error hroom⟩

/-- On an engine that refuses nothing and has room, a source is built if its draft comes to a value. -/
theorem build_of_draft (hs : Issued s) (hroom : Roomy s ((source.draft c).parts + 1))
    (hv : (source.draft c).value c.maxDepth = .ok v) : ∃ h s', source.build c s = .ok h s' ∧ Moves s [(h, v)] s' := by
  rcases build_cases hs hroom with ⟨h, s', w, hbuild, hw, hmoves⟩ | ⟨e, s', -, he⟩
  · cases hv.symm.trans hw
    exact ⟨h, s', hbuild, hmoves⟩
  · cases hv.symm.trans he

end Source

end ValueBridge
