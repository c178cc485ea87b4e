import ValueBridge.Proofs.Convert.Acceptance
import ValueBridge.Proofs.Convert.Fitting
import ValueBridge.Proofs.Convert.RoundTrip
/-!
# How deep values may be nested

Raising the depth that is configured makes no difference but where it was exceeded: a conversion fails because a value is
nested too deep, or does what it does with any larger depth (`Shortened`).  Encoders and decoders count alike, so what
was encoded within a depth is decoded within it, and a value that can be encoded at all can be within its own nesting
(`maxDepth_monotone`).
-/
namespace ValueBridge

open ValueBridge.Convert

variable {σ α β : Type} {c : Config} {limit gap : Nat}

/-- The same configuration with so many levels more. -/
def Config.deepened (c : Config) (gap : Nat) : Config := { c with maxDepth := c.maxDepth + gap }

/-- The first result says that the value is nested deeper than `limit`, or it is the second one and says nothing about
depth. -/
def Shortened (limit : Nat) (r r' : EStateM.Result ConvertError σ α) : Prop :=
  (∃ places s, r = .error ⟨.tooDeep limit, places⟩ s) ∨ r = r' ∧ ∀ e s, r = .error e s → ¬e.IsDepth

/-- In every state the first conversion says that the value is nested deeper than `limit`, or does what the second one
does. -/
def Shortens (limit : Nat) (p q : Convert σ α) : Prop := ∀ s, Shortened limit (p s) (q s)

/-- What leaves the cause of every error as it is, and makes no error, keeps shortened results. -/
theorem Shortened.through {r r' : EStateM.Result ConvertError σ α} (h : Shortened limit r r')
    {f : EStateM.Result ConvertError σ α → EStateM.Result ConvertError σ β}
    (hdeep : ∀ places s, ∃ places' s', f (.error ⟨.tooDeep limit, places⟩ s) = .error ⟨.tooDeep limit, places'⟩ s')
    (hcause : ∀ r e' s', f r = .error e' s' → ∃ e s, r = .error e s ∧ e'.cause = e.cause) :
    Shortened limit (f r) (f r') := by
  rcases h with ⟨places, s, rfl⟩ | ⟨rfl, hdepth⟩
  · exact .inl (hdeep places s)
  · refine .inr ⟨rfl, fun e' s' he => ?_⟩
    obtain ⟨e, s, hr, hsame⟩ := hcause r e' s' he
    rw [ConvertError.IsDepth, hsame]
    exact hdepth e s hr

/-! ## Conversions -/

namespace Shortens

variable {p q : Convert σ α}

theorem value (a : α) : Shortens limit (pure a : Convert σ α) (pure a) := fun _ => .inr ⟨rfl, fun _ _ he => by cases he⟩

theorem raise {e : ConvertError} (he : e.IsOwn) : Shortens limit (throw e : Convert σ α) (throw e) :=
  fun _ => .inr ⟨rfl, fun _ _ h => by cases h; exact he.not_isDepth⟩

theorem tooDeep (q : Convert σ α) : Shortens c.maxDepth (throw c.tooDeep) q := fun s => .inl ⟨[], s, rfl⟩

theorem bind {f g : α → Convert σ β} (h : Shortens limit p q) (hf : ∀ a, Shortens limit (f a) (g a)) :
    Shortens limit (p >>= f) (q >>= g) := by
  intro s
  simp only [Bind.bind, EStateM.bind]
  rcases h s with ⟨places, s', hp⟩ | ⟨hpq, hdepth⟩
  · rw [hp]
    exact .inl ⟨places, s', rfl⟩
  · rw [← hpq]
    cases hp : p s with
    | ok a s₁ => exact hf a s₁
    | error e s₁ => exact .inr ⟨rfl, fun e' s' he => by cases he; exact hdepth e s₁ hp⟩

theorem within (place : Place) (h : Shortens limit p q) : Shortens limit (p.within place) (q.within place) := by
  intro s
  refine (h s).through (f := fun r => Convert.within place (fun _ => r) s)
    (fun places s => ⟨place :: places, s, rfl⟩) fun r e' s' he => ?_
  cases r with
  | ok a s => cases he
  | error e s =>
    cases he
    exact ⟨e, _, rfl, ConvertError.cause_within place e⟩

variable [Engine σ]

theorem askOr {onFailure : Failure → Cause} (h : ∀ e n, onFailure e ≠ .tooDeep n) (r : Request) :
    Shortens limit (Convert.askOr onFailure r : Convert σ r.Reply) (Convert.askOr onFailure r) := by
  refine fun s => .inr ⟨rfl, fun e s' he => ?_⟩
  simp only [Convert.askOr, EStateM.adaptExcept] at he
  cases hr : (Engine.call r : Call σ r.Reply) s with
  | ok a s₁ =>
    rw [hr] at he
    cases he
  | error e₁ s₁ =>
    rw [hr] at he
    cases he
    exact fun ⟨n, hn⟩ => h e₁ n hn

theorem ask (r : Request) : Shortens limit (Convert.ask r : Convert σ r.Reply) (Convert.ask r) :=
  askOr (fun _ _ he => by cases he) r

theorem releasing (hs : List Handle) (h : Shortens limit p q) :
    Shortens limit (Convert.releasing hs p) (Convert.releasing hs q) := by
  intro s
  refine (h s).through (f := fun r => Convert.releasing hs (fun _ => r) s)
    (fun places s => ⟨places, _, rfl⟩) fun r e' s' he => ?_
  cases r with
  | ok a s => cases he
  | error e s =>
    cases he
    exact ⟨_, _, rfl, rfl⟩

theorem orReleasing (hs : List Handle) (h : Shortens limit p q) :
    Shortens limit (Convert.orReleasing hs p) (Convert.orReleasing hs q) := by
  intro s
  refine (h s).through (f := fun r => Convert.orReleasing hs (fun _ => r) s)
    (fun places s => ⟨places, _, rfl⟩) fun r e' s' he => ?_
  cases r with
  | ok a s => cases he
  | error e s =>
    cases he
    exact ⟨_, _, rfl, rfl⟩

omit [Engine σ] in
theorem ofExcept {r : Except ConvertError α} (hr : ∀ e, r = .error e → e.IsOwn) :
    Shortens limit (Convert.ofExcept r : Convert σ α) (Convert.ofExcept r) := by
  cases r with
  | ok a => exact value a
  | error e => exact raise (hr e rfl)

omit [Engine σ] in
theorem mapM {f : β → Convert σ α} (hf : ∀ b, Shortens limit (f b) (f b)) : ∀ bs : List β,
    Shortens limit (bs.mapM f) (bs.mapM f)
  | [] => value []
  | b :: bs => by
    rw [List.mapM_cons]
    exact bind (hf b) fun a => bind (mapM hf bs) fun as => value (a :: as)

theorem acquireAll {cs cs' : List (Convert σ Handle)} (h : List.Forall₂ (Shortens limit) cs cs') :
    Shortens limit (Convert.acquireAll cs) (Convert.acquireAll cs') := by
  induction h with
  | nil => exact value []
  | cons hc _ ih => exact bind hc fun k => bind (orReleasing [k] ih) fun ks => value (k :: ks)

theorem acquirePairs {cs cs' : List (Convert σ Handle × Convert σ Handle)}
    (h : List.Forall₂ (fun c d => Shortens limit c.1 d.1 ∧ Shortens limit c.2 d.2) cs cs') :
    Shortens limit (Convert.acquirePairs cs) (Convert.acquirePairs cs') := by
  induction h with
  | nil => exact value ([], [])
  | cons hc _ ih =>
    exact bind hc.1 fun k => bind (orReleasing [k] hc.2) fun k' => bind (orReleasing [k, k'] ih) fun ks => value _

end Shortens

/-! ## Decoders -/

variable [Engine σ]

/-- **Decoders are shortened** by a smaller depth. -/
theorem lockstep_shortens (c : Config) (gap : Nat) :
    Lockstep (σ := σ) (τ := σ) c (c.deepened gap) gap fun _ p q => Shortens c.maxDepth p q where
  blobLength_eq := rfl
  mono h _ := h
  value := .value
  raise := .raise
  tooDeep _ := .tooDeep _
  request _ := .ask _
  bind := .bind
  within := .within
  item i h index hp := .bind (.ask (.item i h index)) fun k => .releasing [k] (hp k)
  role r h hp := .bind (.ask (.role r h)) fun k => .releasing [k] (hp k)

/-! ## Errors of scalars -/

theorem Decimal.isOwn_of_toDecimalPayload {d : Decimal} {e : ConvertError} (h : d.toDecimalPayload = .error e) :
    e.IsOwn := by
  unfold toDecimalPayload at h
  dsimp only at h
  split at h <;> cases h
  rfl

theorem Decimal.isOwn_of_toPayload {d : Decimal} {e : ConvertError} (h : d.toPayload = .error e) : e.IsOwn := by
  unfold toPayload at h
  dsimp only at h
  split at h
  · split at h
    · cases h
    · exact isOwn_of_toDecimalPayload h
  · exact isOwn_of_toDecimalPayload h

theorem Scalar.isOwn_of_toPayload {s : Scalar} {e : ConvertError} (h : s.toPayload = .error e) : e.IsOwn := by
  cases s with
  | decimal d => exact Decimal.isOwn_of_toPayload h
  | duration d =>
    rw [toPayload, Duration.toPayload] at h
    split at h <;> cases h
    rfl
  | _ => cases h

theorem Json.Number.isOwn_of_toPayload {n : Json.Number} {e : ConvertError} (h : n.toPayload c = .error e) :
    e.IsOwn := by
  unfold toPayload at h
  split at h
  · cases h
    rfl
  · split at h
    · split at h <;> cases h
    · cases h

/-! ## Encoders -/

namespace Encoder

/-- The encoder does at every level what the other does with `gap` levels more, or says that the value is nested deeper
than `limit`. -/
def Shortens (limit gap : Nat) (p q : Encoder σ) : Prop := ∀ left, ValueBridge.Shortens limit (p left) (q (left + gap))

open ValueBridge.Shortens

omit [Engine σ] in
theorem shortens_ofError {e : ConvertError} (he : e.IsOwn) : Shortens limit gap (ofError e : Encoder σ) (ofError e) :=
  fun _ => raise he

theorem shortens_ofPayload (p : Payload) : Shortens limit gap (ofPayload p : Encoder σ) (ofPayload p) :=
  fun _ => ask (.createPayload p)

theorem shortens_null : Shortens limit gap (null : Encoder σ) null := fun _ => ask (.createNull .any)

theorem shortens_ofExcept {r : Except ConvertError Payload} (hr : ∀ e, r = .error e → e.IsOwn) :
    Shortens limit gap (ofExcept r : Encoder σ) (ofExcept r) := by
  cases r with
  | ok p => exact shortens_ofPayload p
  | error e => exact shortens_ofError (hr e rfl)

/-! The handles of the parts are not encoded again, so no level is counted for them. -/

theorem shortens_restated (h : Handle) :
    ValueBridge.Shortens limit (restated h : Convert σ Handle) (restated h) := by
  refine bind (ask (.payload h)) fun p => ?_
  cases p with
  | int128 n =>
    exact bind (Shortens.ofExcept fun e => Decimal.isOwn_of_toDecimalPayload) fun q => ask (.createPayload q)
  | _ => exact raise rfl

theorem shortens_restateAll : ∀ hs : List (Handle × Tag),
    ValueBridge.Shortens limit (restateAll hs : Convert σ (List Handle)) (restateAll hs)
  | [] => value []
  | (h, tag) :: rest => by
    rw [restateAll]
    split
    · refine bind (orReleasing _ (releasing [h] (shortens_restated h))) fun new => ?_
      exact bind (orReleasing [new] (shortens_restateAll rest)) fun news => value (new :: news)
    · exact bind (orReleasing [h] (shortens_restateAll rest)) fun news => value (h :: news)

theorem shortens_aligned (hs : List Handle) :
    ValueBridge.Shortens limit (aligned hs : Convert σ (List Handle)) (aligned hs) := by
  have htag : ∀ h, ValueBridge.Shortens limit (tagOf h : Convert σ Tag) (tagOf h) := fun h =>
    bind (ask (.type h)) fun t => value t.tag
  refine bind (orReleasing hs (Shortens.mapM htag hs)) fun tags => ?_
  split
  · exact shortens_restateAll _
  · exact value hs

omit [Engine σ] in
/-- The level of a collection is taken before anything is built. -/
theorem shortens_enter {kind : CollectionKind} {isEmpty : Bool} {left : Nat} {f g : Nat → Convert σ α}
    (hf : ∀ inner, ValueBridge.Shortens c.maxDepth (f inner) (g (inner + gap))) :
    ValueBridge.Shortens c.maxDepth (enter c kind isEmpty left >>= f)
      (enter (c.deepened gap) kind isEmpty (left + gap) >>= g) := by
  unfold enter
  cases isEmpty with
  | true =>
    change ValueBridge.Shortens c.maxDepth (throw ⟨.emptyCollection kind, []⟩) (throw ⟨.emptyCollection kind, []⟩)
    exact raise rfl
  | false =>
    cases left with
    | zero => exact Shortens.tooDeep _
    | succ inner =>
      rw [Nat.succ_add]
      exact hf inner

theorem shortens_list {ps qs : List (Encoder σ)} (h : List.Forall₂ (Shortens c.maxDepth gap) ps qs) :
    Shortens c.maxDepth gap (list c ps) (list (c.deepened gap) qs) := by
  intro left
  have hempty : ps.isEmpty = qs.isEmpty := by cases h <;> rfl
  unfold list
  rw [hempty]
  refine shortens_enter fun inner => ?_
  have hparts := forall₂_mapIdx (f := fun i p => (p inner).within (.element i))
    (g := fun i q => (q (inner + gap)).within (.element i)) h fun i p q hpq => within (.element i) (hpq inner)
  exact bind (acquireAll hparts) fun hs => bind (shortens_aligned hs) fun hs =>
    releasing hs (askOr (fun _ _ he => by cases he) (.createList hs))

theorem shortens_struct {fs gs : List (String × Encoder σ)}
    (h : List.Forall₂ (fun f g => f.1 = g.1 ∧ Shortens c.maxDepth gap f.2 g.2) fs gs) :
    Shortens c.maxDepth gap (struct c fs) (struct (c.deepened gap) gs) := by
  intro left
  have hempty : fs.isEmpty = gs.isEmpty := by cases h <;> rfl
  have hsorted := Fields.forall₂_sorted h
  have hnames : (Fields.sorted fs).map Prod.fst = (Fields.sorted gs).map Prod.fst :=
    map_eq_map_of_forall₂ (hsorted.imp fun _ _ hfg => hfg.1)
  unfold struct
  rw [hempty]
  refine shortens_enter fun inner => ?_
  dsimp only
  rw [hnames]
  have hparts : List.Forall₂ (ValueBridge.Shortens c.maxDepth)
      ((Fields.sorted fs).map fun f => (f.2 inner).within (.field f.1))
      ((Fields.sorted gs).map fun g => (g.2 (inner + gap)).within (.field g.1)) := by
    rw [List.forall₂_map_left_iff, List.forall₂_map_right_iff]
    refine hsorted.imp fun f g hfg => ?_
    rw [hfg.1]
    exact within (.field g.1) (hfg.2 inner)
  exact bind (acquireAll hparts) fun hs => releasing hs (ask (.createStruct _))

theorem shortens_map {es ds : List (Encoder σ × Encoder σ)}
    (h : List.Forall₂ (fun e d => Shortens c.maxDepth gap e.1 d.1 ∧ Shortens c.maxDepth gap e.2 d.2) es ds) :
    Shortens c.maxDepth gap (map c es) (map (c.deepened gap) ds) := by
  intro left
  have hempty : es.isEmpty = ds.isEmpty := by cases h <;> rfl
  unfold map
  rw [hempty]
  refine shortens_enter fun inner => ?_
  have hparts := forall₂_mapIdx (f := fun i e => ((e.1 inner).within (.mapEntry i), (e.2 inner).within (.mapEntry i)))
    (g := fun i d => ((d.1 (inner + gap)).within (.mapEntry i), (d.2 (inner + gap)).within (.mapEntry i)))
    (S := fun e d => ValueBridge.Shortens c.maxDepth e.1 d.1 ∧ ValueBridge.Shortens c.maxDepth e.2 d.2) h
    fun i e d hed => ⟨within (.mapEntry i) (hed.1 inner), within (.mapEntry i) (hed.2 inner)⟩
  refine bind (acquirePairs hparts) fun hs => ?_
  refine bind (orReleasing hs.2 (shortens_aligned hs.1)) fun keys => ?_
  refine bind (orReleasing keys (shortens_aligned hs.2)) fun values => ?_
  exact releasing (keys ++ values) (askOr (fun _ _ he => by cases he) (.createMap keys values))

end Encoder

/-! ## Sources -/

open Encoder (shortens_null shortens_ofExcept shortens_ofPayload shortens_ofError shortens_list shortens_struct
  shortens_map)

namespace HostValue

mutual
theorem shortens_encode (c : Config) (gap : Nat) : ∀ v : HostValue,
    Encoder.Shortens c.maxDepth gap (v.encode c : Encoder σ) (v.encode (c.deepened gap))
  | null => shortens_null
  | scalar _ => shortens_ofExcept fun _ => Scalar.isOwn_of_toPayload
  | list items => shortens_list (shortens_items c gap items)
  | struct fields => shortens_struct (shortens_fields c gap fields)
  | map entries => shortens_map (shortens_entries c gap entries)
  | node _ | rel _ | path _ => shortens_ofError rfl
theorem shortens_items (c : Config) (gap : Nat) : ∀ vs : List HostValue, List.Forall₂
    (Encoder.Shortens c.maxDepth gap) (encodeItems c vs : List (Encoder σ)) (encodeItems (c.deepened gap) vs)
  | [] => .nil
  | v :: vs => .cons (shortens_encode c gap v) (shortens_items c gap vs)
theorem shortens_fields (c : Config) (gap : Nat) : ∀ fs : List (String × HostValue),
    List.Forall₂ (fun f g => f.1 = g.1 ∧ Encoder.Shortens c.maxDepth gap f.2 g.2)
      (encodeFields c fs : List (String × Encoder σ)) (encodeFields (c.deepened gap) fs)
  | [] => .nil
  | (_, v) :: fs => .cons ⟨rfl, shortens_encode c gap v⟩ (shortens_fields c gap fs)
theorem shortens_entries (c : Config) (gap : Nat) : ∀ es : List (HostValue × HostValue),
    List.Forall₂ (fun e d => Encoder.Shortens c.maxDepth gap e.1 d.1 ∧ Encoder.Shortens c.maxDepth gap e.2 d.2)
      (encodeEntries c es : List (Encoder σ × Encoder σ)) (encodeEntries (c.deepened gap) es)
  | [] => .nil
  | (k, v) :: es => .cons ⟨shortens_encode c gap k, shortens_encode c gap v⟩ (shortens_entries c gap es)
end

end HostValue

namespace Json

mutual
theorem shortens_encode (c : Config) (gap : Nat) : ∀ j : Json,
    Encoder.Shortens c.maxDepth gap (j.encode c : Encoder σ) (j.encode (c.deepened gap))
  | null => shortens_null
  | bool b => shortens_ofPayload (.bool b)
  | number n => shortens_ofExcept fun _ => Number.isOwn_of_toPayload (n := n) (c := c)
  | string s => shortens_ofPayload (.string s)
  | array items => shortens_list (shortens_items c gap items)
  | object fields => shortens_struct (shortens_fields c gap fields)
theorem shortens_items (c : Config) (gap : Nat) : ∀ js : List Json, List.Forall₂
    (Encoder.Shortens c.maxDepth gap) (encodeItems c js : List (Encoder σ)) (encodeItems (c.deepened gap) js)
  | [] => .nil
  | j :: js => .cons (shortens_encode c gap j) (shortens_items c gap js)
theorem shortens_fields (c : Config) (gap : Nat) : ∀ fs : List (String × Json),
    List.Forall₂ (fun f g => f.1 = g.1 ∧ Encoder.Shortens c.maxDepth gap f.2 g.2)
      (encodeFields c fs : List (String × Encoder σ)) (encodeFields (c.deepened gap) fs)
  | [] => .nil
  | (_, j) :: fs => .cons ⟨rfl, shortens_encode c gap j⟩ (shortens_fields c gap fs)
end

end Json

namespace Source

mutual
/-- **Encoders are shortened** by a smaller depth. -/
theorem shortens_encode (c : Config) (gap : Nat) : ∀ s : Source,
    Encoder.Shortens c.maxDepth gap (s.encode c : Encoder σ) (s.encode (c.deepened gap))
  | host v => v.shortens_encode c gap
  | json j => j.shortens_encode c gap
  | scalar _ => shortens_ofExcept fun _ => Scalar.isOwn_of_toPayload
  | interval i => shortens_ofPayload (.interval i)
  | absent => shortens_null
  | present s => shortens_encode c gap s
  | shared s => shortens_encode c gap s
  | sequence items => shortens_list (shortens_items c gap items)
  | fields fs => shortens_struct (shortens_fields c gap fs)
  | entries es => shortens_map (shortens_entries c gap es)
theorem shortens_items (c : Config) (gap : Nat) : ∀ ss : List Source, List.Forall₂
    (Encoder.Shortens c.maxDepth gap) (encodeItems c ss : List (Encoder σ)) (encodeItems (c.deepened gap) ss)
  | [] => .nil
  | s :: ss => .cons (shortens_encode c gap s) (shortens_items c gap ss)
theorem shortens_fields (c : Config) (gap : Nat) : ∀ fs : List (String × Source),
    List.Forall₂ (fun f g => f.1 = g.1 ∧ Encoder.Shortens c.maxDepth gap f.2 g.2)
      (encodeFields c fs : List (String × Encoder σ)) (encodeFields (c.deepened gap) fs)
  | [] => .nil
  | (_, s) :: fs => .cons ⟨rfl, shortens_encode c gap s⟩ (shortens_fields c gap fs)
theorem shortens_entries (c : Config) (gap : Nat) : ∀ es : List (Source × Source),
    List.Forall₂ (fun e d => Encoder.Shortens c.maxDepth gap e.1 d.1 ∧ Encoder.Shortens c.maxDepth gap e.2 d.2)
      (encodeEntries c es : List (Encoder σ × Encoder σ)) (encodeEntries (c.deepened gap) es)
  | [] => .nil
  | (k, s) :: es => .cons ⟨shortens_encode c gap k, shortens_encode c gap s⟩ (shortens_entries c gap es)
end

end Source

/-! ## The depth of a configuration -/

/-- **A smaller depth makes no difference but where it is exceeded**, in either direction. -/
theorem shortened_of_le {limit : Nat} (hle : c.maxDepth ≤ limit) (s : σ) :
    (∀ source : Source, Shortened c.maxDepth (source.build c s) (source.build { c with maxDepth := limit } s)) ∧
    (∀ h, Shortened c.maxDepth (Read.value c h s) (Read.value { c with maxDepth := limit } h s)) ∧
    ∀ (t : Target) h, Shortened c.maxDepth (t.read c h s) (t.read { c with maxDepth := limit } h s) := by
  obtain ⟨gap, rfl⟩ := Nat.exists_eq_add_of_le hle
  exact ⟨fun source => source.shortens_encode c gap c.maxDepth s,
    fun h => (lockstep_shortens c gap).valueAt c.maxDepth h s,
    fun t h => (lockstep_shortens c gap).decode t c.maxDepth h s⟩

namespace HostValue

/-- What was encoded is nested within the depth, so it is decoded without a word about it, by its tag and into every
type. -/
theorem not_isDepth_of_encoded {v : HostValue} {m m' : Memory} {h : Handle} (hm : m.Reachable)
    (hbuild : (Source.host v).build c m = .ok h m') :
    (∀ e m'', Read.value c h m' = .error e m'' → ¬e.IsDepth) ∧
      ∀ (t : Target) e m'', t.read c h m' = .error e m'' → ¬e.IsDepth := by
  obtain ⟨sv, hsv, hadds⟩ := adds_of_build hm hbuild
  have hshallow : Shallow (fun e => ¬e.IsDepth) c c.maxDepth sv :=
    .inl (carries_draft c v c.maxDepth sv hsv).depth_le_left
  have hbehind : Tabled.Behind m' h sv := hadds.find?_of_mem List.mem_cons_self
  have hspares : ∀ {α : Type} {read : Handle → Convert Memory α}, Suits (fun e => ¬e.IsDepth) read sv →
      ∀ e m'', read h m' = .error e m'' → ¬e.IsDepth := by
    intro α read hsuits e m'' hread
    have hends := hsuits m' h hadds.issued_after hbehind
    rwa [Spares, hread] at hends
  exact ⟨hspares (Read.suits_valueAt tolerant_not_isDepth c c.maxDepth sv hshallow), fun t =>
    hspares (t.suits_decode tolerant_not_isDepth c c.maxDepth hshallow (.inr ConvertError.not_isDepth_typeMismatch))⟩

/-- What can be encoded within some depth can be within its nesting. -/
theorem exists_build_iff_nesting_le {v : HostValue} {m : Memory} (hm : m.Reachable)
    (hroom : m.live + v.subvalues.length ≤ m.limit) {limit : Nat}
    (hbuild : ∃ h m', (Source.host v).build { c with maxDepth := limit } m = .ok h m') :
    (∃ h m', (Source.host v).build c m = .ok h m') ↔ v.nesting ≤ c.maxDepth := by
  have hmeets := ((exists_build_iff_encodable hm hroom).1 hbuild).meets
  rw [exists_build_iff_encodable hm hroom]
  exact ⟨fun h => h.nesting_le, fun h => ⟨h, hmeets⟩⟩

end HostValue

omit [Engine σ] in
/-- **The depth limit is monotone, and the same in both directions.**  With a smaller limit every encoder and every
decoder says that the limit is exceeded, or ends as with a larger one, in the same state of the engine.  What was
encoded is decoded within the limit, and what can be encoded with some limit can be exactly if its nesting is within
this one. -/
theorem maxDepth_monotone (c : Config) :
    (∀ limit, c.maxDepth ≤ limit → ∀ {σ : Type} [Engine σ] (s : σ),
      (∀ source : Source, Shortened c.maxDepth (source.build c s) (source.build { c with maxDepth := limit } s)) ∧
      (∀ h, Shortened c.maxDepth (Read.value c h s) (Read.value { c with maxDepth := limit } h s)) ∧
      ∀ (t : Target) h, Shortened c.maxDepth (t.read c h s) (t.read { c with maxDepth := limit } h s)) ∧
    ∀ (v : HostValue) (m : Memory), m.Reachable →
      (∀ h m', (Source.host v).build c m = .ok h m' →
        (∀ e m'', Read.value c h m' = .error e m'' → ¬e.IsDepth) ∧
        ∀ (t : Target) e m'', t.read c h m' = .error e m'' → ¬e.IsDepth) ∧
      (m.live + v.subvalues.length ≤ m.limit → ∀ limit,
        (∃ h m', (Source.host v).build { c with maxDepth := limit } m = .ok h m') →
        ((∃ h m', (Source.host v).build c m = .ok h m') ↔ v.nesting ≤ c.maxDepth)) :=
  ⟨fun _ hle _ _ s => shortened_of_le hle s, fun _ _ hm =>
    ⟨fun _ _ => HostValue.not_isDepth_of_encoded hm,
      fun hroom _ => HostValue.exists_build_iff_nesting_le hm hroom⟩⟩

/-- A list in a list is encoded within two levels, and not within one. -/
theorem maxDepth_monotone_listInList : let v : HostValue := .list [.list [.scalar (.bool true)]]
    (∃ h m', (Source.host v).build { maxDepth := 2 } ({ limit := 7 } : Memory) = .ok h m') ∧
    ∃ places m', (Source.host v).build { maxDepth := 1 } ({ limit := 7 } : Memory) =
      .error ⟨.tooDeep 1, places⟩ m' := by
  intro v
  have htwo : ∃ h m', (Source.host v).build { maxDepth := 2 } ({ limit := 7 } : Memory) = .ok h m' := ⟨_, _, rfl⟩
  refine ⟨htwo, ?_⟩
  obtain ⟨hmono, hboth⟩ := maxDepth_monotone { maxDepth := 1 }
  have hiff := (hboth v { limit := 7 } (.empty 7)).2 (by decide) 2 htwo
  rcases (hmono 2 (by decide) ({ limit := 7 } : Memory)).1 (.host v) with hdeep | ⟨heq, -⟩
  · exact hdeep
  · obtain ⟨h, m', hbuild⟩ := htwo
    exact absurd (hiff.1 ⟨h, m', heq.trans hbuild⟩) (by decide)

end ValueBridge
