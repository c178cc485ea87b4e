import ValueBridge.Proofs.Convert.Answers
import ValueBridge.Proofs.Convert.Routes
/-!
# The two decoders agree

A value that was decoded into a requested type stands for a host value, its image.  Decoding into the type and decoding
by the value's own tag are two computations on one engine, and `Agrees` relates their results: two that end well end
with a value and its image in the same state; where only the first ends well the type asks for intervals, which the
other collapses; where only the second does, the first has met a null or a tag that it does not accept.  Both decoders
are made in the same ways, each of which keeps this (`agrees_decode`).
-/
namespace ValueBridge

open ValueBridge.Convert

/-! ## Images -/

namespace ScalarTarget

/-- The scalar that a decoded value stands for; an interval stands for its duration, if it has one. -/
def image? : (s : ScalarTarget) → s.Value → Option Scalar
  | bool, b => some (.bool b)
  | int w, n => some (.int w n)
  | float, x => some (.float x)
  | double, x => some (.double x)
  | string, s => some (.string s)
  | id, i => some (.id i)
  | interval, i => i.toDuration.toOption.map .duration
  | decimal, d => some (.decimal d)
  | uuid, u => some (.uuid u)
  | timestamp, t => some (.timestamp t)
  | duration, d => some (.duration d)
  | blob, bytes => some (.blob bytes)

end ScalarTarget

namespace Target

/-- The host value that a decoded value stands for. -/
def image? : (t : Target) → t.Value → Option HostValue
  | scalar s, x => (s.image? x).map .scalar
  | node, n => some (.node n)
  | rel, r => some (.rel r)
  | path, p => some (.path p)
  | host, v => some v
  | opt _, none => some .null
  | opt t, some x => t.image? x
  | list t, xs => (xs.mapM t.image?).map .list
  | struct t, fs => (fs.mapM fun f => (t.image? f.2).map (f.1, ·)).map .struct
  | map k v, es => (es.mapM fun e => (k.image? e.1).bind fun a => (v.image? e.2).map (a, ·)).map .map

/-- Whether the type asks for no interval as such. -/
def isExact : Target → Bool
  | scalar s => s != .interval
  | node | rel | path | host => true
  | opt t | list t | struct t => t.isExact
  | map k v => k.isExact && v.isExact

end Target

/-- Whether an error says that the requested type does not fit the value. -/
def ErrorKind.isRefusal : ErrorKind → Bool
  | nullValue | typeMismatch => true
  | _ => false

/-! ## Agreement of results -/

variable {ε α β γ δ : Type}

/-- How the result of decoding into a type and the result of decoding by the tag go together. -/
inductive Agrees (exact : Bool) (image : α → Option β) :
    EStateM.Result ConvertError Memory α → EStateM.Result ConvertError Memory β → Prop
  | both {a : α} {b : β} {m : Memory} (h : image a = some b) : Agrees exact image (.ok a m) (.ok b m)
  | finer {a : α} {e : ConvertError} {m m' : Memory} (h : exact = false) : Agrees exact image (.ok a m) (.error e m')
  | refused {e : ConvertError} {b : β} {m m' : Memory} (h : e.kind.isRefusal) :
    Agrees exact image (.error e m) (.ok b m')
  | neither {e e' : ConvertError} {m m' : Memory} : Agrees exact image (.error e m) (.error e' m')

namespace Agrees

variable {exact : Bool} {image : α → Option β} {image' : γ → Option δ} {m : Memory}

/-- Where the type asks for intervals, anything goes with an error of the other decoder. -/
theorem of_error {r : EStateM.Result ConvertError Memory α} {e : ConvertError} (h : exact = false) :
    Agrees exact image r (.error e m) := by
  cases r with
  | ok a m' => exact .finer h
  | error e' m' => exact .neither

theorem of_refused {r : EStateM.Result ConvertError Memory β} {e : ConvertError} (h : e.kind.isRefusal) :
    Agrees exact image (.error e m) r := by
  cases r with
  | ok b m' => exact .refused h
  | error e' m' => exact .neither

theorem mono {exact' : Bool} {r : EStateM.Result ConvertError Memory α} {r' : EStateM.Result ConvertError Memory β}
    (h : Agrees exact image r r') (hexact : exact = false → exact' = false) : Agrees exact' image r r' := by
  cases h with
  | both h => exact .both h
  | finer h => exact .finer (hexact h)
  | refused h => exact .refused h
  | neither => exact .neither

theorem bind {p : Convert Memory α} {q : Convert Memory β} {f : α → Convert Memory γ} {g : β → Convert Memory δ}
    (h : Agrees exact image (p m) (q m))
    (hf : ∀ a b m', image a = some b → Agrees exact image' (f a m') (g b m')) :
    Agrees exact image' ((p >>= f) m) ((q >>= g) m) := by
  simp only [Bind.bind, EStateM.bind]
  generalize p m = r at h ⊢
  generalize q m = r' at h ⊢
  cases h with
  | both h => exact hf _ _ _ h
  | finer h => exact .of_error h
  | refused h => exact .of_refused h
  | neither => exact .neither

theorem after {r : Convert Memory α} {f : α → Convert Memory γ} {g : α → Convert Memory δ}
    (hf : ∀ a m', Agrees exact image' (f a m') (g a m')) : Agrees exact image' ((r >>= f) m) ((r >>= g) m) := by
  simp only [Bind.bind, EStateM.bind]
  cases r m with
  | ok a m' => exact hf a m'
  | error e m' => exact .neither

theorem map_right {p : Convert Memory α} {q : Convert Memory β} (f : β → δ) (h : Agrees exact image (p m) (q m)) :
    Agrees exact (fun a => (image a).map f) (p m) ((f <$> q) m) := by
  have hbind : Agrees exact (fun a => (image a).map f) ((p >>= pure) m) ((q >>= fun b => pure (f b)) m) :=
    h.bind fun a b m' hab => .both (by rw [hab]; rfl)
  rwa [bind_pure, bind_pure_comp] at hbind

theorem map_left {p : Convert Memory α} {q : Convert Memory β} {image' : γ → Option β} (f : α → γ)
    (h : Agrees exact image (p m) (q m)) (hf : ∀ a, image' (f a) = image a) :
    Agrees exact image' ((f <$> p) m) (q m) := by
  have hbind : Agrees exact image' ((p >>= fun a => pure (f a)) m) ((q >>= pure) m) :=
    h.bind fun a b m' hab => .both (by rw [hf, hab])
  rwa [bind_pure, bind_pure_comp] at hbind

theorem within {p : Convert Memory α} {q : Convert Memory β} (place : Place) (h : Agrees exact image (p m) (q m)) :
    Agrees exact image (p.within place m) (q.within place m) := by
  simp only [Convert.within, EStateM.adaptExcept]
  generalize p m = r at h ⊢
  generalize q m = r' at h ⊢
  cases h with
  | both h => exact .both h
  | finer h => exact .finer h
  | refused h => exact .refused (by rwa [ConvertError.kind_within])
  | neither => exact .neither

theorem releasing {p : Convert Memory α} {q : Convert Memory β} (hs : List Handle)
    (h : Agrees exact image (p m) (q m)) :
    Agrees exact image (Convert.releasing hs p m) (Convert.releasing hs q m) := by
  simp only [Convert.releasing]
  generalize p m = r at h ⊢
  generalize q m = r' at h ⊢
  cases h with
  | both h => exact .both h
  | finer h => exact .finer h
  | refused h => exact .refused h
  | neither => exact .neither

theorem holding {acquire : Convert Memory Handle} {p : Handle → Convert Memory α} {q : Handle → Convert Memory β}
    (h : ∀ k m', Agrees exact image (p k m') (q k m')) :
    Agrees exact image (Convert.holding acquire p m) (Convert.holding acquire q m) :=
  after fun k m' => (h k m').releasing [k]

theorem forIndices {p : Nat → Convert Memory α} {q : Nat → Convert Memory β}
    (h : ∀ i m', Agrees exact image (p i m') (q i m')) : ∀ count start m,
    Agrees exact (fun as => as.mapM image) (Convert.forIndices p start count m) (Convert.forIndices q start count m)
  | 0, _, _ => .both rfl
  | count + 1, start, m => by
    refine (h start m).bind fun a b m₁ hab => (forIndices h count (start + 1) m₁).bind fun as bs m₂ hasbs => .both ?_
    rw [List.mapM_cons, hab, hasbs]
    rfl

end Agrees

/-! ## Agreement of the decoders' parts -/

namespace Agrees

open Read

variable {exact : Bool} {image : α → Option β} {read : Handle → Convert Memory α} {read' : Handle → Convert Memory β}

theorem elements (h : ∀ k m, Agrees exact image (read k m) (read' k m)) (k : Handle) (m : Memory) :
    Agrees exact (fun as => as.mapM image) (Read.elements read k m) (Read.elements read' k m) := by
  have hloop : ∀ count m, Agrees exact (fun as => as.mapM image)
      (Convert.forIndices (fun i => Convert.holding (itemOf .element k i) fun part => (read part).within (.element i)) 0 count m)
      (Convert.forIndices (fun i => Convert.holding (itemOf .element k i) fun part => (read' part).within (.element i)) 0
        count m) :=
    fun count m => forIndices (fun i m => holding fun part m => (h part m).within (.element i)) count 0 m
  refine after fun t m₁ => ?_
  dsimp only
  cases t.arraySize? with
  | some n => exact hloop n m₁
  | none => exact after fun count m₂ => hloop count m₂

theorem named {counted : Counted} {names : Named} {item : Item} {place : String → Place}
    (h : ∀ k m, Agrees exact image (read k m) (read' k m)) (k : Handle) (m : Memory) :
    Agrees exact (fun fs => fs.mapM fun f : String × α => (image f.2).map (f.1, ·))
      (Read.named counted names item place read k m) (Read.named counted names item place read' k m) := by
  refine after fun count m₁ => forIndices (fun i m₂ => ?_) count 0 m₁
  refine after fun name m₃ => holding fun part m₄ => ((h part m₄).within (place name)).bind fun a b m₅ hab => .both ?_
  rw [hab]
  rfl

theorem entries {image' : γ → Option δ} {key : Handle → Convert Memory α} {key' : Handle → Convert Memory β}
    {value : Handle → Convert Memory γ} {value' : Handle → Convert Memory δ}
    (hk : ∀ k m, Agrees exact image (key k m) (key' k m)) (hv : ∀ k m, Agrees exact image' (value k m) (value' k m))
    (k : Handle) (m : Memory) :
    Agrees exact (fun es => es.mapM fun e : α × γ => (image e.1).bind fun a => (image' e.2).map (a, ·))
      (Read.entries key value k m) (Read.entries key' value' k m) := by
  refine after fun count m₁ => forIndices (fun i m₂ => holding fun k m₃ => holding fun v m₄ => within _ ?_) count 0 m₁
  refine (hk k m₄).bind fun a b m₅ hab => (hv v m₅).bind fun c d m₆ hcd => .both ?_
  rw [hab, hcd]
  rfl

theorem nested {c : Config} {read : Nat → Handle → Convert Memory α} {read' : Nat → Handle → Convert Memory β}
    (h : ∀ left k m, Agrees exact image (read left k m) (read' left k m)) (left : Nat) (k : Handle) (m : Memory) :
    Agrees exact image (Read.nested c read left k m) (Read.nested c read' left k m) := by
  cases left with
  | zero => exact .neither
  | succ inner => exact h inner k m

theorem refl {f : α → β} (r : EStateM.Result ConvertError Memory α) (q : Convert Memory α) {m : Memory} (hq : q m = r) :
    Agrees exact (fun a => some (f a)) r ((f <$> q) m) := by
  simp only [Functor.map, EStateM.map, hq]
  cases r with
  | ok a m' => exact .both rfl
  | error e m' => exact .neither

/-- **A refused value and a value without a tag of the set agree with anything**; any other is read. -/
theorem tagged {c : Config} {accepted : List Tag} {left : Nat} {image : α → Option HostValue} {h : Handle} {m : Memory}
    (hread : ∀ v, m.find? h = .ok v → v.type.tag ∈ accepted →
      Agrees exact image (read h m) (routed c left v.type.tag h m)) :
    Agrees exact image (Read.tagged accepted read h m) (unlessNull (routed c left) h m) := by
  rw [unlessNull_eq]
  have htag := expectTag_eq accepted h m
  unfold Read.tagged
  cases hv : m.find? h with
  | error e =>
    rw [hv] at htag
    rw [bind_of_error htag]
    exact .neither
  | ok v =>
    rw [hv] at htag
    dsimp only at htag ⊢
    cases hn : v.isNull with
    | true =>
      rw [hn, if_pos rfl] at htag
      rw [bind_of_error htag]
      exact .of_refused rfl
    | false =>
      rw [hn, if_neg Bool.false_ne_true] at htag
      rw [if_neg Bool.false_ne_true]
      split at htag
      · rename_i haccepted
        rw [bind_of_ok htag]
        exact hread v hv (List.contains_iff_mem.1 haccepted)
      · rw [bind_of_error htag]
        exact .of_refused rfl

end Agrees

/-! ## Scalars -/

theorem Temporal.tag_mem (t : Temporal) : t.tag ∈ Tag.temporal := by
  cases t <;> simp [Temporal.tag, Tag.temporal]

namespace ScalarTarget

/-- The tags of values that have parts or cannot be decoded. -/
def isForeign : Tag → Bool
  | .any | .pointer | .list | .array | .struct | .map | .union | .node | .rel | .path => true
  | _ => false

theorem not_foreign : ∀ (s : ScalarTarget), ∀ tag ∈ s.accepts, ¬ isForeign tag
  | int w => by cases w <;> decide
  | bool | float | double | string | id | interval | decimal | uuid | timestamp | duration | blob => by decide

theorem accepts_int {w w' : IntWidth} (h : w'.tag ∈ (int w).accepts) : w' = w := by
  cases w <;> cases w' <;> first | rfl | exact absurd h (by decide)

theorem int_of_accepts {s : ScalarTarget} {w : IntWidth} (h : w.tag ∈ s.accepts) : s = int w := by
  cases s with
  | int w' => rw [accepts_int h]
  | _ => cases w <;> exact absurd h (by decide)

theorem not_temporal : ∀ s : ScalarTarget, s ≠ timestamp → ∀ tag ∈ s.accepts, tag ∉ Tag.temporal
  | timestamp, h => absurd rfl h
  | int w, _ => by cases w <;> decide
  | bool, _ | float, _ | double, _ | string, _ | id, _ | interval, _ | decimal, _ | uuid, _ | duration, _ | blob, _ => by
    decide

/-- **A payload that the target accepts is read alike by both decoders.** -/
theorem agrees_ofPayload (b : BlobLength) (s : ScalarTarget) (p : Payload) (hp : p.tag ∈ s.accepts) (m : Memory) :
    Agrees (s != .interval) s.image? (Convert.ofExcept (s.ofPayload b p) m) (Convert.ofExcept (p.toScalar b) m) := by
  have hmap : ∀ {α : Type} (r : Except ConvertError α) (f : α → Scalar),
      Agrees true (fun a => some (f a)) (Convert.ofExcept r m) (Convert.ofExcept (r.map f) m) := by
    intro α r f
    cases r with
    | ok a => exact .both rfl
    | error e => exact .neither
  cases p with
  | int w n =>
    cases int_of_accepts hp
    rw [ofPayload, dif_pos rfl]
    exact .both rfl
  | temporal t =>
    obtain rfl : s = timestamp := Classical.byContradiction fun hs => not_temporal s hs t.tag hp t.tag_mem
    exact hmap _ _
  | interval i =>
    cases s with
    | interval =>
      rw [ofPayload, Payload.toScalar, intervalOf]
      cases hd : i.toDuration with
      | ok d => exact .both (by rw [image?, hd]; rfl)
      | error e => exact .finer rfl
    | duration => exact hmap _ _
    | int w => cases w <;> simp [accepts, Payload.tag, IntWidth.tag] at hp
    | _ => simp [accepts, Payload.tag, Tag.temporal] at hp
  | _ =>
    cases s with
    | int w => cases w <;> first | exact .both rfl | simp [accepts, Payload.tag, IntWidth.tag] at hp
    | _ => first | exact .both rfl | exact hmap _ _ | simp [accepts, Payload.tag, Tag.temporal] at hp

end ScalarTarget

/-! ## Targets -/

namespace Target

open Read ScalarTarget

theorem routed_scalar {c : Config} {left : Nat} {tag : Tag} {h : Handle} (htag : ¬ isForeign tag) :
    (routed c left tag h : Convert Memory HostValue) = .scalar <$> Read.scalarOf c h := by
  cases tag <;> first | rfl | exact absurd rfl htag

theorem agrees_scalar {c : Config} {s : ScalarTarget} {left : Nat} {h : Handle} {m : Memory} {v : Stored}
    (hv : m.find? h = .ok v) (htag : v.type.tag ∈ s.accepts) :
    Agrees (s != .interval) (scalar s).image? (Target.scalarOf c s h m) (routed c left v.type.tag h m) := by
  rw [routed_scalar (not_foreign s _ htag)]
  refine Agrees.map_right HostValue.scalar ?_
  unfold Target.scalarOf Read.scalarOf
  have hp := payloadOf_of_find hv
  cases v with
  | payload p =>
    rw [bind_of_ok hp, bind_of_ok hp]
    rw [Stored.type, Payload.tag_type] at htag
    exact agrees_ofPayload c.blobLength s p htag m
  | _ =>
    rw [bind_of_error hp, bind_of_error hp]
    exact .neither

/-- **Both decoders agree**, whatever the engine holds behind the handle. -/
theorem agrees_decode (c : Config) : ∀ (t : Target) (left : Nat) (h : Handle) (m : Memory),
    Agrees t.isExact t.image? (t.decode c left h m) (valueAt c left h m)
  | scalar s, left, h, m => by
    rw [valueAt_eq]
    exact .tagged fun v hv htag => agrees_scalar hv htag
  | node, left, h, m => by
    rw [valueAt_eq]
    refine .tagged fun v _ htag => ?_
    rw [List.mem_singleton.1 htag]
    exact .refl _ _ rfl
  | rel, left, h, m => by
    rw [valueAt_eq]
    refine .tagged fun v _ htag => ?_
    rw [List.mem_singleton.1 htag]
    exact .refl _ _ rfl
  | path, left, h, m => by
    rw [valueAt_eq]
    refine .tagged fun v _ htag => ?_
    rw [List.mem_singleton.1 htag]
    exact .refl _ _ rfl
  | host, left, h, m => by
    rw [decode]
    cases valueAt c left h m with
    | ok v m' => exact .both rfl
    | error e m' => exact .neither
  | opt t, left, h, m => by
    unfold decode
    cases hv : m.find? h with
    | error e =>
      rw [bind_of_error (isNull_of_missing hv), valueAt_eq, unlessNull_eq, hv]
      exact .neither
    | ok v =>
      rw [bind_of_ok (isNull_of_find hv)]
      cases hn : v.isNull with
      | true =>
        rw [valueAt_eq, unlessNull_eq, hv]
        dsimp only
        rw [hn, if_pos rfl]
        exact .both rfl
      | false => exact (agrees_decode c t left h m).map_left some fun _ => rfl
  | list t, left, h, m => by
    have hread : ∀ left h m, Agrees t.isExact (fun xs => xs.mapM t.image?)
        (nested c (fun left => elements (decode c t left)) left h m)
        (nested c (fun left => elements (valueAt c left)) left h m) :=
      Agrees.nested fun inner => Agrees.elements (agrees_decode c t inner)
    rw [valueAt_eq]
    refine .tagged fun v _ htag => ?_
    simp only [List.mem_cons, List.not_mem_nil, or_false] at htag
    rcases htag with htag | htag <;> (rw [htag]; exact (hread left h m).map_right HostValue.list)
  | struct t, left, h, m => by
    rw [valueAt_eq]
    refine .tagged fun v _ htag => ?_
    rw [List.mem_singleton.1 htag]
    exact (Agrees.nested (fun inner => Agrees.named (agrees_decode c t inner)) left h m).map_right HostValue.struct
  | map k v, left, h, m => by
    rw [valueAt_eq]
    refine .tagged fun w _ htag => ?_
    rw [List.mem_singleton.1 htag]
    -- Either side of an entry may ask for intervals.
    have hkey : ∀ inner h m, Agrees (map k v).isExact k.image? (k.decode c inner h m) (valueAt c inner h m) :=
      fun inner h m => (agrees_decode c k inner h m).mono fun hk => by rw [isExact, hk, Bool.false_and]
    have hvalue : ∀ inner h m, Agrees (map k v).isExact v.image? (v.decode c inner h m) (valueAt c inner h m) :=
      fun inner h m => (agrees_decode c v inner h m).mono fun hv => by rw [isExact, hv, Bool.and_false]
    exact (Agrees.nested (fun inner => Agrees.entries (hkey inner) (hvalue inner)) left h m).map_right HostValue.map

/-- **Decoding into a type and decoding by the tag agree.**  A value that was decoded into a type without intervals is
decoded by its tag to its image.  A value that is decoded by its tag is decoded into any type to a value with that
image, or refused as a null or for its tag. -/
theorem read_agrees (c : Config) (t : Target) (h : Handle) (m : Memory) :
    (t.isExact → ∀ x m', t.read c h m = .ok x m' →
      ∃ v, t.image? x = some v ∧ Read.value c h m = .ok v m') ∧
    ∀ v m', Read.value c h m = .ok v m' →
      (∃ x, t.read c h m = .ok x m' ∧ t.image? x = some v) ∨
      ∃ e m'', t.read c h m = .error e m'' ∧ (e.kind = .nullValue ∨ e.kind = .typeMismatch) := by
  have hagrees : Agrees t.isExact t.image? (t.read c h m) (Read.value c h m) := agrees_decode c t c.maxDepth h m
  refine ⟨fun hexact x m' hx => ?_, fun v m' hv => ?_⟩
  · rw [hx] at hagrees
    generalize Read.value c h m = r at hagrees ⊢
    cases hagrees with
    | both himage => exact ⟨_, himage, rfl⟩
    | finer h =>
      rw [hexact] at h
      cases h
  · rw [hv] at hagrees
    generalize t.read c h m = r at hagrees ⊢
    cases hagrees with
    | both himage => exact .inl ⟨_, rfl, himage⟩
    | refused hkind =>
      refine .inr ⟨_, _, rfl, ?_⟩
      revert hkind
      cases ConvertError.kind _ <;> simp [ErrorKind.isRefusal]

/-- An engine with the list of five and null. -/
def fiveAndNull : Memory where
  entries := [(⟨1⟩, .list (.list (.plain .int64)) [.payload (.int .int64 ⟨5, by decide, by decide⟩), .null (.plain .int64)])]
  next := 2

/-- The list of five and null, read as a list of optional integers, is the list that it is by its tag. -/
theorem read_agrees_fiveAndNull : (list (.opt (.scalar (.int .int64)))).isExact ∧
    ∃ x m', (list (.opt (.scalar (.int .int64)))).read {} ⟨1⟩ fiveAndNull = .ok x m' ∧
      ∃ v, (list (.opt (.scalar (.int .int64)))).image? x = some v ∧ Read.value {} ⟨1⟩ fiveAndNull = .ok v m' :=
  ⟨rfl, _, _, rfl, (read_agrees {} (list (.opt (.scalar (.int .int64)))) ⟨1⟩ fiveAndNull).1 rfl _ _ rfl⟩

end Target

end ValueBridge
