import ValueBridge.Convert.Read
import ValueBridge.Engine.Memory
/-!
# What the engine in memory answers to decoders

The requests that look at one value, on the engine in memory: they leave it as it is, and their answers are the ones of
the value behind the handle.  A handle that is not live fails them all in the same way.
-/
namespace ValueBridge.Convert

/-- A result that needs no engine, with the state beside it. -/
def settled {α : Type} (r : Except Failure α) (m : Memory) : EStateM.Result ConvertError Memory α :=
  match r with
  | .ok a => .ok a m
  | .error e => .error ⟨.engine e, []⟩ m

theorem adapt_inspect {α : Type} (f : Memory → Except Failure α) (m : Memory) :
    EStateM.adaptExcept (fun e => (⟨.engine e, []⟩ : ConvertError)) (Memory.inspect f) m = settled (f m) m := by
  unfold EStateM.adaptExcept Memory.inspect settled
  cases f m <;> rfl

theorem isNull_eq (h : Handle) (m : Memory) : isNull h m = settled ((m.find? h).map Stored.isNull) m :=
  adapt_inspect (fun m => (m.find? h).map Stored.isNull) m

theorem typeOf_eq (h : Handle) (m : Memory) : typeOf h m = settled ((m.find? h).map Stored.type) m :=
  adapt_inspect (fun m => (m.find? h).map Stored.type) m

theorem payloadOf_eq (h : Handle) (m : Memory) : payloadOf h m = settled ((m.find? h).bind Stored.asPayload) m :=
  adapt_inspect (fun m => (m.find? h).bind Stored.asPayload) m

theorem countOf_eq (c : Counted) (h : Handle) (m : Memory) :
    countOf c h m = settled ((m.find? h).bind (Stored.count? c)) m :=
  adapt_inspect (fun m => (m.find? h).bind (Stored.count? c)) m

theorem nameOf_eq (c : Named) (h : Handle) (i : Nat) (m : Memory) :
    nameOf c h i m = settled ((m.find? h).bind (Stored.name? c · i)) m :=
  adapt_inspect (fun m => (m.find? h).bind (Stored.name? c · i)) m

theorem tagOf_eq (h : Handle) (m : Memory) : tagOf h m = settled ((m.find? h).map fun v => v.type.tag) m := by
  change (LogicalType.tag <$> typeOf h : Convert Memory Tag) m = _
  simp only [Functor.map, EStateM.map, typeOf_eq, settled]
  cases m.find? h <;> rfl

/-! ## Looking at a value before reading it -/

theorem bind_of_ok {α β : Type} {p : Convert Memory α} {f : α → Convert Memory β} {a : α} {m m' : Memory}
    (h : p m = .ok a m') : (p >>= f) m = f a m' := by
  simp only [Bind.bind, EStateM.bind, h]

theorem bind_of_error {α β : Type} {p : Convert Memory α} {f : α → Convert Memory β} {e : ConvertError} {m m' : Memory}
    (h : p m = .error e m') : (p >>= f) m = .error e m' := by
  simp only [Bind.bind, EStateM.bind, h]

section Looking

variable {m : Memory} {h : Handle} {v : Stored} {e : Failure}

theorem isNull_of_find (hv : m.find? h = .ok v) : isNull h m = .ok v.isNull m := by
  rw [isNull_eq, hv]
  rfl

theorem isNull_of_missing (he : m.find? h = .error e) : isNull h m = .error ⟨.engine e, []⟩ m := by
  rw [isNull_eq, he]
  rfl

theorem tagOf_of_find (hv : m.find? h = .ok v) : tagOf h m = .ok v.type.tag m := by
  rw [tagOf_eq, hv]
  rfl

theorem payloadOf_of_find (hv : m.find? h = .ok v) : payloadOf h m = settled v.asPayload m := by
  rw [payloadOf_eq, hv]
  rfl

end Looking

theorem expectTag_eq (accepted : List Tag) (h : Handle) (m : Memory) : Read.expectTag accepted h m =
    match m.find? h with
    | .ok v =>
      if v.isNull then .error ⟨.nullValue, []⟩ m
      else if accepted.contains v.type.tag then .ok () m
      else .error ⟨.typeMismatch accepted v.type.tag, []⟩ m
    | .error e => .error ⟨.engine e, []⟩ m := by
  unfold Read.expectTag
  cases hv : m.find? h with
  | error e => rw [bind_of_error (isNull_of_missing hv)]
  | ok v =>
    rw [bind_of_ok (isNull_of_find hv)]
    dsimp only
    cases v.isNull with
    | true => rfl
    | false =>
      rw [if_neg Bool.false_ne_true, if_neg Bool.false_ne_true]
      rw [bind_of_ok (tagOf_of_find hv)]
      cases accepted.contains v.type.tag <;> rfl

theorem unlessNull_eq (read : Tag → Handle → Convert Memory HostValue) (h : Handle) (m : Memory) :
    Read.unlessNull read h m =
      match m.find? h with
      | .ok v => if v.isNull then .ok .null m else read v.type.tag h m
      | .error e => .error ⟨.engine e, []⟩ m := by
  unfold Read.unlessNull
  cases hv : m.find? h with
  | error e => rw [bind_of_error (isNull_of_missing hv)]
  | ok v =>
    rw [bind_of_ok (isNull_of_find hv)]
    dsimp only
    cases v.isNull with
    | true => rfl
    | false =>
      rw [if_neg Bool.false_ne_true, if_neg Bool.false_ne_true, bind_of_ok (tagOf_of_find hv)]

end ValueBridge.Convert
