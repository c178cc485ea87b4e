import ValueBridge.Convert.Ownership
import ValueBridge.Proofs.Engine.Reachable
/-!
# Engines that answer from a table

An engine may keep its values in the table of the engine in memory and yet refuse calls of its own accord.  `Tabled`
says so much of it: what it answers the table answers, what it refuses leaves the table alone, and two relations between
its states tell how its calls went: `Answered` when none failed, and `Ended` when nothing was called after a failure.
The engine in memory is one that refuses nothing.

`Moves s es s'` and `Stops s es s'` join these relations to the entries that a computation has added, and
`Moves.call_ok` and `Moves.call_error` say which of them a request makes true.
-/
namespace ValueBridge

open Memory (Adds)

/-- An engine whose answers come from a table, and which may refuse any call. -/
class Tabled (σ : Type) extends Engine σ where
  memory : σ → Memory
  /-- Whether it answers every call that the table answers. -/
  trusty : Prop
  /-- Every call from the first state to the second was answered. -/
  Answered : σ → σ → Prop
  /-- From the first state to the second no call was made after one that failed. -/
  Ended : σ → σ → Prop
  answered_refl : ∀ s, Answered s s
  answered_trans : ∀ {s s' s''}, Answered s s' → Answered s' s'' → Answered s s''
  ended_refl : ∀ s, Ended s s
  answered_ended : ∀ {s s' s''}, Answered s s' → Ended s' s'' → Ended s s''
  memory_destroy : ∀ h s, memory (destroy h s) = (memory s).destroy h
  answered_destroy : ∀ h s, Answered s (destroy h s)
  ended_destroy : ∀ {s s'} h, Ended s s' → Ended s (destroy h s')
  call_ok : ∀ {r : Request} {a : r.Reply} {s s'}, call r s = .ok a s' →
    Memory.call r (memory s) = .ok a (memory s') ∧ Answered s s'
  call_error : ∀ {r : Request} {e : Failure} {s s'}, call r s = .error e s' → Ended s s' ∧
    (memory s' = memory s ∨ Memory.call r (memory s) = .error e (memory s')) ∧
    (trusty → Memory.call r (memory s) = .error e (memory s'))

instance : Tabled Memory where
  memory m := m
  trusty := True
  Answered _ _ := True
  Ended _ _ := True
  answered_refl _ := trivial
  answered_trans _ _ := trivial
  ended_refl _ := trivial
  answered_ended _ _ := trivial
  memory_destroy _ _ := rfl
  answered_destroy _ _ := trivial
  ended_destroy _ _ := trivial
  call_ok h := ⟨h, trivial⟩
  call_error h := ⟨trivial, .inr h, fun _ => h⟩

namespace Tabled

variable {σ : Type} [Tabled σ] {s s' s'' : σ} {es fs : List (Handle × Stored)}

/-- Every live handle of the engine's table has a number below the next one. -/
def Issued (s : σ) : Prop := (memory s).Issued

/-- The value behind a live handle. -/
def Behind (s : σ) (h : Handle) (v : Stored) : Prop := (memory s).find? h = .ok v

/-- The engine answers what its table answers, and the table has room for `n` more handles. -/
def Roomy (s : σ) (n : Nat) : Prop := trusty σ ∧ (memory s).live + n ≤ (memory s).limit

/-- All calls were answered, and `es` are the entries that the table has gained. -/
structure Moves (s : σ) (es : List (Handle × Stored)) (s' : σ) : Prop where
  adds : Adds (memory s) es (memory s')
  answered : Answered s s'

/-- No call was made after one that failed, and `es` are the entries that the table has gained. -/
structure Stops (s : σ) (es : List (Handle × Stored)) (s' : σ) : Prop where
  adds : Adds (memory s) es (memory s')
  ended : Ended s s'

theorem memory_destroyAll : ∀ (hs : List Handle) (s : σ),
    memory (Engine.destroyAll hs s) = (memory s).destroyAll hs
  | [], _ => rfl
  | h :: hs, s => by
    change memory (Engine.destroyAll hs (Engine.destroy h s)) = ((memory s).destroy h).destroyAll hs
    rw [memory_destroyAll hs, memory_destroy]

theorem answered_destroyAll : ∀ (hs : List Handle) (s : σ), Answered s (Engine.destroyAll hs s)
  | [], s => answered_refl s
  | h :: hs, s => answered_trans (answered_destroy h s) (answered_destroyAll hs (Engine.destroy h s))

theorem ended_destroyAll : ∀ (hs : List Handle) {s' : σ}, Ended s s' → Ended s (Engine.destroyAll hs s')
  | [], _, h => h
  | k :: hs, _, h => ended_destroyAll hs (ended_destroy k h)

theorem Roomy.mono {n k : Nat} (h : Roomy s n) (hk : k ≤ n) : Roomy s k :=
  ⟨h.1, Nat.le_trans (Nat.add_le_add_left hk _) h.2⟩

namespace Moves

theorem refl (hs : Issued s) : Moves s [] s := ⟨Adds.refl hs, answered_refl s⟩

theorem issued_after (h : Moves s es s') : Issued s' := h.adds.issued_after

theorem perm (h : Moves s es s') (hp : es.Perm fs) : Moves s fs s' := ⟨h.adds.perm hp, h.answered⟩

theorem trans (h : Moves s es s') (h' : Moves s' fs s'') : Moves s (fs ++ es) s'' :=
  ⟨h.adds.trans h'.adds, answered_trans h.answered h'.answered⟩

theorem stops (h : Moves s es s') (h' : Stops s' fs s'') : Stops s (fs ++ es) s'' :=
  ⟨h.adds.trans h'.adds, answered_ended h.answered h'.ended⟩

theorem behind (h : Moves s es s') {k : Handle} {v : Stored} (hk : (k, v) ∈ es) : Behind s' k v :=
  h.adds.find?_of_mem hk

theorem behind_of_old (h : Moves s es s') {k : Handle} {v : Stored} (hk : Behind s k v) : Behind s' k v :=
  h.adds.find?_of_old hk

theorem roomy (h : Moves s es s') {n : Nat} (hr : Roomy s (n + es.length)) : Roomy s' n := by
  refine ⟨hr.1, ?_⟩
  have hle := hr.2
  rw [h.adds.live_eq, h.adds.limit_eq]
  omega

theorem release (h : Moves s (es ++ fs) s') : Moves s fs (Engine.destroyAll (es.map Prod.fst) s') := by
  refine ⟨?_, answered_trans h.answered (answered_destroyAll _ s')⟩
  rw [memory_destroyAll]
  exact h.adds.destroyAll

theorem release_cons {k : Handle} {v : Stored} (h : Moves s ((k, v) :: fs) s') :
    Moves s fs (Engine.destroyAll [k] s') := by
  have h' : Moves s ([(k, v)] ++ fs) s' := h
  exact h'.release

end Moves

namespace Stops

theorem perm (h : Stops s es s') (hp : es.Perm fs) : Stops s fs s' := ⟨h.adds.perm hp, h.ended⟩

theorem release (h : Stops s (es ++ fs) s') : Stops s fs (Engine.destroyAll (es.map Prod.fst) s') := by
  refine ⟨?_, ended_destroyAll _ h.ended⟩
  rw [memory_destroyAll]
  exact h.adds.destroyAll

theorem release_cons {k : Handle} {v : Stored} (h : Stops s ((k, v) :: fs) s') :
    Stops s fs (Engine.destroyAll [k] s') := by
  have h' : Stops s ([(k, v)] ++ fs) s' := h
  exact h'.release

theorem refl (hs : Issued s) : Stops s [] s := ⟨Adds.refl hs, ended_refl s⟩

end Stops

/-! ## Calls -/

variable {r : Request}

/-- **An answered call has moved on by the handles of its answer.** -/
theorem Moves.call_ok {a : r.Reply} (hs : Issued s) (h : Engine.call r s = .ok a s') :
    ∃ es, es.map Prod.fst = r.created a ∧ Moves s es s' := by
  obtain ⟨hc, ha⟩ := Tabled.call_ok h
  obtain ⟨es, hes, hadd⟩ := Memory.adds_of_call_ok hs hc
  exact ⟨es, hes, hadd, ha⟩

/-- **A failed call stops without a trace in the table.** -/
theorem Stops.call_error {e : Failure} (hs : Issued s) (h : Engine.call r s = .error e s') : Stops s [] s' := by
  obtain ⟨he, hm, -⟩ := Tabled.call_error h
  refine ⟨?_, he⟩
  rcases hm with hm | hm
  · rw [hm]
    exact Adds.refl hs
  · exact Memory.adds_of_call_error hs hm

end Tabled
end ValueBridge
