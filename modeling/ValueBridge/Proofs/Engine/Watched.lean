import ValueBridge.Proofs.Engine.Tabled
/-!
# A watched engine that may refuse any call

The engine in memory behind an oracle: whether a call is refused may depend on everything that was called before, so
every choice of calls that fail is one oracle.  A refused call leaves the table alone.  What the engine is asked is
written to a log, oldest first; a log is `Orderly` if nothing but destroyed handles follows a failed call.
-/
namespace ValueBridge

/-- What an engine was asked, and how it went. -/
inductive Event where
  | answered (r : Request)
  | failed (r : Request) (e : Failure)
  | destroyed (h : Handle)

namespace Event

def isFailed : Event → Bool
  | failed _ _ => true
  | _ => false

def isDestroyed : Event → Bool
  | destroyed _ => true
  | _ => false

end Event

/-- Nothing but destroyed handles follows a failed call. -/
def Orderly (log : List Event) : Prop :=
  ∀ before e after, log = before ++ e :: after → e.isFailed → ∀ x ∈ after, x.isDestroyed

/-- The engine in memory, which refuses the calls that the oracle chooses by the log so far. -/
structure Watched where
  memory : Memory
  refusal : List Event → Request → Option Failure
  log : List Event := []

namespace Watched

def call (r : Request) : Call Watched r.Reply := fun w =>
  match w.refusal w.log r with
  | some e => .error e { w with log := w.log ++ [.failed r e] }
  | none =>
    match Memory.call r w.memory with
    | .ok a m => .ok a { w with memory := m, log := w.log ++ [.answered r] }
    | .error e m => .error e { w with memory := m, log := w.log ++ [.failed r e] }

def destroy (h : Handle) (w : Watched) : Watched :=
  { w with memory := w.memory.destroy h, log := w.log ++ [.destroyed h] }

instance : Engine Watched := ⟨call, destroy⟩

/-- Every call from the first state to the second was answered. -/
def Answered (w w' : Watched) : Prop := ∃ log, w'.log = w.log ++ log ∧ ∀ e ∈ log, ¬ e.isFailed

/-- No call was made after a failed one between the two states. -/
def Ended (w w' : Watched) : Prop := ∃ log, w'.log = w.log ++ log ∧ Orderly log

end Watched

/-! ## Orderly logs -/

namespace Orderly

variable {log log' : List Event}

theorem nil : Orderly [] := fun before e after h => by
  cases before <;> cases h

theorem singleton (e : Event) : Orderly [e] := by
  intro before x after h hx y hy
  cases before with
  | nil =>
    cases h
    cases hy
  | cons b before =>
    rw [List.cons_append, List.cons.injEq] at h
    cases before <;> cases h.2

theorem append (hlog : ∀ e ∈ log, ¬ e.isFailed) (h : Orderly log') : Orderly (log ++ log') := by
  intro before e after heq he x hx
  rcases List.append_eq_append_iff.1 heq with ⟨rest, rfl, hrest⟩ | ⟨rest, hlog', hrest⟩
  · exact h rest e after hrest he x hx
  · cases rest with
    | nil =>
      rw [List.nil_append] at hrest
      exact h [] e after hrest.symm he x hx
    | cons y rest =>
      rw [List.cons_append, List.cons.injEq] at hrest
      obtain ⟨rfl, -⟩ := hrest
      exact absurd he (hlog e (by rw [hlog']; exact List.mem_append_right _ List.mem_cons_self))

theorem destroyed (k : Handle) (h : Orderly log) : Orderly (log ++ [.destroyed k]) := by
  intro before e after heq he x hx
  rcases List.append_eq_append_iff.1 heq with ⟨rest, rfl, hrest⟩ | ⟨rest, hlog, hrest⟩
  · exact singleton (.destroyed k) rest e after hrest he x hx
  · cases rest with
    | nil =>
      cases hrest
      cases hx
    | cons y rest =>
      rw [List.cons_append, List.cons.injEq] at hrest
      obtain ⟨rfl, rfl⟩ := hrest
      rcases List.mem_append.1 hx with hx | hx
      · exact h before e rest hlog he x hx
      · rw [List.mem_singleton.1 hx]
        rfl

end Orderly

/-! ## Watched engines answer from a table -/

namespace Watched

theorem answered_snoc (w : Watched) {e : Event} (he : ¬ e.isFailed) (m : Memory) :
    w.Answered { w with memory := m, log := w.log ++ [e] } :=
  ⟨[e], rfl, fun x hx => by rwa [List.mem_singleton.1 hx]⟩

instance : Tabled Watched where
  memory := memory
  trusty := False
  Answered := Answered
  Ended := Ended
  answered_refl w := ⟨[], (List.append_nil _).symm, fun _ h => by cases h⟩
  answered_trans := by
    rintro w w' w'' ⟨log, hlog, hclean⟩ ⟨log', hlog', hclean'⟩
    refine ⟨log ++ log', by rw [hlog', hlog, List.append_assoc], fun e he => ?_⟩
    exact (List.mem_append.1 he).elim (hclean e) (hclean' e)
  ended_refl w := ⟨[], (List.append_nil _).symm, .nil⟩
  answered_ended := by
    rintro w w' w'' ⟨log, hlog, hclean⟩ ⟨log', hlog', horderly⟩
    exact ⟨log ++ log', by rw [hlog', hlog, List.append_assoc], .append hclean horderly⟩
  memory_destroy _ _ := rfl
  answered_destroy h w := w.answered_snoc (by simp [Event.isFailed]) _
  ended_destroy := by
    rintro w w' h ⟨log, hlog, horderly⟩
    exact ⟨log ++ [.destroyed h], by rw [← List.append_assoc, ← hlog]; rfl, horderly.destroyed h⟩
  call_ok := by
    intro r a w w' h
    change call r w = .ok a w' at h
    unfold call at h
    split at h
    · cases h
    · split at h
      · rename_i hm
        cases h
        exact ⟨hm, w.answered_snoc (by simp [Event.isFailed]) _⟩
      · cases h
  call_error := by
    intro r e w w' h
    change call r w = .error e w' at h
    unfold call at h
    split at h
    · cases h
      exact ⟨⟨_, rfl, .singleton _⟩, .inl rfl, False.elim⟩
    · split at h
      · cases h
      · rename_i hm
        cases h
        exact ⟨⟨_, rfl, .singleton _⟩, .inr hm, False.elim⟩

end Watched

end ValueBridge
