import ValueBridge.Proofs.Convert.Balance
import ValueBridge.Proofs.Convert.Inherited
import ValueBridge.Proofs.Engine.Watched
/-!
# What encoders ask an engine for

Encoders look at values and create values, and never run a statement.  On a watched engine this can be read off the log:
none of the events that encoding adds to it is an execution (`Source.runsNothing_encode`).
-/
namespace ValueBridge

def Request.isExecution : Request → Bool
  | execute _ _ => true
  | _ => false

def Event.isExecution : Event → Bool
  | answered r | failed r _ => r.isExecution
  | destroyed _ => false

namespace Watched

/-- No statement was run between the two states. -/
def RanNothing (w w' : Watched) : Prop := ∃ log, w'.log = w.log ++ log ∧ ∀ e ∈ log, e.isExecution = false

namespace RanNothing

variable {w w' w'' : Watched}

theorem refl (w : Watched) : w.RanNothing w := ⟨[], (List.append_nil _).symm, fun e he => by cases he⟩

theorem trans (h : w.RanNothing w') (h' : w'.RanNothing w'') : w.RanNothing w'' := by
  obtain ⟨log, hlog, hnone⟩ := h
  obtain ⟨log', hlog', hnone'⟩ := h'
  exact ⟨log ++ log', by rw [hlog', hlog, List.append_assoc], List.forall_mem_append.2 ⟨hnone, hnone'⟩⟩

theorem event {m : Memory} {e : Event} (he : e.isExecution = false) :
    w.RanNothing { w with memory := m, log := w.log ++ [e] } :=
  ⟨[e], rfl, List.forall_mem_singleton.2 he⟩

theorem destroyAll : ∀ (hs : List Handle) {w' : Watched}, w.RanNothing w' → w.RanNothing (Engine.destroyAll hs w')
  | [], _, h => h
  | k :: hs, w', h => destroyAll hs (h.trans (event (m := w'.memory.destroy k) (e := .destroyed k) rfl))

end RanNothing
end Watched

open Watched ValueBridge.Convert

/-- The computation runs no statement, whether it ends well or not. -/
def RunsNothing {ε α : Type} (p : EStateM ε Watched α) : Prop :=
  ∀ w, Ends (p w) (fun _ => w.RanNothing) fun _ => w.RanNothing

namespace RunsNothing

variable {ε ε' α β : Type} {p : EStateM ε Watched α}

theorem pure (a : α) : RunsNothing (pure a : EStateM ε Watched α) := fun w => .refl w

theorem throw (e : ε) : RunsNothing (throw e : EStateM ε Watched α) := fun w => .refl w

theorem bind {f : α → EStateM ε Watched β} (hp : RunsNothing p) (hf : ∀ a, RunsNothing (f a)) :
    RunsNothing (p >>= f) := by
  intro w
  refine (hp w).bind (fun a w₁ h₁ => ?_) fun _ _ h => h
  exact (hf a w₁).mono (fun _ _ h₂ => h₁.trans h₂) fun _ _ h₂ => h₁.trans h₂

theorem adapt (f : ε → ε') (hp : RunsNothing p) : RunsNothing (p.adaptExcept f) := fun w => (hp w).adapt fun _ _ h => h

theorem releasing (hs : List Handle) (hp : RunsNothing p) : RunsNothing (Convert.releasing hs p) :=
  fun w => (hp w).releasing (fun _ _ h => h.destroyAll hs) fun _ _ h => h.destroyAll hs

theorem orReleasing (hs : List Handle) (hp : RunsNothing p) : RunsNothing (Convert.orReleasing hs p) :=
  fun w => (hp w).orReleasing fun _ _ h => h.destroyAll hs

/-- A call that is no execution is written to the log as itself. -/
theorem askOr (onFailure : Failure → Cause) {r : Request} (hr : r.isExecution = false) :
    RunsNothing (Convert.askOr onFailure r : Convert Watched r.Reply) := by
  refine adapt _ fun w => ?_
  change Ends (Watched.call r w) _ _
  unfold Watched.call
  split
  · exact .event hr
  · split
    · exact .event hr
    · exact .event hr

end RunsNothing

/-- Calls that are no executions run no statement, and so no encoder does. -/
theorem inherited_runsNothing : Inherited (σ := Watched) fun p => RunsNothing p where
  ask {r} hr := .askOr _ (by cases r <;> first | rfl | exact absurd rfl hr)
  createList hs := .askOr (r := .createList hs) _ rfl
  createMap ks vs := .askOr (r := .createMap ks vs) _ rfl
  pure := .pure
  throw := .throw
  bind := .bind
  within _ := .adapt _
  releasing := .releasing
  orReleasing := .orReleasing

/-- **Encoding runs no statement.** -/
theorem Source.runsNothing_encode (c : Config) (s : Source) (left : Nat) :
    RunsNothing ((s.encode c : Encoder Watched) left) :=
  inherited_runsNothing.source s left

end ValueBridge
