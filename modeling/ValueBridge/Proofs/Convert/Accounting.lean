import ValueBridge.Proofs.Convert.Building
import ValueBridge.Proofs.Engine.Watched
/-!
# Handle accounting under refused calls

Whatever calls the engine refuses, a conversion that ends well had all its calls answered, and one that fails calls
nothing but `destroy` after the first failure.  Decoding and failed encoding leave the table of live handles as it was;
encoding that ends well has added one entry to it, the returned handle's (`accounting`).
-/
namespace ValueBridge

namespace Watched

/-- The table of live handles is the one before, and so is the count of invalid destroys. -/
def SameTable (w w' : Watched) : Prop :=
  w'.memory.entries = w.memory.entries ∧ w'.memory.invalidDestroys = w.memory.invalidDestroys

/-- A conversion that keeps the table: all its calls were answered if it ended well, and after the first failed call it
only destroyed handles. -/
def Kept {α : Type} (w : Watched) : EStateM.Result ConvertError Watched α → Prop
  | .ok _ w' => w.Answered w' ∧ w.SameTable w'
  | .error _ w' => w.Ended w' ∧ w.SameTable w'

/-- A conversion that adds the handle that it returns, and keeps the table if it fails. -/
def Made (w : Watched) : EStateM.Result ConvertError Watched Handle → Prop
  | .ok h w' => w.Answered w' ∧ w.memory.entries.lookup h = none ∧
    (∃ v, w'.memory.entries = (h, v) :: w.memory.entries) ∧ w'.memory.invalidDestroys = w.memory.invalidDestroys
  | .error _ w' => w.Ended w' ∧ w.SameTable w'

variable {w w' : Watched}

theorem sameTable_of_adds (h : Memory.Adds w.memory [] w'.memory) : w.SameTable w' :=
  ⟨h.entries_nil, h.invalidDestroys_eq⟩

theorem lookup_none_of_adds {m m' : Memory} {h : Handle} {v : Stored} (hadds : Memory.Adds m [(h, v)] m') :
    m.entries.lookup h = none := by
  rw [List.lookup_eq_none_iff]
  intro e he
  have hold := hadds.issued e he
  have hnew := (hadds.fresh _ List.mem_cons_self).1
  rw [bne_iff_ne]
  rintro rfl
  exact Nat.lt_irrefl _ (Nat.lt_of_lt_of_le hold hnew)

theorem kept_of_balanced {α : Type} {p : Convert Watched α} (hp : Balanced p) (hw : w.memory.Issued) :
    w.Kept (p w) := by
  have h := hp w hw
  cases hr : p w with
  | ok a w' =>
    rw [hr] at h
    exact ⟨h.answered, sameTable_of_adds h.adds⟩
  | error e w' =>
    rw [hr] at h
    exact ⟨h.ended, sameTable_of_adds h.adds⟩

theorem made_of_builds {p : Convert Watched Handle} {plan : Plan} (hp : Builds p plan) (hw : w.memory.Issued) :
    w.Made (p w) := by
  have h := hp w hw
  cases hr : p w with
  | ok k w' =>
    rw [hr] at h
    obtain ⟨v, -, hmove⟩ := h
    exact ⟨hmove.answered, lookup_none_of_adds hmove.adds, ⟨v, hmove.adds.entries_singleton⟩,
      hmove.adds.invalidDestroys_eq⟩
  | error e w' =>
    rw [hr] at h
    exact ⟨h.stops.ended, sameTable_of_adds h.stops.adds⟩

end Watched

/-- **Handles are accounted for, whatever calls the engine refuses.** -/
theorem accounting (c : Config) (w : Watched) (hw : w.memory.Reachable) :
    (∀ s : Source, w.Made (s.build c w)) ∧ (∀ h : Handle, w.Kept (Read.value c h w)) ∧
      ∀ (t : Target) (h : Handle), w.Kept (t.read c h w) :=
  ⟨fun s => Watched.made_of_builds (s.encodes_encode c c.maxDepth) hw.issued,
    fun h => Watched.kept_of_balanced (Read.balanced_valueAt c c.maxDepth h) hw.issued,
    fun t h => Watched.kept_of_balanced (Target.balanced_decode c t c.maxDepth h) hw.issued⟩

/-- A list of two whose third call is refused: the two items are released, and the table is empty again. -/
def thirdRefused : Watched where
  memory := { limit := 4 }
  refusal log _ := if log.length = 2 then some (.reported 7 "refused") else none

/-- Encoding a list on an engine that refuses its third call fails and leaves nothing behind. -/
theorem accounting_thirdRefused : thirdRefused.memory.Reachable ∧
    thirdRefused.Made ((Source.sequence [.absent, .scalar (.bool true)]).build {} thirdRefused) ∧
    ∃ e w, (Source.sequence [.absent, .scalar (.bool true)]).build {} thirdRefused = .error e w ∧ w.log.length = 5 :=
  ⟨.empty 4, (accounting {} thirdRefused (.empty 4)).1 _, _, _, rfl, rfl⟩

end ValueBridge
