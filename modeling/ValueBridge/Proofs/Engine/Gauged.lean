import ValueBridge.Proofs.Engine.Reachable
/-!
# An engine that counts its live handles

The engine in memory with a record of how many handles were live after every call and every release: what was seen at
every moment of a computation, and not only what its end leaves behind.  `Passes n g es g'` says that the table has
gained the entries `es` on the way from one state to another, and that no more than `n` handles were live meanwhile.
-/
namespace ValueBridge

/-- The engine in memory, with the number of live handles after every call and every release, the newest first. -/
structure Gauged where
  memory : Memory
  counts : List Nat := []

namespace Gauged

/-- The next state, with the handles counted that are live in it. -/
def moved (g : Gauged) (m : Memory) : Gauged := ⟨m, m.live :: g.counts⟩

def call (r : Request) : Call Gauged r.Reply := fun g =>
  match Memory.call r g.memory with
  | .ok a m => .ok a (g.moved m)
  | .error e m => .error e (g.moved m)

def destroy (h : Handle) (g : Gauged) : Gauged := g.moved (g.memory.destroy h)

instance : Engine Gauged := ⟨call, destroy⟩

/-- The table has gained the entries `es`, and never held more than `n` on the way. -/
structure Passes (n : Nat) (g : Gauged) (es : List (Handle × Stored)) (g' : Gauged) : Prop where
  adds : Memory.Adds g.memory es g'.memory
  counts_le : ∃ new, g'.counts = new ++ g.counts ∧ ∀ live ∈ new, live ≤ n

namespace Passes

variable {k n : Nat} {g g' g'' : Gauged} {es fs : List (Handle × Stored)}

theorem refl (n : Nat) (hg : g.memory.Issued) : Passes n g [] g := ⟨.refl hg, [], rfl, nofun⟩

theorem mono (h : Passes k g es g') (hn : k ≤ n) : Passes n g es g' := by
  obtain ⟨new, hnew, hle⟩ := h.counts_le
  exact ⟨h.adds, new, hnew, fun live hlive => Nat.le_trans (hle live hlive) hn⟩

theorem trans (h : Passes n g es g') (h' : Passes n g' fs g'') : Passes n g (fs ++ es) g'' := by
  obtain ⟨new, hnew, hle⟩ := h.counts_le
  obtain ⟨new', hnew', hle'⟩ := h'.counts_le
  refine ⟨h.adds.trans h'.adds, new' ++ new, by rw [hnew', hnew, List.append_assoc], fun live hlive => ?_⟩
  exact (List.mem_append.1 hlive).elim (hle' live) (hle live)

theorem moved {m : Memory} (hadds : Memory.Adds g.memory es m) (hn : m.live ≤ n) : Passes n g es (g.moved m) :=
  ⟨hadds, [m.live], rfl, fun live hlive => by rwa [List.mem_singleton.1 hlive]⟩

/-- Nothing is added by releasing a handle, so what was not exceeded before is not exceeded now. -/
theorem release {h : Handle} {v : Stored} (hpass : Passes n g ((h, v) :: es) g')
    (hn : g.memory.live + es.length ≤ n) : Passes n g es (Gauged.destroy h g') := by
  obtain ⟨new, hnew, hle⟩ := hpass.counts_le
  have hadds := hpass.adds.destroy
  refine ⟨hadds, (g'.memory.destroy h).live :: new, by rw [List.cons_append, ← hnew]; rfl, ?_⟩
  rw [List.forall_mem_cons]
  exact ⟨by rwa [hadds.live_eq], hle⟩

end Passes

end Gauged

end ValueBridge
