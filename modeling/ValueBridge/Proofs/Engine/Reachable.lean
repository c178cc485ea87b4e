import ValueBridge.Proofs.Engine.Table
/-!
# What the engine's calls do to its table

A call that answers adds an entry for every handle that its answer hands out (`adds_of_call_ok`), and one that fails
leaves the table as it was (`adds_of_call_error`), also when it has created handles before it failed, as the execution
of a statement does.  Hence every engine that calls can lead to has issued all its live handles (`Reachable.issued`).
-/
namespace ValueBridge

/-- The handles that the answer to a request hands out. -/
def Request.created : (r : Request) → r.Reply → List Handle
  | .isNull _, _ | .type _, _ | .payload _, _ | .count _ _, _ | .name _ _ _, _ => []
  | .item _ _ _, h | .role _ _, h | .createNull _, h | .createPayload _, h | .createList _, h | .createStruct _, h
  | .createMap _ _, h => [h]
  | .execute _ _, rs => rs.rows.flatten

namespace Memory

variable {m m' : Memory}

/-! ## Calls that do not execute a statement -/

theorem inspect_ok {α : Type} {f : Memory → Except Failure α} {a : α} :
    inspect f m = .ok a m' ↔ f m = .ok a ∧ m' = m := by
  unfold inspect
  cases f m <;> simp [eq_comm]

theorem inspect_error {α : Type} {f : Memory → Except Failure α} {e : Failure} :
    inspect f m = .error e m' ↔ f m = .error e ∧ m' = m := by
  unfold inspect
  cases f m <;> simp [eq_comm]

theorem insert_error {v : Stored} {e : Failure} :
    insert v m = .error e m' ↔ m.limit ≤ m.live ∧ e = .tableFull m.live ∧ m' = m := by
  unfold insert
  split
  · rename_i hfull
    simp [hfull, eq_comm]
  · rename_i hroom
    simp [hroom]

theorem insertFrom_ok {f : Memory → Except Failure Stored} {h : Handle} :
    insertFrom f m = .ok h m' ↔ ∃ v, f m = .ok v ∧ insert v m = .ok h m' := by
  unfold insertFrom
  cases f m <;> simp

theorem insertFrom_error {f : Memory → Except Failure Stored} {e : Failure} :
    insertFrom f m = .error e m' ↔ (f m = .error e ∧ m' = m) ∨ ∃ v, f m = .ok v ∧ insert v m = .error e m' := by
  unfold insertFrom
  cases f m <;> simp [eq_comm]

theorem adds_of_insertFrom_ok {f : Memory → Except Failure Stored} {h : Handle} (hm : m.Issued)
    (hc : insertFrom f m = .ok h m') : ∃ v, f m = .ok v ∧ Adds m [(h, v)] m' := by
  obtain ⟨v, hv, hi⟩ := insertFrom_ok.1 hc
  exact ⟨v, hv, Adds.insert hm hi⟩

/-! ## Results -/

/-- What a result adds to the table before: the handles that it hands out, or nothing when it is a failure. -/
def Settles {ε α : Type} (m : Memory) (created : α → List Handle) : EStateM.Result ε Memory α → Prop
  | .ok a m' => ∃ es, es.map Prod.fst = created a ∧ Adds m es m'
  | .error _ m' => Adds m [] m'

theorem settles_inspect {α : Type} (f : Memory → Except Failure α) (hm : m.Issued) :
    Settles m (fun _ => []) (inspect f m) := by
  unfold inspect
  cases f m with
  | ok a => exact ⟨[], rfl, Adds.refl hm⟩
  | error e => exact Adds.refl hm

theorem settles_insert (v : Stored) (hm : m.Issued) : Settles m ([·]) (insert v m) := by
  cases h : insert v m with
  | ok k m' => exact ⟨[(k, v)], rfl, Adds.insert hm h⟩
  | error e m' =>
    obtain ⟨-, -, rfl⟩ := insert_error.1 h
    exact Adds.refl hm

theorem settles_insertFrom (f : Memory → Except Failure Stored) (hm : m.Issued) :
    Settles m ([·]) (insertFrom f m) := by
  unfold insertFrom
  cases f m with
  | ok v => exact settles_insert v hm
  | error e => exact Adds.refl hm

/-! ## Statements -/

/-- Handles for values: all of them, or none that stays. -/
theorem settles_insertAll : ∀ (fs : List (Memory → Except Failure Stored)) {m : Memory}, m.Issued →
    Settles m id (insertAll fs m)
  | [], m, hm => ⟨[], rfl, Adds.refl hm⟩
  | f :: fs, m, hm => by
    unfold insertAll
    have hhead := settles_insertFrom f hm
    cases hf : insertFrom f m with
    | error e m₁ =>
      rw [hf] at hhead
      exact hhead
    | ok k m₁ =>
      obtain ⟨v, -, hk⟩ := adds_of_insertFrom_ok hm hf
      have htail := settles_insertAll fs hk.issued_after
      dsimp only
      cases hr : insertAll fs m₁ with
      | ok ks m₂ =>
        rw [hr] at htail
        obtain ⟨es, hes, hadd⟩ := htail
        exact ⟨(k, v) :: es, congrArg (k :: ·) hes, (hk.trans hadd).perm (List.perm_append_singleton _ _)⟩
      | error e m₂ =>
        rw [hr] at htail
        exact (hk.trans htail).destroy

/-- Handles for rows: all of them, or none that stays. -/
theorem settles_insertRows : ∀ (rows : List (List Stored)) {m : Memory}, m.Issued →
    Settles m List.flatten (insertRows rows m)
  | [], m, hm => ⟨[], rfl, Adds.refl hm⟩
  | row :: rows, m, hm => by
    unfold insertRows
    have hhead := settles_insertAll (row.map fun v _ => .ok v) hm
    cases hf : insertAll (row.map fun v _ => .ok v) m with
    | error e m₁ =>
      rw [hf] at hhead
      exact hhead
    | ok ks m₁ =>
      rw [hf] at hhead
      obtain ⟨es, rfl, hes⟩ := hhead
      have htail := settles_insertRows rows hes.issued_after
      dsimp only
      cases hr : insertRows rows m₁ with
      | ok kss m₂ =>
        rw [hr] at htail
        obtain ⟨fs, hfs, hadd⟩ := htail
        exact ⟨es ++ fs, by rw [List.map_append, hfs]; rfl, (hes.trans hadd).perm List.perm_append_comm⟩
      | error e m₂ =>
        rw [hr] at htail
        have hadd : Adds m (es ++ []) m₂ := by simpa using hes.trans htail
        exact hadd.destroyAll

theorem settles_echo (names : List (List Char)) (ps : List (String × Handle)) (hm : m.Issued) :
    Settles m (·.rows.flatten) (echo names ps m) := by
  have hrow := settles_insertAll (names.map (bound ps)) hm
  unfold echo
  simp only [bind, EStateM.bind]
  cases hr : insertAll (names.map (bound ps)) m with
  | error e m₁ =>
    rw [hr] at hrow
    exact hrow
  | ok ks m₁ =>
    rw [hr] at hrow
    obtain ⟨es, hes, hadd⟩ := hrow
    exact ⟨es, by rw [hes]; simp, hadd⟩

theorem settles_execute (statement : String) (ps : List (String × Handle)) (hm : m.Issued) :
    Settles m (·.rows.flatten) (execute statement ps m) := by
  unfold execute
  cases echoNames? statement with
  | some names => exact settles_echo names ps hm
  | none =>
    dsimp only
    cases m.fixtures.lookup (trimmed statement) with
    | none => exact Adds.refl hm
    | some fixture =>
      have hrows := settles_insertRows fixture.rows hm
      dsimp only
      cases hr : insertRows fixture.rows m with
      | ok kss m₁ =>
        rw [hr] at hrows
        exact hrows
      | error e m₁ =>
        rw [hr] at hrows
        exact hrows

/-! ## All calls -/

/-- **A call adds exactly the handles of its answer, and nothing if it fails.** -/
theorem settles_call (r : Request) (hm : m.Issued) : Settles m r.created (call r m) := by
  cases r with
  | isNull | type | payload | count | name =>
    unfold call
    exact settles_inspect _ hm
  | createNull t => exact settles_insert _ hm
  | item | role | createPayload | createList | createStruct | createMap =>
    unfold call
    exact settles_insertFrom _ hm
  | execute statement ps => exact settles_execute statement ps hm

theorem adds_of_call_ok {r : Request} {a : r.Reply} (hm : m.Issued) (h : call r m = .ok a m') :
    ∃ es, es.map Prod.fst = r.created a ∧ Adds m es m' := by
  have hs := settles_call r hm
  rw [h] at hs
  exact hs

theorem adds_of_call_error {r : Request} {e : Failure} (hm : m.Issued) (h : call r m = .error e m') : Adds m [] m' := by
  have hs := settles_call r hm
  rw [h] at hs
  exact hs

/-! ## Reachable engines -/

/-- The engines that calls lead to, in any order, from an empty one with any limit. -/
inductive Reachable : Memory → Prop
  | empty (limit : Nat) : Reachable { limit := limit }
  | insert {m m' : Memory} {v : Stored} {h : Handle} : Reachable m → insert v m = .ok h m' → Reachable m'
  | register {m : Memory} (statement : String) (columns : List String) (rows : List (List Stored)) :
    Reachable m → Reachable (m.register statement columns rows)
  | answered {m m' : Memory} {r : Request} {a : r.Reply} : Reachable m → call r m = .ok a m' → Reachable m'
  | failed {m m' : Memory} {r : Request} {e : Failure} : Reachable m → call r m = .error e m' → Reachable m'
  | destroy {m : Memory} (h : Handle) : Reachable m → Reachable (m.destroy h)

theorem issued_destroy (hm : m.Issued) (h : Handle) : (m.destroy h).Issued := by
  unfold destroy
  split
  · intro e he
    exact hm e (List.mem_filter.1 he).1
  · exact hm

theorem Reachable.issued (hm : m.Reachable) : m.Issued := by
  induction hm with
  | empty => exact fun e he => by cases he
  | insert _ h ih => exact (Adds.insert ih h).issued_after
  | register _ _ _ _ ih => exact ih
  | answered _ h ih =>
    obtain ⟨es, -, hes⟩ := adds_of_call_ok ih h
    exact hes.issued_after
  | failed _ h ih => exact (adds_of_call_error ih h).issued_after
  | destroy h _ ih => exact issued_destroy ih h

end Memory
end ValueBridge
