import ValueBridge.Proofs.Engine.Run
import ValueBridge.Proofs.Stored.Making
/-!
# Engines that hold well-formed values

An engine is `WellTyped` if every value is well formed that it holds behind a handle or has registered for a statement.
Whatever action it takes, it stays so as long as it is given well-formed values only (`WellTyped.after`), and so through
a whole run.  What is counted and named in such an engine then agrees with the types that are recorded
(`wellFormed_run`).
-/
namespace ValueBridge
namespace Memory

structure WellTyped (m : Memory) : Prop where
  live : ∀ e ∈ m.entries, e.2.WellFormed
  registered : ∀ f ∈ m.fixtures, ∀ row ∈ f.2.rows, ∀ v ∈ row, v.WellFormed

/-- What is found in a well-typed engine is well formed. -/
def Yielding (f : Memory → Except Failure Stored) : Prop := ∀ m v, WellTyped m → f m = .ok v → v.WellFormed

namespace WellTyped

variable {m : Memory} {h : Handle} {v : Stored}

theorem empty (limit : Nat) : WellTyped { limit := limit } where
  live := fun e he => by cases he
  registered := fun f hf => by cases hf

/-! ## Looking values up -/

theorem find? (hm : m.WellTyped) (hv : m.find? h = .ok v) : v.WellFormed := by
  unfold Memory.find? at hv
  split at hv
  · rename_i hlookup
    cases hv
    exact hm.live _ (mem_of_lookup hlookup)
  · cases hv

theorem collect {hs : List Handle} {vs : List Stored} (hm : m.WellTyped) (hvs : m.collect hs = .ok vs) :
    ∀ v ∈ vs, v.WellFormed := by
  intro v hv
  obtain ⟨k, -, hk⟩ := exists_of_mem_mapM hvs v hv
  exact hm.find? hk

theorem collectFields {fields : List (String × Handle)} {fs : List (String × Stored)} (hm : m.WellTyped)
    (hfs : m.collectFields fields = .ok fs) : ∀ f ∈ fs, f.2.WellFormed := by
  intro f hf
  obtain ⟨g, -, hg⟩ := exists_of_mem_mapM hfs f hf
  obtain ⟨v, hv, rfl⟩ := map_eq_ok.1 hg
  exact hm.find? hv

theorem createMap {keys values : List Handle} (hm : m.WellTyped) (hv : m.createMap keys values = .ok v) :
    v.WellFormed := by
  unfold Memory.createMap at hv
  split at hv
  · obtain ⟨ks, hks, hv⟩ := bind_eq_ok.1 hv
    obtain ⟨vs, hvs, hv⟩ := bind_eq_ok.1 hv
    exact .of_mapOf? hv (fun e he => hm.collect hks _ (List.of_mem_zip he).1)
      fun e he => hm.collect hvs _ (List.of_mem_zip he).2
  · cases hv

theorem bound (parameters : List (String × Handle)) (name : List Char) : Yielding (bound parameters name) := by
  intro m v hm hv
  unfold Memory.bound at hv
  split at hv
  · cases hv
  · exact hm.find? hv

/-! ## One step -/

theorem insert (hm : m.WellTyped) (hv : v.WellFormed) : (endState (Memory.insert v m)).WellTyped := by
  unfold Memory.insert
  split
  · exact hm
  · exact { hm with live := List.forall_mem_cons.2 ⟨hv, hm.live⟩ }

theorem insertFrom {f : Memory → Except Failure Stored} (hm : m.WellTyped) (hf : Yielding f) :
    (endState (Memory.insertFrom f m)).WellTyped := by
  unfold Memory.insertFrom
  cases hv : f m with
  | ok v => exact hm.insert (hf m v hm hv)
  | error e => exact hm

theorem destroy (hm : m.WellTyped) (h : Handle) : (m.destroy h).WellTyped := by
  unfold Memory.destroy
  split
  · exact { hm with live := fun e he => hm.live e (List.mem_filter.1 he).1 }
  · exact { hm with }

theorem destroyAll : ∀ (hs : List Handle) {m : Memory}, m.WellTyped → (m.destroyAll hs).WellTyped
  | [], _, hm => hm
  | h :: hs, _, hm => destroyAll hs (hm.destroy h)

theorem register (hm : m.WellTyped) (statement : String) (columns : List String) {rows : List (List Stored)}
    (hrows : ∀ row ∈ rows, ∀ v ∈ row, v.WellFormed) : (m.register statement columns rows).WellTyped where
  live := hm.live
  registered := List.forall_mem_cons.2 ⟨hrows, fun f hf => hm.registered f (List.mem_filter.1 hf).1⟩

/-! ## Statements -/

theorem insertAll : ∀ {fs : List (Memory → Except Failure Stored)} {m : Memory}, m.WellTyped →
    (∀ f ∈ fs, Yielding f) → (endState (Memory.insertAll fs m)).WellTyped
  | [], m, hm, _ => hm
  | f :: fs, m, hm, hfs => by
    obtain ⟨hf, hfs⟩ := List.forall_mem_cons.1 hfs
    have hhead := hm.insertFrom hf
    unfold Memory.insertAll
    cases hi : Memory.insertFrom f m with
    | error e m₁ =>
      rw [hi] at hhead
      exact hhead
    | ok h m₁ =>
      rw [hi] at hhead
      have htail : (endState (Memory.insertAll fs m₁)).WellTyped := insertAll hhead hfs
      dsimp only
      cases hr : Memory.insertAll fs m₁ with
      | ok hs m₂ =>
        rw [hr] at htail
        exact htail
      | error e m₂ =>
        rw [hr] at htail
        exact htail.destroy h

theorem insertRows : ∀ {rows : List (List Stored)} {m : Memory}, m.WellTyped →
    (∀ row ∈ rows, ∀ v ∈ row, v.WellFormed) → (endState (Memory.insertRows rows m)).WellTyped
  | [], m, hm, _ => hm
  | row :: rows, m, hm, hrows => by
    obtain ⟨hrow, hrows⟩ := List.forall_mem_cons.1 hrows
    have hhead : (endState (Memory.insertAll (row.map fun v _ => .ok v) m)).WellTyped := by
      refine hm.insertAll (List.forall_mem_map.2 fun v hv m' w _ hw => ?_)
      cases hw
      exact hrow v hv
    unfold Memory.insertRows
    cases hi : Memory.insertAll (row.map fun v _ => .ok v) m with
    | error e m₁ =>
      rw [hi] at hhead
      exact hhead
    | ok hs m₁ =>
      rw [hi] at hhead
      have htail : (endState (Memory.insertRows rows m₁)).WellTyped := insertRows hhead hrows
      dsimp only
      cases hr : Memory.insertRows rows m₁ with
      | ok rest m₂ =>
        rw [hr] at htail
        exact htail
      | error e m₂ =>
        rw [hr] at htail
        exact htail.destroyAll hs

theorem execute (hm : m.WellTyped) (statement : String) (parameters : List (String × Handle)) :
    (endState (Memory.execute statement parameters m)).WellTyped := by
  unfold Memory.execute
  cases echoNames? statement with
  | some names =>
    have hbound : ∀ f ∈ names.map (Memory.bound parameters), Yielding f :=
      List.forall_mem_map.2 fun name _ => bound parameters name
    have hrow := hm.insertAll hbound
    dsimp only [echo, bind, EStateM.bind]
    cases hr : Memory.insertAll (names.map (Memory.bound parameters)) m with
    | ok hs m₁ | error e m₁ =>
      rw [hr] at hrow
      exact hrow
  | none =>
    dsimp only
    cases hf : m.fixtures.lookup (trimmed statement) with
    | none => exact hm
    | some fixture =>
      have hrows := hm.insertRows (hm.registered _ (mem_of_lookup hf))
      dsimp only
      cases hr : Memory.insertRows fixture.rows m with
      | ok rows m₁ | error e m₁ =>
        rw [hr] at hrows
        exact hrows

/-! ## Runs -/

theorem inspect {α : Type} (hm : m.WellTyped) (f : Memory → Except Failure α) :
    (endState (Memory.inspect f m)).WellTyped := by
  unfold Memory.inspect
  cases f m <;> exact hm

/-- A request keeps an engine well typed, whether it is answered or fails. -/
theorem call (hm : m.WellTyped) (r : Request) : (endState (Memory.call r m)).WellTyped := by
  unfold Memory.call
  cases r with
  | isNull | type | payload | count | name => exact hm.inspect _
  | item i h index =>
    refine hm.insertFrom fun m' w hm' hw => ?_
    obtain ⟨v, hv, hw⟩ := bind_eq_ok.1 hw
    exact (hm'.find? hv).of_item? hw
  | role r h =>
    refine hm.insertFrom fun m' w hm' hw => ?_
    obtain ⟨v, hv, hw⟩ := bind_eq_ok.1 hw
    exact (hm'.find? hv).of_role? hw
  | createNull t => exact hm.insert (.null t)
  | createPayload p =>
    refine hm.insertFrom fun m' w _ hw => ?_
    obtain ⟨_, hp, rfl⟩ := map_eq_ok.1 hw
    exact .payload hp
  | createList hs =>
    refine hm.insertFrom fun m' w hm' hw => ?_
    obtain ⟨vs, hvs, hw⟩ := bind_eq_ok.1 hw
    exact .of_listOf? hw (hm'.collect hvs)
  | createStruct fields =>
    refine hm.insertFrom fun m' w hm' hw => ?_
    obtain ⟨fs, hfs, hw⟩ := bind_eq_ok.1 hw
    exact .of_structOf? hw (hm'.collectFields hfs)
  | createMap keys values => exact hm.insertFrom fun m' w hm' hw => hm'.createMap hw
  | execute statement parameters => exact hm.execute statement parameters

/-- **An action keeps an engine well typed** if the values that are given to it are well formed. -/
theorem after (hm : m.WellTyped) {a : Action} (hgiven : ∀ v ∈ a.given, v.WellFormed) : (a.after m).WellTyped := by
  cases a with
  | insert v =>
    rw [Action.after, Action.perform, endState_map]
    exact hm.insert (hgiven v List.mem_cons_self)
  | get h =>
    rw [Action.after, Action.perform, endState_map]
    exact hm.inspect _
  | register statement columns rows =>
    exact hm.register statement columns fun row hrow v hv => hgiven v (List.mem_flatten.2 ⟨row, hrow, hv⟩)
  | request r =>
    rw [Action.after, Action.perform, endState_map]
    exact hm.call r
  | destroy h => exact hm.destroy h

theorem run : ∀ {actions : List Action} {m : Memory}, m.WellTyped →
    (∀ a ∈ actions, ∀ v ∈ a.given, v.WellFormed) → (Memory.run actions m).WellTyped
  | [], _, hm, _ => hm
  | a :: actions, m, hm, hgiven => by
    obtain ⟨ha, hactions⟩ := List.forall_mem_cons.1 hgiven
    rw [Memory.run]
    exact run (hm.after ha) hactions

end WellTyped

/-! ## Types and counts -/

section Answers

variable {m : Memory} {h : Handle} {v : Stored}

theorem call_count_ok {c : Counted} {n : Nat} (hv : m.find? h = .ok v) (hn : v.count? c = .ok n) :
    call (.count c h) m = .ok n m := by
  unfold call
  exact inspect_ok.2 ⟨by rw [hv]; exact hn, rfl⟩

theorem call_name_ok {c : Named} {i : Nat} {name : String} (hv : m.find? h = .ok v) (hn : v.name? c i = .ok name) :
    call (.name c h i) m = .ok name m := by
  unfold call
  exact inspect_ok.2 ⟨by rw [hv]; exact hn, rfl⟩

theorem call_name_error {c : Named} {i : Nat} {e : Failure} (hv : m.find? h = .ok v) (he : v.name? c i = .error e) :
    call (.name c h i) m = .error e m := by
  unfold call
  exact inspect_error.2 ⟨by rw [hv]; exact he, rfl⟩

end Answers

/-- **Stored values stay well typed.**  In every run in which the values given to the engine are well formed, all values
behind live handles are.  So an array has as many elements as its type says, and a struct the fields that its type lists
under the same names. -/
theorem wellFormed_run (limit : Nat) (actions : List Action)
    (hgiven : ∀ a ∈ actions, ∀ v ∈ a.given, v.WellFormed) :
    let m := run actions { limit := limit }
    ∀ h v, get h m = .ok v m → v.WellFormed ∧ (v.isNull = false →
      (∀ n, v.type.arraySize? = some n → call (.count .list h) m = .ok n m) ∧
      ∀ fields, v.type = .struct fields → call (.count .struct h) m = .ok fields.length m ∧
        (∀ i f, fields[i]? = some f → call (.name .struct h i) m = .ok f.1 m) ∧
        ∀ i, fields.length ≤ i → call (.name .struct h i) m = .error (.outOfRange i fields.length) m) := by
  intro m h v hget
  have hm : m.WellTyped := (WellTyped.empty limit).run hgiven
  have hfind : m.find? h = .ok v := (inspect_ok.1 hget).1
  have hv : v.WellFormed := hm.find? hfind
  refine ⟨hv, fun hnull => ⟨fun n hn => call_count_ok hfind (hv.count?_list hnull hn), fun fields ht => ?_⟩⟩
  obtain ⟨hcount, hname⟩ := hv.count?_struct hnull ht
  refine ⟨call_count_ok hfind hcount, fun i f hf => call_name_ok hfind ?_, fun i hi => call_name_error hfind ?_⟩
  · rw [hname, Stored.at?, hf]
    rfl
  · rw [hname, Stored.at?, List.getElem?_eq_none hi]
    rfl

/-- An array of two flags, one of its elements, a struct of both, and a list of that struct and an untyped null. -/
def flagRun : List Action :=
  [.insert (.list (.array (.plain .bool) 2) [.payload (.bool true), .payload (.bool false)]),
    .request (.item .element ⟨1⟩ 1), .request (.createStruct [("off", ⟨2⟩), ("both", ⟨1⟩)]),
    .request (.createNull .any), .request (.createList [⟨4⟩, ⟨3⟩])]

/-- The struct has the fields of its type, and the list absorbs the null that comes first. -/
theorem wellFormed_run_flags :
    (∀ a ∈ flagRun, ∀ v ∈ a.given, v.WellFormed) ∧
    call (.count .list ⟨1⟩) (run flagRun {}) = .ok (2 : Nat) (run flagRun {}) ∧
    call (.name .struct ⟨3⟩ 1) (run flagRun {}) = .ok "both" (run flagRun {}) ∧
    ∃ v, get ⟨5⟩ (run flagRun {}) = .ok v (run flagRun {}) ∧ v.WellFormed := by
  have hgiven : ∀ a ∈ flagRun, ∀ v ∈ a.given, v.WellFormed := by
    refine List.forall_mem_cons.2 ⟨List.forall_mem_singleton.2 (.list (.inr rfl) ?_ ?_), ?_⟩
    · exact List.forall_mem_cons.2 ⟨rfl, List.forall_mem_singleton.2 rfl⟩
    · exact List.forall_mem_cons.2 ⟨.payload rfl, List.forall_mem_singleton.2 (.payload rfl)⟩
    · simp [Action.given]
  have hrun := wellFormed_run 1000000 flagRun hgiven
  refine ⟨hgiven, ?_, ?_, ?_⟩
  · exact ((hrun ⟨1⟩ _ rfl).2 rfl).1 2 rfl
  · exact (((hrun ⟨3⟩ _ rfl).2 rfl).2 _ rfl).2.1 1 _ rfl
  · exact ⟨_, rfl, (hrun ⟨5⟩ _ rfl).1⟩

end Memory
end ValueBridge
