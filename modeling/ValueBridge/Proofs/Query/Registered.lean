import ValueBridge.Proofs.Engine.Ledger
import ValueBridge.Proofs.Query.Echo
/-!
# Registered statements answer with their rows

Which rows the engine has for a statement follows from the registrations before: the latest for the same text counts, up
to the blanks around it (`lookup_fixtures_run`).  A statement that is not written as an echo is answered with fresh
copies of these rows, and is unknown only if there never were any (`execute_registered`).

Echoes come first, and what stands between a `$` and the next comma is a name, whatever it holds.  So a statement can be
registered and yet be taken for an echo of a name that nobody would write.
-/
namespace ValueBridge

/-! ## Registrations -/

/-- The rows that the action registers for the statement. -/
def Action.registers? (statement : String) : Action → Option Fixture
  | register text columns rows => if trimmed text = trimmed statement then some ⟨columns, rows⟩ else none
  | _ => none

/-- The rows that the latest of the actions registers for the statement. -/
def Action.latest? (statement : String) (actions : List Action) : Option Fixture :=
  actions.reverse.findSome? (·.registers? statement)

namespace Memory

variable {m m' : Memory} {actions : List Action} {statement text : String}

theorem latest?_cons (a : Action) : Action.latest? statement (a :: actions) =
    (Action.latest? statement actions).or (a.registers? statement) := by
  rw [Action.latest?, List.reverse_cons, List.findSome?_append, List.findSome?_singleton]
  rfl

theorem lookup_fixtures_register (columns : List String) (rows : List (List Stored)) :
    (m.register text columns rows).fixtures.lookup (trimmed statement) =
      ((Action.register text columns rows).registers? statement).or (m.fixtures.lookup (trimmed statement)) := by
  rw [register, List.lookup_cons, Action.registers?, lookup_filter_ne]
  by_cases h : trimmed text = trimmed statement
  · simp [h]
  · simp [h, beq_eq_false_iff_ne.2 (Ne.symm h), Ne.symm h]

theorem adds_endState_map {ε α β : Type} {p : EStateM ε Memory α} {created : α → List Handle} (f : α → β)
    (h : Settles m created (p m)) : ∃ es, Adds m es (endState ((f <$> p) m)) := by
  rw [endState_map]
  cases hp : p m with
  | ok a m' =>
    rw [hp] at h
    obtain ⟨es, -, hes⟩ := h
    exact ⟨es, hes⟩
  | error e m' =>
    rw [hp] at h
    exact ⟨[], h⟩

/-- **After one action**, the engine has the rows that the action registers, and else those that it had before. -/
theorem lookup_fixtures_after (hm : m.Issued) (a : Action) : (a.after m).Issued ∧ ∀ statement,
    (a.after m).fixtures.lookup (trimmed statement) =
      (a.registers? statement).or (m.fixtures.lookup (trimmed statement)) := by
  -- Nothing but a registration or a destruction does more than add to the table.
  have hkept (hadds : ∃ es, Adds m es (a.after m)) (hnone : ∀ statement, a.registers? statement = none) :
      (a.after m).Issued ∧ ∀ statement, (a.after m).fixtures.lookup (trimmed statement) =
        (a.registers? statement).or (m.fixtures.lookup (trimmed statement)) := by
    obtain ⟨es, hadds⟩ := hadds
    exact ⟨hadds.issued_after, fun statement => by rw [hadds.fixtures_eq, hnone, Option.none_or]⟩
  cases a with
  | insert v => exact hkept (adds_endState_map _ (settles_insert v hm)) fun _ => rfl
  | get h => exact hkept (adds_endState_map _ (settles_inspect _ hm)) fun _ => rfl
  | request r => exact hkept (adds_endState_map _ (settles_call r hm)) fun _ => rfl
  | register text columns rows => exact ⟨hm, fun _ => lookup_fixtures_register columns rows⟩
  | destroy h =>
    have hfixtures : (m.destroy h).fixtures = m.fixtures := by
      unfold destroy
      split <;> rfl
    exact ⟨issued_destroy hm h, fun statement => congrArg (·.lookup (trimmed statement)) hfixtures⟩

/-- **After a run**, the engine has the rows of the latest registration, and else those that it had before. -/
theorem lookup_fixtures_run (statement : String) : ∀ {actions : List Action} {m : Memory}, m.Issued →
    (run actions m).fixtures.lookup (trimmed statement) =
      (Action.latest? statement actions).or (m.fixtures.lookup (trimmed statement))
  | [], _, _ => rfl
  | a :: actions, m, hm => by
    obtain ⟨hissued, hstep⟩ := lookup_fixtures_after hm a
    rw [run, lookup_fixtures_run statement hissued, hstep, latest?_cons, Option.or_assoc]

/-! ## Rows -/

/-- **Rows are copied**, each value under a new handle, if there is room for all of them. -/
theorem insertRows_of_room : ∀ {rows : List (List Stored)} {m : Memory}, m.Issued →
    m.live + (rows.map List.length).sum ≤ m.limit → ∃ (cells : List (List (Handle × Stored))) (m' : Memory),
      insertRows rows m = .ok (cells.map (·.map Prod.fst)) m' ∧ cells.map (·.map Prod.snd) = rows ∧
        Adds m cells.flatten m'
  | [], m, hm, _ => ⟨[], m, rfl, rfl, .refl hm⟩
  | row :: rows, m, hm, hroom => by
    rw [List.map_cons, List.sum_cons] at hroom
    have hfinds : List.Forall₂ (fun f v => Finds m f (.ok v)) (row.map fun v _ => .ok v) row := by
      rw [List.forall₂_map_left_iff, List.forall₂_same]
      exact fun v _ es m' _ => rfl
    obtain ⟨es, m₁, hes, hadds, hrow⟩ := insertAll_append [] hfinds hm (by rw [List.length_map]; omega)
    have hlength : es.length = row.length := by rw [← hes, List.length_map]
    have hroom₁ : m₁.live + (rows.map List.length).sum ≤ m₁.limit := by
      rw [hadds.live_eq, hadds.limit_eq]
      omega
    obtain ⟨cells, m₂, hrows, hcells, hadds'⟩ := insertRows_of_room hadds.issued_after hroom₁
    rw [List.append_nil] at hrow
    refine ⟨es :: cells, m₂, ?_, by rw [List.map_cons, hes, hcells], (hadds.trans hadds').perm List.perm_append_comm⟩
    simp only [insertRows, hrow, insertAll, pure, EStateM.pure, hrows, List.append_nil, List.map_cons]

/-! ## Execution -/

/-- **Registered statements answer with their rows.**  After any run, on an engine with room, a statement that is not
written as an echo has the columns and fresh copies of the rows that were registered for it last, whatever blanks stand
around either text; it is unknown if nothing was ever registered for it. -/
theorem execute_registered (limit : Nat) (actions : List Action) (hother : ¬IsEcho statement)
    (htext : trimmed text = trimmed statement) (parameters : List (String × Handle)) :
    let m := run actions { limit := limit }
    (∀ fixture, Action.latest? statement actions = some fixture →
      m.live + (fixture.rows.map List.length).sum ≤ limit → ∃ (cells : List (List (Handle × Stored))) (m' : Memory),
        execute text parameters m = .ok ⟨fixture.columns, cells.map (·.map Prod.fst)⟩ m' ∧
        cells.map (·.map Prod.snd) = fixture.rows ∧ Adds m cells.flatten m') ∧
    (Action.latest? statement actions = none → execute text parameters m = .error (.unknownStatement text) m) := by
  intro m
  have hledger : Ledger limit (history actions { limit := limit }) m :=
    (Ledger.empty limit).undergoes (undergoes_history actions _)
  have hlookup : m.fixtures.lookup (trimmed text) = Action.latest? statement actions := by
    rw [htext, lookup_fixtures_run statement fun e he => by cases he]
    exact Option.or_none
  have hnames : echoNames? text = none := (echoNames?_congr htext).trans (echoNames?_eq_none_iff.2 hother)
  refine ⟨fun fixture hfixture hroom => ?_, fun hnone => ?_⟩
  · rw [← hledger.limit_eq] at hroom
    obtain ⟨cells, m', hrows, hcells, hadds⟩ := insertRows_of_room hledger.issued hroom
    refine ⟨cells, m', ?_, hcells, hadds⟩
    simp only [execute, hnames, hlookup, hfixture, hrows]
  · simp only [execute, hnames, hlookup, hnone]

/-- A statement registered twice, executed, and one of the copies destroyed. -/
def registeredTwice : List Action :=
  [.register "rows" ["a"] [[.payload (.bool true)]],
    .register " rows " ["b", "c"] [[.payload (.bool false), .null .any], []], .request (.execute "rows" []),
    .destroy ⟨1⟩]

/-- The later rows are returned again; for another statement there are none. -/
theorem execute_registered_twice :
    (¬IsEcho "rows" ∧ trimmed "rows\n" = trimmed "rows" ∧ ∃ (cells : List (List (Handle × Stored))) (m' : Memory),
      execute "rows\n" [("a", ⟨2⟩)] (run registeredTwice { limit := 3 }) =
        .ok ⟨["b", "c"], cells.map (·.map Prod.fst)⟩ m' ∧
      cells.map (·.map Prod.snd) = [[.payload (.bool false), .null .any], []]) ∧
    ¬IsEcho "row" ∧ execute "row" [] (run registeredTwice { limit := 3 }) =
      .error (.unknownStatement "row") (run registeredTwice { limit := 3 }) := by
  have hrows : ¬IsEcho "rows" := echoNames?_eq_none_iff.1 rfl
  have hrow : ¬IsEcho "row" := echoNames?_eq_none_iff.1 rfl
  have htext : trimmed "rows\n" = trimmed "rows" := by decide
  obtain ⟨hregistered, -⟩ := execute_registered 3 registeredTwice hrows htext [("a", ⟨2⟩)]
  obtain ⟨-, hunknown⟩ := execute_registered 3 registeredTwice hrow rfl []
  obtain ⟨cells, m', hexecute, hcells, -⟩ := hregistered _ rfl (by decide)
  exact ⟨⟨hrows, htext, cells, m', hexecute, hcells⟩, hrow, hunknown rfl⟩

/-! ## Echoes of unlikely names -/

/-- A name of letters, digits and underscores. -/
def IsIdentifier (name : String) : Prop := ∀ c ∈ name.toList, c.isAlphanum ∨ c = '_'

theorem not_echoes_sum {names : List String} (hnames : ∀ name ∈ names, IsIdentifier name) :
    ¬Echoes "RETURN $a + 1" names := by
  rintro ⟨before, text, hbefore, hasks, hstatement⟩
  have hplus : '+' ∈ before ++ echoKeyword ++ text := hstatement ▸ (by decide : '+' ∈ "RETURN $a + 1".toList)
  simp only [List.mem_append] at hplus
  obtain (hplus | hplus) | hplus := hplus
  · exact absurd (hbefore '+' hplus) (by decide)
  · exact absurd hplus (by decide)
  · obtain hblank | hdollar | hcomma | ⟨name, hname, hplus⟩ := hasks.of_mem hplus
    · exact absurd hblank (by decide)
    · exact absurd hdollar (by decide)
    · exact absurd hcomma (by decide)
    · exact absurd (hnames name hname '+' hplus) (by decide)

/-- A sum is registered. -/
def registeredSum : List Action := [.register "RETURN $a + 1" ["v"] [[.payload (.bool true)]]]

/-- No echo of identifiers, the sum is registered and there is room for its row; but it is taken for an echo of a
parameter that is not bound. -/
theorem execute_registered_sum : (¬∃ names, (∀ name ∈ names, IsIdentifier name) ∧ Echoes "RETURN $a + 1" names) ∧
    Action.latest? "RETURN $a + 1" registeredSum = some ⟨["v"], [[.payload (.bool true)]]⟩ ∧
    (run registeredSum {}).live + 1 ≤ 1000000 ∧
    execute "RETURN $a + 1" [] (run registeredSum {}) = .error (.unboundParameter "$a + 1") (run registeredSum {}) :=
  ⟨fun ⟨_, hnames, hechoes⟩ => not_echoes_sum hnames hechoes, rfl, by decide, rfl⟩

end Memory
end ValueBridge
