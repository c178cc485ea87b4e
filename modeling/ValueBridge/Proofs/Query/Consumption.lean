import ValueBridge.Proofs.Convert.Accounting
import ValueBridge.Proofs.Query.Execution
/-!
# Consuming the rows of a statement

A consumer holds the rows that are still to be taken and those that it has taken, until it drops them.  It pulls rows,
reads their cells and drops rows in any order (`Consumer.use`).  Every use keeps the cells of the rows that are not
dropped as the only handles that are new (`Consumer.owns_use`), and so does every sequence of uses
(`Consumer.owns_consume`); once everything is dropped, the table is the one before (`Consumer.Owns.done`).  So
statements are executed and consumed without a trace (`Query.execute_atomic`).
-/
namespace ValueBridge

open Tabled ValueBridge.Convert

/-! ## Reading cells keeps the table -/

section Cells

variable {σ ε ε' α β : Type} [Tabled σ]

theorem Balanced.adapt {p : EStateM ε σ α} (f : ε → ε') (hp : Balanced p) : Balanced (p.adaptExcept f) :=
  fun s hs => (hp s hs).adapt fun _ _ h => h

theorem Balanced.mapM {f : β → EStateM ε σ α} (hf : ∀ b, Balanced (f b)) : ∀ bs : List β, Balanced (bs.mapM f)
  | [] => .pure []
  | b :: bs => by
    rw [List.mapM_cons]
    exact (hf b).bind fun a => (mapM hf bs).bind fun as => .pure (a :: as)

namespace Row

variable (c : Config) (r : Row)

theorem balanced_cellBy {read : Handle → Convert σ α} (hr : ∀ h, Balanced (read h)) (index : Nat) :
    Balanced (r.cellBy read index) := by
  unfold cellBy
  cases r.cell? index with
  | ok h => exact (hr h).adapt _
  | error e => exact .throw e

theorem balanced_value (index : Nat) : Balanced (r.value c index : Query σ HostValue) :=
  r.balanced_cellBy (Read.balanced_valueAt c c.maxDepth) index

theorem balanced_get (t : Target) (index : Nat) : Balanced (r.get c t index : Query σ t.Value) :=
  r.balanced_cellBy (Target.balanced_decode c t c.maxDepth) index

theorem balanced_getByName (t : Target) (name : String) : Balanced (r.getByName c t name : Query σ t.Value) := by
  unfold getByName
  cases r.columns.findIdx? (· == name) with
  | some index => exact r.balanced_get c t index
  | none => exact .throw _

theorem balanced_toList : Balanced (r.toList c : Query σ (List HostValue)) := .mapM (r.balanced_value c) _

theorem balanced_toPairs : Balanced (r.toPairs c : Query σ (List (String × HostValue))) :=
  .mapM (fun index => (r.balanced_value c index).bind fun _ => .pure _) _

end Row
end Cells

/-! ## Consumers -/

/-- The rows of a result in the hands of a caller. -/
structure Consumer where
  /-- The rows that are still to be taken, unless they were dropped together. -/
  left : Option Rows
  /-- The rows that were taken, in order; a row that was dropped is gone. -/
  taken : List (Option Row)

/-- A way to look at a row. -/
inductive Access where
  | cell (index : Nat)
  | value (index : Nat)
  | get (t : Target) (index : Nat)
  | getByName (t : Target) (name : String)
  | toList
  | toPairs

/-- What a caller can do with a result.  Rows are counted in the order in which they were taken. -/
inductive Use where
  | pull
  | access (row : Nat) (a : Access)
  | dropRow (row : Nat)
  | dropRows

section Uses

variable {σ : Type} [Engine σ]

/-- The state after a computation, whether it ends well or not. -/
def stateAfter {ε α : Type} (p : EStateM ε σ α) (s : σ) : σ :=
  match p s with
  | .ok _ s' => s'
  | .error _ s' => s'

/-- The engine after a row was looked at.  A cell that is handed out as it is costs no call. -/
def Access.perform (c : Config) (a : Access) (r : Row) : σ → σ :=
  match a with
  | cell _ => id
  | value index => stateAfter (r.value c index)
  | get t index => stateAfter (r.get c t index)
  | getByName t name => stateAfter (r.getByName c t name)
  | toList => stateAfter (r.toList c)
  | toPairs => stateAfter (r.toPairs c)

namespace Consumer

/-- The consumer and the engine after a use.  What was dropped cannot be used any more. -/
def use (c : Config) : Use → Consumer × σ → Consumer × σ
  | .pull, (k, s) =>
    match k.left.bind Rows.next? with
    | some (row, rest) => (⟨some rest, k.taken ++ [some row]⟩, s)
    | none => (k, s)
  | .access row a, (k, s) =>
    match k.taken[row]? with
    | some (some r) => (k, a.perform c r s)
    | _ => (k, s)
  | .dropRow row, (k, s) =>
    match k.taken[row]? with
    | some (some r) => (⟨k.left, k.taken.set row none⟩, Engine.destroyAll r.cells s)
    | _ => (k, s)
  | .dropRows, (k, s) =>
    match k.left with
    | some rows => (⟨none, k.taken⟩, Engine.destroyAll rows.cells s)
    | none => (k, s)

def consume (c : Config) (uses : List Use) (k : Consumer × σ) : Consumer × σ := uses.foldl (fun k u => use c u k) k

/-- The cells of a row that was taken, unless it was dropped. -/
def cellsOf (row : Option Row) : List Handle := (row.map Row.cells).getD []

/-- The cells of all rows that are not dropped. -/
def cells (k : Consumer) : List Handle := k.taken.flatMap cellsOf ++ (k.left.map Rows.cells).getD []

/-- Everything was dropped. -/
def IsDone (k : Consumer) : Prop := k.left = none ∧ ∀ row ∈ k.taken, row = none

/-- What a consumer of `total` rows owns at any moment: one live handle for each cell of the rows that are not dropped,
and no others than those that the table `m` had. -/
structure Owns (m : Memory) (total : Nat) (k : Consumer × Memory) : Prop where
  table : ∃ es, es.map Prod.fst = k.1.cells ∧ Memory.Adds m es k.2
  counted : ∀ left, k.1.left = some left → k.1.taken.length + left.size = total

end Consumer
end Uses

/-! ## What a use keeps -/

/-- Handles that are released from the midst of those that were added; the others stay. -/
theorem Memory.Adds.destroyMidst {m m' : Memory} {es : List (Handle × Stored)} {before hs after : List Handle}
    (h : Memory.Adds m es m') (hes : es.map Prod.fst = before ++ (hs ++ after)) :
    ∃ fs, fs.map Prod.fst = before ++ after ∧ Memory.Adds m fs (m'.destroyAll hs) := by
  obtain ⟨bs, rest, rfl, rfl, hrest⟩ := List.map_eq_append_iff.1 hes
  obtain ⟨ds, as, rfl, rfl, rfl⟩ := List.map_eq_append_iff.1 hrest
  refine ⟨bs ++ as, List.map_append, Memory.Adds.destroyAll (h.perm ?_)⟩
  rw [← List.append_assoc, ← List.append_assoc]
  exact List.perm_append_comm.append_right as

section Kept

variable {σ : Type} [Tabled σ] {c : Config} {m : Memory} {total : Nat} {s : σ}

theorem Balanced.adds_stateAfter {ε α : Type} {p : EStateM ε σ α} (hp : Balanced p) (hs : Issued s) :
    Memory.Adds (memory s) [] (memory (stateAfter p s)) := by
  have hends := hp s hs
  unfold stateAfter
  cases hr : p s with
  | ok a s' =>
    rw [hr] at hends
    exact hends.adds
  | error e s' =>
    rw [hr] at hends
    exact hends.adds

/-- Looking at a row, in whatever way, leaves the table as it was. -/
theorem Access.adds_perform (a : Access) (r : Row) (hs : Issued s) :
    Memory.Adds (memory s) [] (memory (a.perform c r s)) := by
  cases a with
  | cell index => exact .refl hs
  | value index => exact (r.balanced_value c index).adds_stateAfter hs
  | get t index => exact (r.balanced_get c t index).adds_stateAfter hs
  | getByName t name => exact (r.balanced_getByName c t name).adds_stateAfter hs
  | toList => exact (r.balanced_toList c).adds_stateAfter hs
  | toPairs => exact (r.balanced_toPairs c).adds_stateAfter hs

namespace Consumer

variable {k : Consumer}

/-- A row that was taken has its cells among those of all rows; once it is dropped, the others are left. -/
theorem cells_taken {row : Nat} {r : Row} (hrow : k.taken[row]? = some (some r)) :
    ∃ before after, k.cells = before ++ (r.cells ++ after) ∧
      (Consumer.mk k.left (k.taken.set row none)).cells = before ++ after := by
  obtain ⟨hlt, hr⟩ := List.getElem?_eq_some_iff.1 hrow
  obtain ⟨before, after, htaken, -, hset⟩ := @List.exists_of_set _ _ none _ hlt
  refine ⟨before.flatMap cellsOf, after.flatMap cellsOf ++ (k.left.map Rows.cells).getD [], ?_, ?_⟩
  · rw [cells, htaken, hr, List.flatMap_append, List.flatMap_cons]
    simp only [cellsOf, Option.map_some, Option.getD_some, List.append_assoc]
  · rw [cells, hset, List.flatMap_append, List.flatMap_cons]
    simp only [cellsOf, Option.map_none, Option.getD_none, List.nil_append, List.append_assoc]

theorem cells_of_isDone (h : k.IsDone) : k.cells = [] := by
  rw [cells, h.1, List.append_eq_nil_iff, List.flatMap_eq_nil_iff]
  exact ⟨fun row hrow => by rw [h.2 row hrow]; rfl, rfl⟩

namespace Owns

variable (h : Owns m total (k, memory s))
include h

theorem pull {left rest : Rows} {row : Row} (hleft : k.left = some left) (hnext : left.next? = some (row, rest)) :
    Owns m total (⟨some rest, k.taken ++ [some row]⟩, memory s) := by
  obtain ⟨columns, rows⟩ := left
  cases rows with
  | nil => cases hnext
  | cons cells rows =>
    cases hnext
    have hcells : (Consumer.mk (some ⟨columns, rows⟩) (k.taken ++ [some ⟨columns, cells⟩])).cells = k.cells := by
      simp [Consumer.cells, hleft, cellsOf, Rows.cells]
    refine ⟨by rw [hcells]; exact h.table, fun left hl => ?_⟩
    cases hl
    have hcount := h.counted _ hleft
    simp only [Rows.size, List.length_cons, List.length_append, List.length_nil] at hcount ⊢
    omega

theorem access (a : Access) (r : Row) : Owns m total (k, memory (a.perform c r s)) := by
  obtain ⟨es, hes, hadds⟩ := h.table
  exact ⟨⟨es, hes, hadds.trans (a.adds_perform r hadds.issued_after)⟩, h.counted⟩

theorem dropRow {row : Nat} {r : Row} (hrow : k.taken[row]? = some (some r)) :
    Owns m total (⟨k.left, k.taken.set row none⟩, memory (Engine.destroyAll r.cells s)) := by
  obtain ⟨es, hes, hadds⟩ := h.table
  obtain ⟨before, after, hcells, hdropped⟩ := cells_taken hrow
  refine ⟨?_, fun left hl => ?_⟩
  · rw [memory_destroyAll, hdropped]
    exact hadds.destroyMidst (hes.trans hcells)
  · rw [List.length_set]
    exact h.counted left hl

theorem dropRows {rows : Rows} (hleft : k.left = some rows) :
    Owns m total (⟨none, k.taken⟩, memory (Engine.destroyAll rows.cells s)) := by
  obtain ⟨es, hes, hadds⟩ := h.table
  have hcells : k.cells = k.taken.flatMap cellsOf ++ (rows.cells ++ []) := by
    rw [cells, hleft, List.append_nil]
    rfl
  refine ⟨?_, fun left hl => by cases hl⟩
  rw [memory_destroyAll]
  exact hadds.destroyMidst (hes.trans hcells)

end Owns

/-- **Whatever is used, the consumer owns its rows and nothing else.** -/
theorem owns_use (u : Use) (h : Owns m total (k, memory s)) :
    Owns m total ((use c u (k, s)).1, memory (use c u (k, s)).2) := by
  -- What was not taken yet and what was dropped cannot be used, so each case has a second half that changes nothing.
  cases u with
  | pull =>
    rw [use]
    split
    · rename_i row rest hnext
      obtain ⟨left, hleft, hrest⟩ := Option.bind_eq_some_iff.1 hnext
      exact h.pull hleft hrest
    · exact h
  | access row a =>
    rw [use]
    split
    · exact h.access a _
    · exact h
  | dropRow row =>
    rw [use]
    split
    · rename_i r hrow
      exact h.dropRow hrow
    · exact h
  | dropRows =>
    rw [use]
    split
    · rename_i rows hleft
      exact h.dropRows hleft
    · exact h

/-- **So it does after any sequence of uses.** -/
theorem owns_consume : ∀ (uses : List Use) {k : Consumer} {s : σ}, Owns m total (k, memory s) →
    Owns m total ((consume c uses (k, s)).1, memory (consume c uses (k, s)).2)
  | [], _, _, h => h
  | u :: uses, _, _, h => owns_consume uses (owns_use u h)

theorem owns_start (rows : Rows) {es : List (Handle × Stored)} (hes : es.map Prod.fst = rows.cells)
    (hadds : Memory.Adds m es (memory s)) : Owns m rows.size (⟨some rows, []⟩, memory s) :=
  ⟨⟨es, hes, hadds⟩, fun left hl => by cases hl; exact Nat.zero_add _⟩

/-- When everything was dropped, nothing is new. -/
theorem Owns.done {m' : Memory} (h : Owns m total (k, m')) (hdone : k.IsDone) : Memory.Adds m [] m' := by
  obtain ⟨es, hes, hadds⟩ := h.table
  rw [cells_of_isDone hdone] at hes
  rwa [List.map_eq_nil_iff.1 hes] at hadds

end Consumer
end Kept

/-! ## Statements -/

namespace Query

open Consumer

/-- **A statement is bound, run and consumed without a trace**, whatever calls the engine refuses: a parameter that
cannot be encoded ends the execution before the statement is run, a statement that fails leaves the table as it was, and
the rows of one that is answered own their cells and nothing else, until all of them are dropped. -/
theorem execute_atomic (c : Config) (statement : String) (parameters : List (String × Source)) (w : Watched)
    (hw : w.memory.Reachable) :
    (∀ before name s after bound w₁ e w₂, parameters = before ++ (name, s) :: after → Binds c w before bound w₁ →
      s.build c w₁ = .error e w₂ →
      ∃ w', execute c statement parameters w = .error (.bind name e) w' ∧ w.RanNothing w' ∧ w.SameTable w') ∧
    (∀ bound w₁, Binds c w parameters bound w₁ →
      (∀ why w₂, Engine.call (.execute statement bound) w₁ = .error why w₂ →
        ∃ w', execute c statement parameters w = .error (.engine why) w' ∧ w.SameTable w') ∧
      ∀ result w₂, Engine.call (.execute statement bound) w₁ = .ok result w₂ →
        ∃ w', execute c statement parameters w = .ok ⟨result.columns, result.rows⟩ w' ∧
          ∀ uses k now, consume c uses (⟨some ⟨result.columns, result.rows⟩, []⟩, w') = (k, now) →
            Owns w.memory result.rows.length (k, now.memory) ∧
            now.memory.invalidDestroys = w.memory.invalidDestroys ∧ (k.IsDone → w.SameTable now)) ∧
    ((∃ bound w₁, Binds c w parameters bound w₁) ∨ ∃ before name s after bound w₁ e w₂,
      parameters = before ++ (name, s) :: after ∧ Binds c w before bound w₁ ∧ s.build c w₁ = .error e w₂) := by
  refine ⟨?unbound, fun bound w₁ hb => ⟨?refused, ?answered⟩, binds_or_unbound c parameters w⟩
  case unbound =>
    rintro before name s after bound w₁ e w₂ rfl hb hs
    obtain ⟨w', hexecute, hstops, hnothing⟩ := execute_of_unbound statement hb hs hw.issued
    exact ⟨w', hexecute, hnothing, Watched.sameTable_of_adds hstops.adds⟩
  case refused =>
    intro why w₂ hr
    obtain ⟨w', hexecute, hstops⟩ := execute_of_refused hb hr hw.issued
    exact ⟨w', hexecute, Watched.sameTable_of_adds hstops.adds⟩
  case answered =>
    intro result w₂ hr
    obtain ⟨w', hexecute, es, hes, hmoves⟩ := execute_of_answered hb hr hw.issued
    refine ⟨w', hexecute, fun uses k now hconsume => ?_⟩
    have hstart : Owns w.memory result.rows.length (⟨some ⟨result.columns, result.rows⟩, []⟩, w'.memory) :=
      owns_start ⟨result.columns, result.rows⟩ (s := w') hes hmoves.adds
    have howns : Owns w.memory result.rows.length (k, now.memory) := by
      have hall := owns_consume (c := c) uses (s := w') hstart
      rwa [hconsume] at hall
    refine ⟨howns, ?_, fun hdone => Watched.sameTable_of_adds (howns.done hdone)⟩
    obtain ⟨fs, -, hadds⟩ := howns.table
    exact hadds.invalidDestroys_eq

/-- A statement with three rows of different lengths, on an engine that refuses the payload of the first cell. -/
def raggedRows : Watched where
  memory :=
    Memory.register "ragged" ["a"] [[.payload (.bool true)], [.null .any, .payload (.bool false)], []] { limit := 8 }
  refusal log _ := if log.length = 5 then some (.reported 7 "refused") else none

/-- Two of the rows are taken and one of them is read in vain, then the rows are dropped in another order. -/
def outOfOrder : List Use := [.pull, .access 0 (.value 0), .pull, .dropRows, .dropRow 1, .dropRow 0]

/-- Rows of different lengths that are dropped out of order leave nothing behind. -/
theorem execute_atomic_outOfOrder : raggedRows.memory.Reachable ∧
    ∃ w', execute {} "ragged" [("x", .scalar (.bool true))] raggedRows =
        .ok ⟨["a"], [[⟨2⟩], [⟨3⟩, ⟨4⟩], []]⟩ w' ∧
      ∃ k now, consume {} outOfOrder (⟨some ⟨["a"], [[⟨2⟩], [⟨3⟩, ⟨4⟩], []]⟩, []⟩, w') = (k, now) ∧
        k.IsDone ∧ raggedRows.SameTable now := by
  have hreachable : raggedRows.memory.Reachable := .register "ragged" _ _ (.empty 8)
  obtain ⟨-, hruns, -⟩ := execute_atomic {} "ragged" [("x", .scalar (.bool true))] raggedRows hreachable
  obtain ⟨-, hanswered⟩ := hruns _ _ (.cons rfl (.nil _))
  obtain ⟨w', hexecute, hconsumed⟩ := hanswered ⟨["a"], [[⟨2⟩], [⟨3⟩, ⟨4⟩], []]⟩ _ rfl
  have hdone : IsDone ⟨none, [none, none]⟩ := ⟨rfl, by simp⟩
  obtain ⟨-, -, hsame⟩ := hconsumed outOfOrder ⟨none, [none, none]⟩ _ rfl
  exact ⟨hreachable, w', hexecute, _, _, rfl, hdone, hsame hdone⟩

end Query

end ValueBridge
