import ValueBridge.Proofs.Convert.Building
import ValueBridge.Proofs.Convert.Requests
import ValueBridge.Query.Rows
/-!
# Binding parameters and running a statement

`Binds c w parameters bound w'` says that the parameters were encoded one after the other, and as what.  The first one
that cannot be encoded ends the execution before the statement is run (`Query.execute_of_unbound`); otherwise the
statement is run on what was bound, and fails (`Query.execute_of_refused`) or answers with rows
(`Query.execute_of_answered`).  The encoded parameters are released in every case.
-/
namespace ValueBridge

open Tabled ValueBridge.Convert

/-- The parameters are encoded in order, and the engine goes from the first state to the second. -/
inductive Binds (c : Config) : Watched → List (String × Source) → List (String × Handle) → Watched → Prop
  | nil (w : Watched) : Binds c w [] [] w
  | cons {w w₁ w' : Watched} {name : String} {s : Source} {h : Handle} {rest : List (String × Source)}
    {bound : List (String × Handle)} : s.build c w = .ok h w₁ → Binds c w₁ rest bound w' →
    Binds c w ((name, s) :: rest) ((name, h) :: bound) w'

variable {c : Config} {w w₁ w₂ w' : Watched} {s : Source} {h : Handle} {e : ConvertError}

/-! ## One parameter -/

/-- A parameter adds one handle to the table or nothing at all, and runs no statement in either case. -/
theorem Source.ends_build (c : Config) (s : Source) (hw : w.memory.Issued) :
    Ends (s.build c w) (fun h w' => (∃ v, Moves w [(h, v)] w') ∧ w.RanNothing w')
      (fun _ w' => Stops w [] w' ∧ w.RanNothing w') := by
  have hbuilds := s.encodes_encode (σ := Watched) c c.maxDepth w hw
  have hnothing := s.runsNothing_encode c c.maxDepth w
  unfold build
  cases hs : s.encode c c.maxDepth w with
  | ok h w' =>
    rw [hs] at hbuilds hnothing
    obtain ⟨v, -, hmove⟩ := hbuilds
    exact ⟨⟨v, hmove⟩, hnothing⟩
  | error e w' =>
    rw [hs] at hbuilds hnothing
    exact ⟨hbuilds.stops, hnothing⟩

theorem Source.of_build_ok (hw : w.memory.Issued) (hs : s.build c w = .ok h w') :
    (∃ v, Moves w [(h, v)] w') ∧ w.RanNothing w' := by
  have hends := s.ends_build c hw
  rwa [hs] at hends

theorem Source.of_build_error (hw : w.memory.Issued) (hs : s.build c w = .error e w') :
    Stops w [] w' ∧ w.RanNothing w' := by
  have hends := s.ends_build c hw
  rwa [hs] at hends

namespace Query

/-! ## All parameters -/

theorem bindAll_cons_ok {σ : Type} [Engine σ] {w w₁ : σ} {name : String} {rest : List (String × Source)}
    (hs : s.build c w = .ok h w₁) : bindAll c ((name, s) :: rest) w = match bindAll c rest w₁ with
      | .ok bound w₂ => .ok ((name, h) :: bound) w₂
      | .error e w₂ => .error e (Engine.destroyAll [h] w₂) := by
  rw [bindAll]
  simp only [bind, EStateM.bind, EStateM.adaptExcept, hs, orReleasing]
  cases bindAll c rest w₁ <;> rfl

theorem bindAll_cons_error {name : String} {rest : List (String × Source)} (hs : s.build c w = .error e w₁) :
    bindAll c ((name, s) :: rest) w = .error (.bind name e) w₁ := by
  rw [bindAll]
  simp only [bind, EStateM.bind, EStateM.adaptExcept, hs]

/-- Parameters that can all be encoded are bound, and their handles are the only ones that are new. -/
theorem bindAll_of_binds {parameters : List (String × Source)} {bound : List (String × Handle)}
    (hb : Binds c w parameters bound w') (hw : w.memory.Issued) :
    bindAll c parameters w = .ok bound w' ∧ ∃ es, es.map Prod.fst = bound.map Prod.snd ∧ Moves w es w' := by
  induction hb with
  | nil w => exact ⟨rfl, [], rfl, .refl hw⟩
  | @cons w w₁ w' name s h rest bound hs _ ih =>
    obtain ⟨⟨v, hmove⟩, -⟩ := Source.of_build_ok hw hs
    obtain ⟨hrest, es, hes, hmoves⟩ := ih hmove.issued_after
    refine ⟨by rw [bindAll_cons_ok hs, hrest], (h, v) :: es, by rw [List.map_cons, hes]; rfl, ?_⟩
    exact (hmove.trans hmoves).perm (List.perm_append_singleton _ _)

/-- The first parameter that cannot be encoded names the error, and what was bound before it is released. -/
theorem bindAll_of_unbound {before after : List (String × Source)} {name : String} {bound : List (String × Handle)}
    (hb : Binds c w before bound w₁) (hs : s.build c w₁ = .error e w₂) (hw : w.memory.Issued) :
    ∃ w', bindAll c (before ++ (name, s) :: after) w = .error (.bind name e) w' ∧ Stops w [] w' ∧ w.RanNothing w' := by
  induction hb with
  | nil w => exact ⟨w₂, bindAll_cons_error hs, Source.of_build_error hw hs⟩
  | @cons w w₁ w' first s' h rest bound hs' _ ih =>
    obtain ⟨⟨v, hmove⟩, hfirst⟩ := Source.of_build_ok hw hs'
    obtain ⟨w₃, hrest, hstops, hnothing⟩ := ih hs hmove.issued_after
    refine ⟨Engine.destroyAll [h] w₃, ?_, ?_, ?_⟩
    · rw [List.cons_append, bindAll_cons_ok hs', hrest]
    · exact (hmove.stops hstops).release_cons
    · exact (hfirst.trans hnothing).destroyAll [h]

/-- Either all parameters can be encoded, or there is a first one that cannot. -/
theorem binds_or_unbound (c : Config) : ∀ (parameters : List (String × Source)) (w : Watched),
    (∃ bound w', Binds c w parameters bound w') ∨ ∃ before name s after bound w₁ e w₂,
      parameters = before ++ (name, s) :: after ∧ Binds c w before bound w₁ ∧ s.build c w₁ = .error e w₂
  | [], w => .inl ⟨[], w, .nil w⟩
  | (name, s) :: rest, w => by
    cases hs : s.build c w with
    | error e w₂ => exact .inr ⟨[], name, s, rest, [], w, e, w₂, rfl, .nil w, hs⟩
    | ok h w₁ =>
      rcases binds_or_unbound c rest w₁ with ⟨bound, w', hb⟩ | ⟨before, name', s', after, bound, w₂, e, w₃, hrest, hb⟩
      · exact .inl ⟨(name, h) :: bound, w', .cons hs hb⟩
      · exact .inr ⟨(name, s) :: before, name', s', after, (name, h) :: bound, w₂, e, w₃, by rw [hrest]; rfl,
          .cons hs hb.1, hb.2⟩

/-! ## Execution -/

variable {statement : String} {parameters : List (String × Source)} {bound : List (String × Handle)}

/-- Once the parameters are bound, the statement is run, and they are released. -/
theorem execute_of_bound {σ : Type} [Engine σ] {s s₁ : σ} (hbind : bindAll c parameters s = .ok bound s₁) :
    execute c statement parameters s = match Engine.call (.execute statement bound) s₁ with
      | .ok result s₂ => .ok ⟨result.columns, result.rows⟩ (Engine.destroyAll (bound.map Prod.snd) s₂)
      | .error why s₂ => .error (.engine why) (Engine.destroyAll (bound.map Prod.snd) s₂) := by
  unfold execute
  simp only [bind, EStateM.bind, hbind, releasing, EStateM.adaptExcept]
  cases Engine.call (.execute statement bound) s₁ <;> rfl

theorem execute_of_unbound (statement : String) {before after : List (String × Source)} {name : String}
    (hb : Binds c w before bound w₁) (hs : s.build c w₁ = .error e w₂) (hw : w.memory.Issued) :
    ∃ w', execute c statement (before ++ (name, s) :: after) w = .error (.bind name e) w' ∧
      Stops w [] w' ∧ w.RanNothing w' := by
  have hunbound : ∃ w', bindAll c (before ++ (name, s) :: after) w = .error (.bind name e) w' ∧ Stops w [] w' ∧
      w.RanNothing w' := bindAll_of_unbound hb hs hw
  obtain ⟨w', hbind, hstops, hnothing⟩ := hunbound
  refine ⟨w', ?_, hstops, hnothing⟩
  unfold execute
  simp only [bind, EStateM.bind, hbind]

theorem execute_of_refused {why : Failure} (hb : Binds c w parameters bound w₁)
    (hr : Engine.call (.execute statement bound) w₁ = .error why w₂) (hw : w.memory.Issued) :
    ∃ w', execute c statement parameters w = .error (.engine why) w' ∧ Stops w [] w' := by
  obtain ⟨hbind, es, hes, hmoves⟩ := bindAll_of_binds hb hw
  refine ⟨Engine.destroyAll (bound.map Prod.snd) w₂, by rw [execute_of_bound hbind, hr], ?_⟩
  have hstops : Stops w (es ++ []) w₂ :=
    (hmoves.stops (Stops.call_error hmoves.issued_after hr)).perm (by rw [List.nil_append, List.append_nil])
  rw [← hes]
  exact hstops.release

theorem execute_of_answered {result : ResultSet} (hb : Binds c w parameters bound w₁)
    (hr : Engine.call (.execute statement bound) w₁ = .ok result w₂) (hw : w.memory.Issued) :
    ∃ w', execute c statement parameters w = .ok ⟨result.columns, result.rows⟩ w' ∧
      ∃ es, es.map Prod.fst = result.rows.flatten ∧ Moves w es w' := by
  obtain ⟨hbind, es, hes, hmoves⟩ := bindAll_of_binds hb hw
  obtain ⟨fs, hfs, hmoves'⟩ := Moves.call_ok hmoves.issued_after hr
  refine ⟨Engine.destroyAll (bound.map Prod.snd) w₂, by rw [execute_of_bound hbind, hr], fs, hfs, ?_⟩
  rw [← hes]
  exact ((hmoves.trans hmoves').perm List.perm_append_comm).release

end Query

end ValueBridge
