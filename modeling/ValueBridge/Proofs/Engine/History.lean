import ValueBridge.Proofs.Engine.Run
/-!
# The history of the handle table

Every action changes the table of live handles in elementary steps: a value is taken in under a new handle, a live
handle is destroyed, or a handle is destroyed that is not live.  `Memory.history` lists the steps of a run, those inside
a failing execution included, and `Undergoes` says that they are what has become of the engine (`undergoes_history`).
The handles of an answer are those that were issued for it (`issuedHandles_changes`).
-/
namespace ValueBridge

/-! ## Elementary changes -/

/-- A step in the life of a handle. -/
inductive Change where
  | issued (h : Handle) (v : Stored)
  | released (h : Handle)
  /-- A handle was destroyed that is not live. -/
  | missed (h : Handle)

namespace Change

def issued? : Change → Option Handle
  | issued h _ => some h
  | _ => none

def isReleased : Change → Bool
  | released _ => true
  | _ => false

def isMissed : Change → Bool
  | missed _ => true
  | _ => false

end Change

/-- The handles that were issued, in order. -/
def issuedHandles (log : List Change) : List Handle := log.filterMap Change.issued?

namespace Memory

/-- What destroying a handle does. -/
def destruction (h : Handle) (m : Memory) : Change :=
  if (m.entries.lookup h).isSome then .released h else .missed h

/-- The engine becomes another by elementary changes of its table.  Registering rows changes nothing in the table. -/
inductive Undergoes : Memory → List Change → Memory → Prop
  | refl (m : Memory) : Undergoes m [] m
  | issued {m m₁ m' : Memory} {h : Handle} {v : Stored} {cs : List Change} : insert v m = .ok h m₁ →
    Undergoes m₁ cs m' → Undergoes m (.issued h v :: cs) m'
  | destroyed {m m' : Memory} {h : Handle} {cs : List Change} : Undergoes (m.destroy h) cs m' →
    Undergoes m (m.destruction h :: cs) m'
  | registered {m m' : Memory} {cs : List Change} (statement : String) (columns : List String)
    (rows : List (List Stored)) : Undergoes (m.register statement columns rows) cs m' → Undergoes m cs m'

/-! ## The changes of a run -/

/-- The change by which a handle was issued just before. -/
def issuance (h : Handle) (m : Memory) : List Change := ((m.entries.lookup h).map (.issued h)).toList

/-- The changes by which an answer has been handed out. -/
def handedOut : EStateM.Result Failure Memory (List Handle) → List Change
  | .ok hs m => hs.flatMap (issuance · m)
  | .error _ _ => []

def insertAllChanges : List (Memory → Except Failure Stored) → Memory → List Change
  | [], _ => []
  | f :: fs, m =>
    match insertFrom f m with
    | .error _ _ => []
    | .ok h m₁ => issuance h m₁ ++ insertAllChanges fs m₁ ++
      match insertAll fs m₁ with
      | .ok _ _ => []
      | .error _ m₂ => [m₂.destruction h]

def destroyAllChanges : List Handle → Memory → List Change
  | [], _ => []
  | h :: hs, m => m.destruction h :: destroyAllChanges hs (m.destroy h)

def insertRowsChanges : List (List Stored) → Memory → List Change
  | [], _ => []
  | row :: rows, m =>
    insertAllChanges (row.map fun v _ => .ok v) m ++
      match insertAll (row.map fun v _ => .ok v) m with
      | .error _ _ => []
      | .ok hs m₁ => insertRowsChanges rows m₁ ++
        match insertRows rows m₁ with
        | .ok _ _ => []
        | .error _ m₂ => destroyAllChanges hs m₂

def executeChanges (statement : String) (parameters : List (String × Handle)) (m : Memory) : List Change :=
  match echoNames? statement with
  | some names => insertAllChanges (names.map (bound parameters)) m
  | none =>
    match m.fixtures.lookup (trimmed statement) with
    | none => []
    | some fixture => insertRowsChanges fixture.rows m

end Memory

/-- The changes that an action makes, in order. -/
def Action.changes (a : Action) (m : Memory) : List Change :=
  match a with
  | destroy h => [m.destruction h]
  | request (.execute statement parameters) => Memory.executeChanges statement parameters m
  | a => Memory.handedOut (a.perform m)

namespace Memory

/-- The changes of a run. -/
def history : List Action → Memory → List Change
  | [], _ => []
  | a :: actions, m => a.changes m ++ history actions (a.after m)

/-! ## The history is what happened -/

namespace Undergoes

variable {m m' m'' : Memory} {cs ds : List Change} {h : Handle} {v : Stored}

theorem trans (hcs : Undergoes m cs m') (hds : Undergoes m' ds m'') : Undergoes m (cs ++ ds) m'' := by
  induction hcs with
  | refl _ => exact hds
  | issued hi _ ih => exact .issued hi (ih hds)
  | destroyed _ ih => exact .destroyed (ih hds)
  | registered s cols rows _ ih => exact .registered s cols rows (ih hds)

theorem destroy (h : Handle) (hcs : Undergoes m cs m') : Undergoes m (cs ++ [m'.destruction h]) (m'.destroy h) :=
  hcs.trans (.destroyed (.refl _))

/-- What was undergone up to some moment led to an engine at that moment. -/
theorem split : ∀ {cs : List Change} {m : Memory}, Undergoes m (cs ++ ds) m' →
    ∃ m₁, Undergoes m cs m₁ ∧ Undergoes m₁ ds m' := by
  intro cs m hall
  generalize hlog : cs ++ ds = log at hall
  induction hall generalizing cs with
  | refl m =>
    obtain ⟨rfl, rfl⟩ := List.append_eq_nil_iff.1 hlog
    exact ⟨m, .refl m, .refl m⟩
  | @issued m m₁ m' h v log hi hrest ih =>
    cases cs with
    | nil =>
      rw [List.nil_append] at hlog
      rw [hlog]
      exact ⟨m, .refl m, .issued hi hrest⟩
    | cons c cs =>
      rw [List.cons_append, List.cons.injEq] at hlog
      obtain ⟨m₂, hcs, hds⟩ := ih hlog.2
      rw [hlog.1]
      exact ⟨m₂, .issued hi hcs, hds⟩
  | @destroyed m m' h log hrest ih =>
    cases cs with
    | nil =>
      rw [List.nil_append] at hlog
      rw [hlog]
      exact ⟨m, .refl m, .destroyed hrest⟩
    | cons c cs =>
      rw [List.cons_append, List.cons.injEq] at hlog
      obtain ⟨m₂, hcs, hds⟩ := ih hlog.2
      rw [hlog.1]
      exact ⟨m₂, .destroyed hcs, hds⟩
  | registered s cols rows _ ih =>
    obtain ⟨m₂, hcs, hds⟩ := ih hlog
    exact ⟨m₂, .registered s cols rows hcs, hds⟩

theorem insert (hi : Memory.insert v m = .ok h m') : Undergoes m (issuance h m') m' := by
  have hlookup : m'.entries.lookup h = some v := by
    unfold Memory.insert at hi
    split at hi
    · cases hi
    · cases hi
      exact List.lookup_cons_self
  rw [issuance, hlookup]
  exact .issued hi (.refl _)

theorem insertFrom {f : Memory → Except Failure Stored} (hi : Memory.insertFrom f m = .ok h m') :
    Undergoes m (issuance h m') m' := by
  obtain ⟨v, -, hv⟩ := insertFrom_ok.1 hi
  exact insert hv

theorem destroyAll : ∀ (hs : List Handle) (m : Memory), Undergoes m (destroyAllChanges hs m) (m.destroyAll hs)
  | [], m => .refl m
  | h :: hs, m => .destroyed (destroyAll hs (m.destroy h))

end Undergoes

theorem insertFrom_error_eq {m m' : Memory} {f : Memory → Except Failure Stored} {e : Failure}
    (h : insertFrom f m = .error e m') : m' = m := by
  rcases insertFrom_error.1 h with ⟨-, rfl⟩ | ⟨v, -, hv⟩
  · rfl
  · exact (insert_error.1 hv).2.2

theorem undergoes_insertAll : ∀ (fs : List (Memory → Except Failure Stored)) (m : Memory),
    Undergoes m (insertAllChanges fs m) (endState (insertAll fs m))
  | [], m => .refl m
  | f :: fs, m => by
    rw [insertAllChanges, insertAll]
    dsimp only
    cases hf : insertFrom f m with
    | error e m₁ =>
      rw [insertFrom_error_eq hf]
      exact .refl m
    | ok h m₁ =>
      have hhead := Undergoes.insertFrom hf
      have htail := undergoes_insertAll fs m₁
      dsimp only
      cases hr : insertAll fs m₁ with
      | ok hs m₂ =>
        rw [hr] at htail
        rw [List.append_nil]
        exact hhead.trans htail
      | error e m₂ =>
        rw [hr] at htail
        exact (hhead.trans htail).destroy h

theorem undergoes_insertRows : ∀ (rows : List (List Stored)) (m : Memory),
    Undergoes m (insertRowsChanges rows m) (endState (insertRows rows m))
  | [], m => .refl m
  | row :: rows, m => by
    rw [insertRowsChanges, insertRows]
    dsimp only
    have hhead := undergoes_insertAll (row.map fun v _ => .ok v) m
    cases hf : insertAll (row.map fun v _ => .ok v) m with
    | error e m₁ =>
      rw [hf] at hhead
      rw [List.append_nil]
      exact hhead
    | ok hs m₁ =>
      rw [hf] at hhead
      have htail := undergoes_insertRows rows m₁
      dsimp only
      cases hr : insertRows rows m₁ with
      | ok rest m₂ =>
        rw [hr] at htail
        rw [List.append_nil]
        exact hhead.trans htail
      | error e m₂ =>
        rw [hr] at htail
        exact hhead.trans (htail.trans (Undergoes.destroyAll hs m₂))

theorem undergoes_execute (statement : String) (parameters : List (String × Handle)) (m : Memory) :
    Undergoes m (executeChanges statement parameters m) (endState (execute statement parameters m)) := by
  unfold executeChanges execute
  cases echoNames? statement with
  | some names =>
    have hrow := undergoes_insertAll (names.map (bound parameters)) m
    dsimp only
    unfold echo
    simp only [bind, EStateM.bind]
    cases hr : insertAll (names.map (bound parameters)) m with
    | ok hs m₁ | error e m₁ =>
      rw [hr] at hrow
      exact hrow
  | none =>
    dsimp only
    cases m.fixtures.lookup (trimmed statement) with
    | none => exact .refl m
    | some fixture =>
      have hrows := undergoes_insertRows fixture.rows m
      dsimp only
      cases hr : insertRows fixture.rows m with
      | ok rows m₁ | error e m₁ =>
        rw [hr] at hrows
        exact hrows

theorem undergoes_inspect {α : Type} (f : Memory → Except Failure α) {created : α → List Handle}
    (hc : ∀ a, created a = []) (m : Memory) :
    Undergoes m (handedOut ((created <$> inspect f) m)) (endState ((created <$> inspect f) m)) := by
  simp only [Functor.map, EStateM.map, inspect]
  cases f m with
  | ok a =>
    rw [handedOut, hc a]
    exact .refl m
  | error e => exact .refl m

theorem undergoes_insertFrom (f : Memory → Except Failure Stored) (m : Memory) :
    Undergoes m (handedOut (((fun h => [h]) <$> insertFrom f : Call Memory (List Handle)) m))
      (endState (((fun h => [h]) <$> insertFrom f : Call Memory (List Handle)) m)) := by
  simp only [Functor.map, EStateM.map]
  cases hf : insertFrom f m with
  | ok h m₁ =>
    rw [handedOut, List.flatMap_singleton]
    exact .insertFrom hf
  | error e m₁ =>
    rw [insertFrom_error_eq hf]
    exact .refl m

theorem undergoes_changes (a : Action) (m : Memory) : Undergoes m (a.changes m) (a.after m) := by
  cases a with
  | destroy h => exact .destroyed (.refl _)
  | register statement columns rows => exact .registered statement columns rows (.refl _)
  | get h => exact undergoes_inspect _ (fun _ => rfl) m
  | insert v => exact undergoes_insertFrom (fun _ => .ok v) m
  | request r =>
    cases r with
    | isNull | type | payload | count | name => exact undergoes_inspect _ (fun _ => rfl) m
    | createNull t => exact undergoes_insertFrom (fun _ => .ok (.null t)) m
    | item | role | createPayload | createList | createStruct | createMap => exact undergoes_insertFrom _ m
    | execute statement parameters =>
      have hexecute := undergoes_execute statement parameters m
      unfold Action.after Action.perform
      simp only [Functor.map, EStateM.map, call]
      cases hr : execute statement parameters m with
      | ok rows m₁ | error e m₁ =>
        rw [hr] at hexecute
        exact hexecute

/-- **The history of a run is what the engine has undergone.** -/
theorem undergoes_history : ∀ (actions : List Action) (m : Memory), Undergoes m (history actions m) (run actions m)
  | [], m => .refl m
  | a :: actions, m => (undergoes_changes a m).trans (undergoes_history actions (a.after m))

/-! ## Answers -/

theorem issuedHandles_append (log cs : List Change) :
    issuedHandles (log ++ cs) = issuedHandles log ++ issuedHandles cs := List.filterMap_append

theorem issuedHandles_issuance {v : Stored} {h : Handle} {m m' : Memory} (hi : insert v m = .ok h m') :
    issuedHandles (issuance h m') = [h] := by
  unfold insert at hi
  split at hi
  · cases hi
  · cases hi
    simp [issuance, issuedHandles, Change.issued?]

theorem issuedHandles_insertAll : ∀ {fs : List (Memory → Except Failure Stored)} {m m' : Memory} {hs : List Handle},
    insertAll fs m = .ok hs m' → issuedHandles (insertAllChanges fs m) = hs
  | [], _, _, _, hr => by
    cases hr
    rfl
  | f :: fs, m, m', hs, hr => by
    rw [insertAll] at hr
    rw [insertAllChanges]
    dsimp only at hr ⊢
    cases hf : insertFrom f m with
    | error e m₁ =>
      rw [hf] at hr
      cases hr
    | ok h m₁ =>
      rw [hf] at hr
      obtain ⟨v, -, hv⟩ := insertFrom_ok.1 hf
      dsimp only at hr ⊢
      cases hrest : insertAll fs m₁ with
      | error e m₂ =>
        rw [hrest] at hr
        cases hr
      | ok hs m₂ =>
        rw [hrest] at hr
        cases hr
        rw [List.append_nil, issuedHandles_append, issuedHandles_issuance hv, issuedHandles_insertAll hrest]
        rfl

theorem issuedHandles_insertRows : ∀ {rows : List (List Stored)} {m m' : Memory} {hss : List (List Handle)},
    insertRows rows m = .ok hss m' → issuedHandles (insertRowsChanges rows m) = hss.flatten
  | [], _, _, _, hr => by
    cases hr
    rfl
  | row :: rows, m, m', hss, hr => by
    rw [insertRows] at hr
    rw [insertRowsChanges]
    dsimp only at hr ⊢
    cases hf : insertAll (row.map fun v _ => .ok v) m with
    | error e m₁ =>
      rw [hf] at hr
      cases hr
    | ok hs m₁ =>
      rw [hf] at hr
      dsimp only at hr ⊢
      cases hrest : insertRows rows m₁ with
      | error e m₂ =>
        rw [hrest] at hr
        cases hr
      | ok rest m₂ =>
        rw [hrest] at hr
        cases hr
        rw [List.append_nil, issuedHandles_append, issuedHandles_insertAll hf, issuedHandles_insertRows hrest]
        rfl

theorem issuedHandles_execute {statement : String} {parameters : List (String × Handle)} {m m' : Memory}
    {rs : ResultSet} (hr : execute statement parameters m = .ok rs m') :
    issuedHandles (executeChanges statement parameters m) = rs.rows.flatten := by
  unfold execute at hr
  unfold executeChanges
  cases hnames : echoNames? statement with
  | some names =>
    rw [hnames] at hr
    dsimp only at hr ⊢
    unfold echo at hr
    simp only [bind, EStateM.bind] at hr
    split at hr
    · rename_i hs m₁ hrow
      cases hr
      rw [issuedHandles_insertAll hrow]
      simp
    · cases hr
  | none =>
    rw [hnames] at hr
    dsimp only at hr ⊢
    cases hlookup : m.fixtures.lookup (trimmed statement) with
    | none =>
      rw [hlookup] at hr
      cases hr
    | some fixture =>
      rw [hlookup] at hr
      dsimp only at hr ⊢
      split at hr
      · rename_i rows m₁ hrows
        cases hr
        exact issuedHandles_insertRows hrows
      · cases hr

theorem issuedHandles_insertFrom {f : Memory → Except Failure Stored} {m m' : Memory} {hs : List Handle}
    (hr : ((fun h => [h]) <$> insertFrom f : Call Memory (List Handle)) m = .ok hs m') :
    issuedHandles (handedOut (.ok hs m')) = hs := by
  obtain ⟨h, hf, rfl⟩ := map_ok.1 hr
  obtain ⟨v, -, hv⟩ := insertFrom_ok.1 hf
  rw [handedOut, List.flatMap_singleton, issuedHandles_issuance hv]

theorem eq_nil_of_inspect {α : Type} {f : Memory → Except Failure α} {created : α → List Handle}
    (hc : ∀ a, created a = []) {m m' : Memory} {hs : List Handle} (hr : (created <$> inspect f) m = .ok hs m') :
    hs = [] := by
  obtain ⟨a, -, rfl⟩ := map_ok.1 hr
  exact hc a

/-- **An answer hands out the handles that were issued for it**, in their order. -/
theorem issuedHandles_changes {a : Action} {m m' : Memory} {hs : List Handle} (hr : a.perform m = .ok hs m') :
    issuedHandles (a.changes m) = hs := by
  cases a with
  | destroy h =>
    cases hr
    unfold Action.changes destruction
    dsimp only
    split <;> rfl
  | register statement columns rows =>
    cases hr
    rfl
  | get h =>
    unfold Action.changes
    dsimp only
    rw [hr, eq_nil_of_inspect (fun _ => rfl) hr]
    rfl
  | insert v =>
    unfold Action.changes
    dsimp only
    rw [hr]
    exact issuedHandles_insertFrom (f := fun _ => .ok v) hr
  | request r =>
    cases r with
    | isNull | type | payload | count | name =>
      unfold Action.changes
      dsimp only
      rw [hr, eq_nil_of_inspect (fun _ => rfl) hr]
      rfl
    | createNull t =>
      unfold Action.changes
      dsimp only
      rw [hr]
      exact issuedHandles_insertFrom (f := fun _ => .ok (.null t)) hr
    | item | role | createPayload | createList | createStruct | createMap =>
      unfold Action.changes
      dsimp only
      rw [hr]
      exact issuedHandles_insertFrom hr
    | execute statement parameters =>
      obtain ⟨rs, hexecute, rfl⟩ := map_ok.1 hr
      exact issuedHandles_execute hexecute

end Memory
end ValueBridge
