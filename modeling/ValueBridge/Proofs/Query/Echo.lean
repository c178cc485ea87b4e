import ValueBridge.Proofs.Query.Consumption
import ValueBridge.Proofs.Query.Shown
import ValueBridge.Proofs.Query.Statement
/-!
# Echo statements return what was bound

An echo is answered with one row of copies: of several parameters of a name the first one counts, and a name may be
asked for again.  The row shows what the parameters are decoded as when they have been encoded afresh, under the names
that were asked for and in their order; the first name that no parameter has is the error.  Once the row is dropped, or
when there is none, the table is the one before (`Query.execute_echo`).
-/
namespace ValueBridge

open ValueBridge.Convert Memory

variable {c : Config} {m m' : Memory}

/-! ## Binding -/

namespace Source

/-- The source can be encoded, on some engine. -/
def Buildable (c : Config) (s : Source) : Prop :=
  ∃ (m : Memory) (h : Handle) (m' : Memory), m.Reachable ∧ s.build c m = .ok h m'

/-- The stored value is what the source is encoded as. -/
def StoredAs (c : Config) (s : Source) (v : Stored) : Prop := (s.draft c).value c.maxDepth = .ok v

/-- One of the entries has the handle, with what the source is encoded as. -/
def HeldBy (c : Config) (es : List (Handle × Stored)) (s : Source) (h : Handle) : Prop :=
  ∃ v, s.StoredAs c v ∧ (h, v) ∈ es

theorem Buildable.exists_storedAs {s : Source} (h : s.Buildable c) : ∃ v, s.StoredAs c v := by
  obtain ⟨m, h, m', hm, hbuild⟩ := h
  obtain ⟨v, hv, -⟩ := moves_of_build (s := m) hm.issued hbuild
  exact ⟨v, hv⟩

end Source

namespace Query

/-- How many values are built for the parameters. -/
def size (c : Config) (parameters : List (String × Source)) : Nat := (parameters.map fun p => p.2.size c).sum

theorem size_cons (p : String × Source) (parameters : List (String × Source)) :
    size c (p :: parameters) = p.2.size c + size c parameters := List.sum_cons

theorem size_le_size {p : String × Source} {parameters : List (String × Source)} (h : p ∈ parameters) :
    p.2.size c ≤ size c parameters :=
  List.le_sum_of_mem (List.mem_map.2 ⟨p, h, rfl⟩)

theorem length_le_size (parameters : List (String × Source)) : parameters.length ≤ size c parameters := by
  induction parameters with
  | nil => exact Nat.le_refl 0
  | cons p parameters ih =>
    rw [size_cons, List.length_cons, Source.size]
    omega

/-- **Parameters that can be encoded are all bound** on an engine with room, each as what it is encoded as. -/
theorem bindAll_of_storedAs : ∀ {parameters : List (String × Source)} {m : Memory}, m.Issued →
    (∀ p ∈ parameters, ∃ v, p.2.StoredAs c v) → m.live + size c parameters ≤ m.limit →
    ∃ bound es m', bindAll c parameters m = .ok bound m' ∧ Adds m es m' ∧ es.map Prod.fst = bound.map Prod.snd ∧
      List.Forall₂ (fun p b => p.1 = b.1 ∧ p.2.HeldBy c es b.2) parameters bound
  | [], m, hm, _, _ => ⟨[], [], m, rfl, .refl hm, rfl, .nil⟩
  | (name, s) :: parameters, m, hm, hstored, hroom => by
    obtain ⟨⟨v, hv⟩, hstored⟩ := List.forall_mem_cons.1 hstored
    rw [size_cons] at hroom
    have hsize : m.live + s.size c ≤ m.limit := Nat.le_trans (Nat.add_le_add_left (Nat.le_add_right _ _) _) hroom
    obtain ⟨h, m₁, hbuild, hmoves⟩ := Source.build_of_draft (s := m) hm ⟨trivial, hsize⟩ hv
    have hadds : Adds m [(h, v)] m₁ := hmoves.adds
    have hroom₁ : m₁.live + size c parameters ≤ m₁.limit := by
      rw [hadds.live_eq, hadds.limit_eq, List.length_singleton]
      rw [Source.size] at hroom
      omega
    obtain ⟨bound, es, m', hbind, hadds', hes, hbound⟩ := bindAll_of_storedAs hadds.issued_after hstored hroom₁
    refine ⟨(name, h) :: bound, (h, v) :: es, m', by rw [bindAll_cons_ok hbuild, hbind],
      (hadds.trans hadds').perm (List.perm_append_singleton _ _), congrArg (h :: ·) hes, ?_⟩
    refine .cons ⟨rfl, v, hv, List.mem_cons_self⟩ (hbound.imp fun p b hpb => ?_)
    obtain ⟨hname, w, hw, hmem⟩ := hpb
    exact ⟨hname, w, hw, List.mem_cons_of_mem _ hmem⟩

end Query

/-! ## Copies -/

namespace Memory

variable {f : Memory → Except Failure Stored} {es : List (Handle × Stored)}

/-- Whatever is added to the table, this is what is found. -/
def Finds (m : Memory) (f : Memory → Except Failure Stored) (r : Except Failure Stored) : Prop :=
  ∀ es m', Adds m es m' → f m' = r

theorem Finds.after {r : Except Failure Stored} (h : Finds m f r) (hadds : Adds m es m') : Finds m' f r :=
  fun fs m'' hadds' => h (fs ++ es) m'' (hadds.trans hadds')

/-- **What is found is copied**, one after the other, if there is room; when a later copy cannot be had, these are destroyed
again. -/
theorem insertAll_append (rest : List (Memory → Except Failure Stored)) :
    ∀ {fs : List (Memory → Except Failure Stored)} {vs : List Stored} {m : Memory},
    List.Forall₂ (fun f v => Finds m f (.ok v)) fs vs → m.Issued → m.live + fs.length ≤ m.limit →
    ∃ es m₁, es.map Prod.snd = vs ∧ Adds m es m₁ ∧ insertAll (fs ++ rest) m = match insertAll rest m₁ with
      | .ok hs m' => .ok (es.map Prod.fst ++ hs) m'
      | .error e m' => .error e (m'.destroyAll (es.map Prod.fst).reverse)
  | [], _, m, .nil, hm, _ => by
    refine ⟨[], m, rfl, .refl hm, ?_⟩
    rw [List.nil_append]
    cases insertAll rest m <;> rfl
  | f :: fs, v :: vs, m, .cons hf hfs, hm, hroom => by
    rw [List.length_cons] at hroom
    obtain ⟨k, m₁, hk, hadds⟩ := insertFrom_of_room hm (hf [] m (.refl hm)) (by omega)
    have hroom₁ : m₁.live + fs.length ≤ m₁.limit := by
      rw [hadds.live_eq, hadds.limit_eq, List.length_singleton]
      omega
    obtain ⟨es, m₂, hvs, hadds', hrest⟩ :=
      insertAll_append rest (hfs.imp fun _ _ h => h.after hadds) hadds.issued_after hroom₁
    refine ⟨(k, v) :: es, m₂, congrArg (v :: ·) hvs,
      (hadds.trans hadds').perm (List.perm_append_singleton _ _), ?_⟩
    simp only [List.cons_append, insertAll, hk, hrest]
    cases insertAll rest m₂ with
    | ok hs m' => rfl
    | error e m' =>
      simp only [destroyAll, List.map_cons, List.reverse_cons, List.foldl_append, List.foldl_cons, List.foldl_nil]

/-! ## Echoes -/

variable {bound : List (String × Handle)} {name : String} {names before : List String} {vs : List Stored}

/-- A name as it is written in a statement. -/
abbrev written (name : String) : List Char := '$' :: name.toList

theorem ofList_written (name : String) : String.ofList (written name) = "$" ++ name := by
  rw [← String.toList_inj]
  simp

theorem finds_bound {h : Handle} {v : Stored} (hlookup : bound.lookup name = some h) (hv : m.find? h = .ok v) :
    Finds m (Memory.bound bound (written name)) (.ok v) := by
  intro es m' hadds
  rw [Memory.bound, List.drop_one, List.tail_cons, String.ofList_toList, hlookup]
  exact hadds.find?_of_old hv

theorem finds_bound_of_missing (hlookup : bound.lookup name = none) :
    Finds m (Memory.bound bound (written name)) (.error (.unboundParameter ("$" ++ name))) := by
  intro es m' hadds
  rw [Memory.bound, List.drop_one, List.tail_cons, String.ofList_toList, hlookup, ofList_written]

theorem forall₂_finds (h : List.Forall₂ (fun name v => ∃ k, bound.lookup name = some k ∧ m.find? k = .ok v) names vs) :
    List.Forall₂ (fun f v => Finds m f (.ok v)) ((names.map written).map (Memory.bound bound)) vs := by
  rw [List.map_map, List.forall₂_map_left_iff]
  exact h.imp fun name v ⟨k, hk, hv⟩ => finds_bound hk hv

/-- **An echo of names that are bound has one row**, of copies of what is bound to them. -/
theorem echo_of_bound (h : List.Forall₂ (fun name v => ∃ k, bound.lookup name = some k ∧ m.find? k = .ok v) names vs)
    (hm : m.Issued) (hroom : m.live + names.length ≤ m.limit) : ∃ es m',
    echo (names.map written) bound m = .ok ⟨names.map ("$" ++ ·), [es.map Prod.fst]⟩ m' ∧ es.map Prod.snd = vs ∧
      Adds m es m' := by
  obtain ⟨es, m', hvs, hadds, hinsert⟩ := insertAll_append [] (forall₂_finds h) hm (by simpa using hroom)
  refine ⟨es, m', ?_, hvs, hadds⟩
  have hcolumns : (names.map written).map String.ofList = names.map ("$" ++ ·) := by
    rw [List.map_map]
    exact List.map_congr_left fun name _ => ofList_written name
  rw [List.append_nil] at hinsert
  simp only [echo, bind, EStateM.bind, hinsert, insertAll, pure, EStateM.pure, List.append_nil, hcolumns]

/-- The first name that is not bound is the error of an echo. -/
theorem echo_of_unbound (after : List String)
    (h : List.Forall₂ (fun name v => ∃ k, bound.lookup name = some k ∧ m.find? k = .ok v) before vs)
    (hname : bound.lookup name = none) (hm : m.Issued) (hroom : m.live + before.length ≤ m.limit) : ∃ m',
    echo ((before ++ name :: after).map written) bound m = .error (.unboundParameter ("$" ++ name)) m' ∧
      Adds m [] m' := by
  let rest := (after.map written).map (Memory.bound bound)
  obtain ⟨es, m₁, -, hadds, hinsert⟩ := insertAll_append (Memory.bound bound (written name) :: rest) (forall₂_finds h) hm
    (by simpa using hroom)
  have hmissing := finds_bound_of_missing (m := m) hname es m₁ hadds
  have hfirst := insertFrom_error.2 (.inl ⟨hmissing, rfl⟩)
  refine ⟨m₁.destroyAll (es.map Prod.fst).reverse, ?_, ?_⟩
  · simp only [echo, bind, EStateM.bind, List.map_append, List.map_cons, hinsert, insertAll, hfirst, rest]
  · rw [← List.map_reverse]
    exact Adds.destroyAll (hadds.perm (by rw [List.append_nil]; exact es.reverse_perm.symm))

end Memory

/-! ## Execution -/

namespace Query

open Consumer

variable {statement name : String} {names : List String} {parameters : List (String × Source)}

/-- The first of the names that no parameter has. -/
def firstUnbound? (parameters : List (String × Source)) (names : List String) : Option String :=
  names.find? fun name => (parameters.lookup name).isNone

/-- The engine when the parameters are bound: each is found under its name, and nothing else is. -/
structure Bound (c : Config) (parameters : List (String × Source)) (m : Memory) (bound : List (String × Handle))
    (m₁ : Memory) : Prop where
  bind : bindAll c parameters m = .ok bound m₁
  adds : ∃ es, es.map Prod.fst = bound.map Prod.snd ∧ Adds m es m₁
  length_eq : bound.length = parameters.length
  found : ∀ name s, parameters.lookup name = some s → ∃ v, s.StoredAs c v ∧ ∃ k, bound.lookup name = some k ∧
    m₁.find? k = .ok v
  missing : ∀ name, parameters.lookup name = none → bound.lookup name = none

theorem exists_bound (hm : m.Issued) (hparameters : ∀ p ∈ parameters, p.2.Buildable c)
    (hroom : m.live + size c parameters ≤ m.limit) : ∃ bound m₁, Bound c parameters m bound m₁ := by
  obtain ⟨bound, es, m₁, hbind, hadds, hes, hbound⟩ :=
    bindAll_of_storedAs hm (fun p hp => (hparameters p hp).exists_storedAs) hroom
  refine ⟨bound, m₁, hbind, ⟨es, hes, hadds⟩, hbound.length_eq.symm, fun name s hs => ?_, fun name hnone => ?_⟩
  · obtain ⟨k, hk, v, hv, hmem⟩ := (lookup_of_forall₂ (R := Source.HeldBy c es) hbound name).1 s hs
    exact ⟨v, hv, k, hk, hadds.find?_of_mem hmem⟩
  · exact (lookup_of_forall₂ (R := Source.HeldBy c es) hbound name).2 hnone

namespace Bound

variable {bound : List (String × Handle)} {m₁ : Memory} {vs : List Stored}

theorem issued_after (h : Bound c parameters m bound m₁) : m₁.Issued := by
  obtain ⟨es, -, hadds⟩ := h.adds
  exact hadds.issued_after

theorem forall₂_found (h : Bound c parameters m bound m₁)
    (hvs : List.Forall₂ (fun name v => ∃ s, parameters.lookup name = some s ∧ s.StoredAs c v) names vs) :
    List.Forall₂ (fun name v => ∃ k, bound.lookup name = some k ∧ m₁.find? k = .ok v) names vs := by
  refine hvs.imp fun name v ⟨s, hs, hv⟩ => ?_
  obtain ⟨w, hw, hk⟩ := h.found name s hs
  cases hv.symm.trans hw
  exact hk

/-- When the parameters are released, what was added since is all that is new. -/
theorem release (h : Bound c parameters m bound m₁) {m₂ : Memory} {fs : List (Handle × Stored)} (hadds : Adds m₁ fs m₂) :
    Adds m fs (Engine.destroyAll (bound.map Prod.snd) m₂) := by
  obtain ⟨es, hes, hadds'⟩ := h.adds
  have hboth : Adds m (es ++ fs) m₂ := (hadds'.trans hadds).perm List.perm_append_comm
  rw [← hes]
  exact hboth.destroyAll

/-- There is room for one more handle for each name. -/
theorem room (h : Bound c parameters m bound m₁) {n : Nat} (hroom : m.live + n + size c parameters ≤ m.limit) :
    m₁.live + n ≤ m₁.limit := by
  obtain ⟨es, hes, hadds⟩ := h.adds
  have hlive := hadds.live_eq
  have hlength : es.length = bound.length := by simpa using congrArg List.length hes
  have hsize := length_le_size (c := c) parameters
  rw [hadds.limit_eq]
  rw [h.length_eq] at hlength
  omega

end Bound

theorem exists_forall₂_storedAs (hparameters : ∀ p ∈ parameters, p.2.Buildable c)
    (hnames : ∀ name ∈ names, ¬(parameters.lookup name).isNone) :
    ∃ vs, List.Forall₂ (fun name v => ∃ s, parameters.lookup name = some s ∧ s.StoredAs c v) names vs := by
  refine exists_forall₂ fun name hname => ?_
  cases hs : parameters.lookup name with
  | none => exact absurd (by rw [hs]; rfl) (hnames name hname)
  | some s =>
    obtain ⟨v, hv⟩ := (hparameters _ (mem_of_lookup hs)).exists_storedAs
    exact ⟨v, s, rfl, hv⟩

/-- **A row of copies shows what the parameters are decoded as**, as long as there is room for decoding. -/
theorem shows_copies {qs : List (String × Handle × Stored)} {now : Memory} (hcells : Adds m (qs.map Prod.snd) now)
    (hqs : ∀ q ∈ qs, ∃ s, parameters.lookup q.1 = some s ∧ s.StoredAs c q.2.2)
    (hroom : m.live + qs.length + 2 * size c parameters ≤ m.limit) :
    Row.Shows c ⟨qs.map fun q => "$" ++ q.1, qs.map fun q => q.2.1⟩ now
      (qs.map fun q => ("$" ++ q.1, Row.inColumn ("$" ++ q.1) (q.2.2.decoded c))) := by
  let ps := qs.map fun q => ("$" ++ q.1, q.2.1, q.2.2.decoded c)
  have hgives : ∀ p ∈ ps, ∀ m', Adds now [] m' → Gives m' (Read.value c p.2.1) p.2.2 := by
    refine List.forall_mem_map.2 fun q hq m' hlater => ?_
    obtain ⟨s, hs, hv⟩ := hqs q hq
    have hkept := hcells.trans hlater
    have hfind := hkept.find?_of_mem (List.mem_map.2 ⟨q, hq, rfl⟩)
    have hsize : s.size c ≤ size c parameters := size_le_size (mem_of_lookup hs)
    refine Source.gives_value hv hlater.issued_after hfind ?_
    rw [hkept.live_eq, hkept.limit_eq, List.nil_append, List.length_map]
    omega
  have hshows := Row.shows_of_gives hcells.issued_after hgives
  simpa only [ps, List.map_map, Function.comp_def] using hshows

/-- Once a caller is done with one row, nothing is left of it. -/
theorem entries_of_consume {columns : List String} {es : List (Handle × Stored)} (hcells : Adds m es m') {uses : List Use}
    {k : Consumer} {now : Memory} (hconsume : consume c uses (⟨some ⟨columns, [es.map Prod.fst]⟩, []⟩, m') = (k, now))
    (hdone : k.IsDone) : now.entries = m.entries := by
  have hstart := owns_start ⟨columns, [es.map Prod.fst]⟩ (s := m') (List.append_nil _).symm hcells
  have howns := owns_consume (c := c) uses (s := m') hstart
  rw [hconsume] at howns
  exact (howns.done hdone).entries_nil

/-- **Echo statements return what was bound.**  On an engine with room, each cell of the one row is decoded as the first
parameter of its name when it is encoded afresh, up to where an error is located; if a name has no parameter, the first
such name is the error.  In both cases nothing is left once the row is dropped. -/
theorem execute_echo (c : Config) {m : Memory} (hstatement : Echoes statement names)
    (hnames : ∀ name ∈ names, IsPlain name) (hparameters : ∀ p ∈ parameters, p.2.Buildable c) (hm : m.Reachable)
    (hroom : m.live + names.length + 2 * size c parameters ≤ m.limit) :
    (firstUnbound? parameters names = none → ∃ es m' answers,
      execute c statement parameters m = .ok ⟨names.map ("$" ++ ·), [es.map Prod.fst]⟩ m' ∧ Adds m es m' ∧
      es.length = names.length ∧
      List.Forall₂ (fun name r => ∃ s, parameters.lookup name = some s ∧ s.DecodesTo c r) names answers ∧
      (∀ now, Adds m es now → Row.Shows c ⟨names.map ("$" ++ ·), es.map Prod.fst⟩ now
        ((names.zip answers).map fun p => ("$" ++ p.1, Row.inColumn ("$" ++ p.1) p.2))) ∧
      ∀ uses k now, consume c uses (⟨some ⟨names.map ("$" ++ ·), [es.map Prod.fst]⟩, []⟩, m') = (k, now) → k.IsDone →
        now.entries = m.entries) ∧
    (∀ name, firstUnbound? parameters names = some name → ∃ m',
      execute c statement parameters m = .error (.engine (.unboundParameter ("$" ++ name))) m' ∧
      m'.entries = m.entries) ∧
    ∀ place e, ((QueryError.conversion e).within place).kind? = some e.kind := by
  obtain ⟨bound, m₁, hbound⟩ := exists_bound (c := c) hm.issued hparameters (by omega)
  have hcall : Engine.call (.execute statement bound) m₁ = echo (names.map written) bound m₁ := by
    change Memory.execute statement bound m₁ = _
    rw [Memory.execute, echoNames?_of_echoes hstatement hnames]
  refine ⟨fun hall => ?bound, fun name hname => ?unbound, Row.kind?_within⟩
  case bound =>
    obtain ⟨vs, hvs⟩ := exists_forall₂_storedAs hparameters (List.find?_eq_none.1 hall)
    obtain ⟨es, m₂, hecho, rfl, hadds⟩ :=
      echo_of_bound (hbound.forall₂_found hvs) hbound.issued_after (hbound.room (by omega))
    have hexecute : execute c statement parameters m = .ok ⟨names.map ("$" ++ ·), [es.map Prod.fst]⟩
        (Engine.destroyAll (bound.map Prod.snd) m₂) := by rw [execute_of_bound hbound.bind, hcall, hecho]
    have hcells := hbound.release hadds
    generalize Engine.destroyAll (bound.map Prod.snd) m₂ = m' at hexecute hcells
    obtain ⟨qs, rfl, rfl, hqs⟩ := exists_pairs (List.forall₂_map_right_iff.1 hvs)
    refine ⟨_, m', qs.map fun q => q.2.2.decoded c, hexecute, hcells, by simp, ?_, fun now hnow => ?_,
      fun uses k now => entries_of_consume hcells⟩
    · rw [List.forall₂_map_left_iff, List.forall₂_map_right_iff, List.forall₂_same]
      intro q hq
      obtain ⟨s, hs, hv⟩ := hqs q hq
      exact ⟨s, hs, Source.decodesTo_of_draft hv⟩
    · rw [List.length_map] at hroom
      simpa [List.zip_map', Function.comp_def] using shows_copies hnow hqs hroom
  case unbound =>
    obtain ⟨hnone, before, after, rfl, hbefore⟩ := List.find?_eq_some_iff_append.1 hname
    obtain ⟨vs, hvs⟩ := exists_forall₂_storedAs hparameters fun name hname => by
      simpa using hbefore name hname
    have hmissing := hbound.missing name (Option.isNone_iff_eq_none.1 hnone)
    rw [List.length_append] at hroom
    obtain ⟨m₂, hecho, hadds⟩ := echo_of_unbound after (hbound.forall₂_found hvs) hmissing hbound.issued_after
      (hbound.room (by omega))
    refine ⟨_, by rw [execute_of_bound hbound.bind, hcall, hecho], ?_⟩
    exact (hbound.release hadds).entries_nil

/-- Two parameters of one name, and one without a value. -/
def twiceNamed : List (String × Source) :=
  [("a", .scalar (.bool true)), ("b", .absent), ("a", .scalar (.bool false))]

theorem echoes_twiceNamed : Echoes " RETURN $b ,$a,  $b " ["b", "a", "b"] := by
  have hnone : Blank [] := List.all_eq_true.1 rfl
  have hone : Blank [' '] := List.all_eq_true.1 rfl
  have htwo : Blank [' ', ' '] := List.all_eq_true.1 rfl
  refine ⟨[' '], "$b ,$a,  $b ".toList, hone, ?_, rfl⟩
  refine @AsksFor.cons [] [' '] _ "b" _ hnone hone ?_
  exact @AsksFor.cons [] [] _ "a" _ hnone hnone (@AsksFor.one [' ', ' '] [' '] "b" htwo hone)

theorem buildable_twiceNamed : ∀ p ∈ twiceNamed, p.2.Buildable {} := by
  have hbuildable : ∀ s ∈ [Source.scalar (.bool true), .absent, .scalar (.bool false)], s.Buildable {} := by
    simp only [List.forall_mem_cons, List.not_mem_nil, false_implies, implies_true, and_true]
    exact ⟨⟨{}, _, _, .empty _, rfl⟩, ⟨{}, _, _, .empty _, rfl⟩, {}, _, _, .empty _, rfl⟩
  exact List.forall_mem_map.1 hbuildable

/-- The first parameter of the name is returned, and what is asked for twice is there twice. -/
theorem execute_echo_twiceNamed : Echoes " RETURN $b ,$a,  $b " ["b", "a", "b"] ∧
    ∃ cells m', execute {} " RETURN $b ,$a,  $b " twiceNamed ({ limit := 9 } : Memory) =
        .ok ⟨["$b", "$a", "$b"], [cells]⟩ m' ∧
      Row.Shows {} ⟨["$b", "$a", "$b"], cells⟩ m'
        [("$b", .ok .null), ("$a", .ok (.scalar (.bool true))), ("$b", .ok .null)] := by
  have hplain : ∀ name ∈ ["b", "a", "b"], IsPlain name := by
    have hb : IsPlain "b" := ⟨by decide, by decide⟩
    have ha : IsPlain "a" := ⟨by decide, by decide⟩
    simp [ha, hb]
  obtain ⟨hbound, -⟩ := execute_echo {} echoes_twiceNamed hplain buildable_twiceNamed (.empty 9) (by decide)
  obtain ⟨es, m', answers, hexecute, hadds, -, hanswers, hshows, -⟩ := hbound rfl
  refine ⟨echoes_twiceNamed, es.map Prod.fst, m', hexecute, ?_⟩
  have hnull : Source.DecodesTo {} .absent (.ok .null) := by
    have hdecodes := Source.decodesTo_of_draft (c := {}) (s := .absent) (v := .null .any) rfl
    rwa [Stored.decoded, Stored.faults, Stored.hostOf] at hdecodes
  have htrue : Source.DecodesTo {} (.scalar (.bool true)) (.ok (.scalar (.bool true))) := by
    have hdecodes := Source.decodesTo_of_draft (c := {}) (s := .scalar (.bool true)) (v := .payload (.bool true)) rfl
    rwa [Stored.decoded, Stored.faults, Stored.hostOf] at hdecodes
  obtain _ | ⟨⟨s, hs, hr⟩, _ | ⟨⟨s', hs', hr'⟩, _ | ⟨⟨s'', hs'', hr''⟩, _ | _⟩⟩⟩ := hanswers
  cases hs
  cases hs'
  cases hs''
  obtain rfl := hr.unique hnull
  obtain rfl := hr'.unique htrue
  obtain rfl := hr''.unique hnull
  exact hshows m' hadds

end Query

end ValueBridge
