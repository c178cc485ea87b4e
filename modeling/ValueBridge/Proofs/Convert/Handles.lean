import ValueBridge.Proofs.Convert.Crowding
import ValueBridge.Proofs.Convert.Lockstep
import ValueBridge.Proofs.Engine.Gauged
/-!
# Decoding needs few handles

However wide a value is, a decoder releases one part before it takes the next.  So at every moment it holds at most two
handles for each level, which is seen on an engine that counts them (`lockstep_tracks`); and when the table has room for
so many, it does not fill up, and the decoder does what it does on an engine with any higher limit (`lockstep_fits`).
-/
namespace ValueBridge

open ValueBridge.Convert
open Memory (Adds)

variable {α β γ : Type} {k n : Nat}

/-! ## Counted runs -/

/-- A run on the counting engine does what the run on the engine in memory does, leaves the table as it found it, and
never holds more than `n` handles meanwhile. -/
def Tracks (n : Nat) (p : Convert Gauged α) (q : Convert Memory α) : Prop :=
  ∀ g : Gauged, g.memory.Issued → Ends (p g)
    (fun a g' => q g.memory = .ok a g'.memory ∧ g.Passes (g.memory.live + n) [] g')
    fun e g' => q g.memory = .error e g'.memory ∧ g.Passes (g.memory.live + n) [] g'

/-- A run on the counting engine takes one handle, as the run on the engine in memory does. -/
def Gauged.Takes (p : Convert Gauged Handle) (q : Convert Memory Handle) : Prop :=
  ∀ g : Gauged, g.memory.Issued → Ends (p g)
    (fun h g' => q g.memory = .ok h g'.memory ∧ ∃ v, g.Passes (g.memory.live + 1) [(h, v)] g')
    fun e g' => q g.memory = .error e g'.memory ∧ g.Passes g.memory.live [] g'

/-- The entries of one handle are a single one. -/
theorem exists_entry {k : Handle} {P : List (Handle × Stored) → Prop} (h : ∃ es, es.map Prod.fst = [k] ∧ P es) :
    ∃ v, P [(k, v)] := by
  obtain ⟨es, hes, hP⟩ := h
  obtain ⟨e, rfl, rfl⟩ := List.map_eq_singleton_iff.1 hes
  exact ⟨e.2, hP⟩

/-- A counted request is answered as by the engine in memory, and adds the handles of its answer. -/
theorem Gauged.ends_ask (r : Request) {g : Gauged} (hg : g.memory.Issued) : Ends (ask r g)
    (fun a g' => ask r g.memory = .ok a g'.memory ∧ ∃ es, es.map Prod.fst = r.created a ∧
      g.Passes (g.memory.live + es.length) es g')
    fun e g' => ask r g.memory = .error e g'.memory ∧ g.Passes g.memory.live [] g' := by
  simp only [ask, askOr, EStateM.adaptExcept, Engine.call, Gauged.call]
  cases hr : Memory.call r g.memory with
  | ok a m =>
    obtain ⟨es, hes, hadds⟩ := Memory.adds_of_call_ok hg hr
    exact ⟨rfl, es, hes, .moved hadds (Nat.le_of_eq hadds.live_eq)⟩
  | error e m =>
    have hadds := Memory.adds_of_call_error hg hr
    exact ⟨rfl, .moved hadds (Nat.le_of_eq hadds.live_eq)⟩

theorem Gauged.takes_item (i : Item) (h : Handle) (index : Nat) : Takes (itemOf i h index) (itemOf i h index) :=
  fun _ hg => (ends_ask (.item i h index) hg).mono (fun _ _ hk => ⟨hk.1, exists_entry hk.2⟩) fun _ _ he => he

theorem Gauged.takes_role (r : Role) (h : Handle) : Takes (roleOf r h) (roleOf r h) :=
  fun _ hg => (ends_ask (.role r h) hg).mono (fun _ _ hk => ⟨hk.1, exists_entry hk.2⟩) fun _ _ he => he

namespace Tracks

variable {p : Convert Gauged α} {q : Convert Memory α}

theorem bind {f : α → Convert Gauged β} {f' : α → Convert Memory β} (h : Tracks n p q)
    (hf : ∀ a, Tracks n (f a) (f' a)) : Tracks n (p >>= f) (q >>= f') := by
  intro g hg
  refine (h g hg).bind (fun a g₁ ha => ?_) fun e g₁ he => ⟨by simp only [Bind.bind, EStateM.bind, he.1], he.2⟩
  obtain ⟨hq, hpass⟩ := ha
  have hlive := hpass.adds.live_eq
  rw [List.length_nil, Nat.add_zero] at hlive
  have hbind : (q >>= f') g.memory = f' a g₁.memory := by simp only [Bind.bind, EStateM.bind, hq]
  rw [hbind, ← hlive]
  rw [← hlive] at hpass
  exact (hf a g₁ hpass.adds.issued_after).mono (fun _ _ hb => ⟨hb.1, hpass.trans hb.2⟩)
    fun _ _ hb => ⟨hb.1, hpass.trans hb.2⟩

theorem within (place : Place) (h : Tracks n p q) : Tracks n (p.within place) (q.within place) := by
  intro g hg
  refine ((h g hg).mono (fun a g' ha => ?_) fun _ _ he => he).adapt fun e g' he => ?_
  · exact ⟨by simp only [Convert.within, EStateM.adaptExcept, ha.1], ha.2⟩
  · exact ⟨by simp only [Convert.within, EStateM.adaptExcept, he.1], he.2⟩

/-- A handle that is held is one handle more while it is used. -/
theorem holding {acquire : Convert Gauged Handle} {acquire' : Convert Memory Handle} {f : Handle → Convert Gauged α}
    {f' : Handle → Convert Memory α} (ha : Gauged.Takes acquire acquire') (hf : ∀ h, Tracks n (f h) (f' h)) :
    Tracks (n + 1) (Convert.holding acquire f) (Convert.holding acquire' f') := by
  intro g hg
  refine (ha g hg).bind (fun h g₁ hh => ?_) fun e g₁ he =>
    ⟨by simp only [Convert.holding, Bind.bind, EStateM.bind, he.1], he.2.mono (Nat.le_add_right _ _)⟩
  obtain ⟨hq, v, hpass⟩ := hh
  have hlive : g₁.memory.live = g.memory.live + 1 := hpass.adds.live_eq
  have hpass₁ : g.Passes (g.memory.live + (n + 1)) [(h, v)] g₁ := hpass.mono (by omega)
  -- What the handle is used for starts with one live handle more, and may take `n` on top of it.
  have huse := hf h g₁ hpass.adds.issued_after
  rw [hlive, Nat.add_assoc, Nat.add_comm 1 n] at huse
  refine huse.releasing (fun a g₂ h₂ => ?_) fun e g₂ h₂ => ?_
  · exact ⟨by simp only [Convert.holding, Bind.bind, EStateM.bind, hq, Convert.releasing, h₂.1]; rfl,
      (hpass₁.trans h₂.2).release (by rw [List.length_nil]; omega)⟩
  · exact ⟨by simp only [Convert.holding, Bind.bind, EStateM.bind, hq, Convert.releasing, h₂.1]; rfl,
      (hpass₁.trans h₂.2).release (by rw [List.length_nil]; omega)⟩

end Tracks

/-- **Counted runs of decoders never hold more handles than their levels allow.** -/
theorem lockstep_tracks (c : Config) : Lockstep (σ := Gauged) (τ := Memory) c c 0 Tracks where
  blobLength_eq := rfl
  mono h hn g hg := (h g hg).mono (fun _ _ ha => ⟨ha.1, ha.2.mono (Nat.add_le_add_left hn _)⟩)
    fun _ _ he => ⟨he.1, he.2.mono (Nat.add_le_add_left hn _)⟩
  value _ _ hg := ⟨rfl, .refl _ hg⟩
  raise _ _ hg := ⟨rfl, .refl _ hg⟩
  tooDeep hq _ hg := by
    rw [hq rfl]
    exact ⟨rfl, .refl _ hg⟩
  request {r n} hr g hg := by
    refine (Gauged.ends_ask r hg).mono (fun a g' ha => ?_) fun _ _ he => ⟨he.1, he.2.mono (Nat.le_add_right _ _)⟩
    obtain ⟨hask, es, hes, hpass⟩ := ha
    rw [hr a] at hes
    cases List.map_eq_nil_iff.1 hes
    exact ⟨hask, hpass.mono (Nat.add_le_add_left (Nat.zero_le n) _)⟩
  bind := .bind
  within := .within
  item i h index := .holding (Gauged.takes_item i h index)
  role r h := .holding (Gauged.takes_role r h)

/-! ## Failures of accessors -/

/-- An accessor has not found what it was asked for. -/
def Failure.IsMissing : Failure → Prop
  | .invalidHandle _ | .notA _ _ | .outOfRange _ _ => True
  | _ => False

/-- The answer of an accessor, or the failure to find it. -/
def Finds (r : Except Failure α) : Prop := Outcome (fun _ => True) Failure.IsMissing r

namespace Stored

theorem finds_at? (items : List α) (index : Nat) : Finds (at? items index) := by
  unfold at?
  split <;> trivial

theorem finds_asNode (v : Stored) : Finds v.asNode := by cases v <;> trivial

theorem finds_asRel (v : Stored) : Finds v.asRel := by cases v <;> trivial

theorem finds_asPath (v : Stored) : Finds v.asPath := by cases v <;> trivial

theorem finds_asItems (v : Stored) : Finds v.asItems := by cases v <;> trivial

theorem finds_asFields (v : Stored) : Finds v.asFields := by cases v <;> trivial

theorem finds_asEntries (v : Stored) : Finds v.asEntries := by cases v <;> trivial

theorem finds_asPayload (v : Stored) : Finds v.asPayload := by cases v <;> trivial

theorem finds_map {r : Except Failure α} (h : Finds r) (f : α → β) : Finds (r.map f) :=
  Outcome.map h (fun _ _ => trivial) fun _ he => he

/-- An item of what the value is taken apart into. -/
theorem finds_part {r : Except Failure γ} (h : Finds r) (items : γ → List α) (index : Nat) (f : α → β) :
    Finds (r.bind fun g => (at? (items g) index).map f) :=
  Outcome.bind h (fun g _ => finds_map (finds_at? (items g) index) f) fun _ he => he

theorem finds_count? (c : Counted) (v : Stored) : Finds (v.count? c) := by
  cases c with
  | list => exact finds_map v.finds_asItems _
  | struct => exact finds_map v.finds_asFields _
  | map => exact finds_map v.finds_asEntries _
  | nodeProperties => exact finds_map v.finds_asNode _
  | relProperties => exact finds_map v.finds_asRel _

theorem finds_name? (c : Named) (v : Stored) (index : Nat) : Finds (v.name? c index) := by
  cases c with
  | struct => exact finds_part v.finds_asFields id index Prod.fst
  | nodeProperties => exact finds_part v.finds_asNode (·.properties) index Prod.fst
  | relProperties => exact finds_part v.finds_asRel (·.properties) index Prod.fst

theorem finds_item? (i : Item) (v : Stored) (index : Nat) : Finds (v.item? i index) := by
  cases i with
  | element => exact Outcome.bind v.finds_asItems (fun items _ => finds_at? items index) fun _ he => he
  | field => exact finds_part v.finds_asFields id index Prod.snd
  | key => exact finds_part v.finds_asEntries id index Prod.fst
  | value => exact finds_part v.finds_asEntries id index Prod.snd
  | nodeProperty => exact finds_part v.finds_asNode (·.properties) index Prod.snd
  | relProperty => exact finds_part v.finds_asRel (·.properties) index Prod.snd

theorem finds_role? (r : Role) (v : Stored) : Finds (v.role? r) := by
  cases r with
  | nodeId | nodeLabel => exact finds_map v.finds_asNode _
  | relId | relSource | relTarget | relLabel => exact finds_map v.finds_asRel _
  | pathNodes | pathRels => exact finds_map v.finds_asPath _

end Stored

namespace Memory

variable {m m' : Memory} {e : Failure}

theorem finds_find? (m : Memory) (h : Handle) : Finds (m.find? h) := by
  unfold find?
  split <;> trivial

theorem finds_bind (m : Memory) (h : Handle) {f : Stored → Except Failure α} (hf : ∀ v, Finds (f v)) :
    Finds ((m.find? h).bind f) :=
  Outcome.bind (m.finds_find? h) (fun v _ => hf v) fun _ he => he

theorem isMissing_of_inspect {f : Memory → Except Failure α} (hf : Finds (f m)) (h : inspect f m = .error e m') :
    e.IsMissing :=
  Outcome.of_error hf (inspect_error.1 h).1

theorem isMissing_of_insertFrom {f : Memory → Except Failure Stored} (hf : Finds (f m)) (hroom : m.live < m.limit)
    (h : insertFrom f m = .error e m') : e.IsMissing := by
  rcases insertFrom_error.1 h with ⟨hf', -⟩ | ⟨v, -, hinsert⟩
  · exact Outcome.of_error hf hf'
  · exact absurd (insert_error.1 hinsert).1 (Nat.not_le.2 hroom)

/-- **An accessor without a new handle fails only if it finds nothing.** -/
theorem isMissing_of_created_nil {r : Request} (hr : ∀ a, r.created a = []) (h : call r m = .error e m') :
    e.IsMissing := by
  cases r with
  | isNull k | type k =>
    unfold call at h
    refine isMissing_of_inspect ?_ h
    exact Stored.finds_map (m.finds_find? k) _
  | payload k =>
    unfold call at h
    refine isMissing_of_inspect ?_ h
    exact m.finds_bind k Stored.finds_asPayload
  | count c k =>
    unfold call at h
    refine isMissing_of_inspect ?_ h
    exact m.finds_bind k (Stored.finds_count? c)
  | name c k i =>
    unfold call at h
    refine isMissing_of_inspect ?_ h
    exact m.finds_bind k (Stored.finds_name? c · i)
  | execute => cases hr ⟨[], [[⟨0⟩]]⟩
  | _ => cases hr ⟨0⟩

theorem isMissing_of_item {i : Item} {k : Handle} {index : Nat} (hroom : m.live < m.limit)
    (h : call (.item i k index) m = .error e m') : e.IsMissing := by
  unfold call at h
  refine isMissing_of_insertFrom ?_ hroom h
  exact m.finds_bind k (Stored.finds_item? i · index)

theorem isMissing_of_role {r : Role} {k : Handle} (hroom : m.live < m.limit) (h : call (.role r k) m = .error e m') :
    e.IsMissing := by
  unfold call at h
  refine isMissing_of_insertFrom ?_ hroom h
  exact m.finds_bind k (Stored.finds_role? r)

end Memory

/-! ## Runs with room -/

/-- With room for `n` more handles, the run does not fail for a full table, leaves the table as it found it, and is the
run on an engine with any higher limit. -/
def Fits (n : Nat) (p q : Convert Memory α) : Prop :=
  ∀ (m : Memory) (limit : Nat), m.Issued → m.live + n ≤ m.limit → m.limit ≤ limit → Ends (p m)
    (fun a m' => Adds m [] m' ∧ q (m.withLimit limit) = .ok a (m'.withLimit limit))
    fun e m' => Adds m [] m' ∧ ¬Crowded 0 e ∧ q (m.withLimit limit) = .error e (m'.withLimit limit)

/-- With room for one more handle, the run takes one or fails as on an engine with any higher limit. -/
def Memory.Takes (p : Convert Memory Handle) : Prop :=
  ∀ (m : Memory) (limit : Nat), m.Issued → m.live < m.limit → m.limit ≤ limit → Ends (p m)
    (fun h m' => (∃ v, Adds m [(h, v)] m') ∧ p (m.withLimit limit) = .ok h (m'.withLimit limit))
    fun e m' => Adds m [] m' ∧ ¬Crowded 0 e ∧ p (m.withLimit limit) = .error e (m'.withLimit limit)

theorem Failure.not_isFull_of_isMissing {e : Failure} {limit : Nat} (h : e.IsMissing) : ¬e.IsFull limit := by
  rintro ⟨n, -, rfl⟩
  exact h

theorem Crowded.isForeign {e : ConvertError} {limit : Nat} (h : Crowded limit e) : ¬e.IsOwn := by
  obtain ⟨why, -, hcause | ⟨kind, hcause⟩⟩ := h
  · rw [ConvertError.IsOwn, hcause]
    nofun
  · rw [ConvertError.IsOwn, hcause]
    nofun

/-- A request that fails only where nothing is found is answered alike with a higher limit. -/
theorem Memory.ends_ask {r : Request} (hr : r.operation ≠ .execute) {m : Memory} {limit : Nat} (hm : m.Issued)
    (hlimit : m.limit ≤ limit) (hmissing : ∀ e m', call r m = .error e m' → e.IsMissing) : Ends (ask r m)
    (fun a m' => (∃ es, es.map Prod.fst = r.created a ∧ Adds m es m') ∧
      ask r (m.withLimit limit) = .ok a (m'.withLimit limit))
    fun e m' => Adds m [] m' ∧ ¬Crowded 0 e ∧ ask r (m.withLimit limit) = .error e (m'.withLimit limit) := by
  have hscales := scales_call hr m limit hlimit
  simp only [ask, askOr, EStateM.adaptExcept]
  cases hcall : (Engine.call r : Call Memory r.Reply) m with
  | ok a m' =>
    rw [hcall] at hscales
    exact ⟨adds_of_call_ok hm hcall, by rw [hscales.2]⟩
  | error e m' =>
    rw [hcall] at hscales
    have he := hmissing e m' hcall
    have hlifted := hscales.resolve_right (Failure.not_isFull_of_isMissing he)
    refine ⟨adds_of_call_error hm hcall, ?_, by rw [hlifted]⟩
    rintro ⟨why, hfull, hcause | ⟨kind, hcause⟩⟩
    · cases hcause
      exact Failure.not_isFull_of_isMissing he hfull
    · cases hcause

theorem Memory.takes_item (i : Item) (h : Handle) (index : Nat) : Takes (itemOf i h index) := by
  intro m limit hm hroom hlimit
  exact (ends_ask (r := .item i h index) nofun hm hlimit fun e m' => isMissing_of_item hroom).mono
    (fun _ _ hk => ⟨exists_entry hk.1, hk.2⟩) fun _ _ he => he

theorem Memory.takes_role (r : Role) (h : Handle) : Takes (roleOf r h) := by
  intro m limit hm hroom hlimit
  exact (ends_ask (r := .role r h) nofun hm hlimit fun e m' => isMissing_of_role hroom).mono
    (fun _ _ hk => ⟨exists_entry hk.1, hk.2⟩) fun _ _ he => he

namespace Fits

variable {p q : Convert Memory α}

theorem mono (h : Fits k p q) (hn : k ≤ n) : Fits n p q :=
  fun m limit hm hroom hlimit => h m limit hm (Nat.le_trans (Nat.add_le_add_left hn _) hroom) hlimit

theorem bind {f f' : α → Convert Memory β} (h : Fits n p q) (hf : ∀ a, Fits n (f a) (f' a)) :
    Fits n (p >>= f) (q >>= f') := by
  intro m limit hm hroom hlimit
  refine (h m limit hm hroom hlimit).bind (fun a m₁ ha => ?_) fun e m₁ he =>
    ⟨he.1, he.2.1, by simp only [Bind.bind, EStateM.bind, he.2.2]⟩
  obtain ⟨hadds, hq⟩ := ha
  have hlive := hadds.live_eq
  have hlimit' := hadds.limit_eq
  rw [List.length_nil, Nat.add_zero] at hlive
  have hbind : (q >>= f') (m.withLimit limit) = f' a (m₁.withLimit limit) := by
    simp only [Bind.bind, EStateM.bind, hq]
  rw [hbind]
  refine (hf a m₁ limit hadds.issued_after (by omega) (by omega)).mono (fun _ _ hb => ⟨hadds.trans hb.1, hb.2⟩)
    fun _ _ hb => ⟨hadds.trans hb.1, hb.2⟩

theorem within (place : Place) (h : Fits n p q) : Fits n (p.within place) (q.within place) := by
  intro m limit hm hroom hlimit
  refine ((h m limit hm hroom hlimit).mono (fun a m' ha => ?_) fun _ _ he => he).adapt fun e m' he => ?_
  · exact ⟨ha.1, by simp only [Convert.within, EStateM.adaptExcept, ha.2]⟩
  · refine ⟨he.1, ?_, by simp only [Convert.within, EStateM.adaptExcept, he.2.2]⟩
    rw [Crowded, ConvertError.cause_within]
    exact he.2.1

/-- A handle that is held takes room for one. -/
theorem holding {acquire : Convert Memory Handle} {f f' : Handle → Convert Memory α} (ha : Memory.Takes acquire)
    (hf : ∀ h, Fits n (f h) (f' h)) : Fits (n + 1) (Convert.holding acquire f) (Convert.holding acquire f') := by
  intro m limit hm hroom hlimit
  refine (ha m limit hm (by omega) hlimit).bind (fun h m₁ hh => ?_) fun e m₁ he =>
    ⟨he.1, he.2.1, by simp only [Convert.holding, Bind.bind, EStateM.bind, he.2.2]⟩
  obtain ⟨⟨v, hadds⟩, hacquire⟩ := hh
  have hlive : m₁.live = m.live + 1 := hadds.live_eq
  have hlimit' := hadds.limit_eq
  refine (hf h m₁ limit hadds.issued_after (by omega) (by omega)).releasing (fun a m₂ h₂ => ?_) fun e m₂ h₂ => ?_
  · refine ⟨(hadds.trans h₂.1).destroy, ?_⟩
    simp only [Convert.holding, Bind.bind, EStateM.bind, hacquire, Convert.releasing, h₂.2, Memory.destroyAll_withLimit]
  · refine ⟨(hadds.trans h₂.1).destroy, h₂.2.1, ?_⟩
    simp only [Convert.holding, Bind.bind, EStateM.bind, hacquire, Convert.releasing, h₂.2.2,
      Memory.destroyAll_withLimit]

end Fits

/-- **Decoders fit into the room that their levels allow.** -/
theorem lockstep_fits (c : Config) : Lockstep (σ := Memory) (τ := Memory) c c 0 Fits where
  blobLength_eq := rfl
  mono := .mono
  value _ _ _ hm _ _ := ⟨.refl hm, rfl⟩
  raise he _ _ hm _ _ := ⟨.refl hm, fun hfull => hfull.isForeign he, rfl⟩
  tooDeep hq _ _ hm _ _ := by
    rw [hq rfl]
    refine ⟨.refl hm, ?_, rfl⟩
    rintro ⟨why, -, hcause | ⟨kind, hcause⟩⟩ <;> cases hcause
  request {r _} hr m limit hm _ hlimit := by
    have hexecute : r.operation ≠ .execute := by
      intro hop
      cases r with
      | execute => cases hr ⟨[], [[⟨0⟩]]⟩
      | _ => cases hop
    refine (Memory.ends_ask hexecute hm hlimit fun e m' => Memory.isMissing_of_created_nil hr).mono (fun a m' ha => ?_)
      fun _ _ he => he
    obtain ⟨⟨es, hes, hadds⟩, hask⟩ := ha
    rw [hr a] at hes
    cases List.map_eq_nil_iff.1 hes
    exact ⟨hadds, hask⟩
  bind := .bind
  within := .within
  item i h index := .holding (Memory.takes_item i h index)
  role r h := .holding (Memory.takes_role r h)

/-! ## Decoders -/

/-- A decoder that needs `n` handles: no more are live at any moment than were before and `n`, whether there is room or
not; and with room for `n` the table does not fill up and no higher limit makes a difference. -/
structure Frugal (n : Nat) (counted : Convert Gauged α) (plain : Convert Memory α) : Prop where
  tracks : Tracks n counted plain
  fits : Fits n plain plain

/-- **Decoding needs two handles for each level**, by the tag and into every type, however wide the value is. -/
theorem frugal_decoding (c : Config) (h : Handle) :
    Frugal (2 * c.maxDepth) (Read.value c h) (Read.value c h) ∧
      ∀ t : Target, Frugal (2 * c.maxDepth) (t.read c h) (t.read c h) :=
  ⟨⟨(lockstep_tracks c).valueAt c.maxDepth h, (lockstep_fits c).valueAt c.maxDepth h⟩,
    fun t => ⟨(lockstep_tracks c).decode t c.maxDepth h, (lockstep_fits c).decode t c.maxDepth h⟩⟩

/-- An engine that holds a map of one entry and has room for two more handles. -/
def oneEntry : Memory where
  entries := [(⟨1⟩, .map (.map (.plain .string) (.plain .bool)) [(.payload (.string "k"), .payload (.bool true))])]
  next := 2
  limit := 3

/-- A map needs room for a key and a value, and with it no higher limit makes a difference. -/
theorem frugal_decoding_oneEntry : ∃ v m', Read.value { maxDepth := 1 } ⟨1⟩ oneEntry = .ok v m' ∧
    Read.value { maxDepth := 1 } ⟨1⟩ (oneEntry.withLimit 1000) = .ok v (m'.withLimit 1000) := by
  have hissued : oneEntry.Issued := fun e he => by
    rw [List.mem_singleton.1 he]
    decide
  have hfits := (frugal_decoding { maxDepth := 1 } ⟨1⟩).1.fits oneEntry 1000 hissued (by decide) (by decide)
  have hok : ∃ v m', Read.value { maxDepth := 1 } ⟨1⟩ oneEntry = .ok v m' := ⟨_, _, rfl⟩
  obtain ⟨v, m', hread⟩ := hok
  rw [hread] at hfits
  exact ⟨v, m', hread, hfits.2⟩

/-- With room for one handle the value of the entry cannot be had, so two for a level is the least. -/
example : ∃ m', Read.value { maxDepth := 1 } ⟨1⟩ (oneEntry.withLimit 2) =
    .error ⟨.engine (.tableFull 2), []⟩ m' := ⟨_, rfl⟩

end ValueBridge
