import ValueBridge.Proofs.Convert.Answers
import ValueBridge.Proofs.Engine.Reachable
import ValueBridge.Proofs.Indexed
import ValueBridge.Proofs.Stored.Reading
/-!
# Decoders with a foreseen end

`Yields m p faults a` says that a computation ends with the first of the faults, or with `a` if there are none, and
leaves the table of live handles as it was.  `Reads read v n faults a` says so of a decoder and of the value `v` behind
any handle of any engine in memory that has room for `n` more handles.  The combinators of the decoders keep such a
description (`Reads.elements`, `Reads.named`, `Reads.entries`, `Reads.path`).
-/
namespace ValueBridge

open ValueBridge.Convert Memory

variable {α β γ : Type} {m m' : Memory} {a : α} {b : β} {faults faults' : List ConvertError}

/-! ## Computations with a foreseen end -/

/-- The computation ends with the first fault, or without faults with `a`, and leaves the table as it was. -/
def Yields (m : Memory) (p : Convert Memory α) (faults : List ConvertError) (a : α) : Prop :=
  ∃ m', Adds m [] m' ∧ p m = match faults with
    | [] => .ok a m'
    | e :: _ => .error e m'

namespace Yields

theorem pure (hm : m.Issued) (a : α) : Yields m (pure a) [] a := ⟨m, .refl hm, rfl⟩

theorem throw (hm : m.Issued) (e : ConvertError) (a : α) : Yields m (throw e) [e] a := ⟨m, .refl hm, rfl⟩

theorem bind {p : Convert Memory α} {f : α → Convert Memory β} (h : Yields m p faults a)
    (hf : ∀ m', Adds m [] m' → Yields m' (f a) faults' b) : Yields m (p >>= f) (faults ++ faults') b := by
  obtain ⟨m₁, hadds, hp⟩ := h
  cases faults with
  | nil =>
    obtain ⟨m₂, hadds', hf⟩ := hf m₁ hadds
    exact ⟨m₂, hadds.trans hadds', by rw [bind_of_ok hp]; exact hf⟩
  | cons e rest => exact ⟨m₁, hadds, by rw [bind_of_error hp]; rfl⟩

theorem andThen {p : Convert Memory α} {f : α → Convert Memory β} (h : Yields m p [] a)
    (hf : ∀ m', Adds m [] m' → Yields m' (f a) faults b) : Yields m (p >>= f) faults b := h.bind hf

theorem map {p : Convert Memory α} (f : α → β) (h : Yields m p faults a) : Yields m (f <$> p) faults (f a) := by
  have hbind : Yields m (p >>= fun a => Pure.pure (f a)) (faults ++ []) (f a) :=
    h.bind fun m' hadds => pure hadds.issued_after (f a)
  rw [List.append_nil] at hbind
  exact hbind

theorem within {p : Convert Memory α} (place : Place) (h : Yields m p faults a) :
    Yields m (p.within place) (faults.map (ConvertError.within place)) a := by
  obtain ⟨m₁, hadds, hp⟩ := h
  refine ⟨m₁, hadds, ?_⟩
  unfold Convert.within EStateM.adaptExcept
  rw [hp]
  cases faults <;> rfl

theorem ofSettled {p : Convert Memory α} {r : Except Failure α} (hm : m.Issued) (hp : p m = settled r m)
    (hr : r = .ok a) :
    Yields m p [] a :=
  ⟨m, .refl hm, by rw [hp, hr]; rfl⟩

theorem eq_ok {p : Convert Memory α} (h : Yields m p [] a) : ∃ m', p m = .ok a m' ∧ m'.entries = m.entries := by
  obtain ⟨m', hadds, hp⟩ := h
  exact ⟨m', hp, hadds.entries_nil⟩

theorem eq_error {p : Convert Memory α} (h : Yields m p faults a) (hfaults : faults ≠ []) :
    ∃ e m', p m = .error e m' ∧ m'.entries = m.entries ∧ faults.head? = some e := by
  obtain ⟨m', hadds, hp⟩ := h
  cases faults with
  | nil => exact absurd rfl hfaults
  | cons e rest => exact ⟨e, m', hp, hadds.entries_nil, rfl⟩

end Yields

theorem room_of_adds {n : Nat} (h : Adds m [] m') (hroom : m.live + n ≤ m.limit) : m'.live + n ≤ m'.limit := by
  rwa [h.live_eq, h.limit_eq]

/-! ## Holding a part -/

/-- The computation takes over a new handle for `w`. -/
def Acquires (m : Memory) (p : Convert Memory Handle) (w : Stored) : Prop :=
  ∃ k m₁, p m = .ok k m₁ ∧ Adds m [(k, w)] m₁

theorem insert_of_room {w : Stored} (hroom : m.live < m.limit) : ∃ k m₁, Memory.insert w m = .ok k m₁ := by
  unfold Memory.insert
  rw [if_neg (Nat.not_le_of_lt hroom)]
  exact ⟨_, _, rfl⟩

theorem insertFrom_of_room {f : Memory → Except Failure Stored} {w : Stored} (hm : m.Issued) (hf : f m = .ok w)
    (hroom : m.live < m.limit) : ∃ k m₁, Memory.insertFrom f m = .ok k m₁ ∧ Adds m [(k, w)] m₁ := by
  obtain ⟨k, m₁, hk⟩ := insert_of_room (w := w) hroom
  exact ⟨k, m₁, insertFrom_ok.2 ⟨w, hf, hk⟩, Adds.insert hm hk⟩

theorem acquires_insertFrom {f : Memory → Except Failure Stored} {w : Stored} (hm : m.Issued) (hf : f m = .ok w)
    (hroom : m.live < m.limit) :
    Acquires m (EStateM.adaptExcept (fun e => ⟨.engine e, []⟩) (Memory.insertFrom f)) w := by
  obtain ⟨k, m₁, hk, hadds⟩ := insertFrom_of_room hm hf hroom
  refine ⟨k, m₁, ?_, hadds⟩
  simp only [EStateM.adaptExcept, hk]

theorem acquires_item {h : Handle} {v w : Stored} {i : Item} {index : Nat} (hm : m.Issued) (hv : m.find? h = .ok v)
    (hw : v.item? i index = .ok w) (hroom : m.live < m.limit) : Acquires m (itemOf i h index) w :=
  acquires_insertFrom (f := fun m => (m.find? h).bind (Stored.item? i · index)) hm (by rw [hv]; exact hw) hroom

theorem acquires_role {h : Handle} {v w : Stored} {r : Role} (hm : m.Issued) (hv : m.find? h = .ok v)
    (hw : v.role? r = .ok w) (hroom : m.live < m.limit) : Acquires m (roleOf r h) w :=
  acquires_insertFrom (f := fun m => (m.find? h).bind (Stored.role? r)) hm (by rw [hv]; exact hw) hroom

theorem Yields.holding {acquire : Convert Memory Handle} {use : Handle → Convert Memory α} {w : Stored}
    (ha : Acquires m acquire w) (hu : ∀ k m₁, Adds m [(k, w)] m₁ → Yields m₁ (use k) faults a) :
    Yields m (Convert.holding acquire use) faults a := by
  obtain ⟨k, m₁, hk, hadds⟩ := ha
  obtain ⟨m₂, hadds', huse⟩ := hu k m₁ hadds
  refine ⟨m₂.destroy k, (hadds.trans hadds').destroy, ?_⟩
  unfold Convert.holding
  rw [bind_of_ok hk]
  unfold Convert.releasing
  rw [huse]
  cases faults <;> rfl

/-! ## Loops -/

theorem yields_forIndices {body : Nat → Convert Memory α} : ∀ (parts : List (List ConvertError × α)) (start : Nat)
    {m : Memory}, m.Issued → (∀ i (hi : i < parts.length) m', Adds m [] m' →
      Yields m' (body (start + i)) parts[i].1 parts[i].2) →
    Yields m (forIndices body start parts.length) (parts.flatMap Prod.fst) (parts.map Prod.snd)
  | [], _, _, hm, _ => .pure hm []
  | part :: parts, start, m, hm, h => by
    rw [List.flatMap_cons, List.map_cons, List.length_cons, forIndices]
    refine (h 0 (Nat.succ_pos _) m (.refl hm)).bind fun m₁ h₁ => ?_
    refine (yields_forIndices parts (start + 1) h₁.issued_after fun i hi m' h' => ?_).map (part.2 :: ·)
    have hnext := h (i + 1) (Nat.succ_lt_succ hi) m' (h₁.trans h')
    rwa [show start + (i + 1) = start + 1 + i by omega] at hnext

/-! ## Decoders of one value -/

/-- What the decoder does with the value `v`, on an engine with room for `n` handles. -/
def Reads (read : Handle → Convert Memory α) (v : Stored) (n : Nat) (faults : List ConvertError) (a : α) : Prop :=
  ∀ m h, m.Issued → m.find? h = .ok v → m.live + n ≤ m.limit → Yields m (read h) faults a

namespace Reads

variable {read : Handle → Convert Memory α} {v : Stored} {n k : Nat}

theorem mono (h : Reads read v n faults a) (hn : n ≤ k) : Reads read v k faults a :=
  fun m h' hm hv hroom => h m h' hm hv (by omega)

/-- What is read in spite of faults does not matter. -/
theorem congr (h : Reads read v n faults a) {b : α} (hab : faults = [] → a = b) : Reads read v n faults b := by
  cases faults with
  | nil => exact hab rfl ▸ h
  | cons e rest => exact h

theorem largest {items : List β} {d : β → Nat} {w : β} (h : Reads read v (2 * min n (d w)) faults a) (hw : w ∈ items) :
    Reads read v (2 * min n (Stored.largest (items.map d))) faults a :=
  h.mono (by
    have hle := Stored.le_largest (d := d) hw
    omega)

theorem map (f : α → β) (h : Reads read v n faults a) : Reads (fun h => f <$> read h) v n faults (f a) :=
  fun m h' hm hv hroom => (h m h' hm hv hroom).map f

/-- A value is read behind the handle it has just been built under. -/
theorem added {m' : Memory} {k : Handle} (h : Reads read v n faults a) (hadds : Adds m [(k, v)] m')
    (hroom : m.live + 1 + n ≤ m.limit) : Yields m' (read k) faults a := by
  refine h m' k hadds.issued_after (hadds.find?_of_mem List.mem_cons_self) ?_
  rw [hadds.live_eq, hadds.limit_eq, List.length_singleton]
  omega

theorem held {w : Stored} {acquire : Convert Memory Handle} (h : Reads read w n faults a) (ha : Acquires m acquire w)
    (hroom : m.live + (n + 1) ≤ m.limit) : Yields m (Convert.holding acquire read) faults a :=
  .holding ha fun _ _ hadds => h.added hadds (by omega)

theorem within (place : Place) (h : Reads read v n faults a) :
    Reads (fun h => (read h).within place) v n (faults.map (ConvertError.within place)) a :=
  fun m h' hm hv hroom => (h m h' hm hv hroom).within place

theorem nested {c : Config} {read : Nat → Handle → Convert Memory α} {faults : Nat → List ConvertError} {left : Nat}
    (h : ∀ inner, left = inner + 1 → Reads (read inner) v n (faults inner) a) :
    Reads (Read.nested c read left) v n (Stored.nestedFaults c faults left) a := by
  cases left with
  | zero => exact fun m h' hm hv hroom => .throw hm c.tooDeep a
  | succ inner => exact h inner rfl

theorem nested_succ {c : Config} {read : Nat → Handle → Convert Memory α} {inner : Nat}
    (h : Reads (read inner) v n faults a) : Reads (Read.nested c read (inner + 1)) v n faults a := fun m h' => h m h'

theorem unlessNull {read : Tag → Handle → Convert Memory HostValue} {a : HostValue} (hnull : v.isNull = false)
    (h : Reads (read v.type.tag) v n faults a) : Reads (Read.unlessNull read) v n faults a := by
  intro m h' hm hv hroom
  obtain ⟨m₁, hadds, hread⟩ := h m h' hm hv hroom
  refine ⟨m₁, hadds, ?_⟩
  rw [unlessNull_eq, hv]
  dsimp only
  rw [hnull, if_neg Bool.false_ne_true, hread]

theorem tagged {accepted : List Tag} (hnull : v.isNull = false) (htag : v.type.tag ∈ accepted)
    (h : Reads read v n faults a) : Reads (Read.tagged accepted read) v n faults a := by
  intro m h' hm hv hroom
  obtain ⟨m₁, hadds, hread⟩ := h m h' hm hv hroom
  have hexpect : Read.expectTag accepted h' m = .ok () m := by
    rw [expectTag_eq, hv]
    dsimp only
    rw [hnull, if_neg Bool.false_ne_true, if_pos (List.contains_iff_mem.2 htag)]
  refine ⟨m₁, hadds, ?_⟩
  unfold Read.tagged
  rw [bind_of_ok hexpect, hread]

/-! ## Collections -/

theorem at?_eq {items : List α} {i : Nat} (hi : i < items.length) : Stored.at? items i = .ok items[i] := by
  rw [Stored.at?, List.getElem?_eq_getElem hi]

theorem map_at? {items : List α} (f : α → β) (i : Nat) (hi : i < items.length) :
    (Stored.at? items i).map f = .ok (f items[i]) := by
  rw [at?_eq hi]
  rfl

theorem map_at?_map (g : α → β) (f : β → γ) {items : List α} (i : Nat) (hi : i < items.length) :
    (Stored.at? (items.map g) i).map f = .ok (f (g items[i])) := by
  rw [Stored.at?, List.getElem?_map, List.getElem?_eq_getElem hi]
  rfl

/-- Parts in a row, each with its place, its faults and what it reads as. -/
theorem yields_parts {m : Memory} {items : List β} {body : Nat → Convert Memory α} {place : Nat → β → Place}
    {fs : β → List ConvertError} {f : β → α} (hm : m.Issued)
    (h : ∀ i (hi : i < items.length) m', Adds m [] m' →
      Yields m' (body i) ((fs items[i]).map (ConvertError.within (place i items[i]))) (f items[i])) :
    Yields m (forIndices body 0 items.length) (Stored.faultsAt (items.mapIdx fun i b => (place i b, fs b)))
      (items.map f) := by
  let parts := items.mapIdx fun i b => ((fs b).map (ConvertError.within (place i b)), f b)
  have hfaults : parts.flatMap Prod.fst = Stored.faultsAt (items.mapIdx fun i b => (place i b, fs b)) := by
    rw [Stored.faultsAt, List.flatMap_def, List.flatMap_def, map_mapIdx, map_mapIdx]
  have hvalues : parts.map Prod.snd = items.map f := by
    rw [map_mapIdx, mapIdx_const]
  have hparts : Yields m (forIndices body 0 parts.length) (parts.flatMap Prod.fst) (parts.map Prod.snd) :=
    yields_forIndices parts 0 hm fun i hi m' hadds => by
      rw [Nat.zero_add, List.getElem_mapIdx]
      exact h i (by simpa [parts] using hi) m' hadds
  rwa [hfaults, hvalues, List.length_mapIdx] at hparts

theorem elements {t : LogicalType} {items : List β} {g : β → Stored} {fs : β → List ConvertError} {f : β → α}
    (hsize : ∀ n, t.arraySize? = some n → n = items.length) (h : ∀ b ∈ items, Reads read (g b) n (fs b) (f b)) :
    Reads (Read.elements read) (.list t (items.map g)) (n + 1) (Stored.faultsByIndex .element (items.map fs))
      (items.map f) := by
  intro m h' hm hv hroom
  have hloop : ∀ m', Adds m [] m' → Yields m' (forIndices (fun i => holding (itemOf .element h' i) fun part =>
      (read part).within (.element i)) 0 items.length) (Stored.faultsByIndex .element (items.map fs)) (items.map f) := by
    rw [Stored.faultsByIndex, mapIdx_map]
    refine fun m' hadds => yields_parts hadds.issued_after fun i hi m'' hadds' => ?_
    have hroom' := room_of_adds (hadds.trans hadds') hroom
    have hitem : (Stored.list t (items.map g)).item? .element i = .ok (g items[i]) := by
      have hlength : i < (items.map g).length := by rwa [List.length_map]
      have hat : Stored.at? (items.map g) i = .ok (items.map g)[i] := at?_eq hlength
      rwa [List.getElem_map] at hat
    exact ((h items[i] (List.getElem_mem hi)).within (.element i)).held
      (acquires_item hadds'.issued_after ((hadds.trans hadds').find?_of_old hv) hitem (by omega)) hroom'
  have htype : Yields m (typeOf h') [] t := .ofSettled hm (typeOf_eq h' m) (by rw [hv]; rfl)
  refine htype.andThen fun m₁ hadds => ?_
  dsimp only
  cases hsize' : t.arraySize? with
  | some k =>
    cases hsize k hsize'
    exact hloop m₁ hadds
  | none =>
    have hcount : Yields m₁ (countOf .list h') [] items.length :=
      .ofSettled hadds.issued_after (countOf_eq .list h' m₁) (by
        rw [hadds.find?_of_old hv, ← List.length_map g]
        rfl)
    exact hcount.andThen fun m₂ hadds' => hloop m₂ (hadds.trans hadds')

theorem nestedElements {c : Config} {t : LogicalType} {read : Nat → Handle → Convert Memory α} {items : List β}
    {g : β → Stored} {d : β → Nat} {fs : β → Nat → List ConvertError} {f : β → α}
    (hsize : ∀ n, t.arraySize? = some n → n = items.length)
    (h : ∀ b ∈ items, ∀ inner, Reads (read inner) (g b) (2 * min inner (d b)) (fs b inner) (f b)) (left : Nat) :
    Reads (Read.nested c (fun left => Read.elements (read left)) left) (.list t (items.map g))
      (2 * min left (Stored.largest (items.map d) + 1))
      (Stored.nestedFaults c (fun inner => Stored.faultsByIndex .element (items.map fun b => fs b inner)) left)
      (items.map f) :=
  .nested fun inner hinner => (elements hsize fun b hb => (h b hb inner).largest hb).mono (by omega)

/-- Fields and properties are read one after the other, each after its name. -/
theorem namedBy {counted : Counted} {names : Named} {item : Item} {place : String → Place} {items : List β}
    {g : β → String × Stored} {fs : β → List ConvertError} {f : β → α} (hcount : v.count? counted = .ok items.length)
    (hname : ∀ i (hi : i < items.length), v.name? names i = .ok (g items[i]).1)
    (hitem : ∀ i (hi : i < items.length), v.item? item i = .ok (g items[i]).2)
    (h : ∀ b ∈ items, Reads read (g b).2 n (fs b) (f b)) :
    Reads (Read.named counted names item place read) v (n + 1)
      (Stored.faultsAt (items.map fun b => (place (g b).1, fs b))) (items.map fun b => ((g b).1, f b)) := by
  intro m h' hm hv hroom
  have hcounted : Yields m (countOf counted h') [] items.length :=
    .ofSettled hm (countOf_eq counted h' m) (by rw [hv]; exact hcount)
  refine hcounted.andThen fun m₁ hadds => ?_
  have hplaces : Stored.faultsAt (items.map fun b => (place (g b).1, fs b)) =
      Stored.faultsAt (items.mapIdx fun _ b => (place (g b).1, fs b)) := by rw [mapIdx_const]
  rw [hplaces]
  refine yields_parts hadds.issued_after fun i hi m₂ hadds' => ?_
  have hv₂ := (hadds.trans hadds').find?_of_old hv
  have hnamed : Yields m₂ (nameOf names h' i) [] (g items[i]).1 :=
    .ofSettled hadds'.issued_after (nameOf_eq names h' i m₂) (by rw [hv₂]; exact hname i hi)
  refine hnamed.andThen fun m₃ hadds'' => ?_
  have hall := (hadds.trans hadds').trans hadds''
  have hroom' := room_of_adds hall hroom
  have hpart := ((h items[i] (List.getElem_mem hi)).within (place (g items[i]).1)).map (Prod.mk (g items[i]).1)
  exact hpart.held (acquires_item hadds''.issued_after (hall.find?_of_old hv) (hitem i hi) (by omega)) hroom'

theorem named {counted : Counted} {names : Named} {item : Item} {place : String → Place}
    {fields : List (String × Stored)} {fs : String × Stored → List ConvertError} {f : String × Stored → α}
    (hcount : v.count? counted = .ok fields.length)
    (hname : ∀ i (hi : i < fields.length), v.name? names i = .ok fields[i].1)
    (hitem : ∀ i (hi : i < fields.length), v.item? item i = .ok fields[i].2)
    (h : ∀ p ∈ fields, Reads read p.2 n (fs p) (f p)) :
    Reads (Read.named counted names item place read) v (n + 1)
      (Stored.faultsAt (fields.map fun p => (place p.1, fs p))) (fields.map fun p => (p.1, f p)) :=
  namedBy (g := id) hcount hname hitem h

theorem fields {t : LogicalType} {fields : List (String × Stored)} {fs : String × Stored → List ConvertError}
    {f : String × Stored → α} (h : ∀ p ∈ fields, Reads read p.2 n (fs p) (f p)) :
    Reads (Read.fields read) (.struct t fields) (n + 1) (Stored.faultsAt (fields.map fun p => (.field p.1, fs p)))
      (fields.map fun p => (p.1, f p)) :=
  named rfl (map_at? Prod.fst) (map_at? Prod.snd) h

/-- Entries are read one after the other, key and value of an entry together. -/
theorem entriesBy {t : LogicalType} {items : List γ} {g : γ → Stored × Stored} {key : Handle → Convert Memory α}
    {value : Handle → Convert Memory β} {fk fv : γ → List ConvertError} {k : γ → α} {f : γ → β}
    (hkey : ∀ e ∈ items, Reads key (g e).1 n (fk e) (k e))
    (hvalue : ∀ e ∈ items, Reads value (g e).2 n (fv e) (f e)) :
    Reads (Read.entries key value) (.map t (items.map g)) (n + 2)
      (Stored.faultsByIndex .mapEntry (items.map fun e => fk e ++ fv e)) (items.map fun e => (k e, f e)) := by
  intro m h' hm hv hroom
  have hcounted : Yields m (countOf .map h') [] items.length :=
    .ofSettled hm (countOf_eq .map h' m) (by rw [hv, ← List.length_map g]; rfl)
  refine hcounted.andThen fun m₁ hadds => ?_
  rw [Stored.faultsByIndex, mapIdx_map]
  refine yields_parts hadds.issued_after fun i hi m₂ hadds' => ?_
  have hbefore := hadds.trans hadds'
  have hroom₂ := room_of_adds hbefore hroom
  have hacquire := acquires_item (i := .key) hadds'.issued_after (hbefore.find?_of_old hv)
    (map_at?_map g Prod.fst i hi) (by omega)
  refine .holding hacquire fun k₁ m₃ h₃ => ?_
  have hv₃ := h₃.find?_of_old (hbefore.find?_of_old hv)
  have hlive₃ := h₃.live_eq
  have hlimit₃ := h₃.limit_eq
  rw [List.length_singleton] at hlive₃
  have hacquire' := acquires_item (i := .value) h₃.issued_after hv₃ (map_at?_map g Prod.snd i hi) (by omega)
  refine .holding hacquire' fun k₂ m₄ h₄ => .within _ ?_
  have hlive₄ := h₄.live_eq
  have hlimit₄ := h₄.limit_eq
  rw [List.length_singleton] at hlive₄
  have hk₁ := h₄.find?_of_old (h₃.find?_of_mem List.mem_cons_self)
  refine (hkey items[i] (List.getElem_mem hi) m₄ k₁ h₄.issued_after hk₁ (by omega)).bind fun m₅ h₅ => ?_
  have hk₂ := h₅.find?_of_old (h₄.find?_of_mem List.mem_cons_self)
  have hread := hvalue items[i] (List.getElem_mem hi) m₅ k₂ h₅.issued_after hk₂ (room_of_adds h₅ (by omega))
  exact hread.map (Prod.mk (k items[i]))

theorem entries {t : LogicalType} {items : List (Stored × Stored)} {key : Handle → Convert Memory α}
    {value : Handle → Convert Memory β} {fk fv : Stored × Stored → List ConvertError} {k : Stored × Stored → α}
    {f : Stored × Stored → β} (hkey : ∀ e ∈ items, Reads key e.1 n (fk e) (k e))
    (hvalue : ∀ e ∈ items, Reads value e.2 n (fv e) (f e)) :
    Reads (Read.entries key value) (.map t items) (n + 2)
      (Stored.faultsByIndex .mapEntry (items.map fun e => fk e ++ fv e)) (items.map fun e => (k e, f e)) := by
  have hread := entriesBy (t := t) (g := id) hkey hvalue
  rwa [List.map_id] at hread

/-! ## Graph elements -/

theorem idOf {r : Role} {id : InternalId} (h : v.role? r = .ok (.payload (.id id))) : Reads (Read.idOf r) v 1 [] id := by
  intro m h' hm hv hroom
  refine .holding (acquires_role hm hv h (by omega)) fun k m₁ hadds => ?_
  have hpayload : Yields m₁ (payloadOf k) [] (.id id) :=
    .ofSettled hadds.issued_after (payloadOf_eq k m₁) (by rw [hadds.find?_of_mem List.mem_cons_self]; rfl)
  exact hpayload.andThen fun m₂ hadds' => .pure hadds'.issued_after id

theorem labelOf {r : Role} {label : String} (h : v.role? r = .ok (.payload (.string label))) :
    Reads (Read.labelOf r) v 1 [] label := by
  intro m h' hm hv hroom
  refine .holding (acquires_role hm hv h (by omega)) fun k m₁ hadds => ?_
  have hpayload : Yields m₁ (payloadOf k) [] (.string label) :=
    .ofSettled hadds.issued_after (payloadOf_eq k m₁) (by rw [hadds.find?_of_mem List.mem_cons_self]; rfl)
  exact hpayload.andThen fun m₂ hadds' => .pure hadds'.issued_after label

theorem andThen {next : α → Handle → Convert Memory β} (h : Reads read v n [] a) (hnext : Reads (next a) v n faults b) :
    Reads (fun h => read h >>= fun a => next a h) v n faults b := fun m h' hm hv hroom =>
  (h m h' hm hv hroom).andThen fun m' hadds =>
    hnext m' h' hadds.issued_after (hadds.find?_of_old hv) (room_of_adds hadds hroom)

theorem node {e : Node Stored} {fs : String × Stored → List ConvertError} {f : String × Stored → α}
    (h : ∀ p ∈ e.properties, Reads read p.2 n (fs p) (f p)) :
    Reads (Read.node read) (.node e) (n + 1) (Stored.faultsAt (e.properties.map fun p => (.property p.1, fs p)))
      ⟨e.id, e.label, e.properties.map fun p => (p.1, f p)⟩ := by
  refine ((idOf rfl).mono (Nat.le_add_left 1 n)).andThen (((labelOf rfl).mono (Nat.le_add_left 1 n)).andThen ?_)
  have hproperties : Reads (Read.named .nodeProperties .nodeProperties .nodeProperty .property read) (.node e) (n + 1)
      (Stored.faultsAt (e.properties.map fun p => (.property p.1, fs p))) (e.properties.map fun p => (p.1, f p)) :=
    Reads.named rfl (map_at? Prod.fst) (map_at? Prod.snd) h
  exact hproperties.map (Node.mk e.id e.label)

theorem rel {e : Rel Stored} {fs : String × Stored → List ConvertError} {f : String × Stored → α}
    (h : ∀ p ∈ e.properties, Reads read p.2 n (fs p) (f p)) :
    Reads (Read.rel read) (.rel e) (n + 1) (Stored.faultsAt (e.properties.map fun p => (.property p.1, fs p)))
      ⟨e.id, e.source, e.target, e.label, e.properties.map fun p => (p.1, f p)⟩ := by
  refine ((idOf rfl).mono (Nat.le_add_left 1 n)).andThen (((idOf rfl).mono (Nat.le_add_left 1 n)).andThen
    (((idOf rfl).mono (Nat.le_add_left 1 n)).andThen (((labelOf rfl).mono (Nat.le_add_left 1 n)).andThen ?_)))
  have hproperties : Reads (Read.named .relProperties .relProperties .relProperty .property read) (.rel e) (n + 1)
      (Stored.faultsAt (e.properties.map fun p => (.property p.1, fs p))) (e.properties.map fun p => (p.1, f p)) :=
    Reads.named rfl (map_at? Prod.fst) (map_at? Prod.snd) h
  exact hproperties.map (Rel.mk e.id e.source e.target e.label)

theorem path {p : Path Stored} {nodes : Handle → Convert Memory (List (Node α))}
    {rels : Handle → Convert Memory (List (Rel α))} {ns : List (Node α)} {rs : List (Rel α)}
    (hn : Reads nodes (.list (.list (.plain .node)) (p.nodes.map .node)) n faults ns)
    (hr : Reads rels (.list (.list (.plain .rel)) (p.rels.map .rel)) k faults' rs) :
    Reads (Read.path nodes rels) (.path p) (max n k + 2) (faults ++ faults') ⟨ns, rs⟩ := by
  intro m h' hm hv hroom
  refine .holding (acquires_role (r := .pathNodes) hm hv rfl (by omega)) fun k₁ m₁ h₁ => ?_
  have hlive₁ := h₁.live_eq
  have hlimit₁ := h₁.limit_eq
  rw [List.length_singleton] at hlive₁
  have hacquire := acquires_role (r := .pathRels) h₁.issued_after (h₁.find?_of_old hv) rfl (by omega)
  refine .holding hacquire fun k₂ m₂ h₂ => ?_
  have hlive₂ := h₂.live_eq
  have hlimit₂ := h₂.limit_eq
  rw [List.length_singleton] at hlive₂
  have hk₁ := h₂.find?_of_old (h₁.find?_of_mem List.mem_cons_self)
  refine (hn m₂ k₁ h₂.issued_after hk₁ (by omega)).bind fun m₃ h₃ => ?_
  have hk₂ := h₃.find?_of_old (h₂.find?_of_mem List.mem_cons_self)
  exact (hr m₃ k₂ h₃.issued_after hk₂ (room_of_adds h₃ (by omega))).map (Path.mk ns)

end Reads

end ValueBridge
