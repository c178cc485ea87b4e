import ValueBridge.Proofs.Convert.Decoded
import ValueBridge.Proofs.Indexed
import ValueBridge.Query.Rows
/-!
# What a row shows

`Row.Shows` says in one list what a row holds under the names of its columns, a host value or an error in each cell: by
index, all cells in order, all cells with their names, and by name they are what the list says.  A row shows what its
cells are decoded as, where the errors name the columns (`Row.shows_of_gives`).
-/
namespace ValueBridge

open ValueBridge.Convert Memory

variable {ε ε' α β γ : Type} {m m' : Memory}

/-! ## Computations with one result -/

namespace Gives

theorem pure (hm : m.Issued) (a : α) : Gives m (pure a : EStateM ε Memory α) (.ok a) := ⟨m, .refl hm, rfl⟩

theorem bind {p : EStateM ε Memory α} {f : α → EStateM ε Memory β} {r : Except ε α} {g : α → Except ε β}
    (hp : Gives m p r) (hf : ∀ a m', Adds m [] m' → Gives m' (f a) (g a)) : Gives m (p >>= f) (r.bind g) := by
  obtain ⟨m₁, hadds, hp⟩ := hp
  cases r with
  | ok a =>
    obtain ⟨m₂, hadds', hf⟩ := hf a m₁ hadds
    refine ⟨m₂, hadds.trans hadds', ?_⟩
    simp only [Bind.bind, EStateM.bind, hp]
    exact hf
  | error e =>
    refine ⟨m₁, hadds, ?_⟩
    simp only [Bind.bind, EStateM.bind, hp]
    rfl

theorem map {p : EStateM ε Memory α} {r : Except ε α} (f : α → β) (hp : Gives m p r) :
    Gives m (p >>= fun a => Pure.pure (f a)) (r.map f) := by
  have hbind : Gives m (p >>= fun a => Pure.pure (f a)) (r.bind fun a => .ok (f a)) :=
    hp.bind fun a m' hadds => pure hadds.issued_after (f a)
  cases r <;> exact hbind

theorem adapt {p : EStateM ε Memory α} {r : Except ε α} (f : ε → ε') (hp : Gives m p r) :
    Gives m (p.adaptExcept f) (r.mapError f) := by
  obtain ⟨m₁, hadds, hp⟩ := hp
  refine ⟨m₁, hadds, ?_⟩
  unfold EStateM.adaptExcept
  rw [hp]
  cases r <;> rfl

/-- Results one after the other, up to the first error. -/
theorem mapM {f : β → EStateM ε Memory α} {g : γ → Except ε α} : ∀ {bs : List β} {cs : List γ} {m : Memory},
    List.Forall₂ (fun b c => ∀ m', Adds m [] m' → Gives m' (f b) (g c)) bs cs → m.Issued →
    Gives m (bs.mapM f) (cs.mapM g)
  | [], _, m, .nil, hm => pure hm []
  | b :: bs, c :: cs, m, .cons h hs, hm => by
    rw [List.mapM_cons, List.mapM_cons]
    refine (h m (.refl hm)).bind fun a m₁ hadds => ?_
    have hrest : List.Forall₂ (fun b c => ∀ m', Adds m₁ [] m' → Gives m' (f b) (g c)) bs cs :=
      hs.imp fun _ _ h m' hadds' => h m' (hadds.trans hadds')
    refine (mapM hrest hadds.issued_after).bind fun as m₂ hadds' => pure hadds'.issued_after (a :: as)

end Gives

/-! ## Rows -/

namespace Row

/-- What a cell is decoded as; an error names the column. -/
def inColumn (column : String) (r : Except ConvertError α) : Except QueryError α :=
  r.mapError fun e => (QueryError.conversion e).within (.column column)

/-- Naming the column keeps the kind of an error. -/
theorem kind?_within (place : Place) (e : ConvertError) :
    ((QueryError.conversion e).within place).kind? = some e.kind :=
  congrArg some (ConvertError.kind_within place e)

/-- The row shows the list, in every way in which it can be read. -/
structure Shows (c : Config) (r : Row) (now : Memory) (shown : List (String × Except QueryError HostValue)) : Prop where
  value : ∀ i p, shown[i]? = some p → Gives now (r.value c i) p.2
  toList : Gives now (r.toList c) (shown.mapM Prod.snd)
  toPairs : Gives now (r.toPairs c) (shown.mapM fun p => p.2.map (p.1, ·))
  getByName : ∀ column a, shown.lookup column = some a → Gives now (r.getByName c .host column) a

variable {c : Config} {now : Memory} {ps : List (String × Handle × Except ConvertError HostValue)}

/-- **A row shows what its cells are decoded as.** -/
theorem shows_of_gives (hnow : now.Issued)
    (h : ∀ p ∈ ps, ∀ m', Adds now [] m' → Gives m' (Read.value c p.2.1) p.2.2) :
    Shows c ⟨ps.map (·.1), ps.map (·.2.1)⟩ now (ps.map fun p => (p.1, inColumn p.1 p.2.2)) := by
  have hcolumn : ∀ i p, ps[i]? = some p → Row.columnName ⟨ps.map (·.1), ps.map (·.2.1)⟩ i = p.1 := by
    intro i p hp
    rw [Row.columnName, List.getD_eq_getElem?_getD, List.getElem?_map, hp]
    rfl
  have hvalue : ∀ i p, ps[i]? = some p → ∀ m', Adds now [] m' →
      Gives m' (Row.value c ⟨ps.map (·.1), ps.map (·.2.1)⟩ i) (inColumn p.1 p.2.2) := by
    intro i p hp m' hadds
    have hcell : Row.cell? ⟨ps.map (·.1), ps.map (·.2.1)⟩ i = .ok p.2.1 := by
      rw [Row.cell?, List.getElem?_map, hp]
      rfl
    rw [Row.value, Row.cellBy, hcell, hcolumn i p hp]
    exact (h p (List.mem_of_getElem? hp) m' hadds).adapt _
  have hcells : (Row.mk (ps.map (·.1)) (ps.map (·.2.1))).cells.length = ps.length := List.length_map _
  refine ⟨fun i q hq => ?value, ?toList, ?toPairs, fun column a ha => ?getByName⟩
  case value =>
    rw [List.getElem?_map, Option.map_eq_some_iff] at hq
    obtain ⟨p, hp, rfl⟩ := hq
    exact hvalue i p hp now (.refl hnow)
  case toList =>
    rw [Row.toList, hcells]
    refine .mapM ?_ hnow
    rw [List.forall₂_map_right_iff]
    exact (forall₂_range ps).imp hvalue
  case toPairs =>
    rw [Row.toPairs, hcells]
    refine .mapM ?_ hnow
    rw [List.forall₂_map_right_iff]
    refine (forall₂_range ps).imp fun i p hp m' hadds => ?_
    rw [hcolumn i p hp]
    exact (hvalue i p hp m' hadds).map (Prod.mk p.1)
  case getByName =>
    obtain ⟨i, hi, hq⟩ := findIdx?_of_lookup ha
    rw [List.getElem?_map, Option.map_eq_some_iff] at hq
    obtain ⟨p, hp, heq⟩ := hq
    cases heq
    have hfind : (ps.map (·.1)).findIdx? (· == p.1) = some i := by rwa [List.map_map] at hi
    rw [Row.getByName]
    dsimp only
    rw [hfind]
    exact hvalue i p hp now (.refl hnow)

end Row

end ValueBridge
