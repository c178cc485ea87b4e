import ValueBridge.Engine.Memory
import ValueBridge.Proofs.Results
import Mathlib.Data.List.Nodup
/-!
# The table of live handles

`Adds m es m'` says what `m'` holds more than `m`: the entries `es`, all under numbers that `m` had not issued yet, and
nothing else but the next number is different.  Taking in a value adds its entry (`Adds.insert`), destroying handles
takes their entries away again (`Adds.destroyAll`), and one addition follows another (`Adds.trans`).  When nothing is
added, the table is the one before (`Adds.entries_nil`).
-/
namespace ValueBridge
namespace Memory

/-- Every live handle has a number below the next one. -/
def Issued (m : Memory) : Prop := ∀ e ∈ m.entries, e.1.id < m.next

/-- `m'` is `m` with the entries `es`, which are new. -/
structure Adds (m : Memory) (es : List (Handle × Stored)) (m' : Memory) : Prop where
  issued : m.Issued
  table : ∃ new, new.Perm es ∧ m'.entries = new ++ m.entries
  fresh : ∀ e ∈ es, m.next ≤ e.1.id ∧ e.1.id < m'.next
  nodup : (es.map Prod.fst).Nodup
  next_le : m.next ≤ m'.next
  limit_eq : m'.limit = m.limit
  fixtures_eq : m'.fixtures = m.fixtures
  invalidDestroys_eq : m'.invalidDestroys = m.invalidDestroys

namespace Adds

variable {m m' m'' : Memory} {es fs : List (Handle × Stored)}

theorem refl (hm : m.Issued) : Adds m [] m where
  issued := hm
  table := ⟨[], List.Perm.refl _, rfl⟩
  fresh := fun _ h => by cases h
  nodup := List.nodup_nil
  next_le := Nat.le_refl _
  limit_eq := rfl
  fixtures_eq := rfl
  invalidDestroys_eq := rfl

theorem perm (h : Adds m es m') (hp : es.Perm fs) : Adds m fs m' := by
  obtain ⟨new, hnew, ht⟩ := h.table
  exact { h with
    table := ⟨new, hnew.trans hp, ht⟩
    fresh := fun e he => h.fresh e (hp.mem_iff.2 he)
    nodup := (hp.map Prod.fst).nodup_iff.1 h.nodup }

theorem entries_nil (h : Adds m [] m') : m'.entries = m.entries := by
  obtain ⟨new, hnew, ht⟩ := h.table
  rw [ht, hnew.eq_nil, List.nil_append]

theorem entries_singleton {e : Handle × Stored} (h : Adds m [e] m') : m'.entries = e :: m.entries := by
  obtain ⟨new, hnew, ht⟩ := h.table
  rw [ht, List.perm_singleton.1 hnew, List.singleton_append]

theorem live_eq (h : Adds m es m') : m'.live = m.live + es.length := by
  obtain ⟨new, hnew, ht⟩ := h.table
  rw [live, ht, List.length_append, hnew.length_eq, Nat.add_comm]
  rfl

theorem issued_after (h : Adds m es m') : m'.Issued := by
  obtain ⟨new, hnew, ht⟩ := h.table
  intro e he
  rw [ht, List.mem_append] at he
  rcases he with he | he
  · exact (h.fresh e (hnew.mem_iff.1 he)).2
  · exact Nat.lt_of_lt_of_le (h.issued e he) h.next_le

theorem trans (h : Adds m es m') (h' : Adds m' fs m'') : Adds m (fs ++ es) m'' where
  issued := h.issued
  table := by
    obtain ⟨new, hnew, ht⟩ := h.table
    obtain ⟨new', hnew', ht'⟩ := h'.table
    exact ⟨new' ++ new, hnew'.append hnew, by rw [ht', ht, List.append_assoc]⟩
  fresh := by
    intro e he
    rcases List.mem_append.1 he with he | he
    · exact ⟨Nat.le_trans h.next_le (h'.fresh e he).1, (h'.fresh e he).2⟩
    · exact ⟨(h.fresh e he).1, Nat.lt_of_lt_of_le (h.fresh e he).2 h'.next_le⟩
  nodup := by
    rw [List.map_append, List.nodup_append]
    refine ⟨h'.nodup, h.nodup, fun a ha b hb hab => ?_⟩
    obtain ⟨f, hf, rfl⟩ := List.mem_map.1 ha
    obtain ⟨e, he, rfl⟩ := List.mem_map.1 hb
    have hlt : e.1.id < f.1.id := Nat.lt_of_lt_of_le (h.fresh e he).2 (h'.fresh f hf).1
    rw [hab] at hlt
    exact Nat.lt_irrefl _ hlt
  next_le := Nat.le_trans h.next_le h'.next_le
  limit_eq := h'.limit_eq.trans h.limit_eq
  fixtures_eq := h'.fixtures_eq.trans h.fixtures_eq
  invalidDestroys_eq := h'.invalidDestroys_eq.trans h.invalidDestroys_eq

/-! ## Looking handles up -/

theorem lookup_of_old (h : Adds m es m') {k : Handle} {v : Stored} (hk : m.entries.lookup k = some v) :
    m'.entries.lookup k = some v := by
  obtain ⟨new, hnew, ht⟩ := h.table
  have hmem : (k, v) ∈ m.entries := mem_of_lookup hk
  have hnone : new.lookup k = none := List.lookup_eq_none_iff.2 fun e he => by
    have hlt := h.issued _ hmem
    have hle := (h.fresh e (hnew.mem_iff.1 he)).1
    rw [bne_iff_ne]
    rintro rfl
    exact Nat.lt_irrefl _ (Nat.lt_of_lt_of_le hlt hle)
  rw [ht, List.lookup_append, hnone, Option.none_or, hk]

theorem lookup_of_mem_nodup : ∀ {l : List (Handle × Stored)}, (l.map Prod.fst).Nodup → ∀ {k : Handle} {v : Stored},
    (k, v) ∈ l → l.lookup k = some v
  | (k', v') :: l, hnd, k, v, hmem => by
    rw [List.map_cons, List.nodup_cons] at hnd
    rw [List.lookup_cons]
    rcases List.mem_cons.1 hmem with heq | htail
    · cases heq
      rw [beq_self_eq_true]
    · have hne : k ≠ k' := by
        rintro rfl
        exact hnd.1 (List.mem_map.2 ⟨_, htail, rfl⟩)
      rw [beq_eq_false_iff_ne.2 hne]
      exact lookup_of_mem_nodup hnd.2 htail

theorem lookup_of_mem (h : Adds m es m') {k : Handle} {v : Stored} (hmem : (k, v) ∈ es) :
    m'.entries.lookup k = some v := by
  obtain ⟨new, hnew, ht⟩ := h.table
  have hnd : (new.map Prod.fst).Nodup := (hnew.map Prod.fst).nodup_iff.2 h.nodup
  rw [ht, List.lookup_append, lookup_of_mem_nodup hnd (hnew.mem_iff.2 hmem), Option.some_or]

theorem find?_of_mem (h : Adds m es m') {k : Handle} {v : Stored} (hmem : (k, v) ∈ es) : m'.find? k = .ok v := by
  rw [find?, h.lookup_of_mem hmem]

theorem find?_of_old (h : Adds m es m') {k : Handle} {v : Stored} (hk : m.find? k = .ok v) : m'.find? k = .ok v := by
  unfold find? at hk ⊢
  cases hl : m.entries.lookup k with
  | none => rw [hl] at hk; cases hk
  | some w =>
    rw [hl] at hk
    rw [h.lookup_of_old hl]
    exact hk

/-! ## Taking in and destroying -/

theorem insert {v : Stored} {k : Handle} (hm : m.Issued) (h : Memory.insert v m = .ok k m') : Adds m [(k, v)] m' := by
  unfold Memory.insert at h
  split at h
  · cases h
  · cases h
    exact {
      issued := hm
      table := ⟨_, List.Perm.refl _, rfl⟩
      fresh := fun e he => by
        rw [List.mem_singleton.1 he]
        exact ⟨Nat.le_refl _, Nat.lt_succ_self _⟩
      nodup := List.nodup_singleton _
      next_le := Nat.le_succ _
      limit_eq := rfl
      fixtures_eq := rfl
      invalidDestroys_eq := rfl }

theorem destroy {k : Handle} {v : Stored} (h : Adds m ((k, v) :: es) m') : Adds m es (m'.destroy k) := by
  obtain ⟨new, hnew, ht⟩ := h.table
  have hnd := h.nodup
  rw [List.map_cons, List.nodup_cons] at hnd
  have hlive : (m'.entries.lookup k).isSome := by rw [h.lookup_of_mem List.mem_cons_self]; rfl
  have hes : ((k, v) :: es).filter (·.1 != k) = es := by
    rw [List.filter_cons_of_neg (by simp), List.filter_eq_self]
    intro e he
    rw [bne_iff_ne]
    rintro rfl
    exact hnd.1 (List.mem_map.2 ⟨e, he, rfl⟩)
  have hold : m.entries.filter (·.1 != k) = m.entries := by
    rw [List.filter_eq_self]
    intro e he
    rw [bne_iff_ne]
    rintro rfl
    exact Nat.lt_irrefl _ (Nat.lt_of_lt_of_le (h.issued e he) (h.fresh _ List.mem_cons_self).1)
  rw [Memory.destroy, if_pos hlive]
  exact { h with
    table := ⟨new.filter (·.1 != k), by
      have hp := hnew.filter (·.1 != k)
      rwa [hes] at hp, by
      change m'.entries.filter (·.1 != k) = _
      rw [ht, List.filter_append, hold]⟩
    fresh := fun e he => h.fresh e (List.mem_cons_of_mem _ he)
    nodup := hnd.2 }

theorem destroyAll : ∀ {es : List (Handle × Stored)} {m' : Memory}, Adds m (es ++ fs) m' →
    Adds m fs (m'.destroyAll (es.map Prod.fst))
  | [], _, h => h
  | (k, v) :: es, m', h => by
    rw [List.map_cons]
    exact destroyAll h.destroy

end Adds

end Memory
end ValueBridge
