import Mathlib.Data.List.Basic
/-!
# Results step by step

A computation in steps has a result exactly when each step has one, and its `Outcome` follows from those of its steps.
Of several errors the `firstError` is the result.  What was looked up stands in the list, and is found as before when
another key is taken away (`lookup_filter_ne`).
-/
namespace ValueBridge

section Steps

variable {ε ε' α β : Type}

theorem bind_eq_ok {r : Except ε α} {f : α → Except ε β} {b : β} :
    r.bind f = .ok b ↔ ∃ a, r = .ok a ∧ f a = .ok b := by
  cases r <;> simp [Except.bind]

theorem map_eq_ok {r : Except ε α} {f : α → β} {b : β} : r.map f = .ok b ↔ ∃ a, r = .ok a ∧ f a = b := by
  cases r <;> simp [Except.map]

theorem map_eq_error {r : Except ε α} {f : α → β} {e : ε} : r.map f = .error e ↔ r = .error e := by
  cases r <;> simp [Except.map]

theorem bind_eq_error {r : Except ε α} {f : α → Except ε β} {e : ε} :
    r.bind f = .error e ↔ r = .error e ∨ ∃ a, r = .ok a ∧ f a = .error e := by
  cases r <;> simp [Except.bind]

theorem mapError_eq_ok {r : Except ε α} {f : ε → ε'} {a : α} : r.mapError f = .ok a ↔ r = .ok a := by
  cases r <;> simp [Except.mapError]

theorem mapError_eq_error {r : Except ε α} {f : ε → ε'} {e : ε'} :
    r.mapError f = .error e ↔ ∃ e', r = .error e' ∧ f e' = e := by
  cases r <;> simp [Except.mapError]

theorem map_isOk {r : Except ε α} {f : α → β} : (∃ b, r.map f = .ok b) ↔ ∃ a, r = .ok a := by
  cases r <;> simp [Except.map]

theorem exists_of_mem_mapM {f : α → Except ε β} : ∀ {as : List α} {bs : List β}, as.mapM f = .ok bs →
    ∀ b ∈ bs, ∃ a ∈ as, f a = .ok b
  | [], bs, h, b, hb => by
    cases h
    cases hb
  | a :: as, bs, h, b, hb => by
    rw [List.mapM_cons] at h
    obtain ⟨c, hc, h⟩ := bind_eq_ok.1 h
    obtain ⟨cs, hcs, h⟩ := bind_eq_ok.1 h
    cases h
    rcases List.mem_cons.1 hb with rfl | hb
    · exact ⟨a, List.mem_cons_self, hc⟩
    · obtain ⟨a', ha', hb'⟩ := exists_of_mem_mapM hcs b hb
      exact ⟨a', List.mem_cons_of_mem _ ha', hb'⟩

/-- The first of the errors, or the value if there are none. -/
def firstError (es : List ε) (a : α) : Except ε α :=
  match es with
  | [] => .ok a
  | e :: _ => .error e

/-- A result that is good in one way, or an error that is bad in another. -/
def Outcome (good : α → Prop) (bad : ε → Prop) : Except ε α → Prop
  | .ok a => good a
  | .error e => bad e

namespace Outcome

variable {good : α → Prop} {good' : β → Prop} {bad : ε → Prop} {bad' : ε' → Prop} {r : Except ε α}

theorem mono {good' : α → Prop} {bad' : ε → Prop} (h : Outcome good bad r) (hgood : ∀ a, good a → good' a)
    (hbad : ∀ e, bad e → bad' e) : Outcome good' bad' r := by
  cases r with
  | ok a => exact hgood a h
  | error e => exact hbad e h

theorem bind {bad' : ε → Prop} {f : α → Except ε β} (h : Outcome good bad r)
    (hgood : ∀ a, good a → Outcome good' bad' (f a)) (hbad : ∀ e, bad e → bad' e) : Outcome good' bad' (r.bind f) := by
  cases r with
  | ok a => exact hgood a h
  | error e => exact hbad e h

theorem map {bad' : ε → Prop} {f : α → β} (h : Outcome good bad r) (hgood : ∀ a, good a → good' (f a))
    (hbad : ∀ e, bad e → bad' e) : Outcome good' bad' (r.map f) := by
  cases r with
  | ok a => exact hgood a h
  | error e => exact hbad e h

theorem mapError {good' : α → Prop} {f : ε → ε'} (h : Outcome good bad r) (hgood : ∀ a, good a → good' a)
    (hbad : ∀ e, bad e → bad' (f e)) : Outcome good' bad' (r.mapError f) := by
  cases r with
  | ok a => exact hgood a h
  | error e => exact hbad e h

theorem of_error {e : ε} (h : Outcome good bad r) (hr : r = .error e) : bad e := by
  subst hr
  exact h

theorem exists_error (h : Outcome good bad r) (hgood : ∀ a, ¬good a) : ∃ e, r = .error e ∧ bad e := by
  cases r with
  | ok a => exact absurd h (hgood a)
  | error e => exact ⟨e, rfl, h⟩

end Outcome

end Steps

theorem mem_of_lookup {α β : Type} [BEq α] [LawfulBEq α] {k : α} {b : β} {es : List (α × β)}
    (h : es.lookup k = some b) : (k, b) ∈ es := by
  obtain ⟨before, after, rfl, -⟩ := List.lookup_eq_some_iff.1 h
  exact List.mem_append_right _ List.mem_cons_self

theorem lookup_filter_ne {α β : Type} [DecidableEq α] (k a : α) : ∀ es : List (α × β),
    (es.filter (·.1 != k)).lookup a = if a = k then none else es.lookup a
  | [] => by simp
  | (a', b) :: es => by
    have ih := lookup_filter_ne k a es
    by_cases hk : a' = k
    · subst hk
      rw [List.filter_cons_of_neg (by simp), ih, List.lookup_cons]
      by_cases ha : a = a'
      · simp [ha]
      · simp [ha, beq_eq_false_iff_ne.2 ha]
    · rw [List.filter_cons_of_pos (by simpa using hk), List.lookup_cons, List.lookup_cons, ih]
      by_cases ha : a = a'
      · subst ha
        simp [hk]
      · simp [beq_eq_false_iff_ne.2 ha]

end ValueBridge
