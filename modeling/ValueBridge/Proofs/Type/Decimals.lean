import ValueBridge.Proofs.Type.Order
import Mathlib.Data.Nat.SuccPred
import Mathlib.Order.SuccPred.Archimedean
/-!
# The common type of a column of decimals

Decimal types beside those of untyped nulls have a common type: the decimal type with the largest scale, and with the
largest number of digits before the point as far as there is room for them (`joinAll?_decimals`).  It is found as the
least type above all of them.
-/
namespace ValueBridge.LogicalType

variable {ts : List LogicalType} {t : LogicalType}

/-- Nulls do not matter beside values of one type. -/
theorem joinAll?_of_mem (ht : t ∈ ts) (h : ∀ u ∈ ts, u = any ∨ u = t) : joinAll? ts = some t := by
  rw [joinAll?_eq_some_iff (List.ne_nil_of_mem ht)]
  refine ⟨fun u hu => ?_, fun d hd => hd ht⟩
  rcases h u hu with rfl | rfl
  · exact join?_any_left t
  · exact join?_self u

/-- The scales of the decimal types in a list. -/
def scales (ts : List LogicalType) : Set Nat := {s | ∃ p, decimal p s ∈ ts}

/-- How many digits the decimal types in a list have before the point. -/
def integrals (ts : List LogicalType) : Set Nat := {n | ∃ p s, decimal p s ∈ ts ∧ n = p - s}

/-- The type can be that of a stored decimal or of an untyped null. -/
def IsDecimalOrAny (t : LogicalType) : Prop := t = any ∨ ∃ p s, t = decimal p s ∧ s ≤ p ∧ p ≤ maxPrecision

theorem IsDecimalOrAny.bounds {p s : Nat} (h : (decimal p s).IsDecimalOrAny) : s ≤ p ∧ p ≤ maxPrecision := by
  rcases h with h | ⟨q, r, h, hbounds⟩
  · cases h
  · obtain ⟨rfl, rfl⟩ := decimal.inj h
    exact hbounds

/-- A decimal type is below any that has at least its scale and at least its digits before the point, as far as there is
room for them. -/
theorem below_widest {p s I S : Nat} (hS : S ≤ maxPrecision) (hs : s ≤ S) (hI : p - s ≤ I) :
    Below (decimal p s) (decimal (min maxPrecision (I + S)) S) := by
  rw [below_decimal]
  rw [maxPrecision] at hS ⊢
  exact .inr ⟨hs, by omega⟩

/-- What is above a type with the largest scale and above one with the most digits before the point is above the widest
type. -/
theorem widest_below {p q s u v S : Nat} (hscale : Below (decimal p S) (decimal u v))
    (hintegral : Below (decimal q s) (decimal u v)) (hp : S ≤ p ∧ p ≤ maxPrecision) (hq : s ≤ q ∧ q ≤ maxPrecision)
    (hs : s ≤ S) (hI : p - S ≤ q - s) : Below (decimal (min maxPrecision (q - s + S)) S) (decimal u v) := by
  rw [below_decimal] at hscale hintegral ⊢
  rw [maxPrecision] at hp hq hscale hintegral ⊢
  omega

/-- **The common type of decimals** has the largest scale and the most digits before the point. -/
theorem joinAll?_decimals (h : ∀ t ∈ ts, t.IsDecimalOrAny) (hmem : ∃ p s, decimal p s ∈ ts) :
    ∃ I S, IsGreatest (integrals ts) I ∧ IsGreatest (scales ts) S ∧
      joinAll? ts = some (decimal (min maxPrecision (I + S)) S) := by
  obtain ⟨p, s, hps⟩ := hmem
  have hscales : ∀ n ∈ scales ts, n ≤ maxPrecision := fun n ⟨q, hq⟩ => (h _ hq).bounds.1.trans (h _ hq).bounds.2
  have hintegrals : ∀ n ∈ integrals ts, n ≤ maxPrecision := fun n ⟨q, r, hq, hn⟩ =>
    hn ▸ (Nat.sub_le q r).trans (h _ hq).bounds.2
  obtain ⟨I, hI⟩ := BddAbove.exists_isGreatest_of_nonempty ⟨_, hintegrals⟩ ⟨p - s, p, s, hps, rfl⟩
  obtain ⟨S, hS⟩ := BddAbove.exists_isGreatest_of_nonempty ⟨_, hscales⟩ ⟨s, p, hps⟩
  refine ⟨I, S, hI, hS, (joinAll?_eq_some_iff (List.ne_nil_of_mem hps)).2 ⟨fun t ht => ?_, fun d hd => ?_⟩⟩
  · rcases h t ht with rfl | ⟨q, r, rfl, -⟩
    · exact join?_any_left _
    · exact below_widest (hscales S hS.1) (hS.2 ⟨q, ht⟩) (hI.2 ⟨q, r, ht, rfl⟩)
  · -- Two members of the list are enough: one with the largest scale, one with the most digits before the point.
    obtain ⟨p, hp⟩ := hS.1
    obtain ⟨q, r, hq, rfl⟩ := hI.1
    rcases of_join?_decimal (hd hp) with ⟨rfl, hany⟩ | ⟨u, v, rfl, -⟩
    · cases hany
    · exact widest_below (hd hp) (hd hq) (h _ hp).bounds (h _ hq).bounds (hS.2 ⟨q, hq⟩) (hI.2 ⟨p, S, hp, rfl⟩)

end ValueBridge.LogicalType
