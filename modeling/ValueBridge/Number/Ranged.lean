/-!
# Integers of a closed range

Every fixed-width integer of the library is an integer together with the proof that it lies between the two bounds
of its width.  Arithmetic is done on `val`, in `Int`; a result becomes a fixed-width integer again only through
`Ranged.ofInt?`, which refuses what does not fit.
-/

-- Powers of numbers are those of the core library, whatever other powers a module knows of.
attribute [instance (20000), default_instance 20000] instPowNat

namespace ValueBridge

/-- An integer between two bounds, both included. -/
structure Ranged (lo hi : Int) where
  val : Int
  lo_le : lo ≤ val
  le_hi : val ≤ hi
deriving DecidableEq, Repr

namespace Ranged

def ofInt? {lo hi : Int} (n : Int) : Option (Ranged lo hi) :=
  if h : lo ≤ n ∧ n ≤ hi then some ⟨n, h.1, h.2⟩ else none

@[ext] theorem ext {lo hi : Int} : ∀ {a b : Ranged lo hi}, a.val = b.val → a = b
  | ⟨_, _, _⟩, ⟨_, _, _⟩, rfl => rfl

theorem ofInt?_val {lo hi : Int} (a : Ranged lo hi) : ofInt? a.val = some a := by
  simp [ofInt?, a.lo_le, a.le_hi]

theorem ofInt?_eq_some {lo hi n : Int} {a : Ranged lo hi} : ofInt? n = some a ↔ a.val = n := by
  constructor
  · intro h
    unfold ofInt? at h
    split at h
    · cases h; rfl
    · cases h
  · rintro rfl
    exact ofInt?_val a

theorem ofInt?_eq_none {lo hi n : Int} : (ofInt? n : Option (Ranged lo hi)) = none ↔ n < lo ∨ hi < n := by
  unfold ofInt?
  split
  · simp; omega
  · simp; omega

/-- The same integer in a range that holds the first one. -/
def widen {lo hi lo' hi' : Int} (a : Ranged lo hi) (hlo : lo' ≤ lo) (hhi : hi ≤ hi') : Ranged lo' hi' :=
  ⟨a.val, Int.le_trans hlo a.lo_le, Int.le_trans a.le_hi hhi⟩

end Ranged

/-! ## Widths -/

/-- The integer widths that a host value can have. -/
inductive IntWidth where
  | int8 | int16 | int32 | int64
  | uint8 | uint16 | uint32 | uint64
deriving DecidableEq, Repr

namespace IntWidth

def lo : IntWidth → Int
  | int8 => -2 ^ 7
  | int16 => -2 ^ 15
  | int32 => -2 ^ 31
  | int64 => -2 ^ 63
  | uint8 | uint16 | uint32 | uint64 => 0

def hi : IntWidth → Int
  | int8 => 2 ^ 7 - 1
  | int16 => 2 ^ 15 - 1
  | int32 => 2 ^ 31 - 1
  | int64 => 2 ^ 63 - 1
  | uint8 => 2 ^ 8 - 1
  | uint16 => 2 ^ 16 - 1
  | uint32 => 2 ^ 32 - 1
  | uint64 => 2 ^ 64 - 1

theorem lo_ge (w : IntWidth) : -2 ^ 63 ≤ w.lo := by cases w <;> decide

theorem hi_le (w : IntWidth) : w.hi ≤ 2 ^ 64 - 1 := by cases w <;> decide

end IntWidth

/-- The integers of one width. -/
abbrev IntOf (w : IntWidth) := Ranged w.lo w.hi

/-- The integers of the engine's widest type, 128 bits with a sign. -/
abbrev Int128 := Ranged (-2 ^ 127) (2 ^ 127 - 1)

end ValueBridge
