import ValueBridge.Type.Tag
/-!
# Logical types

The full type of an engine value: a tag, and for the types that have one a shape.  A tag of a shaped type may also
stand alone (`plain`), when nothing is known about the shape; it is then a type of its own, equal to itself only.
-/
namespace ValueBridge

inductive LogicalType where
  | plain (tag : Tag)
  | decimal (precision scale : Nat)
  | list (element : LogicalType)
  | array (element : LogicalType) (size : Nat)
  | struct (fields : List (String × LogicalType))
  | map (key value : LogicalType)
  | union (members : List (String × LogicalType))
deriving Repr

namespace LogicalType

instance : Inhabited LogicalType := ⟨plain .any⟩

/-- The type of an untyped null. -/
abbrev any : LogicalType := plain .any

def tag : LogicalType → Tag
  | plain t => t
  | decimal .. => .decimal
  | list _ => .list
  | array .. => .array
  | struct _ => .struct
  | map .. => .map
  | union _ => .union

/-- The element count that a fixed-size array type states. -/
def arraySize? : LogicalType → Option Nat
  | array _ n => some n
  | _ => none

/-- The element type of a list or array. -/
def element? : LogicalType → Option LogicalType
  | list t | array t _ => some t
  | _ => none

/-- The fields of a struct or the members of a union. -/
def fields : LogicalType → List (String × LogicalType)
  | struct fs | union fs => fs
  | _ => []

/-! ## Text -/

mutual
def text : LogicalType → String
  | plain t => t.name
  | decimal p s => s!"DECIMAL({p}, {s})"
  | list t => text t ++ "[]"
  | array t n => text t ++ s!"[{n}]"
  | struct fs => "STRUCT(" ++ ", ".intercalate (fieldTexts fs) ++ ")"
  | map k v => "MAP(" ++ text k ++ ", " ++ text v ++ ")"
  | union ms => "UNION(" ++ ", ".intercalate (fieldTexts ms) ++ ")"
def fieldTexts : List (String × LogicalType) → List String
  | [] => []
  | (name, t) :: fs => (name ++ " " ++ text t) :: fieldTexts fs
end

/-! ## Equality is decidable -/

mutual
def same : LogicalType → LogicalType → Bool
  | plain t, plain u => t == u
  | decimal p s, decimal q r => p == q && s == r
  | list t, list u => same t u
  | array t n, array u m => same t u && n == m
  | struct fs, struct gs => sameFields fs gs
  | map k v, map l w => same k l && same v w
  | union fs, union gs => sameFields fs gs
  | _, _ => false
def sameFields : List (String × LogicalType) → List (String × LogicalType) → Bool
  | [], [] => true
  | (n, t) :: fs, (m, u) :: gs => n == m && same t u && sameFields fs gs
  | _, _ => false
end

mutual
theorem same_iff : ∀ a b : LogicalType, same a b = true ↔ a = b
  | plain t, b => by cases b <;> simp [same]
  | decimal p s, b => by cases b <;> simp [same]
  | list t, b => by cases b <;> simp [same, same_iff t]
  | array t n, b => by cases b <;> simp [same, same_iff t]
  | struct fs, b => by cases b <;> simp [same, sameFields_iff fs]
  | map k v, b => by cases b <;> simp [same, same_iff k, same_iff v]
  | union fs, b => by cases b <;> simp [same, sameFields_iff fs]
theorem sameFields_iff : ∀ fs gs : List (String × LogicalType), sameFields fs gs = true ↔ fs = gs
  | [], gs => by cases gs <;> simp [sameFields]
  | (n, t) :: fs, gs => by
    match gs with
    | [] => simp [sameFields]
    | (m, u) :: gs => simp [sameFields, same_iff t u, sameFields_iff fs gs]
end

instance : DecidableEq LogicalType := fun a b => decidable_of_iff _ (same_iff a b)

end LogicalType

end ValueBridge
