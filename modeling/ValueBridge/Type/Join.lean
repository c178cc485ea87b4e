import ValueBridge.Type.Logical
/-!
# The common type of two types

`ANY`, the type of an untyped null, joins with every type.  Two decimals join into one that has the larger scale and
as many digits before the point as either, at most 38 digits in all.  Lists, arrays of one size, maps, and structs with
the same names in the same order join part by part.  Any other two types join only if they are equal.
-/
namespace ValueBridge

/-- The most digits that a decimal type can have. -/
def maxPrecision : Nat := 38

namespace LogicalType

/-- The decimal type that holds both. -/
def joinDecimal (p s q r : Nat) : LogicalType :=
  let scale := max s r
  decimal (min maxPrecision (max (p - s) (q - r) + scale)) scale

mutual
def join? : LogicalType → LogicalType → Option LogicalType
  | plain t, b =>
    if t = .any then some b
    else if b = any ∨ plain t = b then some (plain t)
    else none
  | decimal p s, b =>
    match b with
    | decimal q r => some (if p = q ∧ s = r then decimal p s else joinDecimal p s q r)
    | plain .any => some (decimal p s)
    | _ => none
  | list t, b =>
    match b with
    | list u => (join? t u).map list
    | plain .any => some (list t)
    | _ => none
  | array t n, b =>
    match b with
    | array u m => if n = m then (join? t u).map (array · n) else none
    | plain .any => some (array t n)
    | _ => none
  | struct fs, b =>
    match b with
    | struct gs => (joinFields? fs gs).map struct
    | plain .any => some (struct fs)
    | _ => none
  | map k v, b =>
    match b with
    | map l w => (join? k l).bind fun key => (join? v w).map (map key ·)
    | plain .any => some (map k v)
    | _ => none
  | union ms, b => if b = any ∨ union ms = b then some (union ms) else none
def joinFields? : List (String × LogicalType) → List (String × LogicalType) → Option (List (String × LogicalType))
  | [], [] => some []
  | (n, t) :: fs, (m, u) :: gs =>
    if n = m then (join? t u).bind fun v => (joinFields? fs gs).map ((n, v) :: ·) else none
  | _, _ => none
end

/-- The common type of the members of a non-empty list, joined from the left. -/
def joinAll? : List LogicalType → Option LogicalType
  | [] => none
  | t :: ts => ts.foldlM join? t

end LogicalType

end ValueBridge
