import ValueBridge.Host.Value
/-!
# Equality of host values

Two host values are the same value when they have the same shape and the same leaves, where decimals are compared as
numbers, whatever their scales, and floats as IEEE 754 compares them: what is no number differs from itself, and the
zeros are equal.
-/
namespace ValueBridge

def Scalar.sameValue : Scalar → Scalar → Bool
  | .float x, .float y => x.sameValue y
  | .double x, .double y => x.sameValue y
  | .decimal x, .decimal y => x.sameValue y
  | a, b => a == b

namespace HostValue

mutual
def sameValue : HostValue → HostValue → Bool
  | null, null => true
  | scalar s, scalar t => s.sameValue t
  | list xs, list ys => sameItems xs ys
  | struct fs, struct gs => sameFields fs gs
  | map es, map ds => sameEntries es ds
  | node n, node m => sameNode n m
  | rel r, rel s => sameRel r s
  | path p, path q => samePath p q
  | _, _ => false
def sameItems : List HostValue → List HostValue → Bool
  | [], [] => true
  | x :: xs, y :: ys => sameValue x y && sameItems xs ys
  | _, _ => false
def sameFields : List (String × HostValue) → List (String × HostValue) → Bool
  | [], [] => true
  | (n, x) :: fs, (m, y) :: gs => n == m && sameValue x y && sameFields fs gs
  | _, _ => false
def sameEntries : List (HostValue × HostValue) → List (HostValue × HostValue) → Bool
  | [], [] => true
  | (k, x) :: es, (l, y) :: ds => sameValue k l && sameValue x y && sameEntries es ds
  | _, _ => false
def sameNode : Node HostValue → Node HostValue → Bool
  | ⟨i, l, ps⟩, ⟨j, m, qs⟩ => i == j && l == m && sameFields ps qs
def sameRel : Rel HostValue → Rel HostValue → Bool
  | ⟨i, s, t, l, ps⟩, ⟨j, u, v, m, qs⟩ => i == j && s == u && t == v && l == m && sameFields ps qs
def sameNodes : List (Node HostValue) → List (Node HostValue) → Bool
  | [], [] => true
  | n :: ns, m :: ms => sameNode n m && sameNodes ns ms
  | _, _ => false
def sameRels : List (Rel HostValue) → List (Rel HostValue) → Bool
  | [], [] => true
  | r :: rs, s :: ss => sameRel r s && sameRels rs ss
  | _, _ => false
def samePath : Path HostValue → Path HostValue → Bool
  | ⟨ns, rs⟩, ⟨ms, ss⟩ => sameNodes ns ms && sameRels rs ss
end

end HostValue

end ValueBridge
