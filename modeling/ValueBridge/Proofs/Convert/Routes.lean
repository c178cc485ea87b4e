import ValueBridge.Convert.Target
/-!
# The routes of the dynamic decoder

`routed c tag` is how a value with the tag `tag` is read when it is not null: the parts of a collection, of a union or of
a graph element one level further in, everything else as a scalar.  The dynamic decoder asks whether the value is null,
then for its tag, and takes that route (`valueAt_eq`); the route of a graph element is the decoder for that element
(`nodeAt`, `relAt`, `pathAt`), which the requested types use as well.
-/
namespace ValueBridge.Read

open ValueBridge.Convert

variable {σ : Type} [Engine σ]

/-- How a value that is not null is read, by its tag. -/
def routed (c : Config) : (left : Nat) → Tag → Handle → Convert σ HostValue
  | left, .list, h | left, .array, h => .list <$> nested c (fun left => elements (valueAt c left)) left h
  | left, .struct, h => .struct <$> nested c (fun left => fields (valueAt c left)) left h
  | left, .map, h => .map <$> nested c (fun left => entries (valueAt c left) (valueAt c left)) left h
  | left, .union, h => nested c (fun left h => holding (itemOf .field h 0) (valueAt c left)) left h
  | left, .node, h => .node <$> nodeAt c left h
  | left, .rel, h => .rel <$> relAt c left h
  | left, .path, h => .path <$> pathAt c left h
  | _, tag, h => leaf c tag h

/-- **The dynamic decoder takes the route of the tag.** -/
theorem valueAt_eq (c : Config) : ∀ left, valueAt (σ := σ) c left = unlessNull (routed c left)
  | 0 | 1 | 2 | left + 3 => by
    rw [valueAt]
    congr 1
    funext tag h
    cases tag <;> rfl

end ValueBridge.Read
