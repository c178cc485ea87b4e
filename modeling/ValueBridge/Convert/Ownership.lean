import ValueBridge.Convert.Config
import ValueBridge.Engine.Interface
/-!
# Handles and their owners

Every handle that a conversion acquires has one owner until it is released.  The combinators here are the only places
where conversions release handles: `holding` owns a handle while a computation uses it, `releasing` releases handles when a
computation has ended in either way, and `orReleasing` releases them only when it fails, so that otherwise they pass to
whoever continues.
-/
namespace ValueBridge

/-- A conversion on an engine with state `σ`. -/
abbrev Convert (σ : Type) := EStateM ConvertError σ

namespace Convert

variable {σ : Type} {α : Type}

def fail (c : Cause) : Convert σ α := throw ⟨c, []⟩

/-- A result that needs no engine. -/
def ofExcept : Except ConvertError α → Convert σ α
  | .ok a => pure a
  | .error e => throw e

/-- The computation with its errors located at a step. -/
def within (place : Place) (c : Convert σ α) : Convert σ α := c.adaptExcept (ConvertError.within place)

variable [Engine σ]

/-! ## Requests -/

/-- One engine call; `onFailure` makes its failure an error. -/
def askOr (onFailure : Failure → Cause) (r : Request) : Convert σ r.Reply :=
  (Engine.call r).adaptExcept fun e => ⟨onFailure e, []⟩

def ask (r : Request) : Convert σ r.Reply := askOr .engine r

def isNull (h : Handle) : Convert σ Bool := ask (.isNull h)

def typeOf (h : Handle) : Convert σ LogicalType := ask (.type h)

def tagOf (h : Handle) : Convert σ Tag := LogicalType.tag <$> typeOf h

def payloadOf (h : Handle) : Convert σ Payload := ask (.payload h)

def countOf (c : Counted) (h : Handle) : Convert σ Nat := ask (.count c h)

def nameOf (c : Named) (h : Handle) (index : Nat) : Convert σ String := ask (.name c h index)

def itemOf (i : Item) (h : Handle) (index : Nat) : Convert σ Handle := ask (.item i h index)

def roleOf (r : Role) (h : Handle) : Convert σ Handle := ask (.role r h)

def createNull (t : LogicalType) : Convert σ Handle := ask (.createNull t)

def createPayload (p : Payload) : Convert σ Handle := ask (.createPayload p)

def createStruct (fields : List (String × Handle)) : Convert σ Handle := ask (.createStruct fields)

/-- A failure to construct a list or map is taken for elements of different types. -/
def createList (items : List Handle) : Convert σ Handle := askOr (.heterogeneous .list) (.createList items)

def createMap (keys values : List Handle) : Convert σ Handle :=
  askOr (.heterogeneous .map) (.createMap keys values)

/-! ## Release -/

/-- The handles are released when the computation has ended, in either way. -/
def releasing {ε : Type} (hs : List Handle) (c : EStateM ε σ α) : EStateM ε σ α := fun s =>
  match c s with
  | .ok a s => .ok a (Engine.destroyAll hs s)
  | .error e s => .error e (Engine.destroyAll hs s)

/-- The handles are released if the computation fails. -/
def orReleasing {ε : Type} (hs : List Handle) (c : EStateM ε σ α) : EStateM ε σ α := fun s =>
  match c s with
  | .ok a s => .ok a s
  | .error e s => .error e (Engine.destroyAll hs s)

/-- A handle is acquired, used and released. -/
def holding (acquire : Convert σ Handle) (use : Handle → Convert σ α) : Convert σ α := do
  let h ← acquire
  releasing [h] (use h)

/-- Handles are acquired one after the other; if one cannot be, those before it are released. -/
def acquireAll : List (Convert σ Handle) → Convert σ (List Handle)
  | [] => pure []
  | c :: cs => do
    let h ← c
    let hs ← orReleasing [h] (acquireAll cs)
    return h :: hs

/-- Pairs of handles are acquired, the first of a pair before the second. -/
def acquirePairs : List (Convert σ Handle × Convert σ Handle) → Convert σ (List Handle × List Handle)
  | [] => pure ([], [])
  | (first, second) :: cs => do
    let h ← first
    let k ← orReleasing [h] second
    let (hs, ks) ← orReleasing [h, k] (acquirePairs cs)
    return (h :: hs, k :: ks)

/-! ## Loops -/

/-- The results for the indices `start`, …, `start + count - 1`, up to the first failure. -/
def forIndices (body : Nat → Convert σ α) (start : Nat) : (count : Nat) → Convert σ (List α)
  | 0 => pure []
  | count + 1 => do
    let a ← body start
    let rest ← forIndices body (start + 1) count
    return a :: rest

end Convert

end ValueBridge
