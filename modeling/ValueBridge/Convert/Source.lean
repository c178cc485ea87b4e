import ValueBridge.Convert.Encoder
import ValueBridge.Host.Sized
/-!
# What can be encoded

Host values, JSON values, and values whose shape is known beforehand: scalars, optional values, sequences, mappings
from names, and lists of pairs.  A number of a JSON value has no width of its own: it is refused when widths must be
stated, and otherwise becomes the first of INT64, UINT64 and DOUBLE that holds it.
-/
namespace ValueBridge

variable {σ : Type} [Engine σ]

/-! ## Host values -/

namespace HostValue

/-- Graph elements come from the engine and cannot be built by it. -/
def refused (v : HostValue) : ConvertError := ⟨.noEncoding v.kindName, []⟩

mutual
def encode (c : Config) : HostValue → Encoder σ
  | null => .null
  | scalar s => .ofExcept s.toPayload
  | list items => .list c (encodeItems c items)
  | struct fields => .struct c (encodeFields c fields)
  | map entries => .map c (encodeEntries c entries)
  | node n => .ofError (node n).refused
  | rel r => .ofError (rel r).refused
  | path p => .ofError (path p).refused
def encodeItems (c : Config) : List HostValue → List (Encoder σ)
  | [] => []
  | v :: vs => encode c v :: encodeItems c vs
def encodeFields (c : Config) : List (String × HostValue) → List (String × Encoder σ)
  | [] => []
  | (name, v) :: fs => (name, encode c v) :: encodeFields c fs
def encodeEntries (c : Config) : List (HostValue × HostValue) → List (Encoder σ × Encoder σ)
  | [] => []
  | (k, v) :: es => (encode c k, encode c v) :: encodeEntries c es
end

end HostValue

/-! ## JSON values -/

namespace Json

theorem Number.lo_le_of_hi_lt {n : Int} (h : ¬n ≤ IntWidth.int64.hi) : IntWidth.uint64.lo ≤ n := by
  simp only [IntWidth.hi, IntWidth.lo] at h ⊢
  omega

/-- The payload of a number without a width. -/
def Number.toPayload (c : Config) (n : Number) : Except ConvertError Payload :=
  if c.strictNumericWidth then .error ⟨.unsizedNumber n.text, []⟩
  else match n with
    | .int i =>
      if h : i.val ≤ IntWidth.int64.hi then .ok (.int .int64 ⟨i.val, i.lo_le, h⟩)
      else .ok (.int .uint64 ⟨i.val, lo_le_of_hi_lt h, i.le_hi⟩)
    | .double x _ => .ok (.double x)

mutual
def encode (c : Config) : Json → Encoder σ
  | null => .null
  | bool b => .ofPayload (.bool b)
  | number n => .ofExcept (n.toPayload c)
  | string s => .ofPayload (.string s)
  | array items => .list c (encodeItems c items)
  | object fields => .struct c (encodeFields c fields)
def encodeItems (c : Config) : List Json → List (Encoder σ)
  | [] => []
  | v :: vs => encode c v :: encodeItems c vs
def encodeFields (c : Config) : List (String × Json) → List (String × Encoder σ)
  | [] => []
  | (name, v) :: fs => (name, encode c v) :: encodeFields c fs
end

end Json

/-! ## Sources -/

/-- A value of a known shape. -/
inductive Source where
  | host (v : HostValue)
  | json (j : Json)
  | scalar (s : Scalar)
  | interval (i : Interval)
  | absent
  | present (s : Source)
  | shared (s : Source)
  | sequence (items : List Source)
  | fields (fields : List (String × Source))
  | entries (entries : List (Source × Source))

namespace Source

instance : Inhabited Source := ⟨absent⟩

mutual
def encode (c : Config) : Source → Encoder σ
  | host v => v.encode c
  | json j => j.encode c
  | scalar s => .ofExcept s.toPayload
  | interval i => .ofPayload (.interval i)
  | absent => .null
  | present s => encode c s
  | shared s => encode c s
  | sequence items => .list c (encodeItems c items)
  | fields fs => .struct c (encodeFields c fs)
  | entries es => .map c (encodeEntries c es)
def encodeItems (c : Config) : List Source → List (Encoder σ)
  | [] => []
  | s :: ss => encode c s :: encodeItems c ss
def encodeFields (c : Config) : List (String × Source) → List (String × Encoder σ)
  | [] => []
  | (name, s) :: fs => (name, encode c s) :: encodeFields c fs
def encodeEntries (c : Config) : List (Source × Source) → List (Encoder σ × Encoder σ)
  | [] => []
  | (k, s) :: es => (encode c k, encode c s) :: encodeEntries c es
end

/-- A sized number is encoded with the tag of its width, whatever widths the configuration asks for. -/
def ofSized (n : Sized) : Source := scalar n.scalar

/-- A sized number is encoded as the host value that it stands for. -/
theorem encode_ofSized (c : Config) (n : Sized) : ((ofSized n).encode c : Encoder σ) = (host n.host).encode c := by
  rw [ofSized, Sized.host, encode, encode, HostValue.encode]

/-- A mapping from distinct names: of several values for a name the last one counts. -/
def ofMapping (bindings : List (String × Source)) : Source := fields (Fields.latest bindings)

/-- Encoding at the outermost level. -/
def build (c : Config) (s : Source) : Convert σ Handle := s.encode c c.maxDepth

end Source

end ValueBridge
