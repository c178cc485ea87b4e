import ValueBridge.Json.Value
import ValueBridge.Number.Shortest
/-!
# Compact JSON text

No blanks; in strings the quote, the backslash and the control characters are escaped and everything else stands as it
is; a double has at least one digit after the point, or an exponent with a sign.
-/
namespace ValueBridge.Json

/-- Doubles from 0.00001 up to, not including, 10^16 are written without an exponent. -/
def doubleLayout : FloatLayout := ⟨-5, 15⟩

/-- Singles from 0.000001 up to, not including, 10^13 are written without an exponent. -/
def singleLayout : FloatLayout := ⟨-6, 12⟩

def doubleText (x : Binary64) : String :=
  match x.classify with
  | .finite negative m q => doubleLayout.renderFinite binary64 negative m q
  | _ => "null"

def singleText (x : Binary32) : String :=
  match x.classify with
  | .finite negative m q => singleLayout.renderFinite binary32 negative m q
  | _ => "null"

def Number.text : Number → String
  | .int n => toString n.val
  | .double x _ => doubleText x

/-! ## Strings -/

/-- A control character by its code. -/
def controlEscape (c : Char) : List Char :=
  ['\\', 'u', '0', '0', Nat.digitChar (c.toNat / 16), Nat.digitChar (c.toNat % 16)]

def escapeChar (c : Char) : List Char :=
  if c = '"' then ['\\', '"']
  else if c = '\\' then ['\\', '\\']
  else if c = '\x08' then ['\\', 'b']
  else if c = '\x0c' then ['\\', 'f']
  else if c = '\n' then ['\\', 'n']
  else if c = '\r' then ['\\', 'r']
  else if c = '\t' then ['\\', 't']
  else if c.toNat < 0x20 then controlEscape c
  else [c]

def quoted (s : String) : String := String.ofList ('"' :: s.toList.flatMap escapeChar ++ ['"'])

/-! ## Values -/

mutual
def text : Json → String
  | null => "null"
  | bool b => if b then "true" else "false"
  | number n => n.text
  | string s => quoted s
  | array items => "[" ++ ",".intercalate (itemTexts items) ++ "]"
  | object fields => "\x7b" ++ ",".intercalate (fieldTexts fields) ++ "\x7d"
def itemTexts : List Json → List String
  | [] => []
  | v :: vs => text v :: itemTexts vs
def fieldTexts : List (String × Json) → List String
  | [] => []
  | (name, v) :: fs => (quoted name ++ ":" ++ text v) :: fieldTexts fs
end

end ValueBridge.Json
