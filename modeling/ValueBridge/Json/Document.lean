import ValueBridge.Json.Numeral
import ValueBridge.Number.DecimalText
import ValueBridge.Uuid
/-!
# Reading JSON text

`Document` is what the grammar says about a text, before numbers and strings are given a meaning: a numeral may still
be too large, and a string with half of a surrogate pair denotes no text.  `Document.ofText?` accepts exactly the texts
of the grammar; `Document.toJson?` gives them their meaning, for at most 127 levels of arrays and objects.
-/
namespace ValueBridge.Json

inductive Document where
  | null
  | bool (b : Bool)
  | number (n : Numeral)
  | string (s : Option String)
  | array (items : List Document)
  | object (fields : List (Option String × Document))

namespace Document

def isSpace (c : Char) : Bool := c == ' ' || c == '\n' || c == '\t' || c == '\r'

def skipSpace (cs : List Char) : List Char := cs.dropWhile isSpace

/-! ## Numerals -/

/-- The digits at the front, and what follows them. -/
def digitRun (cs : List Char) : List Nat × List Char :=
  ((cs.takeWhile Char.isDigit).filterMap decimalDigit?, cs.dropWhile Char.isDigit)

/-- At least one digit. -/
def digits? (cs : List Char) : Option (List Nat × List Char) :=
  match digitRun cs with
  | ([], _) => none
  | run => some run

/-- The digits before the point: a zero stands alone. -/
def whole? (cs : List Char) : Option (List Nat × List Char) :=
  match digits? cs with
  | some (0 :: _ :: _, _) => none
  | run => run

def fraction? : List Char → Option (Option (List Nat) × List Char)
  | '.' :: cs => (digits? cs).map fun (ds, rest) => (some ds, rest)
  | cs => some (none, cs)

def exponentValue (negative : Bool) (ds : List Nat) : Int :=
  let n : Nat := ds.foldl (fun acc d => acc * 10 + d) 0
  if negative then -(n : Int) else n

def unsignedExponent? (negative : Bool) (cs : List Char) : Option (Option Int × List Char) :=
  (digits? cs).map fun (ds, rest) => (some (exponentValue negative ds), rest)

def signedExponent? : List Char → Option (Option Int × List Char)
  | '+' :: cs => unsignedExponent? false cs
  | '-' :: cs => unsignedExponent? true cs
  | cs => unsignedExponent? false cs

def exponent? : List Char → Option (Option Int × List Char)
  | 'e' :: cs => signedExponent? cs
  | 'E' :: cs => signedExponent? cs
  | cs => some (none, cs)

def numeral? (negative : Bool) (cs : List Char) : Option (Numeral × List Char) := do
  let (whole, cs) ← whole? cs
  let (fraction, cs) ← fraction? cs
  let (exponent, cs) ← exponent? cs
  return (⟨negative, whole, fraction, exponent⟩, cs)

/-! ## Strings -/

/-- A piece of a string: a character, or one of the 16-bit units that an escape names. -/
inductive Piece where
  | char (c : Char)
  | unit (n : Nat)
deriving DecidableEq

/-- The character that a letter after a backslash stands for. -/
def shortEscape? : Char → Option Char
  | '"' => some '"'
  | '\\' => some '\\'
  | '/' => some '/'
  | 'b' => some '\x08'
  | 'f' => some '\x0c'
  | 'n' => some '\n'
  | 'r' => some '\r'
  | 't' => some '\t'
  | _ => none

/-- The pieces of a string up to its closing quote, and what follows it. -/
def pieces? : List Char → Option (List Piece × List Char)
  | [] => none
  | '"' :: cs => some ([], cs)
  | '\\' :: 'u' :: a :: b :: c :: d :: cs => do
    let n ← hexNumber? [a, b, c, d]
    let (ps, rest) ← pieces? cs
    return (.unit n :: ps, rest)
  | '\\' :: e :: cs => do
    let c ← shortEscape? e
    let (ps, rest) ← pieces? cs
    return (.char c :: ps, rest)
  | c :: cs =>
    if c.toNat < 0x20 then none else do
      let (ps, rest) ← pieces? cs
      return (.char c :: ps, rest)

def isHighSurrogate (n : Nat) : Bool := 0xD800 ≤ n && n ≤ 0xDBFF

def isLowSurrogate (n : Nat) : Bool := 0xDC00 ≤ n && n ≤ 0xDFFF

/-- The characters of the pieces, where two halves of a pair stand for one; a half alone stands for nothing. -/
def characters? : List Piece → Option (List Char)
  | [] => some []
  | .char c :: ps => (characters? ps).map (c :: ·)
  | .unit n :: .unit m :: ps =>
    if isHighSurrogate n && isLowSurrogate m then
      (characters? ps).map (Char.ofNat ((n - 0xD800) * 0x400 + (m - 0xDC00) + 0x10000) :: ·)
    else if isHighSurrogate n || isLowSurrogate n then none
    else (characters? (.unit m :: ps)).map (Char.ofNat n :: ·)
  | .unit n :: ps =>
    if isHighSurrogate n || isLowSurrogate n then none else (characters? ps).map (Char.ofNat n :: ·)

def string? (cs : List Char) : Option (Option String × List Char) :=
  (pieces? cs).map fun (ps, rest) => ((characters? ps).map String.ofList, rest)

/-! ## Documents -/

mutual
/-- A value at the front of the text, for texts whose values need at most `fuel` steps to be reached. -/
def value? : (fuel : Nat) → List Char → Option (Document × List Char)
  | 0, _ => none
  | fuel + 1, cs =>
    match skipSpace cs with
    | 'n' :: 'u' :: 'l' :: 'l' :: rest => some (.null, rest)
    | 't' :: 'r' :: 'u' :: 'e' :: rest => some (.bool true, rest)
    | 'f' :: 'a' :: 'l' :: 's' :: 'e' :: rest => some (.bool false, rest)
    | '"' :: rest => (string? rest).map fun (s, rest) => (.string s, rest)
    | '[' :: rest =>
      match skipSpace rest with
      | ']' :: rest => some (.array [], rest)
      | rest => (items? fuel rest).map fun (vs, rest) => (.array vs, rest)
    | '\x7b' :: rest =>
      match skipSpace rest with
      | '\x7d' :: rest => some (.object [], rest)
      | rest => (fields? fuel rest).map fun (fs, rest) => (.object fs, rest)
    | '-' :: rest => (numeral? true rest).map fun (n, rest) => (.number n, rest)
    | rest => (numeral? false rest).map fun (n, rest) => (.number n, rest)
/-- Values with commas between them, up to the closing bracket. -/
def items? : (fuel : Nat) → List Char → Option (List Document × List Char)
  | 0, _ => none
  | fuel + 1, cs =>
    (value? fuel cs).bind fun (v, rest) =>
      match skipSpace rest with
      | ',' :: rest => (items? fuel rest).map fun (vs, rest) => (v :: vs, rest)
      | ']' :: rest => some ([v], rest)
      | _ => none
/-- Named values with commas between them, up to the closing brace. -/
def fields? : (fuel : Nat) → List Char → Option (List (Option String × Document) × List Char)
  | 0, _ => none
  | fuel + 1, cs =>
    match skipSpace cs with
    | '"' :: rest =>
      (string? rest).bind fun (name, rest) =>
        match skipSpace rest with
        | ':' :: rest =>
          (value? fuel rest).bind fun (v, rest) =>
            match skipSpace rest with
            | ',' :: rest => (fields? fuel rest).map fun (fs, rest) => ((name, v) :: fs, rest)
            | '\x7d' :: rest => some ([(name, v)], rest)
            | _ => none
        | _ => none
    | _ => none
end

/-- The document that a whole text is.  Every second step consumes a character, so twice the length is fuel enough. -/
def ofText? (s : String) : Option Document :=
  let cs := s.toList
  match value? (2 * cs.length + 2) cs with
  | some (v, rest) => if (skipSpace rest).isEmpty then some v else none
  | none => none

/-! ## Meaning -/

mutual
def meaning? : (levels : Nat) → Document → Option Json
  | _, null => some .null
  | _, bool b => some (.bool b)
  | _, number n => n.number?.map .number
  | _, string s => s.map .string
  | 0, array _ => none
  | levels + 1, array items => (meanings? levels items).map .array
  | 0, object _ => none
  | levels + 1, object fields => (fieldMeanings? levels fields).map Json.ofFields
def meanings? : (levels : Nat) → List Document → Option (List Json)
  | _, [] => some []
  | levels, v :: vs => (meaning? levels v).bind fun j => (meanings? levels vs).map (j :: ·)
def fieldMeanings? : (levels : Nat) → List (Option String × Document) → Option (List (String × Json))
  | _, [] => some []
  | levels, (name, v) :: fs =>
    name.bind fun n => (meaning? levels v).bind fun j => (fieldMeanings? levels fs).map ((n, j) :: ·)
end

/-- The levels of arrays and objects that are read. -/
def maxLevels : Nat := 127

def toJson? (d : Document) : Option Json := meaning? maxLevels d

end Document

/-- The JSON value of a text. -/
def ofText? (s : String) : Option Json := (Document.ofText? s).bind Document.toJson?

end ValueBridge.Json
