import ValueBridge.Number.DecimalText
import ValueBridge.Number.Binary
import ValueBridge.Toml.Value
import ValueBridge.Uuid
/-!
# The words of TOML

Blanks, comments and line ends; keys; strings in their four forms; numbers; dates and times.  Each function takes a
word from the front of the text and returns it with what follows.
-/
namespace ValueBridge.Toml

/-- A word from the front of a text, with what follows it. -/
abbrev Taken (α : Type) := Option (α × List Char)

/-! ## Blanks and lines -/

def isBlank (c : Char) : Bool := c == ' ' || c == '\t'

def skipBlanks (cs : List Char) : List Char := cs.dropWhile isBlank

/-- Characters that may stand in a comment: no control characters but the tab. -/
def isVisible (c : Char) : Bool := c == '\t' || (' ' ≤ c && c.toNat != 0x7F)

def newline? : List Char → Option (List Char)
  | '\n' :: cs => some cs
  | '\r' :: '\n' :: cs => some cs
  | _ => none

def skipComment : List Char → List Char
  | '#' :: cs => cs.dropWhile isVisible
  | cs => cs

/-- The rest of a line that holds nothing more. -/
def lineEnd? (cs : List Char) : Option (List Char) :=
  match skipComment (skipBlanks cs) with
  | [] => some []
  | cs => newline? cs

/-- Blanks, comments and line ends. -/
def skipFiller (inComment : Bool) : List Char → List Char
  | [] => []
  | '\n' :: cs => skipFiller false cs
  | '\r' :: '\n' :: cs => skipFiller false cs
  | c :: cs =>
    if inComment then (if isVisible c then skipFiller true cs else c :: cs)
    else if isBlank c then skipFiller false cs
    else if c = '#' then skipFiller true cs
    else c :: cs

/-! ## Strings -/

/-- The character with a code, if there is one. -/
def scalarValue? (n : Nat) : Option Char := if h : n.isValidChar then some (Char.ofNatAux n h) else none

def shortEscape? : Char → Option Char
  | 'b' => some '\x08'
  | 't' => some '\t'
  | 'n' => some '\n'
  | 'f' => some '\x0c'
  | 'r' => some '\r'
  | '"' => some '"'
  | '\\' => some '\\'
  | _ => none

/-- What a backslash and the characters after it stand for. -/
def escape? : List Char → Taken Char
  | 'u' :: a :: b :: c :: d :: cs => (hexNumber? [a, b, c, d]).bind fun n => (scalarValue? n).map (·, cs)
  | 'U' :: a :: b :: c :: d :: e :: f :: g :: h :: cs =>
    (hexNumber? [a, b, c, d, e, f, g, h]).bind fun n => (scalarValue? n).map (·, cs)
  | c :: cs => (shortEscape? c).map (·, cs)
  | [] => none

/-- The characters of a string in quotes, after the first quote. -/
def basic? : (fuel : Nat) → List Char → Taken (List Char)
  | 0, _ => none
  | _, [] => none
  | _, '"' :: cs => some ([], cs)
  | fuel + 1, '\\' :: cs => (escape? cs).bind fun (c, cs) => (basic? fuel cs).map fun (s, cs) => (c :: s, cs)
  | fuel + 1, c :: cs => if isVisible c then (basic? fuel cs).map fun (s, cs) => (c :: s, cs) else none

/-- The characters of a string in apostrophes, after the first one. -/
def literal? : List Char → Taken (List Char)
  | [] => none
  | '\'' :: cs => some ([], cs)
  | c :: cs => if isVisible c then (literal? cs).map fun (s, cs) => (c :: s, cs) else none

/-- The end of a string of several lines: three quotes, before which one or two may belong to the string. -/
def closing? (quote : Char) : List Char → Taken (List Char)
  | a :: b :: c :: d :: e :: cs =>
    if a = quote ∧ b = quote ∧ c = quote then
      if d = quote then (if e = quote then some ([quote, quote], cs) else some ([quote], e :: cs))
      else some ([], d :: e :: cs)
    else none
  | [a, b, c, d] =>
    if a = quote ∧ b = quote ∧ c = quote then some (if d = quote then ([quote], []) else ([], [d])) else none
  | [a, b, c] => if a = quote ∧ b = quote ∧ c = quote then some ([], []) else none
  | _ => none

def skipFirstNewline (cs : List Char) : List Char := (newline? cs).getD cs

/-- Blanks and line ends. -/
def skipBlankLines : List Char → List Char
  | [] => []
  | '\n' :: cs => skipBlankLines cs
  | '\r' :: '\n' :: cs => skipBlankLines cs
  | c :: cs => if isBlank c then skipBlankLines cs else c :: cs

/-- A backslash at the end of a line: the blanks and line ends after it are skipped. -/
def continuation? (cs : List Char) : Option (List Char) := (newline? (skipBlanks cs)).map skipBlankLines

def basicLines? : (fuel : Nat) → List Char → Taken (List Char)
  | 0, _ => none
  | fuel + 1, cs =>
    match closing? '"' cs with
    | some taken => some taken
    | none =>
      match cs with
      | [] => none
      | '\\' :: cs =>
        match continuation? cs with
        | some cs => basicLines? fuel cs
        | none => (escape? cs).bind fun (c, cs) => (basicLines? fuel cs).map fun (s, cs) => (c :: s, cs)
      | c :: rest =>
        match newline? cs with
        | some cs => (basicLines? fuel cs).map fun (s, cs) => ('\n' :: s, cs)
        | none => if isVisible c then (basicLines? fuel rest).map fun (s, cs) => (c :: s, cs) else none

def literalLines? : (fuel : Nat) → List Char → Taken (List Char)
  | 0, _ => none
  | fuel + 1, cs =>
    match closing? '\'' cs with
    | some taken => some taken
    | none =>
      match newline? cs with
      | some cs => (literalLines? fuel cs).map fun (s, cs) => ('\n' :: s, cs)
      | none =>
        match cs with
        | [] => none
        | c :: cs => if isVisible c then (literalLines? fuel cs).map fun (s, cs) => (c :: s, cs) else none

/-- A string on one line. -/
def lineString? : List Char → Taken String
  | '"' :: cs => (basic? (cs.length + 1) cs).map fun (s, cs) => (String.ofList s, cs)
  | '\'' :: cs => (literal? cs).map fun (s, cs) => (String.ofList s, cs)
  | _ => none

def string? : List Char → Taken String
  | '"' :: '"' :: '"' :: cs =>
    (basicLines? (cs.length + 1) (skipFirstNewline cs)).map fun (s, cs) => (String.ofList s, cs)
  | '\'' :: '\'' :: '\'' :: cs =>
    (literalLines? (cs.length + 1) (skipFirstNewline cs)).map fun (s, cs) => (String.ofList s, cs)
  | cs => lineString? cs

/-! ## Keys -/

def isKeyChar (c : Char) : Bool := c.isAlphanum || c == '-' || c == '_'

def simpleKey? (cs : List Char) : Taken String :=
  match cs.takeWhile isKeyChar with
  | [] => lineString? cs
  | name => some (String.ofList name, cs.dropWhile isKeyChar)

/-- Keys with points between them; blanks may stand around each. -/
def dottedKey? : (fuel : Nat) → List Char → Taken (List String)
  | 0, _ => none
  | fuel + 1, cs =>
    (simpleKey? (skipBlanks cs)).bind fun (k, cs) =>
      match skipBlanks cs with
      | '.' :: cs => (dottedKey? fuel cs).map fun (ks, cs) => (k :: ks, cs)
      | cs => some ([k], cs)

/-- The levels that keys and values may be nested, one more than are accepted. -/
def levelLimit : Nat := 80

/-- The tables of a key, and the key itself. -/
def key? (cs : List Char) : Taken (List String × String) :=
  match dottedKey? (cs.length + 1) cs with
  | some (ks, cs) => if ks.length < levelLimit then ks.getLast?.map fun k => ((ks.dropLast, k), cs) else none
  | none => none

/-! ## Numbers -/

/-- Digits of a base, at least one; single underscores may stand between them. -/
def digitGroups? (digit? : Char → Option Nat) : List Char → Taken (List Nat)
  | c :: '_' :: cs =>
    (digit? c).bind fun d => (digitGroups? digit? cs).map fun (ds, cs) => (d :: ds, cs)
  | c :: cs =>
    (digit? c).map fun d =>
      match digitGroups? digit? cs with
      | some (ds, cs) => (d :: ds, cs)
      | none => ([d], cs)
  | [] => none

def numberOf (base : Nat) (ds : List Nat) : Nat := ds.foldl (fun n d => n * base + d) 0

def octalDigit? (c : Char) : Option Nat := (decimalDigit? c).filter (· < 8)

def binaryDigit? (c : Char) : Option Nat := (decimalDigit? c).filter (· < 2)

/-- An optional sign. -/
def sign? : List Char → Bool × List Char
  | '-' :: cs => (true, cs)
  | '+' :: cs => (false, cs)
  | cs => (false, cs)

/-- Digits without a zero in front, or a zero alone. -/
def decimalGroups? (cs : List Char) : Taken (List Nat) :=
  match cs with
  | '0' :: cs => some ([0], cs)
  | cs => digitGroups? decimalDigit? cs

def fitsInteger (n : Int) : Bool := decide (-2 ^ 63 ≤ n) && decide (n < 2 ^ 63)

def integerOf (base : Nat) (negative : Bool) (taken : List Nat × List Char) : Taken Value :=
  let n : Int := numberOf base taken.1
  let n := if negative then -n else n
  if fitsInteger n then some (.integer n, taken.2) else none

def integer? : List Char → Taken Value
  | '0' :: 'x' :: cs => (digitGroups? hexDigit? cs).bind (integerOf 16 false)
  | '0' :: 'o' :: cs => (digitGroups? octalDigit? cs).bind (integerOf 8 false)
  | '0' :: 'b' :: cs => (digitGroups? binaryDigit? cs).bind (integerOf 2 false)
  | cs =>
    let (negative, cs) := sign? cs
    (decimalGroups? cs).bind (integerOf 10 negative)

/-! ## Floats -/

def specialFloat? (cs : List Char) : Taken Value :=
  match (sign? cs).2 with
  | 'i' :: 'n' :: 'f' :: cs => some (.other, cs)
  | 'n' :: 'a' :: 'n' :: cs => some (.other, cs)
  | _ => none

/-- An exponent, as a number. -/
def exponent? : List Char → Taken Int
  | c :: cs =>
    if c = 'e' ∨ c = 'E' then
      let (negative, cs) := sign? cs
      (digitGroups? decimalDigit? cs).map fun (ds, cs) =>
        ((if negative then -(numberOf 10 ds : Int) else numberOf 10 ds), cs)
    else none
  | [] => none

/-- Whether `digits · 10^unit` rounds to the positive infinity. -/
def isTooLarge (digits : Nat) (unit : Int) : Bool :=
  if digits = 0 then false
  else
    let first : Int := digitCount digits + unit
    if 310 < first then true
    else if first < 300 then false
    else !(Binary64.nearest false (digits * 10 ^ unit.toNat) (10 ^ (-unit).toNat)).isFinite

/-- A float has a fraction or an exponent or both, and is not too large; too far below zero it may be. -/
def finiteFloat? (cs : List Char) : Taken Value :=
  let (negative, cs) := sign? cs
  (decimalGroups? cs).bind fun (whole, cs) =>
    let close (fraction : List Nat) (e : Int) (cs : List Char) : Taken Value :=
      if !negative && isTooLarge (numberOf 10 (whole ++ fraction)) (e - fraction.length) then none
      else some (.other, cs)
    match cs with
    | '.' :: cs =>
      (digitGroups? decimalDigit? cs).bind fun (fraction, cs) =>
        match exponent? cs with
        | some (e, cs) => close fraction e cs
        | none => close fraction 0 cs
    | cs => (exponent? cs).bind fun (e, cs) => close [] e cs

/-! ## Dates and times -/

/-- Exactly two digits, up to a limit. -/
def twoDigits? (limit : Nat) : List Char → Taken Nat
  | a :: b :: cs =>
    (decimalDigit? a).bind fun x => (decimalDigit? b).bind fun y =>
      if 10 * x + y ≤ limit then some (10 * x + y, cs) else none
  | _ => none

def mark? (c : Char) : List Char → Option (List Char)
  | d :: cs => if c = d then some cs else none
  | [] => none

def isLeapYear (y : Nat) : Bool := y % 4 == 0 && (y % 100 != 0 || y % 400 == 0)

def daysInMonth (y m : Nat) : Nat :=
  if m = 2 then (if isLeapYear y then 29 else 28)
  else if m = 4 ∨ m = 6 ∨ m = 9 ∨ m = 11 then 30 else 31

def date? (cs : List Char) : Option (List Char) := do
  let (century, cs) ← twoDigits? 99 cs
  let (year, cs) ← twoDigits? 99 cs
  let cs ← mark? '-' cs
  let (month, cs) ← twoDigits? 12 cs
  let cs ← mark? '-' cs
  let (day, cs) ← twoDigits? 31 cs
  if month = 0 ∨ day = 0 ∨ daysInMonth (100 * century + year) month < day then none
  return cs

def time? (cs : List Char) : Option (List Char) := do
  let (_, cs) ← twoDigits? 23 cs
  let cs ← mark? ':' cs
  let (_, cs) ← twoDigits? 59 cs
  let cs ← mark? ':' cs
  let (_, cs) ← twoDigits? 60 cs
  match cs with
  | '.' :: d :: rest => if d.isDigit then return rest.dropWhile Char.isDigit else none
  | '.' :: [] => none
  | cs => return cs

def offset? (cs : List Char) : Option (List Char) :=
  match cs with
  | 'Z' :: cs | 'z' :: cs => some cs
  | '+' :: cs | '-' :: cs => do
    let (_, cs) ← twoDigits? 23 cs
    let cs ← mark? ':' cs
    let (_, cs) ← twoDigits? 59 cs
    return cs
  | _ => none

/-- A date, a time, or both with an optional offset. -/
def dateTime? (cs : List Char) : Taken Value :=
  match date? cs with
  | some rest =>
    match rest with
    | c :: after =>
      if c = 'T' ∨ c = 't' ∨ c = ' ' then
        match time? after with
        | some after => some (.other, (offset? after).getD after)
        | none => some (.other, rest)
      else some (.other, rest)
    | [] => some (.other, [])
  | none => (time? cs).map (.other, ·)

end ValueBridge.Toml
