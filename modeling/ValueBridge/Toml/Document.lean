import ValueBridge.Toml.Lexeme
/-!
# TOML documents

Values, with arrays over several lines and tables in braces on one line; then the lines of a document, and the table
that they make.  `Toml.ofText?` accepts a text exactly when every line is well formed and the lines fit together.
-/
namespace ValueBridge.Toml

/-! ## Values -/

mutual
/-- A value inside `levels` arrays and tables, for values that at most `fuel` steps reach. -/
def value? : (fuel levels : Nat) → List Char → Taken Value
  | 0, _, _ => none
  | fuel + 1, levels, cs =>
    match cs with
    | '"' :: _ | '\'' :: _ => (string? cs).map fun (s, cs) => (.string s, cs)
    | '[' :: cs =>
      if levels + 1 < levelLimit then
        (items? fuel (levels + 1) cs).map fun (vs, cs) => (.array vs, cs)
      else none
    | '\x7b' :: cs =>
      if levels + 1 < levelLimit then
        match skipBlanks cs with
        | '\x7d' :: cs => some (.table .inline [], cs)
        | cs =>
          (inlineFields? fuel (levels + 1) cs).bind fun (lines, cs) =>
            (defineAll? lines []).map fun fs => (.table .inline fs, cs)
      else none
    | 't' :: 'r' :: 'u' :: 'e' :: cs => some (.boolean true, cs)
    | 'f' :: 'a' :: 'l' :: 's' :: 'e' :: cs => some (.boolean false, cs)
    | cs => (dateTime? cs).or ((finiteFloat? cs).or ((specialFloat? cs).or (integer? cs)))
/-- The values of an array up to its closing bracket; a comma may follow the last one. -/
def items? : (fuel levels : Nat) → List Char → Taken (List Value)
  | 0, _, _ => none
  | fuel + 1, levels, cs =>
    match skipFiller false cs with
    | ']' :: cs => some ([], cs)
    | cs =>
      (value? fuel levels cs).bind fun (v, cs) =>
        match skipFiller false cs with
        | ',' :: cs => (items? fuel levels cs).map fun (vs, cs) => (v :: vs, cs)
        | ']' :: cs => some ([v], cs)
        | _ => none
/-- The fields of a table in braces, at least one, up to its closing brace. -/
def inlineFields? : (fuel levels : Nat) → List Char → Taken (List (List String × String × Value))
  | 0, _, _ => none
  | fuel + 1, levels, cs =>
    (key? cs).bind fun (k, cs) =>
      (mark? '=' cs).bind fun cs =>
        (value? fuel levels (skipBlanks cs)).bind fun (v, cs) =>
          match skipBlanks cs with
          | ',' :: cs => (inlineFields? fuel levels cs).map fun (lines, cs) => ((k.1, k.2, v) :: lines, cs)
          | '\x7d' :: cs => some ([(k.1, k.2, v)], cs)
          | _ => none
end

/-! ## Lines -/

inductive Line where
  | define (path : List String) (key : String) (v : Value)
  | header (path : List String) (inArray : Bool)

def header? (cs : List Char) : Taken (List String) :=
  (key? cs).map fun (k, cs) => (k.1 ++ [k.2], cs)

/-- A line that is not empty, up to its end. -/
def line? (cs : List Char) : Option (Line × List Char) :=
  match cs with
  | '[' :: '[' :: cs => do
    let (path, cs) ← header? cs
    let cs ← mark? ']' cs
    let cs ← mark? ']' cs
    return (.header path true, ← lineEnd? cs)
  | '[' :: cs => do
    let (path, cs) ← header? cs
    let cs ← mark? ']' cs
    return (.header path false, ← lineEnd? cs)
  | cs => do
    let (k, cs) ← key? cs
    let cs ← mark? '=' cs
    let cs := skipBlanks cs
    let (v, cs) ← value? (2 * cs.length + 2) 0 cs
    return (.define k.1 k.2 v, ← lineEnd? cs)

/-- The lines that are not empty.  Every line takes a character, so there are no more than the text has. -/
def lines? : (fuel : Nat) → List Char → Option (List Line)
  | 0, _ => none
  | fuel + 1, cs =>
    match skipBlanks cs with
    | [] => some []
    | '#' :: cs => (lineEnd? ('#' :: cs)).bind (lines? fuel)
    | '\n' :: cs => lines? fuel cs
    | '\r' :: '\n' :: cs => lines? fuel cs
    | cs => (line? cs).bind fun (l, cs) => (lines? fuel cs).map (l :: ·)

/-! ## Documents -/

/-- The lines before the first header, and the sections after it. -/
def sections : List Line → List (List String × String × Value) × List Section
  | [] => ([], [])
  | .define path key v :: rest =>
    let (lines, ss) := sections rest
    ((path, key, v) :: lines, ss)
  | .header path inArray :: rest =>
    let (lines, ss) := sections rest
    ([], ⟨path, inArray, lines⟩ :: ss)

/-- The fields of a document; a byte order mark in front of it does not count. -/
def ofText? (s : String) : Option Fields :=
  let cs := match s.toList with
    | '\ufeff' :: cs => cs
    | cs => cs
  (lines? (cs.length + 1) cs).bind fun lines => let (top, ss) := sections lines; assemble? top ss

end ValueBridge.Toml
