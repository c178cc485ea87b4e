/-!
# TOML values and tables

A document is assembled from its lines: a line may define a key of the current table, of a table below it by a dotted
key, or start another table by a header.  How a table came about decides what may still be added to it: one with a
header or in braces is complete, one that only a longer header or a dotted key implied may be extended.
-/
namespace ValueBridge.Toml

/-- How a table came about. -/
inductive Origin where
  /-- It has a header of its own. -/
  | header
  /-- A header names a table inside it. -/
  | implied
  /-- A dotted key goes through it. -/
  | dotted
  /-- It is written in braces. -/
  | inline
deriving DecidableEq, Repr

inductive Value where
  | string (s : String)
  | integer (n : Int)
  | boolean (b : Bool)
  /-- A float, date or time; only that there is one is kept. -/
  | other
  | array (items : List Value)
  | table (origin : Origin) (fields : List (String × Value))
  /-- The tables of one array, each with a header of its own. -/
  | tables (tables : List (List (String × Value)))

abbrev Fields := List (String × Value)

/-- The value of a key is replaced, or the key is added. -/
def put (key : String) (v : Value) : Fields → Fields
  | [] => [(key, v)]
  | (k, w) :: rest => if k = key then (key, v) :: rest else (k, w) :: put key v rest

/-- The last table of an array is changed. -/
def changeLast? (f : Fields → Option Fields) : List Fields → Option (List Fields)
  | [] => none
  | [t] => (f t).map ([·])
  | t :: ts => (changeLast? f ts).map (t :: ·)

/-! ## Keys -/

/-- A key is defined, below the tables of the path.  A key is defined once; a table of the path must not be complete,
and the one that gets the key must stem from dotted keys alone. -/
def define? (key : String) (v : Value) : (path : List String) → Fields → Option Fields
  | [], fields => if (fields.lookup key).isSome then none else some (fields ++ [(key, v)])
  | k :: path, fields =>
    match fields.lookup k with
    | none => (define? key v path []).map fun inner => put k (.table .dotted inner) fields
    | some (.table .dotted inner) =>
      (define? key v path inner).map fun inner => put k (.table .dotted inner) fields
    | some (.table .implied inner) =>
      if path.isEmpty then none
      else (define? key v path inner).map fun inner => put k (.table .implied inner) fields
    | some (.tables ts) =>
      if path.isEmpty then none
      else (changeLast? (define? key v path) ts).map fun ts => put k (.tables ts) fields
    | some _ => none

/-- The keys of one table, each with its path. -/
def defineAll? (lines : List (List String × String × Value)) (fields : Fields) : Option Fields :=
  lines.foldlM (fun fs (path, key, v) => define? key v path fs) fields

/-! ## Headers -/

/-- What a header names is changed; tables on the way are implied. -/
def atHeader? (change : Option Value → Option Value) : (path : List String) → Fields → Option Fields
  | [], _ => none
  | [k], fields => (change (fields.lookup k)).map fun v => put k v fields
  | k :: path, fields =>
    match fields.lookup k with
    | none => (atHeader? change path []).map fun inner => put k (.table .implied inner) fields
    | some (.table .inline _) => none
    | some (.table origin inner) =>
      (atHeader? change path inner).map fun inner => put k (.table origin inner) fields
    | some (.tables ts) => (changeLast? (atHeader? change path) ts).map fun ts => put k (.tables ts) fields
    | some _ => none

/-- A header, with the lines that follow it up to the next one. -/
structure Section where
  path : List String
  inArray : Bool
  lines : List (List String × String × Value)

def Section.change (s : Section) (old : Option Value) : Option Value :=
  if s.inArray then
    match old with
    | none => (defineAll? s.lines []).map fun fs => .tables [fs]
    | some (.tables ts) => (defineAll? s.lines []).map fun fs => .tables (ts ++ [fs])
    | some _ => none
  else
    match old with
    | none => (defineAll? s.lines []).map (.table .header)
    | some (.table .implied inner) => (defineAll? s.lines inner).map (.table .header)
    | some _ => none

/-- The table of a whole document: the lines before the first header, then the sections in order. -/
def assemble? (lines : List (List String × String × Value)) (sections : List Section) : Option Fields :=
  (defineAll? lines []).bind fun root => sections.foldlM (fun fs s => atHeader? s.change s.path fs) root

end ValueBridge.Toml
