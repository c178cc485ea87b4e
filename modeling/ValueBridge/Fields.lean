/-!
# Named fields

Fields are names with values, in some order.  Two orders by name are wanted: `sorted` keeps every field, and those of
one name in the order they are given in; `latest` keeps one field for a name, the last that is given.  Names are
ordered by their code points, which is the order of their UTF-8 bytes.
-/
namespace ValueBridge.Fields

/-- Fields in ascending order of their names; those of one name keep their order. -/
def sorted {α : Type} (fields : List (String × α)) : List (String × α) :=
  fields.mergeSort fun a b => decide (a.1 ≤ b.1)

/-- Fields in ascending order of their names, with one more: it replaces the field of its name, or goes in its place. -/
def put {α : Type} (name : String) (value : α) : List (String × α) → List (String × α)
  | [] => [(name, value)]
  | (n, v) :: rest =>
    if name < n then (name, value) :: (n, v) :: rest
    else if name = n then (name, value) :: rest
    else (n, v) :: put name value rest

/-- Every name once, in ascending order, with the last value given for it. -/
def latest {α : Type} (fields : List (String × α)) : List (String × α) :=
  fields.foldl (fun done f => put f.1 f.2 done) []

end ValueBridge.Fields
