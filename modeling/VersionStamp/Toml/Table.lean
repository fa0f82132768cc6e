/-
# Tables of TOML

A table is a list of named values.  How a table came about decides who may add to it: a table
that a header or an inline table defined is closed to dotted keys, one that dotted keys made is
open to more of them, and one that was only passed through by a longer header can still get a
header of its own.
-/
import VersionStamp.Toml.Scalar

namespace VersionStamp.Toml

/-- How a table came about. -/
inductive Origin where
  /-- By a header of its own. -/
  | header
  /-- By dotted keys. -/
  | dotted
  /-- By the header of a table below it. -/
  | implied
  /-- Written between braces, as one value. -/
  | inline
  deriving DecidableEq, Repr

/-- A value of a TOML document. -/
inductive Value where
  | string (text : String)
  | scalar (value : Scalar)
  | array (items : List Value)
  | table (origin : Origin) (entries : List (String × Value))
  /-- Tables with one header in double brackets each: the last one, then those before it. -/
  | tables (last : List (String × Value)) (earlier : List (List (String × Value)))

/-- The named values of a table, in the order in which they came. -/
abbrev Table := List (String × Value)

namespace Table

/-- The table with what is at a key changed, or added if nothing is there. -/
def alter (change : Option Value → Option Value) (key : String) : Table → Option Table
  | [] => (change none).map fun v => [(key, v)]
  | (k, v) :: rest =>
    if k = key then (change (some v)).map fun v => (k, v) :: rest
    else (alter change key rest).map ((k, v) :: ·)

/-- The table with a value added at a dotted key.  All parts but the last lead through tables
that are open to dotted keys, and the last one must be new. -/
def insert (value : Value) : List String → Table → Option Table
  | [], _ => none
  | [key], table =>
    table.alter (fun | none => some value | some _ => none) key
  | key :: next :: more, table =>
    table.alter (fun
      | none => (insert value (next :: more) []).map (.table .dotted)
      | some (.table .dotted entries) =>
        (insert value (next :: more) entries).map (.table .dotted)
      | some (.table .implied entries) =>
        if more = [] then none else (insert value (next :: more) entries).map (.table .implied)
      | some (.tables last earlier) =>
        if more = [] then none
        else (insert value (next :: more) last).map fun last => .tables last earlier
      | some _ => none) key

/-- The table with all the values added, each at its dotted key. -/
def insertAll (table : Table) (assignments : List (List String × Value)) : Option Table :=
  assignments.foldlM (fun table (keys, value) => table.insert value keys) table

/-- The table with what is at the end of a header's path changed.  The other parts of the path
lead through tables, which are made where there are none. -/
def descend (change : Option Value → Option Value) : List String → Table → Option Table
  | [], _ => none
  | [key], table => table.alter change key
  | key :: next :: more, table =>
    table.alter (fun
      | none => (descend change (next :: more) []).map (.table .implied)
      | some (.table .inline _) => none
      | some (.table origin entries) =>
        (descend change (next :: more) entries).map (.table origin)
      | some (.tables last earlier) =>
        (descend change (next :: more) last).map fun last => .tables last earlier
      | some _ => none) key

/-- A header with the assignments below it. -/
structure Section where
  /-- Does the header stand in double brackets? -/
  isRepeated : Bool
  path : List String
  assignments : List (List String × Value)

/-- What becomes of the value at a header's path: a table that was only passed through gets the
assignments, and a header in double brackets adds one table to those before it. -/
def Section.define (s : Section) : Option Value → Option Value
  | none =>
    (insertAll [] s.assignments).map fun entries =>
      if s.isRepeated then .tables entries [] else .table .header entries
  | some (.table .implied entries) =>
    if s.isRepeated then none else (insertAll entries s.assignments).map (.table .header)
  | some (.tables last earlier) =>
    if s.isRepeated then
      (insertAll [] s.assignments).map fun entries => .tables entries (last :: earlier)
    else none
  | some _ => none

/-- The table of a document: the assignments in front of all headers, then each section. -/
def ofSections (assignments : List (List String × Value)) (sections : List Section) :
    Option Table := do
  let table ← insertAll [] assignments
  sections.foldlM (fun table s => table.descend s.define s.path) table

end Table

end VersionStamp.Toml
