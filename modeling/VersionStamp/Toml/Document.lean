/-
# Documents of TOML

A document is a series of statements: headers, and assignments of values to keys.  Arrays and
inline tables may be nested, up to a fixed depth.
-/
import VersionStamp.Toml.Table

namespace VersionStamp.Toml

/-! ## Values -/

/-- The items of an array, behind its opening bracket or a comma, read with `item`. -/
def arrayItems (item : List Char → Option (Value × List Char)) :
    Nat → List Char → Option (List Value × List Char)
  | 0, _ => none
  | fuel + 1, cs =>
    match skipGap false cs with
    | ']' :: rest => some ([], rest)
    | cs => do
      let (v, rest) ← item cs
      match skipGap false rest with
      | ']' :: rest => some ([v], rest)
      | ',' :: rest => (arrayItems item fuel rest).map fun (vs, rest) => (v :: vs, rest)
      | _ => none

/-- An assignment, up to where its value ends, the value being read with `item`. -/
def assignment (item : List Char → Option (Value × List Char)) (cs : List Char) :
    Option ((List String × Value) × List Char) := do
  let (keys, rest) ← key cs
  let rest ← expect '=' rest
  let (v, rest) ← item (skipSpaces rest)
  some ((keys, v), rest)

/-- The assignments of an inline table, behind its opening brace or a comma. -/
def inlineItems (item : List Char → Option (Value × List Char)) :
    Nat → List Char → Option ((List (List String × Value)) × List Char)
  | 0, _ => none
  | fuel + 1, cs => do
    let (a, rest) ← assignment item cs
    match skipSpaces rest with
    | '\x7d' :: rest => some ([a], rest)
    | ',' :: rest => (inlineItems item fuel rest).map fun (more, rest) => (a :: more, rest)
    | _ => none

/-- An inline table, behind its opening brace. -/
def inlineTable (item : List Char → Option (Value × List Char)) (cs : List Char) :
    Option (Value × List Char) :=
  match skipSpaces cs with
  | '\x7d' :: rest => some (.table .inline [], rest)
  | cs => do
    let (assignments, rest) ← inlineItems item cs.length cs
    let entries ← Table.insertAll [] assignments
    some (.table .inline entries, rest)

/-- A string or a word. -/
def simpleValue (cs : List Char) : Option (Value × List Char) :=
  match cs.head? with
  | some '"' | some '\'' => (string cs).map fun (text, rest) => (.string text, rest)
  | _ => (scalar cs).map fun (v, rest) => (.scalar v, rest)

/-- A value in which arrays and inline tables are nested at most so deep. -/
def value : Nat → List Char → Option (Value × List Char)
  | 0, cs => simpleValue cs
  | depth + 1, cs =>
    match cs with
    | '[' :: rest =>
      (arrayItems (value depth) cs.length rest).map fun (vs, rest) => (.array vs, rest)
    | '\x7b' :: rest => inlineTable (value depth) rest
    | cs => simpleValue cs

/-- The deepest nesting of arrays and inline tables. -/
def maxDepth : Nat := 79

/-! ## Statements -/

/-- A statement of a document. -/
inductive Statement where
  | header (isRepeated : Bool) (path : List String)
  | assign (keys : List String) (value : Value)

/-- A statement, up to the end of its line. -/
def statement : List Char → Option (Statement × List Char)
  | '[' :: '[' :: rest => do
    let (path, rest) ← key rest
    let rest ← expect ']' rest
    let rest ← expect ']' rest
    some (.header true path, rest)
  | '[' :: rest => do
    let (path, rest) ← key rest
    let rest ← expect ']' rest
    some (.header false path, rest)
  | cs => do
    let ((keys, v), rest) ← assignment (value maxDepth) cs
    some (.assign keys v, rest)

/-- The statements of a text, each on lines of its own. -/
def statements : Nat → List Char → Option (List Statement)
  | 0, _ => none
  | fuel + 1, cs =>
    match skipGap false cs with
    | [] => some []
    | cs => do
      let (s, rest) ← statement cs
      if isLineEnd rest then (statements fuel rest).map (s :: ·) else none

/-- The assignments in front of all headers, and the sections. -/
def sections : List Statement → List (List String × Value) × List Table.Section
  | [] => ([], [])
  | .assign keys v :: rest =>
    let (assignments, more) := sections rest
    ((keys, v) :: assignments, more)
  | .header isRepeated path :: rest =>
    let (assignments, more) := sections rest
    ([], ⟨isRepeated, path, assignments⟩ :: more)

/-! ## Documents -/

/-- The text without a byte order mark in front. -/
def skipMark : List Char → List Char
  | '\uFEFF' :: rest => rest
  | cs => cs

/-- The table that a document stands for, if it is one. -/
def document? (text : String) : Option Table := do
  let cs := skipMark text.toList
  let found ← statements (cs.length + 1) cs
  let (assignments, more) := sections found
  Table.ofSections assignments more

end VersionStamp.Toml
