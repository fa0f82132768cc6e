/-
# Trees of files

A tree of directories and files that is held in memory, with the rules by which a path leads
through it.  A path is followed piece by piece from the root or from a working directory: an
empty piece and a point stay, two points go up, and any other piece must name a directory,
except the last one, which may also name a file or nothing yet.

Writing replaces the bytes of one file and leaves every other place alone; what is written is
what a later reading returns.
-/
import VersionStamp.Files

namespace VersionStamp

/-- A place in a tree: the names that lead to it from the root. -/
abbrev Place := List String

/-- What is found at a place. -/
inductive Node where
  | file (bytes : ByteArray)
  | dir

/-- A tree of files: its places and what is there.  The root is always a directory. -/
structure Tree where
  nodes : List (Place × Node) := []

namespace Tree

/-! ## Places -/

/-- What is at a place, if anything. -/
def at? (t : Tree) (place : Place) : Option Node :=
  if place = [] then some .dir else t.nodes.lookup place

/-- The tree with a node put at a place, instead of what was there. -/
def set (t : Tree) (place : Place) (node : Node) : Tree :=
  ⟨(place, node) :: t.nodes.filter (·.1 ≠ place)⟩

/-- What was put at a place is found there. -/
theorem at?_set_self (t : Tree) {place : Place} (node : Node) (h : place ≠ []) :
    (t.set place node).at? place = some node := by
  simp [at?, set, h]

/-- All other places stay as they were. -/
theorem at?_set_of_ne (t : Tree) {place other : Place} (node : Node) (h : other ≠ place) :
    (t.set place node).at? other = t.at? other := by
  unfold at? set
  split
  · rfl
  · have hne : (other == place) = false := by simpa using h
    rw [List.lookup_cons, hne]
    induction t.nodes with
    | nil => rfl
    | cons entry rest ih =>
      obtain ⟨p, n⟩ := entry
      by_cases hp : p = place
      · subst hp
        simpa [List.lookup_cons, hne] using ih
      · by_cases ho : other = p
        · subst ho
          simp [hp]
        · have hop : (other == p) = false := by simpa using ho
          simpa [hp, List.lookup_cons, hop] using ih

/-- The tree without a place and all that is below it. -/
def remove (t : Tree) (place : Place) : Tree :=
  ⟨t.nodes.filter fun entry => !place.isPrefixOf entry.1⟩

/-- The tree with a directory at a place, and directories on the way to it. -/
def makeDir (t : Tree) (place : Place) : Tree :=
  (List.range place.length).foldl (fun t depth =>
    let p := place.take (depth + 1)
    if (t.at? p).isSome then t else t.set p .dir) t

/-- The tree with a file at a place, and directories on the way to it. -/
def makeFile (t : Tree) (place : Place) (bytes : ByteArray) : Tree :=
  (t.makeDir place.dropLast).set place (.file bytes)

/-- The files below a place, each with the names that lead to it from there. -/
def filesBelow (t : Tree) (place : Place) : List (Place × ByteArray) :=
  t.nodes.filterMap fun
    | (p, .file bytes) => if place.isPrefixOf p then some (p.drop place.length, bytes) else none
    | (_, .dir) => none

/-! ## Following a path -/

/-- The directory that is reached from a directory by following pieces of a path. -/
def walk (t : Tree) : Place → List String → Except Refusal Place
  | here, [] => .ok here
  | here, piece :: rest =>
    if piece = "" ∨ piece = "." then t.walk here rest
    else if piece = ".." then t.walk here.dropLast rest
    else
      match t.at? (here ++ [piece]) with
      | none => .error .notFound
      | some (.file _) => .error .notADirectory
      | some .dir => t.walk (here ++ [piece]) rest

/-- The pieces of a path, between its slashes. -/
def pieces (p : Path) : List String :=
  (p.text.toList.splitOn '/').map String.ofList

/-- A piece that stands for a directory whatever is there. -/
def isTurn (piece : String) : Bool :=
  piece = "" ∨ piece = "." ∨ piece = ".."

/-- The place that a path leads to from a working directory.  Nothing need be there yet, but
its directory must be there. -/
def locate (t : Tree) (cwd : Place) (p : Path) : Except Refusal Place :=
  if '\x00' ∈ p.text.toList then .error .nulInPath
  else if p.text = "" then .error .notFound
  else
    let start := if p.isAbsolute then [] else cwd
    let last := (pieces p).getLast?.getD ""
    if isTurn last then t.walk start (pieces p)
    else (t.walk start (pieces p).dropLast).map (· ++ [last])

/-! ## Operations on files -/

/-- Does a path lead to a file? -/
def isFile (t : Tree) (cwd : Place) (p : Path) : Bool :=
  match t.locate cwd p with
  | .error _ => false
  | .ok place =>
    match t.at? place with
    | some (.file _) => true
    | _ => false

/-- The text of the file that a path leads to. -/
def read (t : Tree) (cwd : Place) (p : Path) : Except Refusal String :=
  match t.locate cwd p with
  | .error e => .error e
  | .ok place =>
    match t.at? place with
    | none => .error .notFound
    | some .dir => .error .isDirectory
    | some (.file bytes) =>
      match String.fromUTF8? bytes with
      | none => .error .notText
      | some text => .ok text

/-- The path without the slashes at its end, unless it is made of slashes only. -/
def withoutSlashes (p : Path) : Path :=
  let cs := (p.text.toList.reverse.dropWhile (· = '/')).reverse
  if cs = [] then p else ⟨String.ofList cs⟩

/-- The tree after a text was written to the file that a path leads to.  A path that ends in a
slash asks for a directory, so no file is written there. -/
def write (t : Tree) (cwd : Place) (p : Path) (text : String) : Except Refusal Tree :=
  match t.locate cwd (withoutSlashes p) with
  | .error e => .error e
  | .ok place =>
    if p.text.toList.getLast? = some '/' then .error .isDirectory
    else
      match t.at? place with
      | some .dir => .error .isDirectory
      | _ => .ok (t.set place (.file text.toUTF8))

end Tree

/-- The operations on the files of a tree, from a working directory.  A write that is refused
leaves the tree as it was. -/
def Files.ofTree (cwd : Place) : Files (StateM Tree) where
  isFile p := fun t => (t.isFile cwd p, t)
  read p := fun t => (t.read cwd p, t)
  write p text := fun t =>
    match t.write cwd p text with
    | .ok t' => (.ok (), t')
    | .error e => (.error e, t)

end VersionStamp
