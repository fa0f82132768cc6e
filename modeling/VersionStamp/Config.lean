/-
# The configuration of a project

A project is a directory that holds a configuration file or a version file in the standard
place; the project of a directory is the nearest one among its ancestors.  The configuration
names the version file and the stem of its macros.  It is read even when the version file is
given from outside, so that a broken configuration never goes unnoticed.
-/
import VersionStamp.Store
import VersionStamp.Toml.Document

namespace VersionStamp

namespace Config

/-! ## Names and standard values -/

/-- The configuration file of a project, seen from its root. -/
def fileName : Path := ⟨"versionbump.toml"⟩

/-- The version file of a project that names no other, seen from its root. -/
def standardFile : Path := ⟨"src/version.inc"⟩

/-- The stem of macros that is used when a project names no other. -/
def standardStem : String := "LC0"

/-! ## The section of a configuration file -/

/-- What a configuration file says. -/
structure Section where
  file : Option String := none
  stem : Option String := none
  deriving DecidableEq, Repr

namespace Section

/-- The text at a key of a table, if the key is there. -/
def text? (table : Toml.Table) (key : String) : Except ConfigFlaw (Option String) :=
  match table.lookup key with
  | none => .ok none
  | some (.string text) => .ok (some text)
  | some _ => .error (.wrongType ("version." ++ key))

/-- The section that a value stands for: a table with the two keys, or a list that starts with
the two texts.  A date says nothing. -/
def ofValue : Toml.Value → Except ConfigFlaw Section
  | .table _ entries => do
    let file ← text? entries "file"
    let stem ← text? entries "prefix"
    return ⟨file, stem⟩
  | .array (.string file :: .string stem :: _) => .ok ⟨some file, some stem⟩
  | .scalar .moment => .ok {}
  | _ => .error (.wrongType "version")

/-- The section that a configuration file's text holds; without one, it says nothing. -/
def parse (text : String) : Except ConfigFlaw Section :=
  match Toml.document? text with
  | none => .error .notToml
  | some table =>
    match table.lookup "version" with
    | none => .ok {}
    | some value => ofValue value

/-- The stem that is used: the one named, unless it is blank. -/
def usedStem (s : Section) : String :=
  (s.stem.filter fun stem => !stem.toList.all Text.isBlank).getD standardStem

/-- The version file that is used: the one given from outside, seen from the working directory,
else the one named, seen from the root, else the standard one. -/
def usedFile (s : Section) (cwd root : Path) (given : Option Path) : Path :=
  match given, s.file with
  | some file, _ => cwd.join file
  | none, some file => root.join ⟨file⟩
  | none, none => root.join standardFile

end Section

/-! ## Finding a project -/

variable {m : Type → Type} [Monad m]

/-- Is the directory the root of a project? -/
def isRoot (files : Files m) (dir : Path) : m Bool := do
  if ← files.isFile (dir.join fileName) then return true
  files.isFile (dir.join standardFile)

/-- The nearest root of a project among a path and its ancestors. -/
def findRoot? (files : Files m) (start : Path) : m (Option Path) :=
  start.ancestors.findM? (isRoot files)

/-- The nearest root of a project, or the path itself if there is none. -/
def rootOr (files : Files m) (start : Path) : m Path := do
  return (← findRoot? files start).getD start

/-! ## Resolving the store -/

/-- The section of the configuration file at a path; where there is no file, it says nothing. -/
def loadSection (files : Files m) (path : Path) : m (Except Fault Section) := do
  if ← files.isFile path then
    match ← files.read path with
    | .error refusal => return .error (.badConfig path (.unreadable refusal))
    | .ok text => return (Section.parse text).mapError (.badConfig path)
  else return .ok {}

/-- The store of the project that a working directory belongs to. -/
def resolve (files : Files m) (cwd : Path) (given : Option Path) : m (Except Fault Store) := do
  let root ← rootOr files cwd
  match ← loadSection files (root.join fileName) with
  | .error fault => return .error fault
  | .ok s => return .ok ⟨s.usedFile cwd root given, s.usedStem⟩

end Config

end VersionStamp
