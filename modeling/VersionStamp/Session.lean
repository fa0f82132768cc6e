/-
# Sessions

A session reads the version of a project, bumps it on request, and reports it.  The version
that is required at least is read first of all, so that nothing is written if it makes no
sense; it is compared last of all, and never keeps a bump from being stored.
-/
import VersionStamp.Bump
import VersionStamp.Config
import VersionStamp.Log.Style
import VersionStamp.Options

namespace VersionStamp

namespace Session

/-! ## Failures -/

/-- What a session was about when it failed. -/
inductive Stage where
  | resolving
  | loading
  | updating
  deriving DecidableEq, Repr

/-- What is said of a stage that failed. -/
def Stage.message : Stage → String
  | resolving => "Failed to resolve the version file location"
  | loading => "Failed to load version"
  | updating => "Failed to update version"

/-- Why a session failed, and at which stage if that has to be said. -/
structure Failure where
  stage : Option Stage := none
  fault : Fault
  deriving DecidableEq, Repr

/-- The log entry of a failure: the stage if there is one, traced to the fault and to what lies
behind the fault. -/
def Failure.entry : Failure → Log.Entry
  | ⟨none, fault⟩ => ⟨.error, fault.message, fault.causes⟩
  | ⟨some stage, fault⟩ => ⟨.error, stage.message, fault.message :: fault.causes⟩

/-! ## Outcomes -/

/-- How a session went: what was logged, and the line to report or why there is none. -/
structure Outcome where
  log : List Log.Entry
  report : Except Failure String

namespace Outcome

/-- The status with which a session ends. -/
def exitCode (outcome : Outcome) : UInt32 :=
  match outcome.report with
  | .ok _ => 0
  | .error _ => 1

/-- What a session prints: the report line, or nothing. -/
def output (outcome : Outcome) : String :=
  match outcome.report with
  | .ok line => line ++ "\n"
  | .error _ => ""

/-- All that a session logs, its failure last. -/
def entries (outcome : Outcome) : List Log.Entry :=
  match outcome.report with
  | .ok _ => outcome.log
  | .error failure => outcome.log ++ [failure.entry]

end Outcome

/-! ## Log entries -/

/-- The entry that names the version file. -/
def located (store : Store) : Log.Entry :=
  { level := .info, message := "Using version file " ++ store.path.text }

/-- The entry for a suffix that is given but empty. -/
def emptySuffix : Log.Entry :=
  { level := .warning, message := "Empty postfix ignored" }

/-- The entry for a request that changes nothing. -/
def untouched : Log.Entry :=
  { level := .debug, message := "No bump requested, version file untouched" }

/-- The entry for a bump that was stored. -/
def bumped (before after : Version) (writes : Nat) : Log.Entry :=
  { level := .success
    message := before.tag ++ " -> " ++ after.tag ++ " (" ++ Text.digits writes ++ " write(s))" }

/-- What is logged of a request before it is carried out. -/
def announce (verbose : Bool) (r : Bump.Request) : List Log.Entry :=
  (if r.suffix = some "" then Log.note verbose emptySuffix else []) ++
    (if r.isMutating then [] else Log.note verbose untouched)

/-! ## The course of a session -/

variable {m : Type → Type} [Monad m]

/-- The log of a part of a session, and the version it ended with. -/
abbrev Course := List Log.Entry × Except Failure Version

/-- Bumps the version that was loaded from a store. -/
def bump (files : Files m) (store : Store) (verbose : Bool) (r : Bump.Request) (before : Version) :
    m Course := do
  let outcome ← Bump.apply (store.persist files) verbose r before
  let log := announce verbose r ++ outcome.log
  match outcome.result with
  | .error fault => return (log, .error ⟨some .updating, fault⟩)
  | .ok 0 => return (log, .ok outcome.version)
  | .ok writes =>
    return (log ++ Log.note verbose (bumped before outcome.version writes), .ok outcome.version)

/-- Loads the version of a store and bumps it. -/
def update (files : Files m) (store : Store) (verbose : Bool) (r : Bump.Request) : m Course := do
  let log := Log.note verbose (located store)
  match ← store.load files with
  | .error fault => return (log, .error ⟨some .loading, fault⟩)
  | .ok before =>
    let (more, result) ← bump files store verbose r before
    return (log ++ more, result)

/-- All of a session but the comparison with the required version. -/
def perform (files : Files m) (cwd : Path) (o : Options) : m Course := do
  match ← Config.resolve files cwd o.file with
  | .error fault => return ([], .error ⟨some .resolving, fault⟩)
  | .ok store => update files store o.verbose o.request

/-- The version that is required, if one is. -/
def readRequired (require : Option String) : Except Fault (Option Version) :=
  match require with
  | none => .ok none
  | some text =>
    match Version.read text with
    | .ok v => .ok (some v)
    | .error fault => .error (.badVersion text fault)

/-- The report line of a version, unless it is older than the required one. -/
def conclude (report : Report) (required : Option Version) (v : Version) : Except Failure String :=
  match required with
  | some r => if v.compareRelease r = .lt then .error ⟨none, .tooOld v r⟩ else .ok (report.render v)
  | none => .ok (report.render v)

/-- A whole session. -/
def run (files : Files m) (cwd : Path) (o : Options) : m Outcome := do
  match readRequired o.require with
  | .error fault => return ⟨[], .error ⟨none, fault⟩⟩
  | .ok required =>
    let (log, result) ← perform files cwd o
    return ⟨log, result.bind (conclude o.report required)⟩

end Session

end VersionStamp
