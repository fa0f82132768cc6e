/-
# The program

The whole program as a function: a command line and a file system go in; a status, the text for
the standard output and the text for the standard error come out.
-/
import VersionStamp.Command
import VersionStamp.Session

namespace VersionStamp

namespace Program

/-- The name of the program, and its own version. -/
def nameAndVersion : String := "versionbump 0.1.0"

/-- The environment variable that names a version file. -/
def fileVariable : String := "VERSIONBUMP_FILE"

/-- The environment variable that takes the colours out of the log. -/
def noColourVariable : String := "NO_COLOR"

/-- How the program is called. -/
def usage : String := "Usage: versionbump [OPTIONS]"

/-- The options, with what each one does. -/
def help (fileValue : Option String) : String :=
  "Set or read the current version stored in src/version.inc\n\n" ++ usage ++ "\n\nOptions:\n" ++
    "      --major              Bump the major version, resetting minor, patch and postfix\n" ++
    "      --minor              Bump the minor version, resetting patch and postfix\n" ++
    "      --patch              Bump the patch version, resetting the postfix\n" ++
    "      --postfix <POSTFIX>  Set the postfix (ignored when empty, no whitespace or quotes)\n" ++
    "      --file <PATH>        Version file to use instead of the project default [env: " ++
    fileVariable ++ "=" ++ fileValue.getD "" ++ "]\n" ++
    "      --int                Print the packed integer form instead of vMAJOR.MINOR.PATCH\n" ++
    "      --json               Print the version as a JSON object\n" ++
    "      --require <VERSION>  Fail unless the resulting version is at least MAJOR.MINOR.PATCH\n" ++
    "  -v, --verbose            Log each step to stderr\n" ++
    "  -h, --help               Print help\n" ++
    "  -V, --version            Print version\n"

/-- What a run of the program leaves behind, apart from the files. -/
structure Result where
  status : UInt32
  output : String
  errors : String
  deriving DecidableEq, Repr

/-- What a session leaves behind, its log written in a style. -/
def Result.ofOutcome (style : Log.Style) (outcome : Session.Outcome) : Result :=
  ⟨outcome.exitCode, outcome.output, style.render outcome.entries⟩

variable {m : Type → Type} [Monad m]

/-- A run of the program in a working directory. -/
def run (files : Files m) (cwd : Path) (style : Log.Style) (fileValue : Option String)
    (arguments : List String) : m Result := do
  match Command.parse fileValue arguments with
  | .run o => return .ofOutcome style (← Session.run files cwd o)
  | .showVersion => return ⟨0, nameAndVersion ++ "\n", ""⟩
  | .showHelp => return ⟨0, help fileValue, ""⟩
  | .usageError => return ⟨2, "", usage ++ "\n"⟩

end Program

end VersionStamp
