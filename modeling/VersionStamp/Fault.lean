/-
# Faults

Every way in which a session can fail, as its cause, and the one place where causes are put
into words.
-/
import VersionStamp.Files
import VersionStamp.Header
import VersionStamp.Version.Tag

namespace VersionStamp

/-- What is wrong with a configuration file. -/
inductive ConfigFlaw where
  /-- The file could not be read. -/
  | unreadable (refusal : Refusal)
  /-- The text is not a TOML document. -/
  | notToml
  /-- The document is sound, but a value in it has the wrong type. -/
  | wrongType (key : String)
  deriving DecidableEq, Repr

/-- The flaw in words. -/
def ConfigFlaw.message : ConfigFlaw → String
  | unreadable refusal => refusal.message
  | notToml => "not a valid TOML document"
  | wrongType key => "the value of '" ++ key ++ "' has the wrong type"

/-- Why a session fails. -/
inductive Fault where
  /-- There is no version file. -/
  | missing (path : Path)
  /-- The version file is not a header of four macro definitions. -/
  | malformed (path : Path) (fault : Header.Fault)
  /-- The version file is there but cannot be used. -/
  | inaccessible (path : Path) (refusal : Refusal)
  /-- The configuration file is not usable. -/
  | badConfig (path : Path) (flaw : ConfigFlaw)
  /-- A text that should be a version is none. -/
  | badVersion (text : String) (fault : Version.ReadFault)
  /-- The version is older than the one asked for. -/
  | tooOld (current required : Version)
  deriving DecidableEq, Repr

namespace Fault

/-- A refused access to the version file; that nothing is there is a fault of its own. -/
def ofRefusal (path : Path) : Refusal → Fault
  | .notFound => missing path
  | refusal => inaccessible path refusal

/-- The fault in words. -/
def message : Fault → String
  | missing path => "version file not found at '" ++ path.text ++ "'"
  | malformed path fault =>
    "malformed version file '" ++ path.text ++ "' (line " ++ Text.digits fault.line ++ "): " ++
      fault.message
  | inaccessible path _ => "failed to access '" ++ path.text ++ "'"
  | badConfig path flaw => "invalid config '" ++ path.text ++ "': " ++ flaw.message
  | badVersion text fault => "invalid version '" ++ text ++ "': " ++ fault.message
  | tooOld current required =>
    "version " ++ current.text ++ " is older than the required " ++ required.text

/-- What lies behind the fault, where there is more to say than its message. -/
def causes : Fault → List String
  | inaccessible _ refusal => [refusal.message]
  | _ => []

end Fault

end VersionStamp
