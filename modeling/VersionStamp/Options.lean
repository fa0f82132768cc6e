/-
# Options of a session

What a session can be asked to do: which fields to bump, which version file to use, how to
report, which version to require, and whether to log every step.
-/
import VersionStamp.Bump
import VersionStamp.Path
import VersionStamp.Report

namespace VersionStamp

/-- What a session is asked to do. -/
structure Options where
  request : Bump.Request := {}
  /-- The version file to use instead of the project's own. -/
  file : Option Path := none
  report : Report := .standard
  /-- The version that the result must not be older than, as it was given. -/
  require : Option String := none
  verbose : Bool := false
  deriving DecidableEq, Repr

end VersionStamp
