/-
# Log entries

A session logs what it does as a list of entries.  Two of the five levels are for those who
ask for details: an entry of such a level is left out unless the log is verbose.
-/

namespace VersionStamp

namespace Log

/-- The weight of a log entry. -/
inductive Level where
  | success
  | error
  | info
  | warning
  | debug
  deriving DecidableEq, Repr

/-- The levels that only a verbose log shows. -/
def Level.isDetail : Level → Bool
  | info => true
  | debug => true
  | _ => false

/-- Does a log show entries of this level? -/
def Level.isShown (verbose : Bool) (level : Level) : Bool :=
  verbose || !level.isDetail

/-- One entry: a message, and the lines that trace it to its causes. -/
structure Entry where
  level : Level
  message : String
  trace : List String := []
  deriving DecidableEq, Repr

/-- The log of one entry, which is empty if the level is not shown. -/
def note (verbose : Bool) (entry : Entry) : List Entry :=
  if entry.level.isShown verbose then [entry] else []

end Log

end VersionStamp
