/-
# Files

All that a session needs of a file system: to ask whether a path leads to a file, to read the
text of a file, and to replace it.  The three operations run in any monad, so that the same
session runs on the files of the machine and on a tree that is held in memory.
-/
import VersionStamp.Path

namespace VersionStamp

/-- Why a file could not be read or written. -/
inductive Refusal where
  /-- Nothing is there, or a directory on the way is missing. -/
  | notFound
  /-- A directory stands where a file is needed. -/
  | isDirectory
  /-- A file stands where a directory is needed. -/
  | notADirectory
  /-- The bytes of the file are not text in UTF-8. -/
  | notText
  /-- The path holds the character U+0000. -/
  | nulInPath
  /-- Any other reason, in its own words. -/
  | other (reason : String)
  deriving DecidableEq, Repr

/-- The refusal in words. -/
def Refusal.message : Refusal → String
  | notFound => "No such file or directory (os error 2)"
  | isDirectory => "Is a directory (os error 21)"
  | notADirectory => "Not a directory (os error 20)"
  | notText => "stream did not contain valid UTF-8"
  | nulInPath => "file name contained an unexpected NUL byte"
  | other reason => reason

/-- The operations on files, each in the monad `m`. -/
structure Files (m : Type → Type) where
  /-- Does the path lead to a regular file? -/
  isFile : Path → m Bool
  /-- The text of a file. -/
  read : Path → m (Except Refusal String)
  /-- Puts a text in place of all that a file holds, and makes the file if it is new. -/
  write : Path → String → m (Except Refusal Unit)

end VersionStamp
