/-
# The report line

A session ends by reporting the version on one line: its tag, its packed number, or a JSON
object of the four fields and the tag.
-/
import VersionStamp.Text.Quoted
import VersionStamp.Version.Tag

namespace VersionStamp

/-- The form of the report line. -/
inductive Report where
  | tag
  | int
  | json
  deriving DecidableEq, Repr

namespace Report

/-- The form that is used when none is asked for. -/
def standard : Report := tag

/-- The members of the JSON report, in order, each value as it is written. -/
def members (v : Version) : List (String × String) :=
  [("major", Text.digits v.major.toNat), ("minor", Text.digits v.minor.toNat),
   ("patch", Text.digits v.patch.toNat), ("postfix", Text.quoted v.suffix),
   ("version", Text.quoted v.tag)]

/-- One member of a JSON object. -/
def member (entry : String × String) : String :=
  Text.quoted entry.1 ++ ":" ++ entry.2

/-- A JSON object on one line, without blanks between its members. -/
def object (entries : List (String × String)) : String :=
  "\x7b" ++ ",".intercalate (entries.map member) ++ "\x7d"

/-- The report line of a version, without a line end. -/
def render (v : Version) : Report → String
  | tag => v.tag
  | int => Text.digits v.packed.toNat
  | json => object (members v)

end Report

end VersionStamp
