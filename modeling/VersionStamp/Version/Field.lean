/-
# The fields of a version

Four fields make a version: three numbers and a free suffix.  Their order is the order of
the lines in a version file, of the parts of a version text, and of the steps of a bump.
-/

namespace VersionStamp

/-- One of the four fields of a version. -/
inductive Field where
  | major
  | minor
  | patch
  | suffix
  deriving DecidableEq, Repr

namespace Field

/-- All fields, in their order. -/
def all : List Field := [major, minor, patch, suffix]

/-- The field as it is named in messages. -/
def name : Field → String
  | major => "major"
  | minor => "minor"
  | patch => "patch"
  | suffix => "postfix"

/-- The field as it is named at the end of a macro. -/
def macroName : Field → String
  | major => "MAJOR"
  | minor => "MINOR"
  | patch => "PATCH"
  | suffix => "POSTFIX"

/-- The line of a version file that holds the field, counted from one. -/
def line : Field → Nat
  | major => 1
  | minor => 2
  | patch => 3
  | suffix => 4

end Field

end VersionStamp
