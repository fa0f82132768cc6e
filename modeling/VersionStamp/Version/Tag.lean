/-
# Versions as text

A version is written `MAJOR.MINOR.PATCH`, followed by a hyphen and the suffix if there is one;
its tag has a `v` in front.  Reading takes both forms, ignores blanks around them, and lets
each number be any numeral of 32 bits.
-/
import VersionStamp.Text.Blank
import VersionStamp.Text.Numeral
import VersionStamp.Version.Basic
import VersionStamp.Version.Field

namespace VersionStamp

namespace Version

/-! ## Writing -/

/-- The three numbers, with points between them. -/
def releaseText (v : Version) : String :=
  Text.digits v.major.toNat ++ "." ++ Text.digits v.minor.toNat ++ "." ++
    Text.digits v.patch.toNat

/-- The version as text, without the `v`. -/
def text (v : Version) : String :=
  if v.suffix = "" then v.releaseText else v.releaseText ++ "-" ++ v.suffix

/-- The version as text, with the `v`. -/
def tag (v : Version) : String :=
  "v" ++ v.text

/-! ## Reading -/

/-- Why a text is not a version. -/
inductive ReadFault where
  /-- The release part has not exactly three parts. -/
  | notThreeParts
  /-- The part for a number is not a numeral of 32 bits. -/
  | badPart (field : Field) (part : String)
  deriving DecidableEq, Repr

/-- The fault in words. -/
def ReadFault.message : ReadFault → String
  | notThreeParts => "expected MAJOR.MINOR.PATCH"
  | badPart field part => "invalid " ++ field.name ++ " component '" ++ part ++ "'"

/-- The text behind the `v` in front, if there is one. -/
def bare : List Char → List Char
  | 'v' :: rest => rest
  | cs => cs

/-- The release part: all that stands before the first hyphen. -/
def releasePart (cs : List Char) : List Char :=
  cs.takeWhile (· ≠ '-')

/-- The suffix part: all that stands behind the first hyphen. -/
def suffixPart (cs : List Char) : List Char :=
  (cs.dropWhile (· ≠ '-')).drop 1

/-- The number that one part of a release stands for. -/
def readPart (field : Field) (part : List Char) : Except ReadFault UInt32 :=
  match Text.numeral? part with
  | some n => .ok n
  | none => .error (.badPart field (String.ofList part))

/-- The version that a text stands for. -/
def read (s : String) : Except ReadFault Version :=
  let cs := bare (Text.trim s.toList)
  match (releasePart cs).splitOn '.' with
  | [a, b, c] => do
    let major ← readPart .major a
    let minor ← readPart .minor b
    let patch ← readPart .patch c
    return ⟨major, minor, patch, String.ofList (suffixPart cs)⟩
  | _ => .error .notThreeParts

end Version

end VersionStamp
