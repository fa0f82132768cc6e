/-
# The version file

A version file is a header of four macro definitions, one for each field, with the value in
the third word.  Reading looks at the third words of the first four lines and at nothing else;
writing puts the four lines in canonical form, without a line end behind the last one.  The
suffix stands in quotes, and a suffix without blanks and quotes is read back as it was written.
-/
import VersionStamp.Text.Blank
import VersionStamp.Text.Line
import VersionStamp.Text.Numeral
import VersionStamp.Version.Basic
import VersionStamp.Version.Field

namespace VersionStamp

namespace Header

/-! ## Writing -/

/-- One macro definition: the macro's stem and field, then its value. -/
def definition (stem : String) (field : Field) (value : String) : String :=
  "#define " ++ stem ++ "_VERSION_" ++ field.macroName ++ " " ++ value

/-- The header for a version, with macros named after a stem. -/
def render (stem : String) (v : Version) : String :=
  definition stem .major (Text.digits v.major.toNat) ++ "\n" ++
    definition stem .minor (Text.digits v.minor.toNat) ++ "\n" ++
    definition stem .patch (Text.digits v.patch.toNat) ++ "\n" ++
    definition stem .suffix ("\"" ++ v.suffix ++ "\"")

/-! ## Reading -/

/-- What is wrong with a line of a version file. -/
inductive Flaw where
  /-- The text ends before the line. -/
  | missing
  /-- The line has no third word. -/
  | tooFewWords
  /-- The third word is not a numeral of 32 bits. -/
  | notNumeral (word : String)
  deriving DecidableEq, Repr

/-- Why a text is not a version file: the field whose line is at fault, and its flaw. -/
structure Fault where
  field : Field
  flaw : Flaw
  deriving DecidableEq, Repr

/-- The number of the line at fault. -/
def Fault.line (fault : Fault) : Nat :=
  fault.field.line

/-- The fault in words. -/
def Fault.message : Fault → String
  | ⟨field, .missing⟩ => "missing " ++ field.name ++ " line"
  | ⟨_, .tooFewWords⟩ => "expected at least three tokens"
  | ⟨field, .notNumeral word⟩ =>
    field.name ++ " value '" ++ word ++ "' is not a non-negative integer"

/-- The value word of a field: the third word of its line. -/
def valueWord (lines : List (List Char)) (field : Field) : Except Fault (List Char) :=
  match lines[field.line - 1]? with
  | none => .error ⟨field, .missing⟩
  | some line =>
    match (Text.words line)[2]? with
    | none => .error ⟨field, .tooFewWords⟩
    | some word => .ok word

/-- The number that a field's value word stands for. -/
def readNumber (field : Field) (word : List Char) : Except Fault UInt32 :=
  match Text.numeral? word with
  | some n => .ok n
  | none => .error ⟨field, .notNumeral (String.ofList word)⟩

/-- The suffix that a value word stands for: the word without its quotes. -/
def readSuffix (word : List Char) : String :=
  String.ofList (word.filter (· ≠ '"'))

/-- The version that a header holds.  All four words are looked up before any is read. -/
def parse (text : String) : Except Fault Version := do
  let lines := Text.lines text.toList
  let majorWord ← valueWord lines .major
  let minorWord ← valueWord lines .minor
  let patchWord ← valueWord lines .patch
  let suffixWord ← valueWord lines .suffix
  let major ← readNumber .major majorWord
  let minor ← readNumber .minor minorWord
  let patch ← readNumber .patch patchWord
  return ⟨major, minor, patch, readSuffix suffixWord⟩

/-! ## Suffixes -/

/-- A suffix that survives being written and read again: no blank and no quote in it. -/
def acceptsSuffix (suffix : String) : Bool :=
  suffix.toList.all fun c => !(Text.isBlank c || c = '"')

/-- What is said of a suffix that is not accepted. -/
def refusal (suffix : String) : String :=
  "postfix '" ++ suffix ++ "' must not contain whitespace or '\"'"

end Header

end VersionStamp
