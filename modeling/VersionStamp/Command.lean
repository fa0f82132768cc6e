/-
# Command lines

Every argument is an option.  A long option may carry its value behind an equals sign or in the
next argument, unless that starts with a hyphen; short options may be run together.  No option
may be given twice.  Asking for the version or for help answers at once, provided that all that
stands before it is sound.
-/
import VersionStamp.Header
import VersionStamp.Options

namespace VersionStamp

/-- What a command line asks for. -/
inductive Command where
  | run (options : Options)
  | showVersion
  | showHelp
  /-- The command line breaks the rules. -/
  | usageError
  deriving DecidableEq, Repr

namespace Command

/-! ## Options -/

/-- An option that is there or not. -/
inductive Flag where
  | major
  | minor
  | patch
  | int
  | json
  | verbose
  deriving DecidableEq, Repr

/-- An option with a value. -/
inductive Setting where
  | suffix
  | file
  | require
  deriving DecidableEq, Repr

/-- An option that answers at once. -/
inductive Question where
  | version
  | help
  deriving DecidableEq, Repr

/-- Any option. -/
inductive Switch where
  | flag (f : Flag)
  | setting (s : Setting)
  | question (q : Question)
  deriving DecidableEq, Repr

/-- The long names of options. -/
def longNames : List (String × Switch) :=
  [("major", .flag .major), ("minor", .flag .minor), ("patch", .flag .patch),
   ("postfix", .setting .suffix), ("file", .setting .file), ("int", .flag .int),
   ("json", .flag .json), ("require", .setting .require), ("verbose", .flag .verbose),
   ("help", .question .help), ("version", .question .version)]

/-- The short names of options; none of these options has a value. -/
def shortNames : List (Char × Switch) :=
  [('v', .flag .verbose), ('h', .question .help), ('V', .question .version)]

/-! ## Values -/

/-- May the setting have this value? -/
def accepts : Setting → String → Bool
  | .suffix, value => Header.acceptsSuffix value
  | .file, value => value ≠ ""
  | .require, _ => true

/-- What has been read of a command line. -/
structure Found where
  flags : List Flag := []
  settings : List (Setting × String) := []
  deriving DecidableEq, Repr

namespace Found

/-- A flag added, which must be new. -/
def addFlag (found : Found) (f : Flag) : Option Found :=
  if f ∈ found.flags then none else some { found with flags := f :: found.flags }

/-- A setting added, which must be new and have a value that it may have. -/
def addSetting (found : Found) (s : Setting) (value : String) : Option Found :=
  if (found.settings.lookup s).isSome ∨ !accepts s value then none
  else some { found with settings := (s, value) :: found.settings }

/-- The form of the report. -/
def report (found : Found) : Report :=
  if .json ∈ found.flags then .json else if .int ∈ found.flags then .int else .standard

/-- The options that were found. -/
def options (found : Found) : Options where
  request :=
    { major := .major ∈ found.flags
      minor := .minor ∈ found.flags
      patch := .patch ∈ found.flags
      suffix := found.settings.lookup .suffix }
  file := (found.settings.lookup .file).map Path.mk
  report := found.report
  require := found.settings.lookup .require
  verbose := .verbose ∈ found.flags

/-- What the whole command line asks for; `fileVariable` stands in for a file that is not given,
and two forms of the report exclude each other. -/
def finish (found : Found) (fileVariable : Option String) : Command :=
  let complete :=
    match found.settings.lookup .file, fileVariable with
    | none, some value => found.addSetting .file value
    | _, _ => some found
  match complete with
  | none => .usageError
  | some found =>
    if .int ∈ found.flags ∧ .json ∈ found.flags then .usageError else .run found.options

end Found

/-! ## Arguments -/

/-- How an argument is read. -/
inductive Argument where
  /-- A long option, with the value behind its equals sign if there is one. -/
  | long (name : List Char) (value : Option (List Char))
  /-- Short options that are run together. -/
  | short (names : List Char)
  /-- Two hyphens, behind which no option stands. -/
  | separator
  /-- Anything else. -/
  | word
  deriving DecidableEq, Repr

/-- The kind of an argument. -/
def Argument.ofText (text : String) : Argument :=
  match text.toList with
  | ['-', '-'] => .separator
  | '-' :: '-' :: rest =>
    match rest.dropWhile (· ≠ '=') with
    | [] => .long rest none
    | _ :: value => .long (rest.takeWhile (· ≠ '=')) (some value)
  | ['-'] => .word
  | '-' :: names => .short names
  | _ => .word

/-- The answer to a question. -/
def Question.answer : Question → Command
  | version => .showVersion
  | help => .showHelp

/-- Short options that are run together, in turn. -/
def readShort : List Char → Found → Except Command Found
  | [], found => .ok found
  | name :: rest, found =>
    match shortNames.lookup name with
    | some (.flag f) =>
      match found.addFlag f with
      | none => .error .usageError
      | some found => readShort rest found
    | some (.question q) => .error q.answer
    | _ => .error .usageError

/-- What the arguments ask for, after what was found before them.  A setting without an equals
sign takes the next argument as its value, which must be a word. -/
def read (fileVariable : Option String) : List String → Found → Command
  | [], found => found.finish fileVariable
  | text :: rest, found =>
    match Argument.ofText text with
    | .separator => if rest.isEmpty then found.finish fileVariable else .usageError
    | .word => .usageError
    | .short names =>
      match readShort names found with
      | .error command => command
      | .ok found => read fileVariable rest found
    | .long name value =>
      match longNames.lookup (String.ofList name), value with
      | some (.flag f), none =>
        match found.addFlag f with
        | none => .usageError
        | some found => read fileVariable rest found
      | some (.question q), none => q.answer
      | some (.setting s), some value =>
        match found.addSetting s (String.ofList value) with
        | none => .usageError
        | some found => read fileVariable rest found
      | some (.setting s), none =>
        match rest with
        | [] => .usageError
        | value :: rest =>
          if Argument.ofText value = .word then
            match found.addSetting s value with
            | none => .usageError
            | some found => read fileVariable rest found
          else .usageError
      | _, _ => .usageError

/-- What a command line asks for. -/
def parse (fileVariable : Option String) (arguments : List String) : Command :=
  read fileVariable arguments {}

end Command

end VersionStamp
