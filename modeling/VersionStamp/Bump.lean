/-
# Bumps

A request names the fields to change.  It is carried out as single steps in the order of the
fields, and every step is stored before the next one is taken: when storing fails, the steps
before it stay stored, and the version in memory is one step ahead.
-/
import VersionStamp.Log.Entry
import VersionStamp.Version.Field
import VersionStamp.Version.Tag

namespace VersionStamp

namespace Bump

/-! ## Requests and their steps -/

/-- What to change: three flags, and a new suffix if one is given. -/
structure Request where
  major : Bool := false
  minor : Bool := false
  patch : Bool := false
  suffix : Option String := none
  deriving DecidableEq, Repr

/-- One change of one field. -/
inductive Step where
  | major
  | minor
  | patch
  | suffix (value : String)
  deriving DecidableEq, Repr

namespace Step

/-- The field that the step is named after. -/
def field : Step → Field
  | major => .major
  | minor => .minor
  | patch => .patch
  | suffix _ => .suffix

/-- The version after the step. -/
def apply : Step → Version → Version
  | major, v => v.bumpMajor
  | minor, v => v.bumpMinor
  | patch, v => v.bumpPatch
  | suffix value, v => v.withSuffix value

end Step

namespace Request

/-- The new suffix, if there is one and it is not empty. -/
def newSuffix? (r : Request) : Option String :=
  r.suffix.filter (· ≠ "")

/-- Does the request change anything? -/
def isMutating (r : Request) : Bool :=
  r.major || r.minor || r.patch || r.newSuffix?.isSome

/-- The steps that are taken, in their order. -/
def steps (r : Request) : List Step :=
  (if r.major then [.major] else []) ++ (if r.minor then [.minor] else []) ++
    (if r.patch then [.patch] else []) ++ (r.newSuffix?.map Step.suffix).toList

end Request

/-! ## Carrying out a request -/

/-- How a request went. -/
structure Outcome (ε : Type) where
  /-- The version in memory, ahead of the stored one by one step if storing failed. -/
  version : Version
  /-- The number of versions stored, or why one could not be stored. -/
  result : Except ε Nat
  /-- What was logged. -/
  log : List Log.Entry

variable {ε : Type} {m : Type → Type} [Monad m]

/-- The log entry of a step that was stored. -/
def stored (step : Step) (v : Version) : Log.Entry :=
  { level := .debug, message := step.field.name ++ " step written: " ++ v.tag }

/-- Takes the steps one after the other, and stores the version after each. -/
def run (store : Version → m (Except ε Unit)) (verbose : Bool) :
    List Step → Version → m (Outcome ε)
  | [], v => pure ⟨v, .ok 0, []⟩
  | step :: rest, v => do
    let w := step.apply v
    match ← store w with
    | .error e => pure ⟨w, .error e, []⟩
    | .ok () =>
      let later ← run store verbose rest w
      pure ⟨later.version, later.result.map (· + 1), Log.note verbose (stored step w) ++ later.log⟩

/-- Carries out a request on a version. -/
def apply (store : Version → m (Except ε Unit)) (verbose : Bool) (r : Request) (v : Version) :
    m (Outcome ε) :=
  run store verbose r.steps v

end Bump

end VersionStamp
