/-
# The command line

The program on the files of the machine: it looks up the arguments, the environment and the
working directory, runs, and prints.
-/
import VersionStamp.Program

namespace VersionStamp

/-- The number of an error, which the machine gives with either sign. -/
def errorNumber (code : UInt32) : UInt32 :=
  if code < 0x80000000 then code else 0 - code

/-- The reason for which the machine refused access. -/
def Refusal.ofError (error : IO.Error) : Refusal :=
  match error with
  | .noFileOrDirectory _ _ _ => .notFound
  | .noSuchThing _ _ _ => .notFound
  | .inappropriateType _ code _ =>
    if errorNumber code = 21 then .isDirectory
    else if errorNumber code = 20 then .notADirectory
    else .other (toString error)
  | error => .other (toString error)

/-- An action on a path, given as text that the machine can follow. -/
def onPath {α : Type} (p : Path) (action : String → IO α) : IO (Except Refusal α) := do
  if p.text.contains '\x00' then return .error .nulInPath
  else if p.text = "" then return .error .notFound
  else
    match ← (action p.text).toBaseIO with
    | .ok a => return .ok a
    | .error error => return .error (.ofError error)

/-- The operations on the files of the machine. -/
def Files.ofMachine : Files IO where
  isFile p := do
    let found ← onPath p fun text => do
      let here ← IO.currentDir
      return (← (here / text).metadata).type == .file
    return found.toOption.getD false
  read p := do
    match ← onPath p fun text => IO.FS.readBinFile text with
    | .error refusal => return .error refusal
    | .ok bytes =>
      match String.fromUTF8? bytes with
      | none => return .error .notText
      | some text => return .ok text
  write p content := onPath p fun text => IO.FS.writeFile text content

/-- Runs the program on the files, the environment and the streams of the machine. -/
def Program.runOnMachine (arguments : List String) : IO UInt32 := do
  let here ← IO.currentDir
  let fileValue ← IO.getEnv fileVariable
  let style := Log.Style.forTerminal (← IO.getEnv noColourVariable)
  let result ← run Files.ofMachine ⟨here.toString⟩ style fileValue arguments
  IO.eprint result.errors
  IO.print result.output
  return result.status

end VersionStamp

/-- The entry point of the command line. -/
def main (arguments : List String) : IO UInt32 :=
  VersionStamp.Program.runOnMachine arguments
