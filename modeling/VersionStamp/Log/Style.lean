/-
# Log entries as text

An entry is one line, the program's signature, the level's label and the message, with one
line below it for each line of its trace.  In the coloured style signature and label stand
between terminal control sequences; without colours the sequences that choose a colour are
empty, while those for bold print and for the reset stay.
-/
import VersionStamp.Log.Entry
import VersionStamp.Text.Numeral

namespace VersionStamp

namespace Log

/-! ## Terminal control sequences -/

/-- How log entries are dressed for the terminal. -/
inductive Style where
  /-- No control sequences at all. -/
  | plain
  /-- Control sequences, with colours. -/
  | coloured
  /-- Control sequences, with every colour left out. -/
  | colourless
  deriving DecidableEq, Repr

/-- The style for a terminal: colours are left out if the variable against them is set and not
empty. -/
def Style.forTerminal (noColour : Option String) : Style :=
  match noColour with
  | none => coloured
  | some value => if value = "" then coloured else colourless

/-- A colour of the terminal. -/
inductive Colour where
  /-- One of the 256 colours of the palette. -/
  | indexed (n : Nat)
  /-- A mix of red, green and blue. -/
  | mixed (red green blue : Nat)

/-- The parameters that choose a colour for the text. -/
def Colour.parameters : Colour → String
  | indexed n => "38;5;" ++ Text.digits n
  | mixed red green blue =>
    "38;2;" ++ Text.digits red ++ ";" ++ Text.digits green ++ ";" ++ Text.digits blue

/-- A control sequence that sets attributes of the text. -/
def control (parameters : String) : String :=
  "\x1b[" ++ parameters ++ "m"

/-- Bold print. -/
def bold : String := control "1"

/-- Back to the text as it was. -/
def reset : String := control "0"

/-- The sequence that chooses a colour, or its empty form. -/
def foreground (withColours : Bool) (colour : Colour) : String :=
  control (if withColours then colour.parameters else "")

/-! ## Signature and labels -/

/-- The name with which log lines are signed. -/
def signatureName : String := "versionbump"

/-- The colour of the brackets around the signature. -/
def bracketColour : Colour := .indexed 7

/-- The colour of the signature. -/
def signatureColour : Colour := .mixed 29 211 176

/-- The label of a level. -/
def Level.label : Level → String
  | success => "SUCCESS"
  | error => "ERROR"
  | info => "INFO"
  | warning => "WARNING"
  | debug => "DEBUG"

/-- The colour of a level's label. -/
def Level.colour : Level → Colour
  | success => .mixed 76 175 80
  | error => .mixed 244 67 54
  | info => .mixed 33 150 243
  | warning => .mixed 255 152 0
  | debug => .mixed 103 58 183

/-- The signature between control sequences. -/
def dressedSignature (withColours : Bool) : String :=
  foreground withColours bracketColour ++ "[" ++ foreground withColours signatureColour ++ bold ++
    signatureName ++ reset ++ foreground withColours bracketColour ++ "]" ++ reset

/-- The level's label between control sequences. -/
def dressedLabel (withColours : Bool) (level : Level) : String :=
  "[" ++ foreground withColours level.colour ++ bold ++ level.label ++ reset ++ "]" ++ reset

/-- The signature in brackets. -/
def Style.signature : Style → String
  | plain => "[" ++ signatureName ++ "]"
  | coloured => dressedSignature true
  | colourless => dressedSignature false

/-- The level's label in brackets. -/
def Style.label (style : Style) (level : Level) : String :=
  match style with
  | plain => "[" ++ level.label ++ "]"
  | coloured => dressedLabel true level
  | colourless => dressedLabel false level

/-! ## Entries and logs -/

/-- What follows signature and label: the message, and the trace below it. -/
def Entry.body (entry : Entry) : String :=
  entry.message ++ "\n" ++ String.join (entry.trace.map fun line => "     ↳ " ++ line ++ "\n")

/-- An entry as the lines that are printed. -/
def Style.entry (style : Style) (entry : Entry) : String :=
  style.signature ++ " " ++ style.label entry.level ++ " " ++ entry.body

/-- A log as the text that is printed. -/
def Style.render (style : Style) (log : List Entry) : String :=
  String.join (log.map style.entry)

end Log

end VersionStamp
