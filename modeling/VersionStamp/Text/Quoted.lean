/-
# Quoted strings of a JSON text

A quoted string stands between double quotes.  The quote, the backslash and the characters
below U+0020 are escaped, by two characters where there is a short form and by `\u00xx` in
lower-case hexadecimal otherwise; every other character stands for itself.
-/
import VersionStamp.Text.Hexadecimal

namespace VersionStamp.Text

/-- One character as it is written between the quotes. -/
def escape (c : Char) : List Char :=
  match c with
  | '"' => ['\\', '"']
  | '\\' => ['\\', '\\']
  | '\x08' => ['\\', 'b']
  | '\x0c' => ['\\', 'f']
  | '\n' => ['\\', 'n']
  | '\r' => ['\\', 'r']
  | '\t' => ['\\', 't']
  | c =>
    if c.toNat < 0x20 then ['\\', 'u', '0', '0', hexDigit (c.toNat / 16), hexDigit (c.toNat % 16)]
    else [c]

/-- A text between double quotes. -/
def quoted (s : String) : String :=
  "\"" ++ String.ofList (s.toList.flatMap escape) ++ "\""

end VersionStamp.Text
