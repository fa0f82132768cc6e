/-
# Lexemes of TOML

The smallest units of a TOML text: the gaps between statements, the four kinds of strings, and
keys.  Each reader takes the text from where it stands and gives back what it read together
with the rest, or nothing if the text does not start with such a unit.
-/
import VersionStamp.Text.Hexadecimal

namespace VersionStamp.Toml

/-! ## Characters and gaps -/

/-- A space within a line. -/
def isSpace (c : Char) : Bool :=
  c = ' ' || c = '\t'

/-- A character that may stand in comments and strings: no control character but the tab. -/
def isPrintable (c : Char) : Bool :=
  c = '\t' || (0x20 ≤ c.toNat && c.toNat ≠ 0x7F)

/-- The text without the spaces in front. -/
def skipSpaces (cs : List Char) : List Char :=
  cs.dropWhile isSpace

/-- The text without the spaces, line ends and comments in front; `inComment` tells whether the
text starts within a comment. -/
def skipGap (inComment : Bool) : List Char → List Char
  | [] => []
  | '\n' :: rest => skipGap false rest
  | '\r' :: '\n' :: rest => skipGap false rest
  | c :: rest =>
    if inComment then
      if isPrintable c then skipGap true rest else c :: rest
    else if c = '#' then skipGap true rest
    else if isSpace c then skipGap false rest
    else c :: rest

/-- Does the line end here, but for spaces and a comment? -/
def isLineEnd (cs : List Char) : Bool :=
  match skipSpaces cs with
  | [] => true
  | '\n' :: _ => true
  | '\r' :: '\n' :: _ => true
  | '#' :: _ => true
  | _ => false

/-! ## Escapes -/

/-- The character whose code point stands there in hexadecimal digits. -/
def codePoint? (digits : List Char) : Option Char := do
  let n ← Text.hexNumber? digits
  if h : n.isValidChar then some (Char.ofNatAux n h) else none

/-- The character that a single letter behind a backslash stands for. -/
def escaped? : Char → Option Char
  | 'b' => some '\x08'
  | 'f' => some '\x0c'
  | 'n' => some '\n'
  | 'r' => some '\r'
  | 't' => some '\t'
  | '"' => some '"'
  | '\\' => some '\\'
  | _ => none

/-! ## Strings -/

/-- The reading with a character put in front of the text that was read. -/
def prepend (c : Char) (reading : Option (List Char × List Char)) :
    Option (List Char × List Char) :=
  reading.map fun (cs, rest) => (c :: cs, rest)

/-- A string on one line with escapes, behind its opening quote. -/
def basicString : List Char → Option (List Char × List Char)
  | '"' :: rest => some ([], rest)
  | '\\' :: 'u' :: a :: b :: c :: d :: rest =>
    (codePoint? [a, b, c, d]).bind fun x => prepend x (basicString rest)
  | '\\' :: 'U' :: a :: b :: c :: d :: e :: f :: g :: h :: rest =>
    (codePoint? [a, b, c, d, e, f, g, h]).bind fun x => prepend x (basicString rest)
  | '\\' :: c :: rest => (escaped? c).bind fun x => prepend x (basicString rest)
  | c :: rest => if isPrintable c ∧ c ≠ '\\' then prepend c (basicString rest) else none
  | [] => none

/-- A string on one line without escapes, behind its opening quote. -/
def literalString : List Char → Option (List Char × List Char)
  | '\'' :: rest => some ([], rest)
  | c :: rest => if isPrintable c then prepend c (literalString rest) else none
  | [] => none

/-- The end of a string over several lines, behind three quotes: up to two more quotes belong to
the string. -/
def closing (quote : Char) (rest : List Char) : List Char × List Char :=
  match rest with
  | c :: d :: more =>
    if c = quote then
      if d = quote then ([quote, quote], more) else ([quote], d :: more)
    else ([], rest)
  | [c] => if c = quote then ([quote], []) else ([], [c])
  | [] => ([], [])

/-- Does a line end come next, but for spaces? -/
def isContinued (cs : List Char) : Bool :=
  match skipSpaces cs with
  | '\n' :: _ => true
  | '\r' :: '\n' :: _ => true
  | _ => false

/-- A string over several lines with escapes, behind its opening quotes.  A backslash at the end
of a line takes away all spaces and line ends that follow; `trimming` tells that they are being
taken away. -/
def longBasicString (trimming : Bool) : List Char → Option (List Char × List Char)
  | '"' :: '"' :: '"' :: rest => some (closing '"' rest)
  | '\r' :: '\n' :: rest =>
    if trimming then longBasicString true rest else prepend '\n' (longBasicString false rest)
  | '\n' :: rest =>
    if trimming then longBasicString true rest else prepend '\n' (longBasicString false rest)
  | '\\' :: 'u' :: a :: b :: c :: d :: rest =>
    (codePoint? [a, b, c, d]).bind fun x => prepend x (longBasicString false rest)
  | '\\' :: 'U' :: a :: b :: c :: d :: e :: f :: g :: h :: rest =>
    (codePoint? [a, b, c, d, e, f, g, h]).bind fun x => prepend x (longBasicString false rest)
  | '\\' :: c :: rest =>
    if isContinued (c :: rest) then longBasicString true (c :: rest)
    else (escaped? c).bind fun x => prepend x (longBasicString false rest)
  | c :: rest =>
    if trimming ∧ isSpace c then longBasicString true rest
    else if isPrintable c ∧ c ≠ '\\' then prepend c (longBasicString false rest)
    else none
  | [] => none

/-- A string over several lines without escapes, behind its opening quotes. -/
def longLiteralString : List Char → Option (List Char × List Char)
  | '\'' :: '\'' :: '\'' :: rest => some (closing '\'' rest)
  | '\r' :: '\n' :: rest => prepend '\n' (longLiteralString rest)
  | '\n' :: rest => prepend '\n' (longLiteralString rest)
  | c :: rest => if isPrintable c then prepend c (longLiteralString rest) else none
  | [] => none

/-- The text without a line end in front. -/
def skipLineEnd : List Char → List Char
  | '\n' :: rest => rest
  | '\r' :: '\n' :: rest => rest
  | cs => cs

/-- A string of any kind, with its quotes. -/
def string : List Char → Option (String × List Char)
  | '"' :: '"' :: '"' :: rest =>
    (longBasicString false (skipLineEnd rest)).map fun (cs, rest) => (String.ofList cs, rest)
  | '\'' :: '\'' :: '\'' :: rest =>
    (longLiteralString (skipLineEnd rest)).map fun (cs, rest) => (String.ofList cs, rest)
  | '"' :: rest => (basicString rest).map fun (cs, rest) => (String.ofList cs, rest)
  | '\'' :: rest => (literalString rest).map fun (cs, rest) => (String.ofList cs, rest)
  | _ => none

/-! ## Keys -/

/-- A character of a key without quotes. -/
def isBare (c : Char) : Bool :=
  c.isAlphanum || c = '_' || c = '-'

/-- One part of a key: bare, or a string on one line. -/
def keyPart : List Char → Option (String × List Char)
  | '"' :: rest => (basicString rest).map fun (cs, rest) => (String.ofList cs, rest)
  | '\'' :: rest => (literalString rest).map fun (cs, rest) => (String.ofList cs, rest)
  | cs =>
    if cs.takeWhile isBare = [] then none
    else some (String.ofList (cs.takeWhile isBare), cs.dropWhile isBare)

/-- The parts of a key between points, with spaces around each, in at most `fuel` parts. -/
def keyParts : Nat → List Char → Option (List String × List Char)
  | 0, _ => none
  | fuel + 1, cs => do
    let (part, rest) ← keyPart (skipSpaces cs)
    match skipSpaces rest with
    | '.' :: rest => (keyParts fuel rest).map fun (parts, rest) => (part :: parts, rest)
    | rest => some ([part], rest)

/-- The largest number of parts in a key. -/
def maxKeyParts : Nat := 79

/-- A key, with the spaces around it. -/
def key (cs : List Char) : Option (List String × List Char) :=
  keyParts maxKeyParts cs

end VersionStamp.Toml
