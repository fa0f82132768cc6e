/-
# Numbers, dates and times of TOML

A value that is no string and no collection is one word, or a date and a time with a space
between them.  Whether a word is a truth value, a number, a date or a time is decided on the
word as a whole.
-/
import VersionStamp.Toml.Lexeme

namespace VersionStamp.Toml

/-- The kinds of values that are written as words.  Only what a configuration can use is kept of
them: the value of a truth value and of an integer. -/
inductive Scalar where
  | boolean (value : Bool)
  | integer (value : Int)
  | float
  /-- A date, a time, or both. -/
  | moment
  deriving DecidableEq, Repr

/-! ## Numbers -/

/-- The digits of a number without the underscores that group them: one underscore may stand
between two digits. -/
def ungroup? (isDigit : Char → Bool) (cs : List Char) : Option (List Char) :=
  let groups := cs.splitOn '_'
  if groups.all fun group => !group.isEmpty && group.all isDigit then some groups.flatten else none

/-- The value of digits in a base of at most sixteen. -/
def valueIn (base : Nat) (digits : List Char) : Nat :=
  digits.foldl (fun n c => base * n + (Text.hexValue? c).getD 0) 0

/-- Is the character a digit in a base of at most sixteen? -/
def isDigitIn (base : Nat) (c : Char) : Bool :=
  (Text.hexValue? c).any (· < base)

/-- The sign in front, true for a minus, and the text behind it. -/
def splitSign : List Char → Bool × List Char
  | '+' :: rest => (false, rest)
  | '-' :: rest => (true, rest)
  | cs => (false, cs)

/-- The digits of a decimal number without sign, which has no leading zero. -/
def decimal? (cs : List Char) : Option (List Char) :=
  if cs.head? = some '0' ∧ cs ≠ ['0'] then none else ungroup? (isDigitIn 10) cs

/-- A number that fits in 64 bits with a sign. -/
def bounded? (n : Int) : Option Int :=
  if -9223372036854775808 ≤ n ∧ n ≤ 9223372036854775807 then some n else none

/-- The integer that a word stands for. -/
def integer? : List Char → Option Int
  | '0' :: 'x' :: rest => (ungroup? (isDigitIn 16) rest).bind fun ds => bounded? (valueIn 16 ds)
  | '0' :: 'o' :: rest => (ungroup? (isDigitIn 8) rest).bind fun ds => bounded? (valueIn 8 ds)
  | '0' :: 'b' :: rest => (ungroup? (isDigitIn 2) rest).bind fun ds => bounded? (valueIn 2 ds)
  | cs => do
    let (negative, rest) := splitSign cs
    let digits ← decimal? rest
    bounded? (if negative then -(valueIn 10 digits : Int) else valueIn 10 digits)

/-- The least number that is too large for a float of 64 bits, even when it is rounded. -/
def floatLimit : Nat :=
  Nat.pow 2 1024 - Nat.pow 2 970

/-- Is the mantissa, times ten to the exponent, too large for a float of 64 bits?  Only near the
limit, which has 309 digits, the two are compared. -/
def overflows (mantissa : Nat) (exponent : Int) : Bool :=
  let size := (Nat.toDigits 10 mantissa).length + exponent
  if mantissa = 0 ∨ size < 309 then false
  else if 309 < size then true
  else if 0 ≤ exponent then floatLimit ≤ mantissa * Nat.pow 10 exponent.toNat
  else floatLimit * Nat.pow 10 (-exponent).toNat ≤ mantissa

/-- The digits behind the point and the exponent of a float, from the text behind its integer
part: a point with digits, an exponent, or both. -/
def tail? (cs : List Char) : Option (List Char × Int) := do
  let isMark (c : Char) : Bool := c = 'e' || c = 'E'
  let fraction := cs.takeWhile fun c => !isMark c
  let digits ←
    match fraction with
    | [] => some []
    | '.' :: ds => ungroup? (isDigitIn 10) ds
    | _ => none
  match cs.dropWhile fun c => !isMark c with
  | [] => if fraction.isEmpty then none else some (digits, 0)
  | _ :: rest =>
    let (negative, rest) := splitSign rest
    let ds ← ungroup? (isDigitIn 10) rest
    some (digits, if negative then -(valueIn 10 ds : Int) else valueIn 10 ds)

/-- Is the word a float?  A positive number that is too large is none. -/
def isFloat (cs : List Char) : Bool :=
  let (negative, rest) := splitSign cs
  if rest = ['i', 'n', 'f'] ∨ rest = ['n', 'a', 'n'] then true
  else
    let isWhole (c : Char) : Bool := c.isDigit || c = '_'
    match decimal? (rest.takeWhile isWhole), tail? (rest.dropWhile isWhole) with
    | some whole, some (fraction, exponent) =>
      negative || !overflows (valueIn 10 (whole ++ fraction)) (exponent - fraction.length)
    | _, _ => false

/-! ## Dates and times -/

/-- Two digits in front, as a number, and the text behind them. -/
def twoDigits : List Char → Option (Nat × List Char)
  | a :: b :: rest => if a.isDigit && b.isDigit then some (valueIn 10 [a, b], rest) else none
  | _ => none

/-- A character in front that must be there. -/
def expect (c : Char) : List Char → Option (List Char)
  | d :: rest => if c = d then some rest else none
  | [] => none

/-- A year in which February has 29 days. -/
def isLeapYear (year : Nat) : Bool :=
  year % 4 = 0 && (year % 100 ≠ 0 || year % 400 = 0)

/-- The number of days in a month. -/
def daysIn (year month : Nat) : Nat :=
  if month = 2 then (if isLeapYear year then 29 else 28)
  else if month = 4 ∨ month = 6 ∨ month = 9 ∨ month = 11 then 30
  else 31

/-- The text behind a date `YYYY-MM-DD`. -/
def date? (cs : List Char) : Option (List Char) := do
  let (century, rest) ← twoDigits cs
  let (year, rest) ← twoDigits rest
  let (month, rest) ← twoDigits (← expect '-' rest)
  let (day, rest) ← twoDigits (← expect '-' rest)
  let lastDay := daysIn (100 * century + year) month
  if 1 ≤ month ∧ month ≤ 12 ∧ 1 ≤ day ∧ day ≤ lastDay then some rest else none

/-- The text behind an hour and a minute `HH:MM`. -/
def hourMinute? (cs : List Char) : Option (List Char) := do
  let (hour, rest) ← twoDigits cs
  let (minute, rest) ← twoDigits (← expect ':' rest)
  if hour ≤ 23 ∧ minute ≤ 59 then some rest else none

/-- The text behind a time `HH:MM:SS`, with any number of digits for parts of a second. -/
def time? (cs : List Char) : Option (List Char) := do
  let (second, rest) ← twoDigits (← expect ':' (← hourMinute? cs))
  if 60 < second then none
  else
    match rest with
    | '.' :: c :: more => if c.isDigit then some (more.dropWhile Char.isDigit) else none
    | '.' :: [] => none
    | rest => some rest

/-- Is the text an offset from universal time, or nothing? -/
def isOffset : List Char → Bool
  | [] => true
  | ['Z'] => true
  | ['z'] => true
  | '+' :: rest => hourMinute? rest = some []
  | '-' :: rest => hourMinute? rest = some []
  | _ => false

/-- Is the word a date? -/
def isDate (cs : List Char) : Bool :=
  date? cs = some []

/-- Is the word a time, with an offset if `withOffset` allows one? -/
def isTime (withOffset : Bool) (cs : List Char) : Bool :=
  match time? cs with
  | some rest => if withOffset then isOffset rest else rest.isEmpty
  | none => false

/-- Is the word a date, a time, or a date and a time with a `T` between them? -/
def isMoment (cs : List Char) : Bool :=
  isTime false cs ||
    match date? cs with
    | some [] => true
    | some ('T' :: rest) => isTime true rest
    | some ('t' :: rest) => isTime true rest
    | _ => false

/-! ## Words -/

/-- A character of a word. -/
def isWordCharacter (c : Char) : Bool :=
  c.isAlphanum || c = '_' || c = '.' || c = ':' || c = '+' || c = '-'

/-- What a word stands for. -/
def ofWord? (word : List Char) : Option Scalar :=
  if word = ['t', 'r', 'u', 'e'] then some (.boolean true)
  else if word = ['f', 'a', 'l', 's', 'e'] then some (.boolean false)
  else if isMoment word then some .moment
  else if isFloat word then some .float
  else (integer? word).map .integer

/-- A value that is written as a word, or as a date and a time with a space between them. -/
def scalar (cs : List Char) : Option (Scalar × List Char) :=
  let word := cs.takeWhile isWordCharacter
  let rest := cs.dropWhile isWordCharacter
  let next := (rest.drop 1).takeWhile isWordCharacter
  if isDate word ∧ rest.head? = some ' ' ∧ next ≠ [] then
    if isTime true next then some (.moment, (rest.drop 1).dropWhile isWordCharacter) else none
  else (ofWord? word).map fun value => (value, rest)

end VersionStamp.Toml
