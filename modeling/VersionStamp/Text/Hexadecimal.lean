/-
# Hexadecimal digits

The digits from zero to fifteen, as they are written behind an escape.  They are written in lower
case and read in either case.
-/

namespace VersionStamp.Text

/-- The hexadecimal digit of a number below 16, in lower case. -/
def hexDigit (n : Nat) : Char :=
  n.digitChar

/-- The value of a hexadecimal digit, in either case. -/
def hexValue? (c : Char) : Option Nat :=
  if c.isDigit then some (c.toNat - '0'.toNat)
  else if 'a' ≤ c ∧ c ≤ 'f' then some (c.toNat - 'a'.toNat + 10)
  else if 'A' ≤ c ∧ c ≤ 'F' then some (c.toNat - 'A'.toNat + 10)
  else none

/-- The number that hexadecimal digits stand for. -/
def hexNumber? (digits : List Char) : Option Nat :=
  (digits.mapM hexValue?).map (·.foldl (fun n digit => 16 * n + digit) 0)

/-- The digit of a number below 16 has its value. -/
theorem hexValue?_hexDigit : ∀ n < 16, hexValue? (hexDigit n) = some n := by
  decide

/-- A number below 256 is read back from four digits. -/
theorem hexNumber?_hexDigit {n : Nat} (h : n < 256) :
    hexNumber? ['0', '0', hexDigit (n / 16), hexDigit (n % 16)] = some n := by
  have hzero : hexValue? '0' = some 0 := rfl
  have hfirst := hexValue?_hexDigit (n / 16) (by omega)
  have hsecond := hexValue?_hexDigit (n % 16) (by omega)
  have hsum : 16 * (n / 16) + n % 16 = n := Nat.div_add_mod n 16
  simp [hexNumber?, hzero, hfirst, hsecond, hsum]

end VersionStamp.Text
