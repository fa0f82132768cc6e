/-
# Decimal numerals of 32 bits

A numeral is one or more ASCII digits, with any number of leading zeros and at most one plus
sign in front, whose value is at most `2 ^ 32 - 1`.
-/

namespace VersionStamp.Text

/-- The digits of a numeral: the text behind its plus sign, if it has one. -/
def unsigned : List Char → List Char
  | '+' :: digits => digits
  | digits => digits

/-- A numeral: digits behind an optional plus sign, of a value that fits in 32 bits. -/
def IsNumeral (cs : List Char) : Prop :=
  unsigned cs ≠ [] ∧ (∀ c ∈ unsigned cs, c.isDigit = true) ∧
    Nat.ofDigitChars 10 (unsigned cs) 0 < UInt32.size

instance (cs : List Char) : Decidable (IsNumeral cs) :=
  -- Only the characters of the text are looked at, not all characters there are.
  letI : Decidable (∀ c ∈ unsigned cs, c.isDigit = true) := List.decidableBAll _ _
  inferInstanceAs (Decidable (_ ∧ _ ∧ _))

/-- The value of a numeral, and nothing for any other text. -/
def numeral? (cs : List Char) : Option UInt32 :=
  if IsNumeral cs then some (UInt32.ofNat (Nat.ofDigitChars 10 (unsigned cs) 0)) else none

/-- A number in decimal digits, without a sign and without leading zeros. -/
def digits (n : Nat) : String :=
  n.repr

/-- The digits of a number are digits. -/
theorem isDigit_of_mem_digits {n : Nat} {c : Char} (h : c ∈ (digits n).toList) :
    c.isDigit = true := by
  rw [digits, Nat.toList_repr] at h
  exact Nat.isDigit_of_mem_toDigits (by decide) (by decide) h

/-- A number has a digit. -/
theorem digits_ne_nil (n : Nat) : (digits n).toList ≠ [] := by
  rw [digits, Nat.toList_repr]
  exact Nat.toDigits_ne_nil

/-- A number starts with a digit. -/
theorem exists_digits_eq_cons (n : Nat) :
    ∃ c rest, (digits n).toList = c :: rest ∧ c.isDigit = true := by
  obtain ⟨c, rest, h⟩ := List.exists_cons_of_ne_nil (digits_ne_nil n)
  have hmem : c ∈ (digits n).toList := by
    rw [h]
    exact List.mem_cons_self
  exact ⟨c, rest, h, isDigit_of_mem_digits hmem⟩

/-- The digits of a number have its value. -/
theorem ofDigitChars_digits (n : Nat) : Nat.ofDigitChars 10 (digits n).toList 0 = n := by
  rw [digits, Nat.toList_repr]
  exact Nat.ofDigitChars_toDigits (by decide) (by decide)

/-- A number is read back from its digits. -/
theorem numeral?_digits (n : UInt32) : numeral? (digits n.toNat).toList = some n := by
  have hdigit : ∀ c ∈ (digits n.toNat).toList, c.isDigit = true := fun c => isDigit_of_mem_digits
  have hunsigned : unsigned (digits n.toNat).toList = (digits n.toNat).toList := by
    unfold unsigned
    split
    next rest h =>
      have hplus := hdigit '+' (by rw [h]; exact List.mem_cons_self)
      exact absurd hplus (by decide)
    · rfl
  have hnumeral : IsNumeral (digits n.toNat).toList := by
    refine ⟨?_, ?_, ?_⟩
    · rw [hunsigned]
      exact digits_ne_nil n.toNat
    · rw [hunsigned]
      exact hdigit
    · rw [hunsigned, ofDigitChars_digits]
      exact n.toNat_lt
  rw [numeral?, if_pos hnumeral, hunsigned, ofDigitChars_digits]
  exact congrArg some UInt32.ofNat_toNat

end VersionStamp.Text
