/-
# The fault of a version file

A text that is no header is refused for one fault.  Reading looks for the four value words first and
for the three numbers afterwards, so a line without a value is found before any value that is no
number, even on an earlier line; in each of the two passes the first line at fault is found.  The
main facts:

* `valueWord_eq_error_iff`, `readNumber_eq_error_iff` : what is wrong with one line;
* `isFaultOf_of_parse` : which line is found in a whole text.
-/
import VersionStamp.Proofs.Except
import VersionStamp.Proofs.Header.Grammar

namespace VersionStamp

namespace Field

/-- Lines are counted from one. -/
theorem one_le_line (field : Field) : 1 ≤ field.line := by
  cases field <;> decide

/-- There are four lines. -/
theorem line_le_four (field : Field) : field.line ≤ 4 := by
  cases field <;> decide

/-- The suffix stands on the last of them. -/
theorem line_le_three {field : Field} (h : field ≠ suffix) : field.line ≤ 3 := by
  cases field with
  | suffix => exact absurd rfl h
  | _ => decide

/-- What holds of the fields on earlier lines, one by one. -/
theorem forall_line_lt {p : Field → Prop} {field : Field} :
    (∀ earlier : Field, earlier.line < field.line → p earlier) ↔
      match field with
      | major => True
      | minor => p major
      | patch => p major ∧ p minor
      | suffix => p major ∧ p minor ∧ p patch := by
  have hall : (∀ earlier : Field, earlier.line < field.line → p earlier) ↔
      (1 < field.line → p major) ∧ (2 < field.line → p minor) ∧ (3 < field.line → p patch) ∧
        (4 < field.line → p suffix) := by
    constructor
    · intro h
      exact ⟨h major, h minor, h patch, h suffix⟩
    · rintro ⟨hmajor, hminor, hpatch, hsuffix⟩ earlier
      cases earlier <;> assumption
  rw [hall]
  cases field <;> simp [line]

end Field

namespace Header

/-! ## One line -/

/-- A value is missing if the text has too few lines, or the line has too few words. -/
theorem valueWord_eq_error_iff {lines : List (List Char)} {field : Field} {fault : Fault} :
    valueWord lines field = .error fault ↔
      (∀ word, valueWord lines field ≠ .ok word) ∧
        (lines.length < field.line ∧ fault = ⟨field, .missing⟩ ∨
          field.line ≤ lines.length ∧ fault = ⟨field, .tooFewWords⟩) := by
  have hpos := field.one_le_line
  unfold valueWord
  cases hline : lines[field.line - 1]? with
  | none =>
    have hshort : lines.length < field.line := by
      have := List.getElem?_eq_none_iff.1 hline
      omega
    simp [hshort, Nat.not_le.2 hshort, eq_comm]
  | some line =>
    have hlong : field.line ≤ lines.length := by
      have := (List.getElem?_eq_some_iff.1 hline).1
      omega
    cases hword : (Text.words line)[2]? with
    | none => simp [hword, hlong, Nat.not_lt.2 hlong, eq_comm]
    | some word => simp [hword]

/-- A value is refused if it spells no number. -/
theorem readNumber_eq_error_iff {field : Field} {word : List Char} {fault : Fault} :
    readNumber field word = .error fault ↔
      (∀ n, ¬Text.SpellsNumber word n) ∧ fault = ⟨field, .notNumeral (String.ofList word)⟩ := by
  simp only [← Text.numeral?_eq_some_iff, readNumber]
  cases Text.numeral? word with
  | none => simp [eq_comm]
  | some n => simp

/-! ## The whole text -/

/-- The line of the field is the first one without a value. -/
structure Lacks (text : String) (field : Field) : Prop where
  noValue : ∀ word, ¬HoldsValue text field word
  earlier : ∀ other : Field, other.line < field.line → ∃ word, HoldsValue text other word

/-- All four lines have a value, and that of the field is the first one which should spell a number
and spells none. -/
structure Misspells (text : String) (field : Field) (word : List Char) : Prop where
  values : ∀ other, ∃ value, HoldsValue text other value
  value : HoldsValue text field word
  number : field ≠ .suffix
  noNumber : ∀ n, ¬Text.SpellsNumber word n
  earlier : ∀ other : Field, other.line < field.line →
    ∃ value n, HoldsValue text other value ∧ Text.SpellsNumber value n

/-- What is said of a text: its first line without a value is missing or too short, or else its
first value that should spell a number spells none. -/
inductive IsFaultOf (text : String) : Fault → Prop where
  | missing {field : Field} (hlacks : Lacks text field)
      (hshort : (Text.lines text.toList).length < field.line) : IsFaultOf text ⟨field, .missing⟩
  | tooFewWords {field : Field} (hlacks : Lacks text field)
      (hlong : field.line ≤ (Text.lines text.toList).length) :
      IsFaultOf text ⟨field, .tooFewWords⟩
  | notNumeral {field : Field} {word : List Char} (hmisspells : Misspells text field word) :
      IsFaultOf text ⟨field, .notNumeral (String.ofList word)⟩

/-- The first value that is not found is the fault. -/
theorem isFaultOf_of_valueWord {text : String} {field : Field} {fault : Fault}
    (h : valueWord (Text.lines text.toList) field = .error fault)
    (hearlier : ∀ other : Field, other.line < field.line →
      ∃ word, valueWord (Text.lines text.toList) other = .ok word) : IsFaultOf text fault := by
  obtain ⟨hno, hflaw⟩ := valueWord_eq_error_iff.1 h
  simp only [Ne, valueWord_eq_ok_iff_holdsValue] at hno hearlier
  rcases hflaw with ⟨hshort, rfl⟩ | ⟨hlong, rfl⟩
  · exact .missing ⟨hno, hearlier⟩ hshort
  · exact .tooFewWords ⟨hno, hearlier⟩ hlong

/-- Once all values are found, the first one that is no number is the fault. -/
theorem isFaultOf_of_readNumber {text : String} {field : Field} {word : List Char} {fault : Fault}
    (hvalues : ∀ other, ∃ value, valueWord (Text.lines text.toList) other = .ok value)
    (hvalue : valueWord (Text.lines text.toList) field = .ok word) (hnumber : field ≠ .suffix)
    (h : readNumber field word = .error fault)
    (hearlier : ∀ other : Field, other.line < field.line →
      ∃ value n, valueWord (Text.lines text.toList) other = .ok value ∧
        readNumber other value = .ok n) : IsFaultOf text fault := by
  obtain ⟨hno, rfl⟩ := readNumber_eq_error_iff.1 h
  simp only [valueWord_eq_ok_iff_holdsValue, readNumber_eq_ok_iff, Text.numeral?_eq_some_iff]
    at hvalues hvalue hearlier
  exact .notNumeral ⟨hvalues, hvalue, hnumber, hno, hearlier⟩

/-- **A text is refused for its fault**: for the first line without a value, or else for the first
value that should spell a number and spells none. -/
theorem isFaultOf_of_parse {text : String} {fault : Fault} (h : parse text = .error fault) :
    IsFaultOf text fault := by
  simp only [parse, bind_eq_error_iff] at h
  -- The seven readings in their order; behind them nothing is left to fail.
  rcases h with
    h | ⟨major, hmajor, h | ⟨minor, hminor, h | ⟨patch, hpatch, h | ⟨suffix, hsuffix, h⟩⟩⟩⟩
  · exact isFaultOf_of_valueWord h (Field.forall_line_lt.2 trivial)
  · exact isFaultOf_of_valueWord h (Field.forall_line_lt.2 ⟨major, hmajor⟩)
  · exact isFaultOf_of_valueWord h (Field.forall_line_lt.2 ⟨⟨major, hmajor⟩, minor, hminor⟩)
  · exact isFaultOf_of_valueWord h
      (Field.forall_line_lt.2 ⟨⟨major, hmajor⟩, ⟨minor, hminor⟩, patch, hpatch⟩)
  · have hvalues : ∀ other, ∃ value, valueWord (Text.lines text.toList) other = .ok value := by
      intro other
      cases other with
      | major => exact ⟨major, hmajor⟩
      | minor => exact ⟨minor, hminor⟩
      | patch => exact ⟨patch, hpatch⟩
      | suffix => exact ⟨suffix, hsuffix⟩
    rcases h with h | ⟨a, ha, h | ⟨b, hb, h | ⟨c, -, h⟩⟩⟩
    · exact isFaultOf_of_readNumber hvalues hmajor (by decide) h (Field.forall_line_lt.2 trivial)
    · exact isFaultOf_of_readNumber hvalues hminor (by decide) h
        (Field.forall_line_lt.2 ⟨major, a, hmajor, ha⟩)
    · exact isFaultOf_of_readNumber hvalues hpatch (by decide) h
        (Field.forall_line_lt.2 ⟨⟨major, a, hmajor, ha⟩, minor, b, hminor, hb⟩)
    · cases h

end Header

end VersionStamp
