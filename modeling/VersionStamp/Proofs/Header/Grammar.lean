/-
# The grammar of a version file

Which texts are version files, and of which version, is said here by how their lines, words and
numbers are spelled.  The value of a field is the third word on the line of the field; nothing else
in the text counts.  Reading accepts the texts of this grammar and no others:

* `valueWord_eq_ok_iff_holdsValue` : the word that is looked up for a field;
* `parse_eq_ok_iff_isHeaderOf` : the texts that are read, and what they are read as;
* `parse_congr` : two texts with the same value words are read alike, or refused alike.
-/
import VersionStamp.Proofs.Header.Reading
import VersionStamp.Proofs.Text.Spelling

namespace VersionStamp

namespace Header

/-! ## Values -/

/-- The text holds a word as the value of a field: it is the third one on the line of the field. -/
def HoldsValue (text : String) (field : Field) (word : List Char) : Prop :=
  ∃ lines line first second more, Text.SpellsLines text.toList lines ∧
    lines[field.line - 1]? = some line ∧ Text.SpellsWords line (first :: second :: word :: more)

/-- A list has a third item if two stand before it. -/
theorem getElem?_two_eq_some_iff {α : Type} {l : List α} {x : α} :
    l[2]? = some x ↔ ∃ first second more, l = first :: second :: x :: more := by
  constructor
  · intro h
    match l, h with
    | first :: second :: third :: more, h =>
      exact ⟨first, second, more, by rw [← Option.some.inj h]⟩
  · rintro ⟨first, second, more, rfl⟩
    rfl

/-- The word that is looked up for a field is the value that the text holds. -/
theorem valueWord_eq_ok_iff_holdsValue {text : String} {field : Field} {word : List Char} :
    valueWord (Text.lines text.toList) field = .ok word ↔ HoldsValue text field word := by
  rw [valueWord_eq_ok_iff]
  constructor
  · rintro ⟨line, hline, hthird⟩
    obtain ⟨first, second, more, hwords⟩ := getElem?_two_eq_some_iff.1 hthird
    exact ⟨_, line, first, second, more, Text.spellsLines_lines text.toList, hline,
      Text.words_eq_iff.1 hwords⟩
  · rintro ⟨lines, line, first, second, more, hlines, hline, hwords⟩
    rw [Text.lines_eq_iff.2 hlines]
    exact ⟨line, hline,
      getElem?_two_eq_some_iff.2 ⟨first, second, more, Text.words_eq_iff.2 hwords⟩⟩

/-! ## Headers -/

/-- The text is a header of a version.  For each of the three numbers it holds a value that spells
the number, and for the suffix a value that is the suffix once its quotes are left out. -/
structure IsHeaderOf (text : String) (v : Version) : Prop where
  major : ∃ word, HoldsValue text .major word ∧ Text.SpellsNumber word v.major
  minor : ∃ word, HoldsValue text .minor word ∧ Text.SpellsNumber word v.minor
  patch : ∃ word, HoldsValue text .patch word ∧ Text.SpellsNumber word v.patch
  suffix : ∃ word, HoldsValue text .suffix word ∧
    v.suffix = String.ofList (word.filter (· ≠ '"'))

/-- A text is read as a version if it is a header of that version. -/
theorem parse_eq_ok_iff_isHeaderOf {text : String} {v : Version} :
    parse text = .ok v ↔ IsHeaderOf text v := by
  simp only [parse_eq_ok_iff, valueWord_eq_ok_iff_holdsValue, Text.numeral?_eq_some_iff]
  constructor
  · rintro ⟨major, minor, patch, suffix, hmajor, hminor, hpatch, hsuffix, ha, hb, hc, hd⟩
    exact ⟨⟨major, hmajor, ha⟩, ⟨minor, hminor, hb⟩, ⟨patch, hpatch, hc⟩,
      ⟨suffix, hsuffix, hd.symm⟩⟩
  · rintro ⟨⟨major, hmajor, ha⟩, ⟨minor, hminor, hb⟩, ⟨patch, hpatch, hc⟩, ⟨suffix, hsuffix, hd⟩⟩
    exact ⟨major, minor, patch, suffix, hmajor, hminor, hpatch, hsuffix, ha, hb, hc, hd.symm⟩

/-- Two texts from which the same is looked up for every field are read alike. -/
theorem parse_congr {text₁ text₂ : String}
    (h : ∀ field, valueWord (Text.lines text₁.toList) field =
      valueWord (Text.lines text₂.toList) field) : parse text₁ = parse text₂ := by
  rw [parse, parse, h .major, h .minor, h .patch, h .suffix]

/-- **Reading accepts exactly the headers.**  A text is read as a version if and only if it is a
header of it, and the suffix of the version is then one that could be written.  Two texts that hold
the same value for each of the four fields are read as the same version, or refused for the same
fault, whatever else stands in them. -/
theorem parse_accepts_headers :
    (∀ text v, parse text = .ok v ↔ IsHeaderOf text v) ∧
      (∀ text v, IsHeaderOf text v → acceptsSuffix v.suffix = true) ∧
      ∀ text₁ text₂, (∀ field, ∃ word, HoldsValue text₁ field word ∧ HoldsValue text₂ field word) →
        parse text₁ = parse text₂ := by
  refine ⟨fun text v => parse_eq_ok_iff_isHeaderOf, ?_, ?_⟩
  · intro text v h
    exact acceptsSuffix_of_parse (parse_eq_ok_iff_isHeaderOf.2 h)
  · intro text₁ text₂ h
    apply parse_congr
    intro field
    obtain ⟨word, h₁, h₂⟩ := h field
    rw [valueWord_eq_ok_iff_holdsValue.2 h₁, valueWord_eq_ok_iff_holdsValue.2 h₂]

/-- A header with a sign, leading zeros, quotes inside the suffix, a wide blank and both line
ends. -/
def unusual : String :=
  "#define A +007 x\r\n\tB C\u20034294967295\n1 2 00 9\nX Y \"r\"c1\"\r\n#"

/-- A header with the same values and other words around them. -/
def usual : String :=
  "a b +007\na b 4294967295 c\na b 00\na b \"r\"c1\""

/-- Both headers are read as the same version. -/
theorem parse_of_unusual_header :
    IsHeaderOf unusual ⟨7, 4294967295, 0, "rc1"⟩ ∧ acceptsSuffix "rc1" = true ∧
      parse usual = .ok ⟨7, 4294967295, 0, "rc1"⟩ := by
  obtain ⟨hiff, haccepts, hcongr⟩ := parse_accepts_headers
  have hparse : parse unusual = .ok ⟨7, 4294967295, 0, "rc1"⟩ := by rfl
  have hheader := (hiff unusual _).1 hparse
  have hsame : ∀ field, ∃ word, HoldsValue unusual field word ∧ HoldsValue usual field word := by
    simp only [← valueWord_eq_ok_iff_holdsValue]
    intro field
    cases field with
    | major => exact ⟨"+007".toList, rfl, rfl⟩
    | minor => exact ⟨"4294967295".toList, rfl, rfl⟩
    | patch => exact ⟨"00".toList, rfl, rfl⟩
    | suffix => exact ⟨"\"r\"c1\"".toList, rfl, rfl⟩
  exact ⟨hheader, haccepts unusual _ hheader, (hcongr unusual usual hsame).symm.trans hparse⟩

end Header

end VersionStamp
