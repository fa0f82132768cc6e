/-
# What reading a header comes down to

A header is read when each of its four value words is there and the first three are numerals.
The suffix that is read never holds a blank or a quote.
-/
import VersionStamp.Header
import VersionStamp.Proofs.Except
import VersionStamp.Proofs.Text.Words

namespace VersionStamp

namespace Header

/-! ## Value words -/

/-- The value word of a field is the third word of its line. -/
theorem valueWord_eq_ok_iff {lines : List (List Char)} {field : Field} {word : List Char} :
    valueWord lines field = .ok word ↔
      ∃ line, lines[field.line - 1]? = some line ∧ (Text.words line)[2]? = some word := by
  unfold valueWord
  cases hline : lines[field.line - 1]? with
  | none => simp
  | some line =>
    cases hword : (Text.words line)[2]? with
    | none => simp [hword]
    | some w => simp [hword]

/-- A number is read from a numeral and from nothing else. -/
theorem readNumber_eq_ok_iff {field : Field} {word : List Char} {n : UInt32} :
    readNumber field word = .ok n ↔ Text.numeral? word = some n := by
  unfold readNumber
  cases Text.numeral? word <;> simp

/-! ## The whole header -/

/-- A header is read as a version if its value words are there and stand for the fields. -/
theorem parse_eq_ok_iff {text : String} {v : Version} :
    parse text = .ok v ↔
      ∃ major minor patch suffix,
        valueWord (Text.lines text.toList) .major = .ok major ∧
        valueWord (Text.lines text.toList) .minor = .ok minor ∧
        valueWord (Text.lines text.toList) .patch = .ok patch ∧
        valueWord (Text.lines text.toList) .suffix = .ok suffix ∧
        Text.numeral? major = some v.major ∧ Text.numeral? minor = some v.minor ∧
        Text.numeral? patch = some v.patch ∧ readSuffix suffix = v.suffix := by
  constructor
  · intro h
    simp only [parse, bind_eq_ok_iff, readNumber_eq_ok_iff] at h
    obtain ⟨major, hmajor, minor, hminor, patch, hpatch, suffix, hsuffix, a, ha, b, hb, c, hc, h⟩ :=
      h
    cases h
    exact ⟨major, minor, patch, suffix, hmajor, hminor, hpatch, hsuffix, ha, hb, hc, rfl⟩
  · rintro ⟨major, minor, patch, suffix, hmajor, hminor, hpatch, hsuffix, ha, hb, hc, hd⟩
    simp only [parse, bind_eq_ok_iff, readNumber_eq_ok_iff]
    exact ⟨major, hmajor, minor, hminor, patch, hpatch, suffix, hsuffix, _, ha, _, hb, _, hc,
      congrArg Except.ok (by rw [hd])⟩

/-- The suffix of a version that was read is one that could be written. -/
theorem acceptsSuffix_of_parse {text : String} {v : Version} (h : parse text = .ok v) :
    acceptsSuffix v.suffix = true := by
  obtain ⟨-, -, -, suffix, -, -, -, hword, -, -, -, hsuffix⟩ := parse_eq_ok_iff.1 h
  obtain ⟨line, -, hthird⟩ := valueWord_eq_ok_iff.1 hword
  have hblank := Text.isBlank_of_mem_words (List.mem_of_getElem? hthird)
  rw [← hsuffix, acceptsSuffix, readSuffix, String.toList_ofList, List.all_eq_true]
  intro c hc
  obtain ⟨hmem, hquote⟩ := List.mem_filter.1 hc
  simpa [hblank c hmem] using hquote

end Header

end VersionStamp
