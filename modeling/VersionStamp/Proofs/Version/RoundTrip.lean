/-
# Versions that are written and read

A version is read back from its text and from its tag, with any blanks around them, unless its
suffix ends in a blank: that blank is taken for one of those around the text.  Whatever is read,
from a text or from a version file, has no such suffix, so it can be written and read any number of
times.  The main facts:

* `read_text_iff`, `read_tag_iff` : the versions that are read back;
* `not_endsBlank_of_read`, `not_endsBlank_of_parse` : what is read can be read back.
-/
import VersionStamp.Proofs.Header.Reading
import VersionStamp.Proofs.Version.Grammar

namespace VersionStamp

namespace Version

/-- The suffix of the version ends in a blank. -/
def EndsBlank (v : Version) : Prop :=
  ∃ c, v.suffix.toList.getLast? = some c ∧ Text.isBlank c = true

/-! ## What is written -/

/-- What is written behind the numbers: nothing, or a hyphen and the suffix. -/
def writtenTail (v : Version) : List Char :=
  if v.suffix = "" then [] else '-' :: v.suffix.toList

/-- What is written behind the numbers can be told from the suffix. -/
theorem writtenTail_eq_or (v : Version) :
    v.writtenTail = [] ∧ v.suffix = "" ∨ v.writtenTail = '-' :: v.suffix.toList := by
  unfold writtenTail
  split
  next h => exact Or.inl ⟨rfl, h⟩
  · exact Or.inr rfl

/-- The text of a version is that of its release with the tail behind it. -/
theorem toList_text (v : Version) : v.text.toList = v.releaseText.toList ++ v.writtenTail := by
  rw [text, writtenTail]
  split <;> simp

/-- The tag of a version is its text behind a `v`. -/
theorem toList_tag (v : Version) : v.tag.toList = 'v' :: v.text.toList := by
  rw [tag, String.toList_append]
  rfl

/-- The text of a release is three numbers with points between them. -/
theorem toList_releaseText_append (v : Version) (tail : List Char) :
    v.releaseText.toList ++ tail = (Text.digits v.major.toNat).toList ++
      '.' :: ((Text.digits v.minor.toNat).toList ++
        '.' :: ((Text.digits v.patch.toNat).toList ++ tail)) := by
  simp [releaseText]

/-- The text of a release holds digits and points. -/
theorem mem_releaseText {v : Version} {c : Char} (h : c ∈ v.releaseText.toList) :
    c.isDigit = true ∨ c = '.' := by
  rw [← List.append_nil v.releaseText.toList, toList_releaseText_append] at h
  simp only [List.mem_append, List.mem_cons, List.not_mem_nil, or_false] at h
  rcases h with h | h | h | h | h
  · exact Or.inl (Text.isDigit_of_mem_digits h)
  · exact Or.inr h
  · exact Or.inl (Text.isDigit_of_mem_digits h)
  · exact Or.inr h
  · exact Or.inl (Text.isDigit_of_mem_digits h)

/-- The text of a release holds no blank. -/
theorem isBlank_of_mem_releaseText {v : Version} {c : Char} (h : c ∈ v.releaseText.toList) :
    Text.isBlank c = false := by
  rcases mem_releaseText h with hdigit | rfl
  · exact Text.isBlank_of_isDigit hdigit
  · decide

/-- The text of a version starts with a digit. -/
theorem exists_text_eq_cons (v : Version) :
    ∃ c rest, v.text.toList = c :: rest ∧ c.isDigit = true := by
  obtain ⟨c, rest, hdigits, hdigit⟩ := Text.exists_digits_eq_cons v.major.toNat
  rw [toList_text, toList_releaseText_append, hdigits]
  exact ⟨c, _, rfl, hdigit⟩

/-- The text of a version ends in a blank only if the suffix does. -/
theorem isBlank_getLast_text {v : Version} (h : ¬v.EndsBlank) {c : Char}
    (hlast : v.text.toList.getLast? = some c) : Text.isBlank c = false := by
  rw [toList_text] at hlast
  rcases v.writtenTail_eq_or with ⟨htail, -⟩ | htail
  · rw [htail, List.append_nil] at hlast
    exact isBlank_of_mem_releaseText (List.mem_of_getLast? hlast)
  · rw [htail, List.getLast?_append, List.getLast?_cons, Option.some_or, Option.some.injEq] at hlast
    -- The hyphen is the last character if the suffix is empty.
    cases hsuffix : v.suffix.toList.getLast? with
    | none =>
      rw [hsuffix] at hlast
      rw [← hlast]
      decide
    | some d =>
      rw [hsuffix] at hlast
      have hnot : Text.isBlank d ≠ true := fun hblank => h ⟨d, hsuffix, hblank⟩
      rw [← hlast]
      exact Bool.eq_false_iff.2 hnot

/-- There are no blanks around the text of a version, with or without a `v`. -/
theorem isTrimmed_append_text {v : Version} (h : ¬v.EndsBlank) {sign : List Char}
    (hsign : sign = [] ∨ sign = ['v']) : Text.IsTrimmed (sign ++ v.text.toList) := by
  obtain ⟨first, rest, htext, hdigit⟩ := v.exists_text_eq_cons
  constructor
  · intro c hc
    rcases hsign with rfl | rfl
    · rw [List.nil_append, htext] at hc
      rw [← Option.some.inj hc]
      exact Text.isBlank_of_isDigit hdigit
    · rw [← Option.some.inj hc]
      decide
  · intro c hc
    rw [htext, List.getLast?_append, List.getLast?_cons, Option.some_or, ← List.getLast?_cons,
      ← htext] at hc
    exact isBlank_getLast_text h hc

/-! ## What is read back -/

/-- Behind a sign and between blanks, the text of a version is a text of it. -/
theorem isTextOf_of_toList {v : Version} (h : ¬v.EndsBlank) {s : String}
    {front sign back : List Char} (hs : s.toList = front ++ (sign ++ v.text.toList) ++ back)
    (hsign : sign = [] ∨ sign = ['v']) (hfront : ∀ c ∈ front, Text.isBlank c = true)
    (hback : ∀ c ∈ back, Text.isBlank c = true) : IsTextOf s v := by
  have hcore : IsCoreOf s v.text.toList := by
    refine ⟨front, sign, back, hs, hfront, hback, isTrimmed_append_text h hsign, ?_⟩
    rcases hsign with rfl | rfl
    · -- The text starts with a digit, so there is no other `v` to leave out.
      obtain ⟨first, rest, htext, hdigit⟩ := v.exists_text_eq_cons
      refine Or.inr ⟨rfl, ?_⟩
      rw [htext]
      intro hhead
      rw [Option.some.inj hhead] at hdigit
      exact absurd hdigit (by decide)
    · exact Or.inl rfl
  rw [toList_text, toList_releaseText_append] at hcore
  have hspells : ∀ n : UInt32, Text.SpellsNumber (Text.digits n.toNat).toList n := fun n =>
    Text.numeral?_eq_some_iff.1 (Text.numeral?_digits n)
  exact ⟨_, _, _, v.writtenTail, hcore, hspells _, hspells _, hspells _, v.writtenTail_eq_or⟩

/-- A version that is read has no suffix that ends in a blank. -/
theorem not_endsBlank_of_read {s : String} {v : Version} (h : read s = .ok v) : ¬v.EndsBlank := by
  obtain ⟨major, minor, patch, tail, hcore, -, -, -, htail⟩ := read_eq_ok_iff.1 h
  obtain ⟨-, sign, -, -, -, -, ⟨-, hlast⟩, -⟩ := hcore
  rintro ⟨c, hc, hblank⟩
  rcases htail with ⟨-, hsuffix⟩ | htail
  · rw [hsuffix] at hc
    cases hc
  · -- The last character of the suffix is the last one of the trimmed text.
    have hend : (sign ++ (major ++ '.' :: (minor ++ '.' :: (patch ++ tail)))).getLast? =
        some c := by
      have hsplit : sign ++ (major ++ '.' :: (minor ++ '.' :: (patch ++ tail))) =
          (sign ++ (major ++ '.' :: (minor ++ '.' :: (patch ++ ['-'])))) ++ v.suffix.toList := by
        simp [htail]
      rw [hsplit, List.getLast?_append, hc, Option.some_or]
    rw [hlast c hend] at hblank
    cases hblank

/-- **A version is read back** from its text behind a sign and between blanks, unless its suffix
ends in a blank. -/
theorem read_eq_ok_self_iff {v : Version} {s : String} {front sign back : List Char}
    (hs : s.toList = front ++ (sign ++ v.text.toList) ++ back) (hsign : sign = [] ∨ sign = ['v'])
    (hfront : ∀ c ∈ front, Text.isBlank c = true) (hback : ∀ c ∈ back, Text.isBlank c = true) :
    read s = .ok v ↔ ¬v.EndsBlank := by
  constructor
  · exact not_endsBlank_of_read
  · intro h
    exact read_eq_ok_iff.2 (isTextOf_of_toList h hs hsign hfront hback)

/-- A version is read back from its text, with any blanks around it. -/
theorem read_text_iff {front back : String} (hfront : ∀ c ∈ front.toList, Text.isBlank c = true)
    (hback : ∀ c ∈ back.toList, Text.isBlank c = true) (v : Version) :
    read (front ++ v.text ++ back) = .ok v ↔ ¬v.EndsBlank :=
  read_eq_ok_self_iff (by simp) (Or.inl rfl) hfront hback

/-- A version is read back from its tag, with any blanks around it. -/
theorem read_tag_iff {front back : String} (hfront : ∀ c ∈ front.toList, Text.isBlank c = true)
    (hback : ∀ c ∈ back.toList, Text.isBlank c = true) (v : Version) :
    read (front ++ v.tag ++ back) = .ok v ↔ ¬v.EndsBlank :=
  read_eq_ok_self_iff (by simp [toList_tag]) (Or.inr rfl) hfront hback

/-- A version is read back from its text. -/
theorem read_text {v : Version} (h : ¬v.EndsBlank) : read v.text = .ok v := by
  have hs : v.text.toList = [] ++ ([] ++ v.text.toList) ++ [] := by simp
  exact (read_eq_ok_self_iff hs (Or.inl rfl) nofun nofun).2 h

/-- A version is read back from its tag. -/
theorem read_tag {v : Version} (h : ¬v.EndsBlank) : read v.tag = .ok v := by
  have hs : v.tag.toList = [] ++ (['v'] ++ v.text.toList) ++ [] := by simp [toList_tag]
  exact (read_eq_ok_self_iff hs (Or.inr rfl) nofun nofun).2 h

/-- A version of a version file has no suffix that ends in a blank. -/
theorem not_endsBlank_of_parse {text : String} {v : Version} (h : Header.parse text = .ok v) :
    ¬v.EndsBlank := by
  rintro ⟨c, hc, hblank⟩
  have haccepts := Header.acceptsSuffix_of_parse h
  rw [Header.acceptsSuffix, List.all_eq_true] at haccepts
  have hc := haccepts c (List.mem_of_getLast? hc)
  rw [hblank] at hc
  cases hc

end Version

end VersionStamp
