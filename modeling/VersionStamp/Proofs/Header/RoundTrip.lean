/-
# The round trip of a header

Writing a version and reading it again gives the same version under two conditions: the suffix
is an accepted one, and the stem of the macros leaves the value in the third word of its line.
Both conditions are sharp:

* `parse_render` : they are enough;
* `parse_render_iff` : they are needed, the first for each version and the second for each stem;
* `exists_parse_render_ne` : behind any other stem only one major number can come back;
* `parse_render_twoWords` : behind a stem of two words nothing comes back.
-/
import VersionStamp.Proofs.Header.Reading
import VersionStamp.Proofs.Text.Lines

namespace VersionStamp

namespace Header

/-! ## Safe stems -/

/-- A stem behind which a value stays in the third word: blanks other than line feeds, and behind
them a word without blanks.  Either part may be empty. -/
def IsSafeStem (stem : String) : Prop :=
  ∃ gap word, stem.toList = gap ++ word ∧ (∀ c ∈ gap, Text.isBlank c = true ∧ c ≠ '\n') ∧
    ∀ c ∈ word, Text.isBlank c = false

/-- A stem is safe if it has no line feed, and no blank behind the first character of a word. -/
theorem isSafeStem_iff {stem : String} :
    IsSafeStem stem ↔
      '\n' ∉ stem.toList ∧
        ∀ c ∈ stem.toList.dropWhile Text.isBlank, Text.isBlank c = false := by
  constructor
  · rintro ⟨gap, word, hstem, hgap, hword⟩
    rw [hstem]
    constructor
    · intro hfeed
      rcases List.mem_append.1 hfeed with h | h
      · exact (hgap _ h).2 rfl
      · exact absurd (hword _ h) (by decide)
    · rw [List.dropWhile_append_of_pos fun c hc => (hgap c hc).1]
      exact fun c hc => hword c ((List.dropWhile_sublist _).subset hc)
  · rintro ⟨hfeed, hword⟩
    refine ⟨_, _, (List.takeWhile_append_dropWhile (p := Text.isBlank)).symm, ?_, hword⟩
    intro c hc
    refine ⟨List.all_eq_true.1 List.all_takeWhile c hc, ?_⟩
    rintro rfl
    exact hfeed ((List.takeWhile_sublist _).subset hc)

instance (stem : String) : Decidable (IsSafeStem stem) :=
  decidable_of_iff
    ('\n' ∉ stem.toList ∧ (stem.toList.dropWhile Text.isBlank).all (!Text.isBlank ·) = true)
    (by rw [isSafeStem_iff, ← Text.all_not_isBlank_iff])

/-- A stem without blanks is safe. -/
theorem isSafeStem_of_forall {stem : String} (h : ∀ c ∈ stem.toList, Text.isBlank c = false) :
    IsSafeStem stem :=
  ⟨[], stem.toList, rfl, by simp, h⟩

/-! ## The lines that are written -/

/-- The value of a field as it is written in its line. -/
def writtenValue (v : Version) : Field → String
  | .major => Text.digits v.major.toNat
  | .minor => Text.digits v.minor.toNat
  | .patch => Text.digits v.patch.toNat
  | .suffix => "\"" ++ v.suffix ++ "\""

/-- What follows the stem in the name of a field's macro. -/
def macroTail (field : Field) : List Char :=
  ("_VERSION_" ++ field.macroName).toList

/-- No macro name ends in blanks. -/
theorem isBlank_macroTail (field : Field) : ∀ c ∈ macroTail field, Text.isBlank c = false := by
  rw [← Text.all_not_isBlank_iff]
  cases field <;> rfl

/-- A macro name holds no blank if its stem holds none. -/
theorem isBlank_append_macroTail {word : List Char} (hword : ∀ c ∈ word, Text.isBlank c = false)
    (field : Field) : ∀ c ∈ word ++ macroTail field, Text.isBlank c = false := by
  intro c hc
  rcases List.mem_append.1 hc with h | h
  · exact hword c h
  · exact isBlank_macroTail field c h

/-- No macro name is empty. -/
theorem append_macroTail_ne_nil (word : List Char) (field : Field) :
    word ++ macroTail field ≠ [] := by
  cases field <;> simp [macroTail]

/-- A line is written as three parts with one space between them. -/
theorem toList_definition (stem : String) (field : Field) (value : String) :
    (definition stem field value).toList =
      "#define".toList ++ ' ' :: (stem.toList ++ macroTail field ++ ' ' :: value.toList) := by
  simp [definition, macroTail]

/-- No value is written as an empty text. -/
theorem writtenValue_ne_nil (v : Version) (field : Field) : (writtenValue v field).toList ≠ [] := by
  cases field with
  | suffix => simp [writtenValue]
  | _ =>
    rw [writtenValue, Text.digits, Nat.toList_repr]
    exact Nat.toDigits_ne_nil

/-- No value is written with a blank, unless it is a suffix that holds one. -/
theorem isBlank_of_mem_writtenValue {v : Version} {field : Field}
    (h : field = .suffix → ∀ c ∈ v.suffix.toList, Text.isBlank c = false) :
    ∀ c ∈ (writtenValue v field).toList, Text.isBlank c = false := by
  intro c hc
  cases field with
  | suffix =>
    have hquoted : c = '"' ∨ c ∈ v.suffix.toList := by
      simpa [writtenValue, or_comm, or_left_comm] using hc
    rcases hquoted with rfl | hmem
    · decide
    · exact h rfl c hmem
  | _ => exact Text.isBlank_of_isDigit (Text.isDigit_of_mem_digits hc)

/-- Behind a safe stem, a line is written as three words with the value as the third. -/
theorem words_definition {stem : String} (hstem : IsSafeStem stem) (field : Field) {value : String}
    (hne : value.toList ≠ []) (hvalue : ∀ c ∈ value.toList, Text.isBlank c = false) :
    (Text.words (definition stem field value).toList)[2]? = some value.toList := by
  obtain ⟨gap, word, hparts, hgap, hword⟩ := hstem
  -- The gap runs on from the space behind the directive, so it belongs to no word.
  rw [toList_definition, hparts, Text.words_append_blank _ _ (by decide), List.append_assoc,
    List.append_assoc, Text.words_blanks_append fun c hc => (hgap c hc).1, ← List.append_assoc,
    Text.words_append_blank _ _ (by decide),
    Text.words_eq_singleton (append_macroTail_ne_nil word field)
      (isBlank_append_macroTail hword field),
    Text.words_eq_singleton hne hvalue]
  rfl

/-- A line is written without a line feed if its stem has none. -/
theorem lineFeed_not_mem_definition {stem : String} (hstem : '\n' ∉ stem.toList) (field : Field)
    {value : String} (hvalue : ∀ c ∈ value.toList, Text.isBlank c = false) :
    '\n' ∉ (definition stem field value).toList := by
  rw [toList_definition]
  intro h
  simp only [List.mem_append, List.mem_cons] at h
  rcases h with h | h | (h | h) | h | h
  · exact absurd h (by decide)
  · exact absurd h (by decide)
  · exact hstem h
  · exact absurd (isBlank_macroTail field _ h) (by decide)
  · exact absurd h (by decide)
  · exact absurd (hvalue _ h) (by decide)

/-- A line in front of a line feed is the first line of the text. -/
theorem lines_definition_append {stem : String} (hstem : '\n' ∉ stem.toList) (field : Field)
    {value : String} (hne : value.toList ≠ []) (hvalue : ∀ c ∈ value.toList, Text.isBlank c = false)
    (back : List Char) :
    Text.lines ((definition stem field value).toList ++ '\n' :: back) =
      (definition stem field value).toList :: Text.lines back := by
  have hlast : (definition stem field value).toList.getLast? ≠ some '\r' := by
    rw [definition, String.toList_append, List.getLast?_append,
      List.getLast?_eq_some_getLast hne, Option.some_or]
    intro h
    -- A carriage return is a blank, and the value ends in none.
    have hmem := List.getLast_mem hne
    rw [Option.some.inj h] at hmem
    exact absurd (hvalue _ hmem) (by decide)
  rw [Text.lines_append_lineFeed (lineFeed_not_mem_definition hstem field hvalue),
    Text.withoutReturn_eq_self hlast]

/-- The lines of a written header are the definitions of the four fields. -/
theorem lines_render {stem : String} (hstem : '\n' ∉ stem.toList) {v : Version}
    (hsuffix : ∀ c ∈ v.suffix.toList, Text.isBlank c = false) :
    Text.lines (render stem v).toList =
      Field.all.map fun field => (definition stem field (writtenValue v field)).toList := by
  have hvalue : ∀ field, ∀ c ∈ (writtenValue v field).toList, Text.isBlank c = false :=
    fun _ => isBlank_of_mem_writtenValue fun _ => hsuffix
  have hne : (definition stem .suffix (writtenValue v .suffix)).toList ≠ [] := by
    simp [toList_definition]
  have htext : (render stem v).toList =
      (definition stem .major (writtenValue v .major)).toList ++ '\n' ::
        ((definition stem .minor (writtenValue v .minor)).toList ++ '\n' ::
          ((definition stem .patch (writtenValue v .patch)).toList ++ '\n' ::
            (definition stem .suffix (writtenValue v .suffix)).toList)) := by
    simp [render, writtenValue]
  rw [htext, lines_definition_append hstem .major (writtenValue_ne_nil v .major) (hvalue .major),
    lines_definition_append hstem .minor (writtenValue_ne_nil v .minor) (hvalue .minor),
    lines_definition_append hstem .patch (writtenValue_ne_nil v .patch) (hvalue .patch),
    Text.lines_eq_singleton hne (lineFeed_not_mem_definition hstem .suffix (hvalue .suffix))]
  rfl

/-! ## Reading what was written -/

/-- The value word that is read for a field is the third word of its definition. -/
theorem valueWord_render_eq_ok_iff {stem : String} (hstem : '\n' ∉ stem.toList) {v : Version}
    (hsuffix : ∀ c ∈ v.suffix.toList, Text.isBlank c = false) {field : Field} {word : List Char} :
    valueWord (Text.lines (render stem v).toList) field = .ok word ↔
      (Text.words (definition stem field (writtenValue v field)).toList)[2]? = some word := by
  have hline : (Field.all.map fun field =>
      (definition stem field (writtenValue v field)).toList)[field.line - 1]? =
        some (definition stem field (writtenValue v field)).toList := by
    cases field <;> rfl
  rw [lines_render hstem hsuffix, valueWord_eq_ok_iff, hline]
  constructor
  · rintro ⟨line, hsome, hthird⟩
    cases hsome
    exact hthird
  · intro hthird
    exact ⟨_, rfl, hthird⟩

/-- The third word of a line behind a safe stem is the value that was written there. -/
theorem valueWord_render {stem : String} (hstem : IsSafeStem stem) {v : Version}
    (hsuffix : ∀ c ∈ v.suffix.toList, Text.isBlank c = false) (field : Field) :
    valueWord (Text.lines (render stem v).toList) field = .ok (writtenValue v field).toList := by
  rw [valueWord_render_eq_ok_iff (isSafeStem_iff.1 hstem).1 hsuffix]
  exact words_definition hstem field (writtenValue_ne_nil v field)
    (isBlank_of_mem_writtenValue fun _ => hsuffix)

/-- A suffix is accepted if it holds neither a blank nor a quote. -/
theorem acceptsSuffix_iff {suffix : String} :
    acceptsSuffix suffix = true ↔ ∀ c ∈ suffix.toList, Text.isBlank c = false ∧ c ≠ '"' := by
  simp [acceptsSuffix]

/-- A suffix without quotes is found again between the quotes that were put around it. -/
theorem readSuffix_writtenValue {v : Version} (h : ∀ c ∈ v.suffix.toList, c ≠ '"') :
    readSuffix (writtenValue v .suffix).toList = v.suffix := by
  have hkeep : v.suffix.toList.filter (fun c => !decide (c = '"')) = v.suffix.toList :=
    List.filter_eq_self.2 fun c hc => by simpa using h c hc
  simp [readSuffix, writtenValue, hkeep]

/-- **Round trip.**  Behind a safe stem, a version with an accepted suffix is read back. -/
theorem parse_render {stem : String} (hstem : IsSafeStem stem) {v : Version}
    (hsuffix : acceptsSuffix v.suffix = true) : parse (render stem v) = .ok v := by
  rw [acceptsSuffix_iff] at hsuffix
  have hword := valueWord_render hstem fun c hc => (hsuffix c hc).1
  exact parse_eq_ok_iff.2 ⟨_, _, _, _, hword .major, hword .minor, hword .patch, hword .suffix,
    Text.numeral?_digits v.major, Text.numeral?_digits v.minor, Text.numeral?_digits v.patch,
    readSuffix_writtenValue fun c hc => (hsuffix c hc).2⟩

/-! ## Unsafe stems -/

/-- A stem with a line feed ends the first line before any value. -/
theorem exists_firstLine_of_lineFeed {stem : String} (h : '\n' ∈ stem.toList) :
    ∃ line, ∀ v, (Text.lines (render stem v).toList)[0]? = some line := by
  obtain ⟨front, back, hstem, hfront⟩ := List.eq_append_cons_of_mem h
  refine ⟨Text.withoutReturn ("#define ".toList ++ front), ?_⟩
  intro v
  obtain ⟨rest, hrest⟩ : ∃ rest,
      (render stem v).toList = ("#define ".toList ++ front) ++ '\n' :: rest := by
    simp [render, definition, hstem]
  have hno : '\n' ∉ "#define ".toList ++ front := by
    intro hmem
    rcases List.mem_append.1 hmem with hmem | hmem
    · exact absurd hmem (by decide)
    · exact hfront hmem
  rw [hrest, Text.lines_append_lineFeed hno]
  rfl

/-- Without a line feed in the stem the first line is the definition of the major number. -/
theorem firstLine_render {stem : String} (hstem : '\n' ∉ stem.toList) (v : Version) :
    (Text.lines (render stem v).toList)[0]? =
      some (definition stem .major (writtenValue v .major)).toList := by
  obtain ⟨rest, hrest⟩ : ∃ rest, (render stem v).toList =
      (definition stem .major (writtenValue v .major)).toList ++ '\n' :: rest := by
    simp [render, writtenValue]
  rw [hrest, lines_definition_append hstem .major (writtenValue_ne_nil v .major)
    (isBlank_of_mem_writtenValue nofun)]
  rfl

/-- In front of a blank inside the stem and behind it there is a word each. -/
theorem two_le_length_words {stem : String}
    (h : ∃ c ∈ stem.toList.dropWhile Text.isBlank, Text.isBlank c = true) (field : Field) :
    2 ≤ (Text.words (stem.toList ++ macroTail field)).length := by
  obtain ⟨c, hmem, hc⟩ := h
  obtain ⟨front, back, hsplit⟩ := List.append_of_mem hmem
  have hhead : ∃ d ∈ front, Text.isBlank d = false := by
    have hne := List.ne_nil_of_mem hmem
    have hfirst := List.head_dropWhile_not Text.isBlank hne
    cases front with
    | nil => simp [hsplit, hc] at hfirst
    | cons d more => exact ⟨d, List.mem_cons_self, by simpa [hsplit] using hfirst⟩
  obtain ⟨d, hd, hblank⟩ := hhead
  have hfront := List.length_pos_iff.2 (Text.words_ne_nil hd hblank)
  have hback : 0 < (Text.words (back ++ macroTail field)).length := by
    refine List.length_pos_iff.2 (Text.words_ne_nil (c := '_') ?_ (by decide))
    cases field <;> simp [macroTail]
  rw [← List.takeWhile_append_dropWhile (p := Text.isBlank) (l := stem.toList), hsplit,
    List.append_assoc, Text.words_blanks_append (List.all_eq_true.1 List.all_takeWhile),
    List.append_assoc, List.cons_append, Text.words_append_blank _ _ hc, List.length_append]
  omega

/-- Behind an unsafe stem, the third word of the first line does not depend on the version. -/
theorem exists_majorWord_of_not_isSafeStem {stem : String} (h : ¬IsSafeStem stem) :
    ∃ word?, ∀ v word, valueWord (Text.lines (render stem v).toList) .major = .ok word →
      word? = some word := by
  by_cases hfeed : '\n' ∈ stem.toList
  · -- The first line ends within the stem, in front of the value.
    obtain ⟨line, hline⟩ := exists_firstLine_of_lineFeed hfeed
    refine ⟨(Text.words line)[2]?, ?_⟩
    intro v word hword
    obtain ⟨first, hfirst, hthird⟩ := valueWord_eq_ok_iff.1 hword
    cases (hline v).symm.trans hfirst
    exact hthird
  · -- The stem takes up two words, and the value stands in the fourth place or behind it.
    have hblank : ∃ c ∈ stem.toList.dropWhile Text.isBlank, Text.isBlank c = true := by
      rw [isSafeStem_iff] at h
      simpa [hfeed] using h
    have hwords := two_le_length_words hblank .major
    refine ⟨(Text.words ("#define".toList ++ ' ' :: (stem.toList ++ macroTail .major)))[2]?, ?_⟩
    intro v word hword
    obtain ⟨first, hfirst, hthird⟩ := valueWord_eq_ok_iff.1 hword
    cases (firstLine_render hfeed v).symm.trans hfirst
    rw [toList_definition, ← List.cons_append, ← List.append_assoc,
      Text.words_append_blank _ _ (by decide)] at hthird
    rw [← hthird, List.getElem?_append_left]
    rw [Text.words_append_blank _ _ (by decide), List.length_append]
    have hdefine : (Text.words "#define".toList).length = 1 := by decide
    omega

/-- Behind an unsafe stem at most one major number is ever read back. -/
theorem exists_parse_render_ne {stem : String} (h : ¬IsSafeStem stem) :
    ∃ n : UInt32, ∀ v, v.major ≠ n → parse (render stem v) ≠ .ok v := by
  obtain ⟨word?, hword?⟩ := exists_majorWord_of_not_isSafeStem h
  -- The number is arbitrary if that word is missing or no numeral.
  refine ⟨(word?.bind Text.numeral?).getD 0, ?_⟩
  intro v hmajor hparse
  obtain ⟨word, -, -, -, hword, -, -, -, hnumeral, -⟩ := parse_eq_ok_iff.1 hparse
  rw [hword? v word hword, Option.bind_some, hnumeral] at hmajor
  exact hmajor rfl

/-- A word with an underscore in it is no numeral. -/
theorem numeral?_eq_none {word : List Char} (h : '_' ∈ word) : Text.numeral? word = none := by
  have hdigits : '_' ∈ Text.unsigned word := by
    unfold Text.unsigned
    split
    · exact (List.mem_cons.1 h).resolve_left (by decide)
    · exact h
  refine if_neg ?_
  rintro ⟨-, hall, -⟩
  exact absurd (hall '_' hdigits) (by decide)

/-- Behind a stem of two words the second one is in the place of the value. -/
theorem valueWord_render_twoWords {first second : String} (hne : first.toList ≠ [])
    (hfirst : ∀ c ∈ first.toList, Text.isBlank c = false)
    (hsecond : ∀ c ∈ second.toList, Text.isBlank c = false) {v : Version}
    (hsuffix : ∀ c ∈ v.suffix.toList, Text.isBlank c = false) (field : Field) :
    valueWord (Text.lines (render (first ++ " " ++ second) v).toList) field =
      .ok (second.toList ++ macroTail field) := by
  have hstem : (first ++ " " ++ second).toList = first.toList ++ ' ' :: second.toList := by simp
  have hfeed : '\n' ∉ (first ++ " " ++ second).toList := by
    rw [hstem, List.mem_append, List.mem_cons]
    rintro (h | h | h)
    · exact absurd (hfirst _ h) (by decide)
    · exact absurd h (by decide)
    · exact absurd (hsecond _ h) (by decide)
  rw [valueWord_render_eq_ok_iff hfeed hsuffix, toList_definition, hstem,
    Text.words_append_blank _ _ (by decide), List.append_assoc, List.append_assoc,
    List.cons_append, Text.words_append_blank _ _ (by decide), Text.words_eq_singleton hne hfirst,
    ← List.append_assoc second.toList, Text.words_append_blank _ _ (by decide),
    Text.words_eq_singleton (append_macroTail_ne_nil second.toList field)
      (isBlank_append_macroTail hsecond field)]
  rfl

/-- Behind a stem of two words nothing is read back: the second word is taken for the major
number. -/
theorem parse_render_twoWords {first second : String} (hne : first.toList ≠ [])
    (hfirst : ∀ c ∈ first.toList, Text.isBlank c = false)
    (hsecond : ∀ c ∈ second.toList, Text.isBlank c = false) {v : Version}
    (hsuffix : ∀ c ∈ v.suffix.toList, Text.isBlank c = false) :
    parse (render (first ++ " " ++ second) v) =
      .error ⟨.major, .notNumeral (second ++ "_VERSION_MAJOR")⟩ := by
  have hword := valueWord_render_twoWords hne hfirst hsecond hsuffix
  have hnumber : readNumber .major (second.toList ++ macroTail .major) =
      .error ⟨.major, .notNumeral (second ++ "_VERSION_MAJOR")⟩ := by
    have hnone := numeral?_eq_none (List.mem_append_right second.toList
      (show '_' ∈ macroTail .major by decide))
    have htext :
        String.ofList (second.toList ++ macroTail .major) = second ++ "_VERSION_MAJOR" := by
      rw [String.ofList_append, String.ofList_toList]
      rfl
    rw [readNumber, hnone, htext]
  rw [parse, hword .major, hword .minor, hword .patch, hword .suffix]
  show (readNumber .major _ >>= _) = _
  rw [hnumber]
  rfl

/-! ## The domain of the round trip -/

/-- **The domain of the round trip.**  The stems behind which every version with an accepted suffix
is read back are the safe ones, and behind a safe stem the versions that are read back are those
with an accepted suffix. -/
theorem parse_render_iff (stem : String) :
    ((∀ v, acceptsSuffix v.suffix = true → parse (render stem v) = .ok v) ↔ IsSafeStem stem) ∧
      (IsSafeStem stem →
        ∀ v, parse (render stem v) = .ok v ↔ acceptsSuffix v.suffix = true) := by
  refine ⟨⟨?_, fun hstem v => parse_render hstem⟩, fun hstem v => ⟨?_, parse_render hstem⟩⟩
  · intro hall
    apply Decidable.byContradiction
    intro hstem
    -- Two versions that differ in the major number cannot both come back.
    obtain ⟨n, hn⟩ := exists_parse_render_ne hstem
    by_cases hzero : n = 0
    · subst hzero
      exact hn ⟨1, 0, 0, ""⟩ (by decide) (hall _ rfl)
    · exact hn ⟨0, 0, 0, ""⟩ (Ne.symm hzero) (hall _ rfl)
  · exact acceptsSuffix_of_parse

/-- A stem of two words is not safe, and one behind a tab is. -/
example : ¬IsSafeStem "MY APP" ∧ IsSafeStem "\tAPP" := by decide

end Header

end VersionStamp
