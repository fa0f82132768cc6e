/-
# How lines, words and numbers are spelled

A text is read into lines, words and numbers by programs.  Here it is said, without any program,
which texts spell a list of lines, a list of words, or a number; and a program finds exactly what
is spelled:

* `lines_eq_iff` : lines that end at a line feed, with or without a carriage return before it;
* `words_eq_iff` : words with blanks between any two of them;
* `numeral?_eq_some_iff` : digits behind an optional plus sign.
-/
import VersionStamp.Proofs.Text.Lines
import VersionStamp.Proofs.Text.Words
import VersionStamp.Text.Numeral

namespace VersionStamp.Text

/-! ## Lines -/

/-- A text spells a list of lines.  Every line but the last one ends at a line feed, to which one
carriage return in front of it belongs; the last line may also end with the text. -/
inductive SpellsLines : List Char → List (List Char) → Prop where
  | nil : SpellsLines [] []
  | unended {line : List Char} (hne : line ≠ []) (hline : '\n' ∉ line) : SpellsLines line [line]
  | feed {line rest : List Char} {more : List (List Char)} (hline : '\n' ∉ line)
      (hreturn : line.getLast? ≠ some '\r') (hrest : SpellsLines rest more) :
      SpellsLines (line ++ '\n' :: rest) (line :: more)
  | returnFeed {line rest : List Char} {more : List (List Char)} (hline : '\n' ∉ line)
      (hrest : SpellsLines rest more) : SpellsLines (line ++ '\r' :: '\n' :: rest) (line :: more)

/-- The lines that a text spells are found in it. -/
theorem lines_of_spellsLines {cs : List Char} {found : List (List Char)}
    (h : SpellsLines cs found) : lines cs = found := by
  induction h with
  | nil => exact lines_nil
  | unended hne hline => exact lines_eq_singleton hne hline
  | feed hline hreturn _ ih =>
    rw [lines_append_lineFeed hline, withoutReturn_eq_self hreturn, ih]
  | @returnFeed line rest more hline _ ih =>
    have hfront : '\n' ∉ line ++ ['\r'] := by
      rw [List.mem_append]
      rintro (h | h)
      · exact hline h
      · exact absurd h (by decide)
    have hsplit := lines_append_lineFeed hfront rest
    rw [withoutReturn_append_return, List.append_assoc, ih] at hsplit
    exact hsplit

/-- Every text spells the lines that are found in it. -/
theorem spellsLines_lines (cs : List Char) : SpellsLines cs (lines cs) := by
  induction cs using lineInduction with
  | unended line hline =>
    cases line with
    | nil => exact lines_nil ▸ .nil
    | cons c rest =>
      rw [lines_eq_singleton (List.cons_ne_nil c rest) hline]
      exact .unended (List.cons_ne_nil c rest) hline
  | feed front back hfront ih =>
    rw [lines_append_lineFeed hfront]
    by_cases hreturn : front.getLast? = some '\r'
    · obtain ⟨line, hline⟩ := List.getLast?_eq_some_iff.1 hreturn
      rw [hline] at hfront ⊢
      rw [withoutReturn_append_return, List.append_assoc]
      exact .returnFeed (fun h => hfront (List.mem_append_left _ h)) ih
    · rw [withoutReturn_eq_self hreturn]
      exact .feed hfront hreturn ih

/-- **The lines of a text are the lines that it spells.** -/
theorem lines_eq_iff {cs : List Char} {found : List (List Char)} :
    lines cs = found ↔ SpellsLines cs found := by
  constructor
  · rintro rfl
    exact spellsLines_lines cs
  · exact lines_of_spellsLines

/-! ## Words -/

/-- A text spells a list of words.  A word is a run of characters that are not blank; blanks may
stand in front of it, and one must stand behind it unless the text ends there. -/
inductive SpellsWords : List Char → List (List Char) → Prop where
  | blanks {gap : List Char} (hgap : ∀ c ∈ gap, isBlank c = true) : SpellsWords gap []
  | word {gap word rest : List Char} {more : List (List Char)}
      (hgap : ∀ c ∈ gap, isBlank c = true) (hne : word ≠ [])
      (hword : ∀ c ∈ word, isBlank c = false) (hend : ∀ c, rest.head? = some c → isBlank c = true)
      (hrest : SpellsWords rest more) : SpellsWords (gap ++ word ++ rest) (word :: more)

/-- A word in front is the first one, if it ends at a blank or with the text. -/
theorem words_word_append {word rest : List Char} (hne : word ≠ [])
    (hword : ∀ c ∈ word, isBlank c = false) (hend : ∀ c, rest.head? = some c → isBlank c = true) :
    words (word ++ rest) = word :: words rest := by
  cases rest with
  | nil => rw [List.append_nil, words_eq_singleton hne hword, words_nil]
  | cons c more =>
    have hblank := hend c rfl
    rw [words_append_blank word more hblank, words_blank_cons hblank, words_eq_singleton hne hword]
    rfl

/-- The words that a text spells are found in it. -/
theorem words_of_spellsWords {cs : List Char} {found : List (List Char)}
    (h : SpellsWords cs found) : words cs = found := by
  induction h with
  | @blanks gap hgap =>
    have hwords := words_blanks_append hgap []
    rwa [List.append_nil, words_nil] at hwords
  | word hgap hne hword hend _ ih =>
    rw [List.append_assoc, words_blanks_append hgap, words_word_append hne hword hend, ih]

/-- Every text starts with a longest run of characters of one kind, which may be empty. -/
theorem exists_run_append (p : Char → Bool) (cs : List Char) :
    ∃ run rest, cs = run ++ rest ∧ (∀ c ∈ run, p c = true) ∧
      ∀ c, rest.head? = some c → p c = false := by
  refine ⟨cs.takeWhile p, cs.dropWhile p, List.takeWhile_append_dropWhile.symm,
    List.all_eq_true.1 List.all_takeWhile, ?_⟩
  intro c hc
  have hstop := List.head?_dropWhile_not p cs
  rw [hc] at hstop
  simpa using hstop

/-- Every text spells the words that are found in it. -/
theorem spellsWords_words (cs : List Char) : SpellsWords cs (words cs) := by
  -- The blanks in front, then the first word, then the rest.
  obtain ⟨gap, body, hcs, hgap, hbody⟩ := exists_run_append isBlank cs
  obtain ⟨word, rest, hsplit, hword, hrest⟩ := exists_run_append (!isBlank ·) body
  have hword : ∀ c ∈ word, isBlank c = false := fun c hc => by simpa using hword c hc
  have hend : ∀ c, rest.head? = some c → isBlank c = true := fun c hc => by
    simpa using hrest c hc
  by_cases hne : word = []
  · -- Neither a blank nor anything else comes behind the blanks in front.
    have hnil : body = [] := by
      rw [hne, List.nil_append] at hsplit
      cases body with
      | nil => rfl
      | cons c more =>
        have hblank := hend c (by rw [← hsplit]; rfl)
        rw [hbody c rfl] at hblank
        cases hblank
    rw [hnil, List.append_nil] at hcs
    have hwords := words_blanks_append hgap []
    rw [List.append_nil, words_nil] at hwords
    rw [hcs, hwords]
    exact .blanks hgap
  · have hspelled := spellsWords_words rest
    rw [hsplit] at hcs
    rw [hcs, words_blanks_append hgap, words_word_append hne hword hend, ← List.append_assoc]
    exact .word hgap hne hword hend hspelled
termination_by cs.length
decreasing_by
  have hpos := List.length_pos_iff.2 hne
  rw [hcs, hsplit, List.length_append, List.length_append]
  omega

/-- **The words of a text are the words that it spells.** -/
theorem words_eq_iff {cs : List Char} {found : List (List Char)} :
    words cs = found ↔ SpellsWords cs found := by
  constructor
  · rintro rfl
    exact spellsWords_words cs
  · exact words_of_spellsWords

/-! ## Numbers -/

/-- A text spells a number: one or more decimal digits behind an optional plus sign, of which any
number may be leading zeros. -/
def SpellsNumber (cs : List Char) (n : UInt32) : Prop :=
  ∃ sign digits, cs = sign ++ digits ∧ (sign = [] ∨ sign = ['+']) ∧ digits ≠ [] ∧
    (∀ c ∈ digits, c.isDigit = true) ∧ Nat.ofDigitChars 10 digits 0 = n.toNat

/-- A plus sign in front of digits is left out, and nothing else is. -/
theorem unsigned_sign_append {sign digits : List Char} (hsign : sign = [] ∨ sign = ['+'])
    (hdigit : ∀ c ∈ digits, c.isDigit = true) : unsigned (sign ++ digits) = digits := by
  rcases hsign with rfl | rfl
  · unfold unsigned
    split
    next rest h =>
      have hplus : '+' ∈ digits := by
        rw [List.nil_append] at h
        exact h ▸ List.mem_cons_self
      exact absurd (hdigit '+' hplus) (by decide)
    · rfl
  · rfl

/-- Every text is a sign, which may be missing, and what is behind it. -/
theorem exists_sign_append (cs : List Char) :
    ∃ sign, cs = sign ++ unsigned cs ∧ (sign = [] ∨ sign = ['+']) := by
  unfold unsigned
  split
  next digits => exact ⟨['+'], rfl, Or.inr rfl⟩
  · exact ⟨[], rfl, Or.inl rfl⟩

/-- **The number of a text is the number that it spells**, and there is none for a text that spells
no number. -/
theorem numeral?_eq_some_iff {cs : List Char} {n : UInt32} :
    numeral? cs = some n ↔ SpellsNumber cs n := by
  unfold numeral? SpellsNumber
  constructor
  · intro h
    split at h
    next hnumeral =>
      obtain ⟨hne, hdigit, hlt⟩ := hnumeral
      obtain ⟨sign, hcs, hsign⟩ := exists_sign_append cs
      refine ⟨sign, unsigned cs, hcs, hsign, hne, hdigit, ?_⟩
      rw [← Option.some.inj h, UInt32.toNat_ofNat_of_lt' hlt]
    · cases h
  · rintro ⟨sign, digits, rfl, hsign, hne, hdigit, hvalue⟩
    have hunsigned := unsigned_sign_append hsign hdigit
    have hnumeral : IsNumeral (sign ++ digits) := by
      rw [IsNumeral, hunsigned, hvalue]
      exact ⟨hne, hdigit, n.toNat_lt⟩
    rw [if_pos hnumeral, hunsigned, hvalue, UInt32.ofNat_toNat]

/-- Nothing but digits and a plus sign is found in the spelling of a number. -/
theorem not_mem_of_spellsNumber {cs : List Char} {n : UInt32} (h : SpellsNumber cs n)
    {c : Char} (hdigit : c.isDigit = false) (hplus : c ≠ '+') : c ∉ cs := by
  obtain ⟨sign, digits, rfl, hsign, -, hdigits, -⟩ := h
  rw [List.mem_append, not_or]
  constructor
  · rcases hsign with rfl | rfl
    · exact List.not_mem_nil
    · simpa using hplus
  · intro hmem
    rw [hdigits c hmem] at hdigit
    cases hdigit

end VersionStamp.Text
