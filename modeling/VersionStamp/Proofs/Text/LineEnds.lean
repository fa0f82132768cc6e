/-
# Line ends and the words on lines

A carriage return is a blank.  So it makes no difference to the words on a line whether a carriage
return stands at its end, and whether it belongs to the line end or not.  The main facts:

* `lineWords_append_lineFeed` : the first line feed ends the first line, with all of its words;
* `lineWords_withReturns` : carriage returns in front of all line feeds change no words;
* `lineWords_prefix_append` : text behind a further line feed is on lines of its own.
-/
import VersionStamp.Proofs.Text.Lines
import VersionStamp.Proofs.Text.Words

namespace VersionStamp.Text

/-! ## Words on lines -/

/-- The words on each of the lines of a text. -/
def lineWords (cs : List Char) : List (List (List Char)) :=
  (lines cs).map words

/-- A carriage return behind a text belongs to no word. -/
theorem words_append_return (cs : List Char) : words (cs ++ ['\r']) = words cs := by
  have hsplit := words_append_blank cs [] (by decide : isBlank '\r' = true)
  rwa [words_nil, List.append_nil] at hsplit

/-- No word is lost with the carriage return that belongs to a line end. -/
theorem words_withoutReturn (line : List Char) : words (withoutReturn line) = words line := by
  by_cases hreturn : line.getLast? = some '\r'
  · obtain ⟨front, rfl⟩ := List.getLast?_eq_some_iff.1 hreturn
    rw [withoutReturn_append_return, words_append_return]
  · rw [withoutReturn_eq_self hreturn]

/-- The words in front of the first line feed are those on the first line. -/
theorem lineWords_append_lineFeed {line : List Char} (h : '\n' ∉ line) (rest : List Char) :
    lineWords (line ++ '\n' :: rest) = words line :: lineWords rest := by
  rw [lineWords, lines_append_lineFeed h, List.map_cons, words_withoutReturn]
  rfl

/-! ## Carriage returns in front of line feeds -/

/-- A text with a carriage return put in front of every line feed. -/
def withReturns (cs : List Char) : List Char :=
  cs.flatMap fun c => if c = '\n' then ['\r', '\n'] else [c]

/-- A text without line feeds is left as it is. -/
theorem withReturns_eq_self {cs : List Char} (h : '\n' ∉ cs) : withReturns cs = cs := by
  induction cs with
  | nil => rfl
  | cons c rest ih =>
    rw [List.mem_cons, not_or] at h
    obtain ⟨hc, hrest⟩ := h
    rw [withReturns, List.flatMap_cons, if_neg (Ne.symm hc)]
    exact congrArg (c :: ·) (ih hrest)

/-- The first line feed gets its carriage return, and so do those behind it. -/
theorem withReturns_append_lineFeed {line : List Char} (h : '\n' ∉ line) (rest : List Char) :
    withReturns (line ++ '\n' :: rest) = line ++ ['\r'] ++ '\n' :: withReturns rest := by
  have hline : withReturns line = line := withReturns_eq_self h
  rw [withReturns, List.flatMap_append, List.flatMap_cons, if_pos rfl, List.append_assoc]
  exact congrArg (· ++ '\r' :: '\n' :: withReturns rest) hline

/-- **Carriage returns in front of line feeds change no words**, and move none to another line. -/
theorem lineWords_withReturns (cs : List Char) : lineWords (withReturns cs) = lineWords cs := by
  induction cs using lineInduction with
  | unended line hline => rw [withReturns_eq_self hline]
  | feed line rest hline ih =>
    have hreturn : '\n' ∉ line ++ ['\r'] := by
      simpa using hline
    rw [withReturns_append_lineFeed hline, lineWords_append_lineFeed hreturn, words_append_return,
      lineWords_append_lineFeed hline, ih]

/-! ## Text behind a line feed -/

/-- **Text behind a further line feed is on lines of its own**: it changes no words in front. -/
theorem lineWords_prefix_append (cs more : List Char) :
    lineWords cs <+: lineWords (cs ++ '\n' :: more) := by
  induction cs using lineInduction with
  | unended line hline =>
    rw [lineWords_append_lineFeed hline]
    by_cases hne : line = []
    · rw [hne, lineWords, lines_nil]
      exact List.nil_prefix
    · rw [lineWords, lines_eq_singleton hne hline]
      exact List.prefix_append [words line] (lineWords more)
  | feed line rest hline ih =>
    rw [List.append_assoc, List.cons_append, lineWords_append_lineFeed hline,
      lineWords_append_lineFeed hline]
    exact List.cons_prefix_cons.2 ⟨rfl, ih⟩

end VersionStamp.Text
