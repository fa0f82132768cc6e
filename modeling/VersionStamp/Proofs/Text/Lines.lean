/-
# The lines of a joined text

The first line feed of a text ends its first line, whatever stands behind it.  So what is said of
all texts is shown line by line, by `lineInduction`.
-/
import VersionStamp.Text.Line

namespace VersionStamp.Text

/-- A line without the carriage return that belongs to its line end. -/
def withoutReturn (line : List Char) : List Char :=
  if line.getLast? = some '\r' then line.dropLast else line

/-- A carriage return at the end of a line belongs to the line end. -/
theorem withoutReturn_append_return (line : List Char) :
    withoutReturn (line ++ ['\r']) = line := by
  rw [withoutReturn, List.getLast?_concat, if_pos rfl, List.dropLast_concat]

/-- A line that does not end in a carriage return is kept as it is. -/
theorem withoutReturn_eq_self {line : List Char} (h : line.getLast? ≠ some '\r') :
    withoutReturn line = line :=
  if_neg h

/-- Only a carriage return that is the whole line is dropped from its front. -/
theorem withoutReturn_cons {c : Char} {rest : List Char} (h : ¬(c = '\r' ∧ rest = [])) :
    withoutReturn (c :: rest) = c :: withoutReturn rest := by
  unfold withoutReturn
  cases rest with
  | nil =>
    have hc : c ≠ '\r' := fun hr => h ⟨hr, rfl⟩
    simp [hc]
  | cons d more =>
    rw [List.getLast?_cons_cons, List.dropLast_cons_cons]
    split <;> rfl

/-- A character that neither is nor starts a line end goes in front of the first line. -/
theorem lines_cons {c : Char} {rest : List Char} (hfeed : c ≠ '\n')
    (hreturn : c = '\r' → rest.head? ≠ some '\n') :
    lines (c :: rest) =
      match lines rest with
      | [] => [[c]]
      | line :: more => (c :: line) :: more := by
  have hreturnFeed : ∀ more, c = '\r' → rest = '\n' :: more → False := by
    rintro more rfl rfl
    exact hreturn rfl rfl
  exact lines.eq_4 c rest hfeed hreturnFeed

/-- A text without line feeds is one line, unless it is empty. -/
theorem lines_eq_singleton {cs : List Char} (hne : cs ≠ []) (h : '\n' ∉ cs) : lines cs = [cs] := by
  induction cs with
  | nil => exact absurd rfl hne
  | cons c rest ih =>
    rw [List.mem_cons, not_or] at h
    obtain ⟨hc, hrest⟩ := h
    have hhead : rest.head? ≠ some '\n' := fun hr => hrest (List.mem_of_mem_head? hr)
    rw [lines_cons (Ne.symm hc) fun _ => hhead]
    cases rest with
    | nil => simp
    | cons d more => rw [ih (List.cons_ne_nil d more) hrest]

/-- The first line feed of a text ends its first line. -/
theorem lines_append_lineFeed {front : List Char} (h : '\n' ∉ front) (back : List Char) :
    lines (front ++ '\n' :: back) = withoutReturn front :: lines back := by
  induction front with
  | nil => simp [withoutReturn]
  | cons c rest ih =>
    rw [List.mem_cons, not_or] at h
    obtain ⟨hc, hrest⟩ := h
    by_cases hreturn : c = '\r' ∧ rest = []
    · obtain ⟨rfl, rfl⟩ := hreturn
      simp [withoutReturn]
    -- Behind a character of another kind the first line is that of the rest, one longer.
    · have hhead : c = '\r' → (rest ++ '\n' :: back).head? ≠ some '\n' := by
        intro hr
        cases rest with
        | nil => exact absurd ⟨hr, rfl⟩ hreturn
        | cons d more =>
          have hd : d ≠ '\n' := fun hd => hrest (hd ▸ List.mem_cons_self)
          simpa using hd
      rw [List.cons_append, lines_cons (Ne.symm hc) hhead, ih hrest, withoutReturn_cons hreturn]

/-! ## Texts, line by line -/

/-- A text is one line without a line feed, or such a line, a line feed, and the rest. -/
@[elab_as_elim]
theorem lineInduction {motive : List Char → Prop} (unended : ∀ line, '\n' ∉ line → motive line)
    (feed : ∀ line rest, '\n' ∉ line → motive rest → motive (line ++ '\n' :: rest))
    (cs : List Char) : motive cs := by
  by_cases hfeed : '\n' ∈ cs
  · obtain ⟨line, rest, hcs, hline⟩ := List.eq_append_cons_of_mem hfeed
    have hrest := lineInduction unended feed rest
    rw [hcs]
    exact feed line rest hline hrest
  · exact unended cs hfeed
termination_by cs.length
decreasing_by
  rw [hcs, List.length_append, List.length_cons]
  omega

end VersionStamp.Text
