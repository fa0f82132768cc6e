/-
# The words of a joined text

A blank ends one word and starts the next, so the words of a text come together from the words
on both sides of any blank in it.  The main facts:

* `words_append_blank` : a blank splits a text without touching its words;
* `words_blanks_append` : blanks in front belong to no word;
* `words_eq_singleton` : a text without blanks is one word.
-/
import VersionStamp.Text.Blank

namespace VersionStamp.Text

/-! ## Pieces between blanks -/

/-- No piece between two separators holds a separator. -/
theorem forall_mem_splitOnP {α : Type} (p : α → Bool) (cs : List α) :
    ∀ piece ∈ cs.splitOnP p, ∀ c ∈ piece, p c = false := by
  induction cs with
  | nil => simp
  | cons x rest ih =>
    rw [List.splitOnP_cons_eq_if_modifyHead]
    split
    · simpa using ih
    next hx =>
      cases hsplit : rest.splitOnP p with
      | nil => simp
      | cons first more =>
        rw [hsplit, List.forall_mem_cons] at ih
        rw [List.modifyHead_cons, List.forall_mem_cons, List.forall_mem_cons]
        exact ⟨⟨by simpa using hx, ih.1⟩, ih.2⟩

/-- No word holds a blank. -/
theorem isBlank_of_mem_words {cs w : List Char} (h : w ∈ words cs) :
    ∀ c ∈ w, isBlank c = false :=
  forall_mem_splitOnP isBlank cs w (List.mem_filter.1 h).1

/-- Whether a text is free of blanks can be told character by character. -/
theorem all_not_isBlank_iff {cs : List Char} :
    cs.all (!isBlank ·) = true ↔ ∀ c ∈ cs, isBlank c = false := by
  simp

/-! ## Joining texts -/

/-- The empty text has no words. -/
@[simp] theorem words_nil : words [] = [] := by
  simp [words]

/-- A blank parts the words in front of it from the words behind it. -/
theorem words_append_blank (front back : List Char) {c : Char} (hc : isBlank c = true) :
    words (front ++ c :: back) = words front ++ words back := by
  rw [words, List.splitOnP_append_cons front back hc, List.filter_append]
  rfl

/-- A blank in front belongs to no word. -/
theorem words_blank_cons {c : Char} (hc : isBlank c = true) (back : List Char) :
    words (c :: back) = words back := by
  have hsplit := words_append_blank [] back hc
  rwa [words_nil, List.nil_append, List.nil_append] at hsplit

/-- Blanks in front belong to no word. -/
theorem words_blanks_append {gap : List Char} (hgap : ∀ c ∈ gap, isBlank c = true)
    (back : List Char) : words (gap ++ back) = words back := by
  induction gap with
  | nil => rfl
  | cons c rest ih =>
    rw [List.cons_append, words_blank_cons (hgap c List.mem_cons_self)]
    exact ih fun d hd => hgap d (List.mem_cons_of_mem c hd)

/-- A text without blanks is one word, unless it is empty. -/
theorem words_eq_singleton {w : List Char} (hne : w ≠ []) (hw : ∀ c ∈ w, isBlank c = false) :
    words w = [w] := by
  rw [words, List.splitOnP_eq_singleton hw]
  simpa using hne

/-- A text with a character that is not blank has a word. -/
theorem words_ne_nil {cs : List Char} {c : Char} (hmem : c ∈ cs) (hc : isBlank c = false) :
    words cs ≠ [] := by
  induction cs with
  | nil => simp at hmem
  | cons d rest ih =>
    -- The part of the text up to its first blank decides, and the rest is left to induction.
    by_cases hd : isBlank d = true
    · have hrest : c ∈ rest := by
        rcases List.mem_cons.1 hmem with rfl | h
        · simp [hc] at hd
        · exact h
      rw [words_blank_cons hd]
      exact ih hrest
    · rw [words, List.splitOnP_cons_eq_if_modifyHead, if_neg hd]
      obtain ⟨first, more, hsplit⟩ := List.exists_cons_of_ne_nil (List.splitOnP_ne_nil isBlank rest)
      rw [hsplit, List.modifyHead_cons, List.filter_cons]
      simp

/-! ## Digits -/

/-- A digit is not a blank. -/
theorem isBlank_of_isDigit {c : Char} (h : c.isDigit = true) : isBlank c = false := by
  have hdigit : 48 ≤ c.toNat ∧ c.toNat ≤ 57 := by
    simpa [Char.isDigit, UInt32.le_iff_toNat_le] using h
  have houtside : ∀ range ∈ blankRanges, range.2 < 48 ∨ 57 < range.1 := by decide
  rw [isBlank, List.any_eq_false]
  intro range hrange
  rw [Bool.and_eq_true, decide_eq_true_iff, decide_eq_true_iff]
  have hrange := houtside range hrange
  omega

end VersionStamp.Text
