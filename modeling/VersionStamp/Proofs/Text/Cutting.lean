/-
# How texts are cut

A text is cut at its ends when the blanks around it are left out, at the first character of a kind,
and at every occurrence of a character.  Each cut is told by what it leaves: the parts make up the
text, and none of them could have been cut further.  The main facts:

* `trim_eq_iff` : a text without the blanks on both sides;
* `takeWhile_append_eq`, `dropWhile_append_eq` : a text up to the first character of a kind;
* `splitOn_eq_iff` : the pieces of a text between separators.
-/
import VersionStamp.Proofs.Text.Words

namespace VersionStamp.Text

/-! ## The first character of a kind -/

section

variable {α : Type} {p : α → Bool} {run rest : List α}

/-- A run ends where the first item of another kind stands. -/
theorem takeWhile_append_eq (hrun : ∀ c ∈ run, p c = true)
    (hrest : ∀ c, rest.head? = some c → p c = false) : (run ++ rest).takeWhile p = run := by
  rw [List.takeWhile_append_of_pos hrun]
  cases rest with
  | nil => rw [List.takeWhile_nil, List.append_nil]
  | cons c more => simp [hrest c rfl]

/-- Behind a run comes the first item of another kind, or nothing. -/
theorem dropWhile_append_eq (hrun : ∀ c ∈ run, p c = true)
    (hrest : ∀ c, rest.head? = some c → p c = false) : (run ++ rest).dropWhile p = rest := by
  rw [List.dropWhile_append_of_pos hrun]
  cases rest with
  | nil => rfl
  | cons c more => simp [hrest c rfl]

/-- What is left behind a run starts with an item of another kind. -/
theorem head?_dropWhile_eq_false {cs : List α} {c : α} (h : (cs.dropWhile p).head? = some c) :
    p c = false := by
  have hstop := List.head?_dropWhile_not p cs
  rwa [h] at hstop

end

/-! ## Blanks around a text -/

/-- A text that neither starts nor ends with a blank. -/
def IsTrimmed (cs : List Char) : Prop :=
  (∀ c, cs.head? = some c → isBlank c = false) ∧ ∀ c, cs.getLast? = some c → isBlank c = false

/-- Blanks around a trimmed text are left out. -/
theorem trim_append {front body back : List Char} (hfront : ∀ c ∈ front, isBlank c = true)
    (hback : ∀ c ∈ back, isBlank c = true) (hbody : IsTrimmed body) :
    trim (front ++ body ++ back) = body := by
  obtain ⟨hhead, hlast⟩ := hbody
  have hend : trimEnd (body ++ back) = body := by
    have hreverse : ∀ c ∈ back.reverse, isBlank c = true := by simpa using hback
    rw [trimEnd, trimStart, List.reverse_append,
      dropWhile_append_eq hreverse (by simpa using hlast), List.reverse_reverse]
  rw [trim, trimStart, List.append_assoc, List.dropWhile_append_of_pos hfront]
  cases body with
  | nil =>
    have hnone : (back ++ []).dropWhile isBlank = [] := dropWhile_append_eq hback nofun
    rw [List.append_nil] at hnone
    rw [List.nil_append, hnone]
    rfl
  | cons c rest =>
    have hstart : List.dropWhile isBlank (c :: rest ++ back) = c :: rest ++ back := by
      simp [hhead c rfl]
    rw [hstart, hend]

/-- In front of what is left of a text stand the blanks that were left out. -/
theorem takeWhile_append_trimStart (cs : List Char) : cs.takeWhile isBlank ++ trimStart cs = cs :=
  List.takeWhile_append_dropWhile

/-- Nothing but blanks is left out, and no blank is left at the ends. -/
theorem exists_trim_append (cs : List Char) :
    ∃ front back, cs = front ++ trim cs ++ back ∧ (∀ c ∈ front, isBlank c = true) ∧
      (∀ c ∈ back, isBlank c = true) ∧ IsTrimmed (trim cs) := by
  have hback : trimStart cs = trim cs ++ ((trimStart cs).reverse.takeWhile isBlank).reverse := by
    rw [trim, trimEnd, ← List.reverse_append, takeWhile_append_trimStart, List.reverse_reverse]
  refine ⟨cs.takeWhile isBlank, ((trimStart cs).reverse.takeWhile isBlank).reverse, ?_,
    List.all_eq_true.1 List.all_takeWhile, ?_, ?_, ?_⟩
  · rw [List.append_assoc, ← hback, takeWhile_append_trimStart]
  · intro c hc
    exact List.all_eq_true.1 List.all_takeWhile c (List.mem_reverse.1 hc)
  · intro c hc
    have hstart : (trimStart cs).head? = some c := by
      rw [hback, List.head?_append, hc]
      rfl
    exact head?_dropWhile_eq_false hstart
  · intro c hc
    rw [trim, trimEnd, List.getLast?_reverse] at hc
    exact head?_dropWhile_eq_false hc

/-- **A text is trimmed by leaving out the blanks around it.** -/
theorem trim_eq_iff {cs body : List Char} :
    trim cs = body ↔ ∃ front back, cs = front ++ body ++ back ∧ (∀ c ∈ front, isBlank c = true) ∧
      (∀ c ∈ back, isBlank c = true) ∧ IsTrimmed body := by
  constructor
  · rintro rfl
    exact exists_trim_append cs
  · rintro ⟨front, back, rfl, hfront, hback, hbody⟩
    exact trim_append hfront hback hbody

/-! ## Pieces between separators -/

/-- **A text is split at a separator** into the pieces that give the text when they are joined, and
that do not hold the separator. -/
theorem splitOn_eq_iff {x : Char} {cs : List Char} {pieces : List (List Char)} (hne : pieces ≠ []) :
    cs.splitOn x = pieces ↔ cs = [x].intercalate pieces ∧ ∀ piece ∈ pieces, x ∉ piece := by
  constructor
  · rintro rfl
    refine ⟨(List.intercalate_splitOn x).symm, ?_⟩
    intro piece hpiece hmem
    have hout := forall_mem_splitOnP (· == x) cs piece hpiece x hmem
    simp at hout
  · rintro ⟨rfl, hout⟩
    exact List.splitOn_intercalate x hout hne

end VersionStamp.Text
