/-
# Joining paths

A join keeps both of its texts: the second one alone if it is absolute, and else one behind the
other, with a slash between them unless the base is empty or ends in one already.  So it does not
matter in which order three paths are joined, even where some of them are empty.  The main facts:

* `isAbsolute_join_eq` : a join is absolute if one of its parts is;
* `withSlash_append` : the slash behind a join is the one behind its second part;
* `join_composes` : joins compose, and what a join looks like.
-/
import VersionStamp.Path

namespace VersionStamp

namespace Path

variable {base p : Path}

/-! ## The slash behind a base -/

/-- A text with a slash behind it is empty, or it ends in that slash. -/
theorem withSlash_eq_or (p : Path) :
    p.withSlash = "" ∨ p.withSlash.toList.getLast? = some '/' := by
  unfold withSlash
  split
  next hbare => exact hbare
  next hbare => exact Or.inr (by rw [String.toList_append, List.getLast?_append]; rfl)

/-- A slash is put behind a text once only. -/
theorem withSlash_withSlash (p : Path) : withSlash ⟨p.withSlash⟩ = p.withSlash :=
  if_pos p.withSlash_eq_or

/-- The slash behind two texts is the one behind the second, unless that is empty. -/
theorem withSlash_append (front : String) (hp : p.text ≠ "") :
    withSlash ⟨front ++ p.text⟩ = front ++ p.withSlash := by
  have hempty : front ++ p.text ≠ "" := fun h => hp (String.append_eq_empty_iff.1 h).2
  have hlast : (front ++ p.text).toList.getLast? = p.text.toList.getLast? := by
    rw [String.toList_append, List.getLast?_append]
    cases hcs : p.text.toList.getLast? with
    | none => exact absurd (String.toList_eq_nil_iff.1 (List.getLast?_eq_none_iff.1 hcs)) hp
    | some c => rfl
  simp only [withSlash, hempty, hlast, hp, false_or]
  split
  · rfl
  · rw [String.append_assoc]

/-! ## Joins -/

/-- An absolute path is seen in the same way from every base. -/
theorem join_of_isAbsolute (hp : p.isAbsolute = true) (base : Path) : base.join p = p :=
  if_pos hp

/-- A path that is not absolute stands behind the base from which it is seen. -/
theorem join_of_not_isAbsolute (hp : p.isAbsolute = false) (base : Path) :
    base.join p = ⟨base.withSlash ++ p.text⟩ := by
  rw [join, if_neg (by simp [hp])]

/-- From the empty path, every path is seen as it is. -/
theorem empty_join (p : Path) : join ⟨""⟩ p = p := by
  unfold join
  split
  · rfl
  · rw [withSlash, if_pos (Or.inl rfl), String.empty_append]

/-- A join is absolute if one of its parts is. -/
theorem isAbsolute_join_eq (base p : Path) :
    (base.join p).isAbsolute = (p.isAbsolute || base.isAbsolute) := by
  cases hp : p.isAbsolute with
  | true => rw [join_of_isAbsolute hp, hp, Bool.true_or]
  | false =>
    by_cases hempty : base.text = ""
    · obtain ⟨text⟩ := base
      cases hempty
      rw [empty_join, hp]
      rfl
    · -- The join starts with the character that the base starts with.
      obtain ⟨c, rest, hcs⟩ := List.exists_cons_of_ne_nil (mt String.toList_eq_nil_iff.1 hempty)
      rw [join_of_not_isAbsolute hp, isAbsolute, isAbsolute, withSlash]
      split <;> simp [hcs]

/-- What is joined onto an absolute path is absolute. -/
theorem isAbsolute_join (hbase : base.isAbsolute = true) (p : Path) :
    (base.join p).isAbsolute = true := by
  rw [isAbsolute_join_eq, hbase, Bool.or_true]

/-- Joins compose if the path in the middle is not absolute. -/
theorem join_join_of_not_isAbsolute {b c : Path} (hb : b.isAbsolute = false)
    (hc : c.isAbsolute = false) (a : Path) : (a.join b).join c = a.join (b.join c) := by
  have hbc : (b.join c).isAbsolute = false := by rw [isAbsolute_join_eq, hb, hc, Bool.or_false]
  rw [join_of_not_isAbsolute hc, join_of_not_isAbsolute hbc, join_of_not_isAbsolute hb,
    join_of_not_isAbsolute hc]
  by_cases hempty : b.text = ""
  · -- Nothing stands in the middle, so the slash behind the base is all that is put in front.
    have hslash : b.withSlash = "" := by rw [withSlash, if_pos (Or.inl hempty), hempty]
    rw [hempty, String.append_empty, withSlash_withSlash, hslash, String.empty_append]
  · rw [withSlash_append a.withSlash hempty, String.append_assoc]

/-- **Joins compose.**  Three paths give the same text in whichever order they are joined.  An
absolute path is what it is from every base, and every path is what it is from the empty base.  A
path that is not absolute stands behind its base, with one slash between them if the base is not
empty and does not end in a slash, and with nothing between them otherwise. -/
theorem join_composes (a b c : Path) :
    (a.join b).join c = a.join (b.join c) ∧
      (b.isAbsolute = true → a.join b = b) ∧
      join ⟨""⟩ b = b ∧
      (b.isAbsolute = false →
        (a.join b).text =
          a.text ++ (if a.text ≠ "" ∧ a.text.toList.getLast? ≠ some '/' then "/" else "") ++
            b.text) := by
  refine ⟨?_, fun hb => join_of_isAbsolute hb a, empty_join b, ?_⟩
  · cases hc : c.isAbsolute with
    | true => rw [join_of_isAbsolute hc, join_of_isAbsolute hc, join_of_isAbsolute hc]
    | false =>
      cases hb : b.isAbsolute with
      | true =>
        have hbc : (b.join c).isAbsolute = true := by rw [isAbsolute_join_eq, hb, Bool.or_true]
        rw [join_of_isAbsolute hb, join_of_isAbsolute hbc]
      | false => exact join_join_of_not_isAbsolute hb hc a
  · intro hb
    rw [join_of_not_isAbsolute hb, withSlash]
    simp only [ne_eq, ← not_or, ite_not]
    split
    · rw [String.append_empty]
    · rfl

/-- An empty path in the middle leaves a slash, and no second one is put behind it. -/
theorem join_of_empty_middle :
    isAbsolute ⟨""⟩ = false ∧ (join ⟨"proj"⟩ ⟨""⟩).text = "proj/" ∧
      join (join ⟨"proj"⟩ ⟨""⟩) ⟨"src/"⟩ = join ⟨"proj"⟩ ⟨"src/"⟩ := by
  obtain ⟨hassoc, -, -, hgap⟩ := join_composes ⟨"proj"⟩ ⟨""⟩ ⟨"src/"⟩
  refine ⟨rfl, ?_, ?_⟩
  · rw [hgap rfl]
    decide
  · rw [hassoc]
    exact congrArg (join ⟨"proj"⟩) (empty_join ⟨"src/"⟩)

end Path

end VersionStamp
