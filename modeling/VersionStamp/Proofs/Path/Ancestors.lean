/-
# The ancestors of a path

The ancestors of a path are the path itself and those of its parent.  A path that starts with a
slash keeps it on the way up, so all ancestors of an absolute path are absolute.
-/
import VersionStamp.Path

namespace VersionStamp

namespace Path

variable {p q : Path}

/-! ## Ancestors -/

/-- Behind a path with a parent come the ancestors of the parent. -/
theorem ancestors_of_parent? (h : p.parent? = some q) : p.ancestors = p :: q.ancestors := by
  rw [ancestors]
  split
  next hnone =>
    rw [h] at hnone
    cases hnone
  next r hsome =>
    rw [h] at hsome
    cases hsome
    rfl

/-- A path without a parent is its only ancestor. -/
theorem ancestors_of_parent?_eq_none (h : p.parent? = none) : p.ancestors = [p] := by
  rw [ancestors]
  split
  · rfl
  next r hsome =>
    rw [h] at hsome
    cases hsome

/-- A path is the first one of its ancestors. -/
theorem exists_ancestors_eq_cons (p : Path) : ∃ rest, p.ancestors = p :: rest := by
  cases h : p.parent? with
  | none => exact ⟨[], ancestors_of_parent?_eq_none h⟩
  | some q => exact ⟨q.ancestors, ancestors_of_parent? h⟩

/-! ## Absolute paths -/

/-- An absolute path is a slash and what stands behind it. -/
theorem isAbsolute_iff : p.isAbsolute = true ↔ ∃ rest, p.text.toList = '/' :: rest := by
  rw [isAbsolute, decide_eq_true_iff, List.head?_eq_some_iff]

/-- The parent of an absolute path is absolute. -/
theorem isAbsolute_of_parent? (hp : p.isAbsolute = true) (h : p.parent? = some q) :
    q.isAbsolute = true := by
  obtain ⟨rest, hrest⟩ := isAbsolute_iff.1 hp
  have hhead : head p.text.toList = ['/'] := by
    rw [hrest]
    rfl
  unfold parent? at h
  simp only [hhead] at h
  split at h
  · -- A path without components has a parent only if it is a single point.
    rw [if_neg (by decide)] at h
    cases h
  · rw [← Option.some.inj h]
    exact isAbsolute_iff.2 ⟨_, String.toList_ofList⟩

/-- All ancestors of an absolute path are absolute. -/
theorem isAbsolute_of_mem_ancestors {p q : Path} (hp : p.isAbsolute = true)
    (h : q ∈ p.ancestors) : q.isAbsolute = true := by
  cases hparent : p.parent? with
  | none =>
    rw [ancestors_of_parent?_eq_none hparent, List.mem_singleton] at h
    exact h ▸ hp
  | some r =>
    rw [ancestors_of_parent? hparent, List.mem_cons] at h
    rcases h with h | h
    · exact h ▸ hp
    · exact isAbsolute_of_mem_ancestors (isAbsolute_of_parent? hp hparent) h
termination_by p.text.toList.length
decreasing_by exact length_lt_of_parent? hparent

end Path

end VersionStamp
