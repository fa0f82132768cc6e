/-
# The steps of a path

The steps of a path are its pieces that lead somewhere: empty pieces and single points do not,
except a single point in front.  Slashes and points can be put into a path or left out without
changing its steps, and the parent of a path is found by leaving out the last of them.  So the
ancestors of a path are told by its steps.  The main facts:

* `parent?_cases` : a parent has all steps of the path but the last;
* `isWayUp_ancestors` : the ancestors have the initial parts of the steps, from all to none, and end
  at the root or at the empty path;
* `ancestors_suffix`, `nodup_ancestors` : the ancestors of an ancestor are the last ones of the
  path, and none of them comes twice.
-/
import Mathlib.Data.List.DropRight
import Mathlib.Data.List.Infix
import VersionStamp.Proofs.Path.Ancestors
import VersionStamp.Proofs.Text.Cutting

namespace VersionStamp

namespace Path

variable {p q : Path}

/-- The steps that lead along a path. -/
def steps (p : Path) : List (List Char) :=
  match p.text.toList.splitOn '/' with
  | [] => []
  | first :: rest => [first].filter (· ≠ []) ++ rest.filter (!isIdle ·)

/-! ## Pieces -/

/-- An idle piece at the end is dropped, and any other one ends the dropping. -/
theorem dropIdle_append_singleton (front : List (List Char)) (last : List Char) :
    dropIdle (front ++ [last]) = if isIdle last then dropIdle front else front ++ [last] :=
  List.rdropWhile_concat isIdle front last

/-- Dropping the idle pieces at the end leaves all that are not idle. -/
theorem filter_dropIdle (pieces : List (List Char)) :
    (dropIdle pieces).filter (!isIdle ·) = pieces.filter (!isIdle ·) := by
  induction pieces using List.reverseRecOn with
  | nil => rfl
  | append_singleton front last ih =>
    rw [dropIdle_append_singleton]
    split
    next hidle =>
      rw [ih, List.filter_append, List.filter_singleton, hidle]
      simp
    next => rfl

/-- Pieces are all dropped if none of them is more than idle. -/
theorem dropIdle_eq_nil_iff {pieces : List (List Char)} :
    dropIdle pieces = [] ↔ pieces.filter (!isIdle ·) = [] := by
  change List.rdropWhile isIdle pieces = [] ↔ _
  rw [List.rdropWhile_eq_nil_iff, List.filter_eq_nil_iff]
  simp

/-- What is left of pieces ends in one that is not idle, so nothing is left without such a one. -/
theorem dropIdle_eq_nil_of_filter (pieces : List (List Char))
    (h : (dropIdle pieces).filter (!isIdle ·) = []) : dropIdle pieces = [] := by
  rwa [filter_dropIdle, ← dropIdle_eq_nil_iff] at h

/-- Leaving out the last of the pieces that are not idle, with all idle ones around it, leaves the
other pieces that are not idle. -/
theorem exists_dropLast_append {pieces : List (List Char)} (h : dropIdle pieces ≠ []) :
    ∃ back last, dropIdle (dropIdle pieces).dropLast ++ back = pieces ∧
      pieces.filter (!isIdle ·) =
        (dropIdle (dropIdle pieces).dropLast).filter (!isIdle ·) ++ [last] := by
  obtain ⟨idle, hidle⟩ := exists_dropIdle_append pieces
  obtain ⟨rest, hrest⟩ := exists_dropIdle_append (dropIdle pieces).dropLast
  have hlast := isIdle_getLast_dropIdle h
  have hkept := List.dropLast_concat_getLast h
  refine ⟨rest ++ [(dropIdle pieces).getLast h] ++ idle, (dropIdle pieces).getLast h, ?_, ?_⟩
  · rw [← List.append_assoc, ← List.append_assoc, hrest, hkept, hidle]
  · calc pieces.filter (!isIdle ·)
        = (dropIdle pieces).filter (!isIdle ·) := (filter_dropIdle pieces).symm
      _ = ((dropIdle pieces).dropLast ++ [(dropIdle pieces).getLast h]).filter (!isIdle ·) := by
          rw [hkept]
      _ = (dropIdle pieces).dropLast.filter (!isIdle ·) ++ [(dropIdle pieces).getLast h] := by
          rw [List.filter_append, List.filter_singleton, hlast]
          rfl
      _ = _ := by rw [filter_dropIdle]

/-- The join of the first pieces stands in front of the join of all. -/
theorem intercalate_prefix (sep : List Char) (front back : List (List Char)) :
    sep.intercalate front <+: sep.intercalate (front ++ back) := by
  induction front with
  | nil => exact List.nil_prefix
  | cons piece rest ih =>
    cases rest with
    | nil =>
      cases back with
      | nil => exact List.prefix_rfl
      | cons next more =>
        rw [List.intercalate_singleton, List.singleton_append, List.intercalate_cons_cons,
          List.append_assoc]
        exact List.prefix_append _ _
    | cons next more =>
      rw [List.cons_append, List.cons_append, List.intercalate_cons_cons,
        List.intercalate_cons_cons]
      exact (List.prefix_append_right_inj _).2 ih

/-! ## What stands in front -/

/-- Nothing stands in front of the body unless the path starts with a slash, or with a single point
that is followed by a slash or by nothing. -/
theorem head_eq_nil_iff {cs : List Char} :
    head cs = [] ↔
      (∀ rest, cs ≠ '/' :: rest) ∧ cs ≠ ['.'] ∧ ∀ rest, cs ≠ '.' :: '/' :: rest := by
  unfold head
  split
  · simp
  · simp
  · simp
  next hslash hpoint hpointSlash => exact iff_of_true rfl ⟨hslash, hpoint, hpointSlash⟩

/-- In front of the body stands nothing, a slash or a single point. -/
theorem head_eq_or (cs : List Char) : head cs = [] ∨ head cs = ['/'] ∨ head cs = ['.'] := by
  unfold head
  split <;> simp

/-- A path starts with a slash, or with a point that is a step, or it is all body. -/
theorem head_cases (cs : List Char) :
    (∃ rest, cs = '/' :: rest) ∨ cs = ['.'] ∨ (∃ rest, cs = '.' :: '/' :: rest) ∨ head cs = [] := by
  unfold head
  split <;> simp

/-- A path in front of whose body nothing stands is its own body. -/
theorem body_eq_self {cs : List Char} (hhead : head cs = []) : body cs = cs := by
  rw [body, hhead]
  rfl

/-- Nothing stands in front of the body of a front part either, unless it is a single point. -/
theorem head_eq_nil_of_prefix {cs front : List Char} (hpre : front <+: cs)
    (hhead : head cs = []) (hfront : front ≠ ['.']) : head front = [] := by
  obtain ⟨hslash, -, hpointSlash⟩ := head_eq_nil_iff.1 hhead
  obtain ⟨behind, hbehind⟩ := hpre
  refine head_eq_nil_iff.2 ⟨?_, hfront, ?_⟩
  · rintro rest rfl
    exact hslash _ hbehind.symm
  · rintro rest rfl
    exact hpointSlash _ hbehind.symm

/-- A single point in front of all body is no piece of its own. -/
theorem first_ne_point {cs first : List Char} {rest : List (List Char)} (hhead : head cs = [])
    (hsplit : cs.splitOn '/' = first :: rest) : first ≠ ['.'] := by
  rintro rfl
  obtain ⟨-, hpoint, hpointSlash⟩ := head_eq_nil_iff.1 hhead
  have hcs : cs = ['/'].intercalate (['.'] :: rest) := by rw [← hsplit, List.intercalate_splitOn]
  cases rest with
  | nil => exact hpoint hcs
  | cons next more =>
    rw [List.intercalate_cons_cons] at hcs
    exact hpointSlash _ hcs

/-- The steps are the point in front, if there is one, and the pieces of the body that are not
idle. -/
theorem steps_eq (p : Path) :
    p.steps = (if head p.text.toList = ['.'] then [['.']] else []) ++
      ((body p.text.toList).splitOn '/').filter (!isIdle ·) := by
  unfold steps
  generalize p.text.toList = cs
  rcases head_cases cs with ⟨rest, rfl⟩ | rfl | ⟨rest, rfl⟩ | hhead
  · simp [head, body, List.splitOn_cons_eq_if_modifyHead]
  · decide
  · simp [head, body, List.splitOn_cons_eq_if_modifyHead, isIdle]
  · obtain ⟨first, rest, hsplit⟩ := List.exists_cons_of_ne_nil (List.splitOn_ne_nil '/' cs)
    have hfirst := first_ne_point hhead hsplit
    rw [body_eq_self hhead, hsplit, hhead]
    by_cases hempty : first = [] <;> simp [isIdle, hfirst, hempty]

example : steps ⟨"./a//./b/"⟩ = [['.'], ['a'], ['b']] := by decide

/-! ## Parents -/

section

variable {cs : List Char} {front back : List (List Char)}

/-- The pieces in front of a cut make up a front part of the body. -/
theorem intercalate_prefix_body (hsplit : (body cs).splitOn '/' = front ++ back) :
    ['/'].intercalate front <+: body cs := by
  have hpre := intercalate_prefix ['/'] front back
  rwa [← hsplit, List.intercalate_splitOn] at hpre

/-- A single point is not joined from pieces unless it is one of them. -/
theorem intercalate_ne_point (hhead : head cs = []) (hsplit : cs.splitOn '/' = front ++ back) :
    ['/'].intercalate front ≠ ['.'] := by
  intro h
  cases front with
  | nil => cases h
  | cons first more =>
    cases more with
    | nil => exact first_ne_point hhead hsplit (List.intercalate_singleton.symm.trans h)
    | cons next others =>
      rw [List.intercalate_cons_cons] at h
      have hmem : '/' ∈ ['.'] := by
        rw [← h]
        simp
      simp at hmem

/-- What stands in front stays when the body is cut behind one of its pieces. -/
theorem head_append_intercalate (hsplit : (body cs).splitOn '/' = front ++ back) :
    head (head cs ++ ['/'].intercalate front) = head cs := by
  have hpre := intercalate_prefix_body hsplit
  rcases head_cases cs with ⟨rest, rfl⟩ | rfl | ⟨rest, rfl⟩ | hhead
  · rfl
  · rw [List.prefix_nil.1 hpre]
    rfl
  · rcases List.prefix_cons_iff.1 hpre with hnil | ⟨more, hmore, -⟩
    · rw [hnil]
      rfl
    · rw [hmore]
      rfl
  · rw [body_eq_self hhead] at hsplit hpre
    rw [hhead, List.nil_append]
    exact head_eq_nil_of_prefix hpre hhead (intercalate_ne_point hhead hsplit)

/-- The pieces of a path whose body was cut are those in front of the cut. -/
theorem steps_of_cut (hsplit : (body cs).splitOn '/' = front ++ back) :
    steps ⟨String.ofList (head cs ++ ['/'].intercalate front)⟩ =
      (if head cs = ['.'] then [['.']] else []) ++ front.filter (!isIdle ·) := by
  have hhead := head_append_intercalate hsplit
  have hbody : body (head cs ++ ['/'].intercalate front) = ['/'].intercalate front := by
    rw [body, hhead, List.drop_left]
  rw [steps_eq, String.toList_ofList, hhead, hbody]
  cases front with
  | nil => rfl
  | cons first rest =>
    have hslash : ∀ piece ∈ first :: rest, '/' ∉ piece := by
      intro piece hpiece
      have hout := (Text.splitOn_eq_iff (List.splitOn_ne_nil '/' (body cs))).1 rfl
      exact hout.2 piece (hsplit ▸ List.mem_append_left back hpiece)
    rw [List.splitOn_intercalate '/' hslash (List.cons_ne_nil first rest)]

end

/-- **The parent of a path.**  A path has no parent if it has no steps.  Else the parent is a front
part of its text, in which all steps but the last are left; if none is left, the parent is the root
or the empty path. -/
theorem parent?_cases (p : Path) :
    p.parent? = none ∧ p.steps = [] ∨
      ∃ q last, p.parent? = some q ∧ p.steps = q.steps ++ [last] ∧
        q.text.toList <+: p.text.toList ∧ (q.steps = [] → q = ⟨""⟩ ∨ q = ⟨"/"⟩) := by
  rw [parent?]
  split
  next hnil =>
    rw [steps_eq, dropIdle_eq_nil_iff.1 hnil]
    split
    · exact Or.inr ⟨⟨""⟩, ['.'], rfl, rfl, List.nil_prefix, fun _ => Or.inl rfl⟩
    · exact Or.inl ⟨rfl, rfl⟩
  next hkept =>
    obtain ⟨back, last, hcut, hfilter⟩ := exists_dropLast_append hkept
    have hempty := dropIdle_eq_nil_of_filter (dropIdle ((body p.text.toList).splitOn '/')).dropLast
    generalize dropIdle (dropIdle ((body p.text.toList).splitOn '/')).dropLast = front
      at hcut hfilter hempty ⊢
    have hsteps := steps_of_cut hcut.symm
    refine Or.inr ⟨_, last, rfl, ?_, ?_, ?_⟩
    · rw [hsteps, steps_eq, hfilter, List.append_assoc]
    · conv_rhs => rw [← head_append_body p.text.toList]
      rw [String.toList_ofList]
      exact (List.prefix_append_right_inj _).2 (intercalate_prefix_body hcut.symm)
    · intro hnone
      rw [hsteps, List.append_eq_nil_iff] at hnone
      rw [hempty hnone.2]
      rcases head_eq_or p.text.toList with hhead | hhead | hhead
      · exact Or.inl (by rw [hhead]; rfl)
      · exact Or.inr (by rw [hhead]; rfl)
      · rw [hhead] at hnone
        cases hnone.1

/-! ## Ancestors -/

/-- What holds of paths without a parent, and of a path if it holds of its parent, holds of all. -/
@[elab_as_elim]
theorem parentInduction {motive : Path → Prop}
    (top : ∀ p : Path, p.parent? = none → p.steps = [] → motive p)
    (below : ∀ (p q : Path) (last : List Char), p.parent? = some q →
      p.steps = q.steps ++ [last] → q.text.toList <+: p.text.toList →
      (q.steps = [] → q = ⟨""⟩ ∨ q = ⟨"/"⟩) → motive q → motive p) (p : Path) : motive p := by
  rcases parent?_cases p with ⟨hnone, hsteps⟩ | ⟨q, last, hparent, hsteps, hpre, htop⟩
  · exact top p hnone hsteps
  · exact below p q last hparent hsteps hpre htop (parentInduction top below q)
termination_by p.text.toList.length
decreasing_by exact length_lt_of_parent? hparent

/-- Each ancestor is followed by its parent. -/
theorem isChain_ancestors (p : Path) : p.ancestors.IsChain fun q r => q.parent? = some r := by
  induction p using parentInduction with
  | top p hnone _ =>
    rw [ancestors_of_parent?_eq_none hnone]
    exact .singleton p
  | below p q last hparent _ _ _ ih =>
    obtain ⟨rest, hrest⟩ := q.exists_ancestors_eq_cons
    rw [ancestors_of_parent? hparent, hrest, List.isChain_cons_cons, ← hrest]
    exact ⟨hparent, ih⟩

/-- The ancestors of a path have the initial parts of its steps, from all of them to none. -/
theorem map_steps_ancestors (p : Path) : p.ancestors.map steps = p.steps.inits.reverse := by
  induction p using parentInduction with
  | top p hnone hsteps =>
    rw [ancestors_of_parent?_eq_none hnone, List.map_singleton, hsteps]
    rfl
  | below p q last hparent hsteps _ _ ih =>
    rw [ancestors_of_parent? hparent, List.map_cons, ih, hsteps, List.inits_append]
    simp

/-- The steps of an ancestor are the first ones of the path. -/
theorem steps_prefix_of_mem_ancestors (h : q ∈ p.ancestors) : q.steps <+: p.steps := by
  have hmem := List.mem_map_of_mem (f := steps) h
  rw [map_steps_ancestors, List.mem_reverse, List.mem_inits] at hmem
  exact hmem

/-- The text of an ancestor is a front part of the path. -/
theorem text_prefix_of_mem_ancestors (h : q ∈ p.ancestors) : q.text.toList <+: p.text.toList := by
  induction p using parentInduction with
  | top p hnone _ =>
    rw [ancestors_of_parent?_eq_none hnone, List.mem_singleton] at h
    rw [h]
  | below p r last hparent _ hpre _ ih =>
    rw [ancestors_of_parent? hparent, List.mem_cons] at h
    rcases h with rfl | h
    · exact List.prefix_rfl
    · exact (ih h).trans hpre

/-- An ancestor is absolute if the path is. -/
theorem isAbsolute_eq_of_mem_ancestors (h : q ∈ p.ancestors) : q.isAbsolute = p.isAbsolute := by
  cases hp : p.isAbsolute with
  | true => exact isAbsolute_of_mem_ancestors hp h
  | false =>
    obtain ⟨behind, hbehind⟩ := text_prefix_of_mem_ancestors h
    refine Bool.eq_false_iff.2 fun hq => Bool.eq_false_iff.1 hp ?_
    obtain ⟨rest, hrest⟩ := isAbsolute_iff.1 hq
    exact isAbsolute_iff.2 ⟨rest ++ behind, by rw [← hbehind, hrest, List.cons_append]⟩

/-- A path that neither is absolute nor has steps is the empty path. -/
theorem eq_empty_of_steps_eq_nil (hp : p.isAbsolute = false) (hsteps : p.steps = []) :
    p = ⟨""⟩ := by
  obtain ⟨first, rest, hsplit⟩ :=
    List.exists_cons_of_ne_nil (List.splitOn_ne_nil '/' p.text.toList)
  have hfirst : first = [] := by
    rw [steps, hsplit, List.append_eq_nil_iff] at hsteps
    simpa using hsteps.1
  have hcs : ['/'].intercalate (first :: rest) = p.text.toList := by
    rw [← hsplit, List.intercalate_splitOn]
  cases rest with
  | nil =>
    rw [hfirst, List.intercalate_singleton] at hcs
    exact congrArg Path.mk (String.toList_eq_nil_iff.1 hcs.symm)
  | cons next more =>
    -- A slash behind nothing is a slash in front.
    rw [hfirst, List.intercalate_cons_cons] at hcs
    exact absurd (isAbsolute_iff.2 ⟨_, hcs.symm⟩) (by simp [hp])

/-- The last ancestor is the empty path or the root, which a path without steps may spell in
another way. -/
theorem exists_getLast?_ancestors (p : Path) :
    ∃ top, p.ancestors.getLast? = some top ∧
      (top = ⟨""⟩ ∨ top = ⟨"/"⟩ ∨ top = p ∧ p.isAbsolute = true ∧ p.steps = []) := by
  induction p using parentInduction with
  | top p hnone hsteps =>
    refine ⟨p, by rw [ancestors_of_parent?_eq_none hnone]; rfl, ?_⟩
    cases hp : p.isAbsolute with
    | true => exact Or.inr (Or.inr ⟨rfl, rfl, hsteps⟩)
    | false => exact Or.inl (eq_empty_of_steps_eq_nil hp hsteps)
  | below p q last hparent _ _ htop ih =>
    obtain ⟨top, hlast, hcases⟩ := ih
    refine ⟨top, by rw [ancestors_of_parent? hparent, List.getLast?_cons, hlast]; rfl, ?_⟩
    rcases hcases with hempty | hroot | ⟨rfl, -, hsteps⟩
    · exact Or.inl hempty
    · exact Or.inr (Or.inl hroot)
    · exact (htop hsteps).imp_right Or.inl

/-- The paths on the way up from a path: each one is the parent of the one before it.  They have the
initial parts of the steps of the path, each of them is a front part of its text, and the last one
is the empty path or the root, however that is spelled. -/
structure IsWayUp (start : Path) (paths : List Path) : Prop where
  head?_eq : paths.head? = some start
  isChain : paths.IsChain fun p q => p.parent? = some q
  map_steps : paths.map steps = start.steps.inits.reverse
  isFront : ∀ p ∈ paths, p.isAbsolute = start.isAbsolute ∧ p.text.toList <+: start.text.toList
  exists_top : ∃ top, paths.getLast? = some top ∧
    (top = ⟨""⟩ ∨ top = ⟨"/"⟩ ∨ top = start ∧ start.isAbsolute = true ∧ start.steps = [])

/-- **The ancestors of a path are the paths on the way up from it.** -/
theorem isWayUp_ancestors (p : Path) : p.IsWayUp p.ancestors where
  head?_eq := by
    obtain ⟨rest, hrest⟩ := p.exists_ancestors_eq_cons
    rw [hrest, List.head?_cons]
  isChain := isChain_ancestors p
  map_steps := map_steps_ancestors p
  isFront _ hq := ⟨isAbsolute_eq_of_mem_ancestors hq, text_prefix_of_mem_ancestors hq⟩
  exists_top := exists_getLast?_ancestors p

/-! ## Ancestors of ancestors -/

/-- The ancestors of an ancestor are the last ones of the path. -/
theorem ancestors_suffix (h : q ∈ p.ancestors) : q.ancestors <:+ p.ancestors := by
  induction p using parentInduction with
  | top p hnone _ =>
    rw [ancestors_of_parent?_eq_none hnone, List.mem_singleton] at h
    rw [h]
  | below p r last hparent _ _ _ ih =>
    rw [ancestors_of_parent? hparent, List.mem_cons] at h
    rcases h with rfl | h
    · exact List.suffix_rfl
    · rw [ancestors_of_parent? hparent]
      exact (ih h).trans (List.suffix_cons p r.ancestors)

/-- No path comes twice among the ancestors. -/
theorem nodup_ancestors (p : Path) : p.ancestors.Nodup := by
  induction p using parentInduction with
  | top p hnone _ =>
    rw [ancestors_of_parent?_eq_none hnone]
    simp
  | below p q last hparent hsteps _ _ ih =>
    rw [ancestors_of_parent? hparent, List.nodup_cons]
    refine ⟨fun hmem => ?_, ih⟩
    have hle := (steps_prefix_of_mem_ancestors hmem).length_le
    rw [hsteps, List.length_append, List.length_singleton] at hle
    omega

/-- What is found first among the ancestors is found from every ancestor before it. -/
theorem find?_ancestors_of_mem {test : Path → Bool} {root : Path}
    (hfound : p.ancestors.find? test = some root) (hq : q ∈ p.ancestors)
    (hroot : root ∈ q.ancestors) : q.ancestors.find? test = some root := by
  obtain ⟨nearer, hnearer⟩ := ancestors_suffix hq
  have hnodup := nodup_ancestors p
  rw [← hnearer, List.nodup_append] at hnodup
  rw [← hnearer, List.find?_append] at hfound
  cases hfirst : nearer.find? test with
  | none => rwa [hfirst, Option.none_or] at hfound
  | some first =>
    -- The root would come twice: before the ancestor and behind it.
    rw [hfirst, Option.some_or] at hfound
    cases hfound
    exact absurd rfl (hnodup.2.2 root (List.mem_of_find?_eq_some hfirst) root hroot)

end Path

end VersionStamp
