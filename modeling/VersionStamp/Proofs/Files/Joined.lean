/-
# Following a joined path

A path that stands behind a base is followed from the directory to which the base leads.  So a file
is found at the join if the base leads to a directory and the rest leads from there to the file.
The main facts:

* `walk_append` : pieces in a row are followed in turn;
* `isFile_join_iff` : when there is a file at a joined path.
-/
import VersionStamp.Proofs.Except
import VersionStamp.Proofs.Path.Joining
import VersionStamp.Tree

namespace VersionStamp

namespace Tree

variable {t : Tree} {here dir : Place} {base p : Path}

/-! ## The pieces of a join -/

/-- Pieces in a row are followed in turn. -/
theorem walk_append (t : Tree) (here : Place) (front back : List String) :
    t.walk here (front ++ back) = (t.walk here front >>= fun there => t.walk there back) := by
  induction front generalizing here with
  | nil => rfl
  | cons piece rest ih =>
    rw [List.cons_append, walk, walk]
    split
    · exact ih here
    · split
      · exact ih here.dropLast
      · cases t.at? (here ++ [piece]) with
        | none => rfl
        | some node =>
          cases node with
          | file bytes => rfl
          | dir => exact ih (here ++ [piece])

/-- An empty piece at the end leads nowhere else. -/
theorem walk_append_empty (t : Tree) (here : Place) (front : List String) :
    t.walk here (front ++ [""]) = t.walk here front := by
  rw [walk_append]
  exact bind_pure (t.walk here front)

/-- The pieces on both sides of a slash are the pieces of the text. -/
theorem pieces_slash (front back : String) :
    pieces ⟨front ++ "/" ++ back⟩ = pieces ⟨front⟩ ++ pieces ⟨back⟩ := by
  unfold pieces
  rw [← List.map_append]
  congr 1
  have h : (front ++ "/" ++ back).toList = front.toList ++ '/' :: back.toList := by simp
  rw [h, List.splitOn_append_cons_self]

/-- The pieces of a path stand at the end of its join, behind pieces that lead where the base
leads. -/
theorem exists_pieces_join (hp : p.isAbsolute = false) (base : Path) :
    ∃ front, pieces (base.join p) = front ++ pieces p ∧
      ∀ (t : Tree) here, t.walk here front = t.walk here (pieces base) := by
  obtain ⟨text⟩ := base
  rw [Path.join_of_not_isAbsolute hp, Path.withSlash]
  split
  next hbare =>
    rcases hbare with hempty | hslash
    · cases hempty
      exact ⟨[], by rw [String.empty_append, List.nil_append], fun t here => rfl⟩
    · obtain ⟨cs, hcs⟩ := List.getLast?_eq_some_iff.1 hslash
      have htext : text = String.ofList cs ++ "/" :=
        String.toList_inj.1 (by rw [hcs, String.toList_append, String.toList_ofList]; rfl)
      have hpieces : pieces ⟨text⟩ = pieces ⟨String.ofList cs⟩ ++ [""] := by
        have h := pieces_slash (String.ofList cs) ""
        rwa [String.append_empty, ← htext] at h
      refine ⟨pieces ⟨String.ofList cs⟩, ?_, fun t here => ?_⟩
      · rw [htext, pieces_slash]
      · rw [hpieces, walk_append_empty]
  next => exact ⟨pieces ⟨text⟩, pieces_slash text p.text, fun t here => rfl⟩

/-! ## Files at a join -/

/-- A path leads from a working directory to a directory of the tree.  The empty path leads to the
working directory. -/
def LeadsTo (t : Tree) (here : Place) (p : Path) (dir : Place) : Prop :=
  '\x00' ∉ p.text.toList ∧ t.walk (if p.isAbsolute then [] else here) (pieces p) = .ok dir

/-- A path that ends in a name leads to the place with that name in the directory to which the
pieces before the name lead. -/
theorem locate_of_name (hnul : '\x00' ∉ p.text.toList) {front : List String} {last : String}
    (hpieces : pieces p = front ++ [last]) (hlast : isTurn last = false) :
    t.locate here p =
      (t.walk (if p.isAbsolute then [] else here) front).map (· ++ [last]) := by
  have hempty : p.text ≠ "" := by
    intro h
    have hsplit : [""] = front ++ [last] := by
      rw [← hpieces, pieces, h]
      rfl
    have hturn : last = "" := by simpa using (congrArg List.getLast? hsplit).symm
    rw [hturn] at hlast
    cases hlast
  rw [locate, if_neg hnul, if_neg hempty]
  dsimp only
  rw [hpieces, List.getLast?_concat, Option.getD_some, hlast, List.dropLast_concat,
    if_neg Bool.false_ne_true]

/-- A join holds a character that is no slash if one of its parts does. -/
theorem mem_text_join_iff (hp : p.isAbsolute = false) {c : Char} (hc : c ≠ '/') :
    c ∈ (base.join p).text.toList ↔ c ∈ base.text.toList ∨ c ∈ p.text.toList := by
  rw [Path.join_of_not_isAbsolute hp, Path.withSlash]
  split <;> simp [hc]

/-- **Where a join leads.**  A path that is not absolute and ends in a name, joined onto a base,
leads to the place with that name in the directory to which the pieces before the name lead from
the directory of the base. -/
theorem locate_join_eq_ok_iff (hp : p.isAbsolute = false) (hnul : '\x00' ∉ p.text.toList)
    {front : List String} {last : String} (hpieces : pieces p = front ++ [last])
    (hlast : isTurn last = false) {place : Place} :
    t.locate here (base.join p) = .ok place ↔
      ∃ dir there, t.LeadsTo here base dir ∧ t.walk dir front = .ok there ∧
        place = there ++ [last] := by
  obtain ⟨way, hway, hsame⟩ := exists_pieces_join hp base
  have hend : pieces (base.join p) = (way ++ front) ++ [last] := by
    rw [hway, hpieces, List.append_assoc]
  by_cases hbase : '\x00' ∈ base.text.toList
  · rw [locate, if_pos ((mem_text_join_iff hp (by decide)).2 (Or.inl hbase))]
    refine iff_of_false (fun h => nomatch h) ?_
    rintro ⟨dir, there, hleads, -⟩
    exact hleads.1 hbase
  · have hjoin : '\x00' ∉ (base.join p).text.toList := by
      simp [mem_text_join_iff hp, hbase, hnul]
    have habsolute : (base.join p).isAbsolute = base.isAbsolute := by
      rw [Path.isAbsolute_join_eq, hp, Bool.false_or]
    rw [locate_of_name hjoin hend hlast, habsolute, walk_append, hsame, map_eq_ok_iff]
    simp only [bind_eq_ok_iff]
    constructor
    · rintro ⟨there, ⟨dir, hdir, hthere⟩, hplace⟩
      exact ⟨dir, there, ⟨hbase, hdir⟩, hthere, hplace⟩
    · rintro ⟨dir, there, ⟨-, hdir⟩, hthere, hplace⟩
      exact ⟨there, ⟨dir, hdir, hthere⟩, hplace⟩

/-- There is a file at a path if it leads to a place with a file. -/
theorem isFile_eq_true_iff :
    t.isFile here p = true ↔
      ∃ place bytes, t.locate here p = .ok place ∧ t.at? place = some (.file bytes) := by
  unfold isFile
  cases t.locate here p with
  | error e => simp
  | ok place =>
    dsimp only
    split
    next bytes hfile => simp [hfile]
    next hnone =>
      refine iff_of_false Bool.false_ne_true ?_
      rintro ⟨_, bytes, hplace, hfile⟩
      cases hplace
      exact hnone bytes hfile

/-- **Files at a join.**  There is a file at the join of a base and a path that ends in a name if
the base leads to a directory, the pieces before the name lead on from there, and a file has the
name in the directory that is reached. -/
theorem isFile_join_iff (hp : p.isAbsolute = false) (hnul : '\x00' ∉ p.text.toList)
    {front : List String} {last : String} (hpieces : pieces p = front ++ [last])
    (hlast : isTurn last = false) :
    t.isFile here (base.join p) = true ↔
      ∃ dir there bytes, t.LeadsTo here base dir ∧ t.walk dir front = .ok there ∧
        t.at? (there ++ [last]) = some (.file bytes) := by
  simp only [isFile_eq_true_iff, locate_join_eq_ok_iff hp hnul hpieces hlast]
  constructor
  · rintro ⟨place, bytes, ⟨dir, there, hdir, hthere, rfl⟩, hfile⟩
    exact ⟨dir, there, bytes, hdir, hthere, hfile⟩
  · rintro ⟨dir, there, bytes, hdir, hthere, hfile⟩
    exact ⟨_, bytes, ⟨dir, there, hdir, hthere, rfl⟩, hfile⟩

end Tree

end VersionStamp
