/-
# The nearest project

A project is marked by a file in its root.  The search for it looks at the ancestors of a path one
after the other, and stops at the first one that leads to a directory with such a file.  The main
facts:

* `isRoot_run_iff` : what a root is, told by the places of the tree;
* `nearest_root_is_found` : the search finds the nearest root, and finds it again from anywhere on
  the way.
-/
import VersionStamp.Proofs.Config.Search
import VersionStamp.Proofs.Files.Joined
import VersionStamp.Proofs.Path.Steps

namespace VersionStamp

/-! ## Roots of projects in a tree -/

namespace Tree

variable {t : Tree} {here dir : Place} {p : Path}

/-- A directory holds a file that marks the root of a project: one with the name of a
configuration, or one with the name of a version file in its directory for sources. -/
def HoldsMarker (t : Tree) (dir : Place) : Prop :=
  (∃ bytes, t.at? (dir ++ ["versionbump.toml"]) = some (.file bytes)) ∨
    t.at? (dir ++ ["src"]) = some .dir ∧
      ∃ bytes, t.at? (dir ++ ["src", "version.inc"]) = some (.file bytes)

/-- A path leads to the root of a project. -/
def IsProject (t : Tree) (here : Place) (p : Path) : Prop :=
  ∃ dir, t.LeadsTo here p dir ∧ t.HoldsMarker dir

/-- A name leads on to the directory with that name. -/
theorem walk_name_eq_ok_iff {name : String} (hname : isTurn name = false) {there : Place} :
    t.walk dir [name] = .ok there ↔
      t.at? (dir ++ [name]) = some .dir ∧ there = dir ++ [name] := by
  have hturn : ¬ (name = "" ∨ name = ".") ∧ name ≠ ".." := by
    simpa [isTurn, not_or, and_assoc] using hname
  rw [walk, if_neg hturn.1, if_neg hturn.2]
  cases t.at? (dir ++ [name]) with
  | none => simp
  | some node =>
    cases node with
    | file bytes => simp
    | dir => simp [walk, eq_comm]

/-- There is a configuration file behind a path that leads to a directory with one. -/
theorem isFile_join_fileName_iff :
    t.isFile here (p.join Config.fileName) = true ↔
      ∃ dir, t.LeadsTo here p dir ∧
        ∃ bytes, t.at? (dir ++ ["versionbump.toml"]) = some (.file bytes) := by
  have hpieces : pieces Config.fileName = [] ++ ["versionbump.toml"] := by decide
  rw [isFile_join_iff rfl (by decide) hpieces rfl]
  constructor
  · rintro ⟨dir, there, bytes, hdir, hthere, hfile⟩
    cases hthere
    exact ⟨dir, hdir, bytes, hfile⟩
  · rintro ⟨dir, hdir, bytes, hfile⟩
    exact ⟨dir, dir, bytes, hdir, rfl, hfile⟩

/-- There is a standard version file behind a path that leads to a directory whose directory for
sources has one. -/
theorem isFile_join_standardFile_iff :
    t.isFile here (p.join Config.standardFile) = true ↔
      ∃ dir, t.LeadsTo here p dir ∧ t.at? (dir ++ ["src"]) = some .dir ∧
        ∃ bytes, t.at? (dir ++ ["src", "version.inc"]) = some (.file bytes) := by
  have hpieces : pieces Config.standardFile = ["src"] ++ ["version.inc"] := by decide
  rw [isFile_join_iff rfl (by decide) hpieces rfl]
  simp only [walk_name_eq_ok_iff (by decide : isTurn "src" = false)]
  constructor
  · rintro ⟨dir, there, bytes, hdir, ⟨hsrc, rfl⟩, hfile⟩
    rw [List.append_assoc] at hfile
    exact ⟨dir, hdir, hsrc, bytes, hfile⟩
  · rintro ⟨dir, hdir, hsrc, bytes, hfile⟩
    refine ⟨dir, _, bytes, hdir, ⟨hsrc, rfl⟩, ?_⟩
    rw [List.append_assoc]
    exact hfile

/-- A path leads to the root of a project if there is a file at one of two joins. -/
theorem isProject_iff :
    t.IsProject here p ↔
      t.isFile here (p.join Config.fileName) = true ∨
        t.isFile here (p.join Config.standardFile) = true := by
  rw [isFile_join_fileName_iff, isFile_join_standardFile_iff, ← exists_or]
  simp only [← and_or_left]
  rfl

end Tree

/-! ## The search -/

namespace Config

variable {t : Tree} {here : Place} {start root p : Path}

/-- Both files are asked for to tell whether a path leads to a root. -/
theorem isRoot_run (t : Tree) (here : Place) (p : Path) :
    (isRoot (Files.ofTree here) p).run t =
      (t.isFile here (p.join fileName) || t.isFile here (p.join standardFile), t) := by
  have hasked : ((Files.ofTree here).isFile (p.join fileName)).run t =
      (t.isFile here (p.join fileName), t) := rfl
  rw [isRoot, StateT.run_bind, hasked]
  cases t.isFile here (p.join fileName) <;> rfl

/-- A path is taken for a root if it leads to the root of a project. -/
theorem isRoot_run_iff : ((isRoot (Files.ofTree here) p).run t).1 = true ↔ t.IsProject here p := by
  rw [isRoot_run, Tree.isProject_iff, Bool.or_eq_true]

/-- The root that is found is an ancestor that leads to the root of a project, and no ancestor
before it does. -/
theorem findRoot?_run_eq_some_iff :
    (findRoot? (Files.ofTree here) start).run t = (some root, t) ↔
      ∃ nearer further, start.ancestors = nearer ++ root :: further ∧ t.IsProject here root ∧
        ∀ p ∈ nearer, ¬ t.IsProject here p := by
  rw [findRoot?_run (Files.ofTree_looks here), Prod.mk.injEq, and_iff_left rfl,
    List.find?_eq_some_iff_append, isRoot_run_iff]
  simp only [Bool.not_eq_true', Bool.eq_false_iff, ne_eq, isRoot_run_iff]
  constructor
  · rintro ⟨hroot, nearer, further, hancestors, hnearer⟩
    exact ⟨nearer, further, hancestors, hroot, hnearer⟩
  · rintro ⟨nearer, further, hancestors, hroot, hnearer⟩
    exact ⟨hroot, nearer, further, hancestors, hnearer⟩

/-- No root is found if no ancestor leads to the root of a project. -/
theorem findRoot?_run_eq_none_iff :
    (findRoot? (Files.ofTree here) start).run t = (none, t) ↔
      ∀ p ∈ start.ancestors, ¬ t.IsProject here p := by
  rw [findRoot?_run (Files.ofTree_looks here), Prod.mk.injEq, and_iff_left rfl, List.find?_eq_none]
  simp only [isRoot_run_iff]

/-- The root is found again from everywhere between a path and it. -/
theorem findRoot?_run_of_between
    (hfound : (findRoot? (Files.ofTree here) start).run t = (some root, t))
    (hp : p ∈ start.ancestors) (hroot : root ∈ p.ancestors) :
    (findRoot? (Files.ofTree here) p).run t = (some root, t) := by
  rw [findRoot?_run (Files.ofTree_looks here)] at hfound ⊢
  rw [Path.find?_ancestors_of_mem (congrArg Prod.fst hfound) hp hroot]

/-- A search from where a search ends goes nowhere else, whether there is a root or not. -/
theorem rootOr_bind_rootOr_run (t : Tree) (here : Place) (start : Path) :
    (rootOr (Files.ofTree here) start >>= rootOr (Files.ofTree here)).run t =
      (rootOr (Files.ofTree here) start).run t := by
  have hlooks := Files.ofTree_looks here
  rw [StateT.run_bind]
  cases hfound : ((findRoot? (Files.ofTree here) start).run t).1 with
  | some root =>
    obtain ⟨-, hstart, hroot⟩ := rootOr_run_of_found hlooks hfound
    rw [hstart]
    exact hroot
  | none =>
    have hnone : (findRoot? (Files.ofTree here) start).run t = (none, t) :=
      Prod.ext hfound (by rw [findRoot?_run hlooks])
    have hstart : (rootOr (Files.ofTree here) start).run t = (start, t) := by
      rw [rootOr, StateT.run_bind, hnone]
      rfl
    rw [hstart]
    exact hstart

/-- **The nearest root is found.**  The search looks at the paths on the way up from a path, in
turn.  It finds the first one that leads to a directory in which one of the two marker files is a
regular file, and nothing if there is none.  From the root that is found, and from every path
between it and the start, the same root is found; and searching twice is searching once, also where
nothing is found and the search stays where it started. -/
theorem nearest_root_is_found (t : Tree) (here : Place) (start : Path) :
    start.IsWayUp start.ancestors ∧
      (∀ p, ((isRoot (Files.ofTree here) p).run t).1 = true ↔ t.IsProject here p) ∧
      (∀ root, (findRoot? (Files.ofTree here) start).run t = (some root, t) ↔
        ∃ nearer further, start.ancestors = nearer ++ root :: further ∧ t.IsProject here root ∧
          ∀ p ∈ nearer, ¬ t.IsProject here p) ∧
      ((findRoot? (Files.ofTree here) start).run t = (none, t) ↔
        ∀ p ∈ start.ancestors, ¬ t.IsProject here p) ∧
      (∀ root, (findRoot? (Files.ofTree here) start).run t = (some root, t) →
        (findRoot? (Files.ofTree here) root).run t = (some root, t) ∧
          ∀ p ∈ start.ancestors, root ∈ p.ancestors →
            (findRoot? (Files.ofTree here) p).run t = (some root, t)) ∧
      (rootOr (Files.ofTree here) start >>= rootOr (Files.ofTree here)).run t =
        (rootOr (Files.ofTree here) start).run t := by
  refine ⟨start.isWayUp_ancestors, fun p => isRoot_run_iff, fun root => findRoot?_run_eq_some_iff,
    findRoot?_run_eq_none_iff, ?_, rootOr_bind_rootOr_run t here start⟩
  intro root hfound
  refine ⟨?_, fun p hp hroot => findRoot?_run_of_between hfound hp hroot⟩
  obtain ⟨nearer, further, hancestors, -, -⟩ := findRoot?_run_eq_some_iff.1 hfound
  obtain ⟨rest, hrest⟩ := root.exists_ancestors_eq_cons
  exact findRoot?_run_of_between hfound (by simp [hancestors]) (by simp [hrest])

/-- A project with a directory in which both names of marker files are those of directories. -/
def misleadingTree : Tree :=
  ⟨[(["proj"], .dir), (["proj", "versionbump.toml"], .file "".toUTF8), (["proj", "a"], .dir),
    (["proj", "a", "versionbump.toml"], .dir), (["proj", "a", "src"], .dir),
    (["proj", "a", "src", "version.inc"], .dir)]⟩

/-- From a path in the misleading directory that leads nowhere, the project is found at the empty
path, and it is found there from the misleading directory as well. -/
theorem root_of_missing_path :
    (findRoot? (Files.ofTree ["proj"]) ⟨"a/./new"⟩).run misleadingTree =
        (some ⟨""⟩, misleadingTree) ∧
      (findRoot? (Files.ofTree ["proj"]) ⟨"a"⟩).run misleadingTree =
        (some ⟨""⟩, misleadingTree) := by
  have hempty : Path.ancestors ⟨""⟩ = [⟨""⟩] := Path.ancestors_of_parent?_eq_none (by rfl)
  have ha : Path.ancestors ⟨"a"⟩ = ⟨"a"⟩ :: Path.ancestors ⟨""⟩ :=
    Path.ancestors_of_parent? (by rfl)
  have hnew : Path.ancestors ⟨"a/./new"⟩ = ⟨"a/./new"⟩ :: Path.ancestors ⟨"a"⟩ :=
    Path.ancestors_of_parent? (by rfl)
  rw [hempty] at ha
  rw [ha] at hnew
  obtain ⟨-, hroot, hsome, -, hagain, -⟩ :=
    nearest_root_is_found misleadingTree ["proj"] ⟨"a/./new"⟩
  have hunmarked : ∀ p ∈ [⟨"a/./new"⟩, ⟨"a"⟩], ¬ misleadingTree.IsProject ["proj"] p := by
    intro p hp
    rw [← hroot]
    rcases List.mem_pair.1 hp with rfl | rfl
    · exact Bool.false_ne_true
    · exact Bool.false_ne_true
  have hfound := (hsome ⟨""⟩).2 ⟨_, [], hnew, (hroot _).1 rfl, hunmarked⟩
  refine ⟨hfound, (hagain _ hfound).2 ⟨"a"⟩ ?_ ?_⟩
  · rw [hnew]
    decide
  · rw [ha]
    decide

end Config

end VersionStamp
