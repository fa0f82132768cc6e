/-
# What a session leaves as it is

A session asks for many files and writes to one: the version file, which it has read before.  So
no file comes or goes, and the version file holds either the text that was read or the header of
the version after the last step that was stored.  The main facts:

* `tree_stateAfter` : the tree after versions are stored in turn;
* `Performs.frame` : what the four courses of a session make of the tree;
* `framed_run` : what a whole session makes of it, whether it succeeds or fails.
-/
import VersionStamp.Proofs.Bump.Effect
import VersionStamp.Proofs.Config.Search
import VersionStamp.Proofs.Files.Frame
import VersionStamp.Proofs.Session.Course
import VersionStamp.Proofs.Store.Access

namespace VersionStamp

variable {σ : Type} {files : Files (StateM σ)} {here : Place} {tree : σ → Tree}

/-! ## Reading and writing the version file -/

namespace Store

variable {store : Store} {place : Place} {v w : Version} {s s' : σ}

/-- Nothing is written to load a version. -/
theorem leaves_load (hfiles : files.ActsOn here tree) (store : Store) :
    Leaves tree (store.load files) := by
  refine (hfiles.leaves_read store.path).bind ?_
  rintro (_ | _)
  · exact leaves_pure _
  · exact leaves_pure _

/-- A version that is loaded is in the text of the version file. -/
theorem exists_read_of_load (hfiles : files.ActsOn here tree)
    (h : (store.load files).run s = (.ok v, s')) :
    ∃ text, (tree s).read here store.path = .ok text ∧ Header.parse text = .ok v := by
  obtain ⟨text, hread, hparse⟩ := exists_parse_of_load h
  exact ⟨text, hfiles.read_ok hread, hparse⟩

/-- A version that is persisted is what the version file holds. -/
theorem tree_of_persist (hfiles : files.ActsOn here tree)
    (h : (store.persist files v).run s = (.ok (), s'))
    (hlocate : (tree s).locate here store.path = .ok place) :
    tree s' = (tree s).set place (.file (Header.render store.stem v).toUTF8) :=
  Tree.eq_set_of_write (hfiles.write_ok (persist_eq_ok_iff.1 h)) hlocate

/-- A version is not persisted if the file system refuses to write it. -/
theorem exists_refusal_of_persist {fault : Fault}
    (h : (store.persist files v).run s = (.error fault, s')) :
    ∃ refusal, (files.write store.path (Header.render store.stem v)).run s = (.error refusal, s') ∧
      fault = .ofRefusal store.path refusal := by
  rw [persist_run] at h
  rcases hwrite : (files.write store.path (Header.render store.stem v)).run s with
    ⟨refusal | _, t⟩
  · rw [hwrite] at h
    cases h
    exact ⟨refusal, rfl, rfl⟩
  · rw [hwrite] at h
    cases (Prod.mk.inj h).1

/-- The file of a store has been rewritten: it held a text that is read as `v`, it holds the
header of `w`, and nothing else has changed. -/
def Rewritten (here : Place) (store : Store) (v w : Version) (before after : Tree) : Prop :=
  ∃ place text, before.locate here store.path = .ok place ∧
    before.at? place = some (.file text.toUTF8) ∧ Header.parse text = .ok v ∧
    after = before.set place (.file (Header.render store.stem w).toUTF8)

/-- Where a file has been rewritten, no file has come or gone, and no other file has changed. -/
theorem Rewritten.at?_eq_or {before after : Tree} (h : store.Rewritten here v w before after)
    (place : Place) :
    after.at? place = before.at? place ∨
      before.locate here store.path = .ok place ∧
        ∃ old new, before.at? place = some (.file old) ∧ after.at? place = some (.file new) := by
  obtain ⟨written, text, hlocate, hfile, -, rfl⟩ := h
  by_cases hplace : place = written
  · subst hplace
    have hne : place ≠ [] := by
      rintro rfl
      cases hfile
    exact Or.inr ⟨hlocate, text.toUTF8, _, hfile, Tree.at?_set_self before _ hne⟩
  · exact Or.inl (Tree.at?_set_of_ne before _ hplace)

end Store

/-! ## The steps of a session -/

namespace Session

open Bump (applyAll versions Step)

variable {store : Store} {place : Place} {v : Version} {cwd : Path} {o : Options} {s s' : σ}
  {done : List Step} {course : Course}

/-- When versions are stored in turn, the last one is in the version file. -/
theorem tree_stateAfter (hfiles : files.ActsOn here tree) {steps : List Step} {bytes : ByteArray}
    (haccepts : Bump.Sink.Accepts (store.persist files) (versions steps v) s)
    (hlocate : (tree s).locate here store.path = .ok place)
    (hfile : (tree s).at? place = some (.file bytes)) :
    tree (Bump.Sink.stateAfter (store.persist files) (versions steps v) s) =
      if steps = [] then tree s
      else (tree s).set place (.file (Header.render store.stem (applyAll steps v)).toUTF8) := by
  induction steps generalizing v s bytes with
  | nil => rfl
  | cons step rest ih =>
    obtain ⟨hfirst, hrest⟩ := haccepts
    have htree := Store.tree_of_persist hfiles (Prod.ext hfirst rfl) hlocate
    have hne : place ≠ [] := by
      rintro rfl
      cases hfile
    have hnotDir : (tree s).at? place ≠ some .dir := by
      rw [hfile]
      nofun
    -- The path of the store still leads to the same file.
    have hlocate' := Tree.locate_set hnotDir
      (.file (Header.render store.stem (step.apply v)).toUTF8) hlocate
    have hfile' := Tree.at?_set_self (tree s)
      (.file (Header.render store.stem (step.apply v)).toUTF8) hne
    rw [← htree] at hlocate' hfile'
    have hlast := ih hrest hlocate' hfile'
    change tree (Bump.Sink.stateAfter (store.persist files) (versions rest (step.apply v))
      (Bump.Sink.next (store.persist files) (step.apply v) s)) = _
    rw [if_neg (List.cons_ne_nil step rest)]
    refine hlast.trans ?_
    by_cases hnil : rest = []
    · rw [if_pos hnil, hnil]
      exact htree
    · rw [if_neg hnil]
      refine (congrArg (fun t => Tree.set t place _) htree).trans ?_
      exact Tree.set_set (tree s) place _ _

/-- A version that is refused leaves the tree as it is. -/
theorem tree_next_of_refuses (hfiles : files.ActsOn here tree) {fault : Fault}
    (h : Bump.Sink.answer (store.persist files) v s = .error fault) :
    tree (Bump.Sink.next (store.persist files) v s) = tree s := by
  obtain ⟨refusal, hwrite, -⟩ := Store.exists_refusal_of_persist (Prod.ext h rfl)
  exact hfiles.write_error hwrite

/-- Steps that were stored behind the loading of a version have rewritten the version file with
the last version, if there are any. -/
theorem rewritten_of_accepts (hfiles : files.ActsOn here tree) {s₁ s₂ : σ}
    (hresolved : tree s₁ = tree s) (hload : (store.load files).run s₁ = (.ok v, s₂))
    (haccepts : Bump.Sink.Accepts (store.persist files) (versions done v) s₂) :
    let s' := Bump.Sink.stateAfter (store.persist files) (versions done v) s₂
    (done = [] → tree s' = tree s) ∧
      (done ≠ [] → store.Rewritten here v (applyAll done v) (tree s) (tree s')) := by
  intro s'
  have hloaded : tree s₂ = tree s :=
    ((Store.leaves_load hfiles store).eq_of_run hload).trans hresolved
  obtain ⟨text, hread, hparse⟩ := Store.exists_read_of_load hfiles hload
  rw [hresolved] at hread
  obtain ⟨place, hlocate, hfile⟩ := Tree.exists_file_of_read hread
  rw [← hloaded] at hlocate hfile ⊢
  have hafter : tree s' = _ := tree_stateAfter hfiles haccepts hlocate hfile
  constructor
  · intro hnil
    rw [hafter, if_pos hnil]
  · intro hdone
    rw [if_neg hdone] at hafter
    exact ⟨place, text, hlocate, hfile, hparse, hafter⟩

/-! ## The four courses -/

/-- **What a course makes of the tree.**  Without a stored step the tree stays as it is.  Otherwise
the version file is rewritten with the version after the stored steps, and if these are not all of
the steps, the course ends in a refused write. -/
theorem Performs.frame (hfiles : files.ActsOn here tree)
    (h : Performs files cwd o s done course s') :
    (done = [] → tree s' = tree s) ∧
      (done ≠ [] → ∃ store v, ((Config.resolve files cwd o.file).run s).1 = .ok store ∧
        done <+: o.request.steps ∧
        store.Rewritten here v (applyAll done v) (tree s) (tree s') ∧
        (course.2 = .ok (applyAll done v) ∧ done = o.request.steps ∨
          ∃ refusal, course.2 = .error ⟨some .updating, .ofRefusal store.path refusal⟩)) := by
  have hresolve := Config.leaves_resolve hfiles.looks cwd o.file
  cases h with
  | unresolved resolve => exact ⟨fun _ => hresolve.eq_of_run resolve, fun hdone => absurd rfl hdone⟩
  | unloaded resolve load =>
    have hload := (Store.leaves_load hfiles _).eq_of_run load
    exact ⟨fun _ => hload.trans (hresolve.eq_of_run resolve), fun hdone => absurd rfl hdone⟩
  | refused resolve load steps accepts refuses =>
    obtain ⟨hunwritten, hwritten⟩ :=
      rewritten_of_accepts hfiles (hresolve.eq_of_run resolve) load accepts
    obtain ⟨refusal, -, hfault⟩ := Store.exists_refusal_of_persist (Prod.ext refuses rfl)
    rw [tree_next_of_refuses hfiles refuses]
    refine ⟨hunwritten, ?_⟩
    intro hdone
    refine ⟨_, _, congrArg Prod.fst resolve, ?_, hwritten hdone, Or.inr ⟨refusal, ?_⟩⟩
    · rw [steps]
      exact List.prefix_append _ _
    · rw [hfault]
  | stored resolve load accepts =>
    obtain ⟨hunwritten, hwritten⟩ :=
      rewritten_of_accepts hfiles (hresolve.eq_of_run resolve) load accepts
    refine ⟨hunwritten, ?_⟩
    intro hdone
    exact ⟨_, _, congrArg Prod.fst resolve, List.prefix_rfl, hwritten hdone, Or.inl ⟨rfl, rfl⟩⟩

/-! ## A whole session -/

/-- What a session may make of a tree, given the store that is resolved, the steps that are stored,
and how the session goes. -/
structure Framed (here : Place) (o : Options) (resolved : Except Fault Store) (done : List Step)
    (outcome : Outcome) (before after : Tree) : Prop where
  /-- Nothing comes or goes, and the only bytes that may differ are those of the version file. -/
  frame : ∀ place, after.at? place = before.at? place ∨
    ∃ store, resolved = .ok store ∧ before.locate here store.path = .ok place ∧
      ∃ old new, before.at? place = some (.file old) ∧ after.at? place = some (.file new)
  /-- A request that changes nothing leaves the tree as it is. -/
  unchanged : o.request.isMutating = false → after = before
  /-- A session that fails prints nothing, and leaves the tree as it is unless the new version is
  too old or a write is refused behind a step that was stored. -/
  failed : outcome.exitCode = 1 → outcome.output = "" ∧
    (after = before ∨
      (o.request.isMutating = true ∧
        ∃ v required, outcome.report = .error ⟨none, .tooOld v required⟩) ∨
      done ≠ [] ∧ ∃ store refusal, resolved = .ok store ∧
        outcome.report = .error ⟨some .updating, .ofRefusal store.path refusal⟩)
  /-- Where no step is stored, the tree is as it was. -/
  unwritten : done = [] → after = before
  /-- Where steps are stored, the version file is rewritten with the version after the last one,
  and this is the version that is printed if the session succeeds. -/
  written : done ≠ [] → ∃ store v, resolved = .ok store ∧ done <+: o.request.steps ∧
    store.Rewritten here v (applyAll done v) before after ∧
    (outcome.exitCode = 0 → done = o.request.steps ∧
      outcome.output = o.report.render (applyAll done v) ++ "\n")

/-- A request that changes nothing stores no step. -/
theorem Performs.done_eq_nil (h : Performs files cwd o s done course s')
    (hr : o.request.isMutating = false) : done = [] := by
  have hsteps := Bump.steps_eq_nil_iff.2 hr
  cases h with
  | unresolved _ => rfl
  | unloaded _ _ => rfl
  | refused _ _ steps _ _ =>
    rw [hsteps] at steps
    exact absurd steps.symm (List.append_ne_nil_of_right_ne_nil _ (List.cons_ne_nil _ _))
  | stored _ _ _ => exact hsteps

/-- Whatever version is required in the end, a session is framed by the course that it takes. -/
theorem Performs.framed (hfiles : files.ActsOn here tree) {log : List Log.Entry}
    {result : Except Failure Version} (h : Performs files cwd o s done (log, result) s')
    (required : Option Version) :
    Framed here o ((Config.resolve files cwd o.file).run s).1 done
      ⟨log, result.bind (conclude o.report required)⟩ (tree s) (tree s') := by
  obtain ⟨hunwritten, hwritten⟩ := h.frame hfiles
  refine ⟨?_, fun hr => hunwritten (h.done_eq_nil hr), ?_, hunwritten, ?_⟩
  · intro place
    by_cases hnil : done = []
    · exact Or.inl (congrArg (Tree.at? · place) (hunwritten hnil))
    · obtain ⟨store, v, hresolved, -, hrewritten, -⟩ := hwritten hnil
      exact (hrewritten.at?_eq_or place).imp_right fun hat => ⟨store, hresolved, hat⟩
  · intro hcode
    cases result with
    | error failure =>
      refine ⟨rfl, ?_⟩
      by_cases hnil : done = []
      · exact Or.inl (hunwritten hnil)
      · obtain ⟨store, v, hresolved, -, -, ⟨hok, -⟩ | ⟨refusal, hrefused⟩⟩ := hwritten hnil
        · cases hok
        · cases hrefused
          exact Or.inr (Or.inr ⟨hnil, store, refusal, hresolved, rfl⟩)
    | ok v =>
      -- The course has succeeded, so it is the comparison with the required version that fails.
      rcases conclude_outcome o.report required v log with ⟨hzero, -⟩ | ⟨-, hempty, r, hold⟩
      · exact absurd (hzero.symm.trans hcode) (by decide)
      · refine ⟨hempty, ?_⟩
        cases hr : o.request.isMutating with
        | false => exact Or.inl (hunwritten (h.done_eq_nil hr))
        | true => exact Or.inr (Or.inl ⟨rfl, v, r, hold⟩)
  · intro hne
    obtain ⟨store, v, hresolved, hprefix, hrewritten, hresult⟩ := hwritten hne
    refine ⟨store, v, hresolved, hprefix, hrewritten, ?_⟩
    intro hcode
    rcases hresult with ⟨hok, hall⟩ | ⟨refusal, hrefused⟩
    · cases hok
      rcases conclude_outcome o.report required _ log with ⟨-, hprinted⟩ | ⟨hone, -⟩
      · exact ⟨hall, hprinted⟩
      · exact absurd (hone.symm.trans hcode) (by decide)
    · cases hrefused
      cases hcode

/-- **What a session makes of the tree.** -/
theorem framed_run (hfiles : files.ActsOn here tree) (cwd : Path) (o : Options) (s : σ) :
    Framed here o ((Config.resolve files cwd o.file).run s).1 (storedSteps files cwd o s)
      ((run files cwd o).run s).1 (tree s) (tree ((run files cwd o).run s).2) := by
  cases hrequired : readRequired o.require with
  | error fault =>
    -- The session ends before it looks at any file.
    have hrun : (run files cwd o).run s = _ := run_of_readRequired_error hrequired
    have hnone : storedSteps files cwd o s = [] := by
      simp only [storedSteps, hrequired]
    rw [hrun, hnone]
    exact ⟨fun _ => Or.inl rfl, fun _ => rfl, fun _ => ⟨rfl, Or.inl rfl⟩, fun _ => rfl,
      fun hdone => absurd rfl hdone⟩
  | ok required =>
    have hdone : storedSteps files cwd o s = performedSteps files cwd o s := by
      simp only [storedSteps, hrequired]
    have hperforms := performs_run files cwd o s
    rcases hperform : (perform files cwd o).run s with ⟨⟨log, result⟩, s'⟩
    have hrun : (run files cwd o).run s = _ := run_of_readRequired_ok hrequired hperform
    rw [hperform] at hperforms
    rw [hrun, hdone]
    exact hperforms.framed hfiles required

end Session

end VersionStamp
