/-
# The courses that a session can take

A session takes one of four courses: its store cannot be resolved, the version cannot be loaded,
storing is refused at some step, or all steps are stored.  `performs_run` says so once, with all
that the session logs and leaves behind; whatever holds of the four courses holds of every session.
-/
import VersionStamp.Session
import VersionStamp.Proofs.Bump.Sink

namespace VersionStamp

namespace Session

open Bump (applyAll versions storedEntries Step)

variable {σ : Type} {files : Files (StateM σ)} {cwd : Path} {o : Options} {store : Store}
  {verbose : Bool} {r : Bump.Request} {v : Version} {s s₁ s₂ : σ}

/-! ## The parts of a session -/

/-- What is logged of a bump behind its steps: that it was stored, if there was one. -/
def bumpedEntries (verbose : Bool) (steps : List Step) (v : Version) : List Log.Entry :=
  if steps = [] then []
  else Log.note verbose (bumped v (applyAll steps v) steps.length)

/-- A bump whose versions are all accepted ends with the last of them. -/
theorem bump_run_of_accepts (verbose : Bool)
    (h : Bump.Sink.Accepts (store.persist files) (versions r.steps v) s) :
    (bump files store verbose r v).run s =
      ((announce verbose r ++ storedEntries verbose r.steps v ++ bumpedEntries verbose r.steps v,
        .ok (applyAll r.steps v)),
        Bump.Sink.stateAfter (store.persist files) (versions r.steps v) s) := by
  have hrun : (Bump.run (store.persist files) verbose r.steps v).run s = _ := Bump.run_of_accepts h
  rw [bump, StateT.run_bind, Bump.apply, hrun, bumpedEntries]
  cases hsteps : r.steps with
  | nil => simp only [if_true, List.append_nil]; rfl
  | cons step rest => rw [if_neg (List.cons_ne_nil step rest)]; rfl

/-- A bump fails with the first refusal. -/
theorem bump_run_of_refuses {done rest : List Step} {step : Step} {fault : Fault}
    (hsteps : r.steps = done ++ step :: rest)
    (haccepts : Bump.Sink.Accepts (store.persist files) (versions done v) s)
    (hrefuses : Bump.Sink.answer (store.persist files) (step.apply (applyAll done v))
      (Bump.Sink.stateAfter (store.persist files) (versions done v) s) = .error fault) :
    (bump files store verbose r v).run s =
      ((announce verbose r ++ storedEntries verbose done v, .error ⟨some .updating, fault⟩),
        Bump.Sink.next (store.persist files) (step.apply (applyAll done v))
          (Bump.Sink.stateAfter (store.persist files) (versions done v) s)) := by
  have hrun : (Bump.run (store.persist files) verbose (done ++ step :: rest) v).run s = _ :=
    Bump.run_of_refuses haccepts hrefuses
  rw [bump, StateT.run_bind, Bump.apply, hsteps, hrun]
  rfl

/-- Without a version there is nothing to bump. -/
theorem update_run_of_unloaded {fault : Fault} (h : (store.load files).run s = (.error fault, s₁)) :
    (update files store verbose r).run s =
      ((Log.note verbose (located store), .error ⟨some .loading, fault⟩), s₁) := by
  rw [update, StateT.run_bind, h]
  rfl

/-- The version that is loaded is bumped. -/
theorem update_run_of_loaded (h : (store.load files).run s = (.ok v, s₁)) :
    (update files store verbose r).run s =
      let bumped := (bump files store verbose r v).run s₁
      ((Log.note verbose (located store) ++ bumped.1.1, bumped.1.2), bumped.2) := by
  rw [update, StateT.run_bind, h]
  rfl

/-- Without a store there is nothing to update. -/
theorem perform_run_of_unresolved {fault : Fault}
    (h : (Config.resolve files cwd o.file).run s = (.error fault, s₁)) :
    (perform files cwd o).run s = (([], .error ⟨some .resolving, fault⟩), s₁) := by
  rw [perform, StateT.run_bind, h]
  rfl

/-- The store that is resolved is updated. -/
theorem perform_run_of_resolved
    (h : (Config.resolve files cwd o.file).run s = (.ok store, s₁)) :
    (perform files cwd o).run s = (update files store o.verbose o.request).run s₁ := by
  rw [perform, StateT.run_bind, h]
  rfl

/-! ## The four courses -/

/-- The steps that are stored when a session performs its request. -/
def performedSteps (files : Files (StateM σ)) (cwd : Path) (o : Options) (s : σ) : List Step :=
  match (Config.resolve files cwd o.file).run s with
  | (.error _, _) => []
  | (.ok store, s₁) =>
    match (store.load files).run s₁ with
    | (.error _, _) => []
    | (.ok v, s₂) => Bump.acceptedSteps (store.persist files) o.request.steps v s₂

/-- Once a version is loaded, the steps that are stored are those that the store accepts. -/
theorem performedSteps_of_loaded
    (hresolve : (Config.resolve files cwd o.file).run s = (.ok store, s₁))
    (hload : (store.load files).run s₁ = (.ok v, s₂)) :
    performedSteps files cwd o s =
      Bump.acceptedSteps (store.persist files) o.request.steps v s₂ := by
  simp only [performedSteps, hresolve, hload]

/-- When a session performs its request, some steps are stored, and it takes a course and leaves a
state behind. -/
inductive Performs (files : Files (StateM σ)) (cwd : Path) (o : Options) (s : σ) :
    List Step → Course → σ → Prop where
  | unresolved {fault : Fault} {s₁ : σ}
      (resolve : (Config.resolve files cwd o.file).run s = (.error fault, s₁)) :
      Performs files cwd o s [] ([], .error ⟨some .resolving, fault⟩) s₁
  | unloaded {store : Store} {fault : Fault} {s₁ s₂ : σ}
      (resolve : (Config.resolve files cwd o.file).run s = (.ok store, s₁))
      (load : (store.load files).run s₁ = (.error fault, s₂)) :
      Performs files cwd o s []
        (Log.note o.verbose (located store), .error ⟨some .loading, fault⟩) s₂
  | refused {store : Store} {v : Version} {s₁ s₂ : σ} {done rest : List Step} {step : Step}
      {fault : Fault}
      (resolve : (Config.resolve files cwd o.file).run s = (.ok store, s₁))
      (load : (store.load files).run s₁ = (.ok v, s₂))
      (steps : o.request.steps = done ++ step :: rest)
      (accepts : Bump.Sink.Accepts (store.persist files) (versions done v) s₂)
      (refuses : Bump.Sink.answer (store.persist files) (step.apply (applyAll done v))
        (Bump.Sink.stateAfter (store.persist files) (versions done v) s₂) = .error fault) :
      Performs files cwd o s done
        (Log.note o.verbose (located store) ++
            (announce o.verbose o.request ++ storedEntries o.verbose done v),
          .error ⟨some .updating, fault⟩)
        (Bump.Sink.next (store.persist files) (step.apply (applyAll done v))
          (Bump.Sink.stateAfter (store.persist files) (versions done v) s₂))
  | stored {store : Store} {v : Version} {s₁ s₂ : σ}
      (resolve : (Config.resolve files cwd o.file).run s = (.ok store, s₁))
      (load : (store.load files).run s₁ = (.ok v, s₂))
      (accepts : Bump.Sink.Accepts (store.persist files) (versions o.request.steps v) s₂) :
      Performs files cwd o s o.request.steps
        (Log.note o.verbose (located store) ++ (announce o.verbose o.request ++
            storedEntries o.verbose o.request.steps v ++
            bumpedEntries o.verbose o.request.steps v),
          .ok (applyAll o.request.steps v))
        (Bump.Sink.stateAfter (store.persist files) (versions o.request.steps v) s₂)

/-- Every session takes one of the four courses. -/
theorem performs_run (files : Files (StateM σ)) (cwd : Path) (o : Options) (s : σ) :
    Performs files cwd o s (performedSteps files cwd o s) ((perform files cwd o).run s).1
      ((perform files cwd o).run s).2 := by
  unfold performedSteps
  rcases hresolve : (Config.resolve files cwd o.file).run s with ⟨fault | store, s₁⟩
  · rw [perform_run_of_unresolved hresolve]
    exact .unresolved hresolve
  · rw [perform_run_of_resolved hresolve]
    rcases hload : (store.load files).run s₁ with ⟨fault | v, s₂⟩
    · simp only [hload, update_run_of_unloaded hload]
      exact .unloaded hresolve hload
    · simp only [hload]
      rw [update_run_of_loaded hload]
      rcases Bump.accepts_or_refuses (store.persist files) o.request.steps v s₂ with
        hall | ⟨done, step, rest, fault, hsteps, haccepts, hrefuses⟩
      · rw [bump_run_of_accepts o.verbose hall, Bump.acceptedSteps_of_accepts hall]
        exact .stored hresolve hload hall
      · rw [bump_run_of_refuses hsteps haccepts hrefuses, hsteps,
          Bump.acceptedSteps_of_refuses haccepts hrefuses]
        exact .refused hresolve hload hsteps haccepts hrefuses

/-! ## The two ends of a session -/

/-- A session that requires no sound version ends before it begins. -/
theorem run_of_readRequired_error {require : Option String} {fault : Fault}
    (h : readRequired require = .error fault) :
    (run files cwd { o with require := require }).run s =
      (⟨[], .error ⟨none, fault⟩⟩, s) := by
  rw [run, h]
  rfl

/-- What is required does not matter while the request is performed. -/
theorem perform_require (o : Options) (require : Option String) :
    perform files cwd { o with require := require } = perform files cwd o :=
  rfl

/-- A session performs its request, and concludes with what it comes to. -/
theorem run_of_readRequired_ok {require : Option String} {required : Option Version}
    {log : List Log.Entry} {result : Except Failure Version}
    (h : readRequired require = .ok required)
    (hperform : (perform files cwd o).run s = ((log, result), s₁)) :
    (run files cwd { o with require := require }).run s =
      (⟨log, result.bind (conclude o.report required)⟩, s₁) := by
  rw [run, h]
  change ((perform files cwd { o with require := require } >>= _).run s) = _
  rw [perform_require, StateT.run_bind, hperform]
  rfl

/-- A session fails if performing its request fails. -/
theorem run_of_perform_error {require : Option String} {required : Option Version}
    {log : List Log.Entry} {failure : Failure} (h : readRequired require = .ok required)
    (hperform : (perform files cwd o).run s = ((log, .error failure), s₁)) :
    (run files cwd { o with require := require }).run s = (⟨log, .error failure⟩, s₁) :=
  run_of_readRequired_ok h hperform

/-- A session concludes with the version that performing its request ends with. -/
theorem run_of_perform_ok {require : Option String} {required : Option Version}
    {log : List Log.Entry} (h : readRequired require = .ok required)
    (hperform : (perform files cwd o).run s = ((log, .ok v), s₁)) :
    (run files cwd { o with require := require }).run s =
      (⟨log, conclude o.report required v⟩, s₁) :=
  run_of_readRequired_ok h hperform

/-- A session that has performed its request reports the version, or fails as it is too old. -/
theorem conclude_outcome (form : Report) (required : Option Version) (v : Version)
    (log : List Log.Entry) :
    let outcome : Outcome := ⟨log, conclude form required v⟩
    (outcome.exitCode = 0 ∧ outcome.output = form.render v ++ "\n") ∨
      outcome.exitCode = 1 ∧ outcome.output = "" ∧
        ∃ r, outcome.report = .error ⟨none, .tooOld v r⟩ := by
  cases required with
  | none => exact Or.inl ⟨rfl, rfl⟩
  | some r =>
    intro outcome
    by_cases hlt : v.compareRelease r = .lt
    · have hold : conclude form (some r) v = .error ⟨none, .tooOld v r⟩ := if_pos hlt
      have houtcome : outcome = ⟨log, .error ⟨none, .tooOld v r⟩⟩ := congrArg (Outcome.mk log) hold
      rw [houtcome]
      exact Or.inr ⟨rfl, rfl, r, rfl⟩
    · have hreport : conclude form (some r) v = .ok (form.render v) := if_neg hlt
      have houtcome : outcome = ⟨log, .ok (form.render v)⟩ := congrArg (Outcome.mk log) hreport
      rw [houtcome]
      exact Or.inl ⟨rfl, rfl⟩

/-- The steps that are stored in a session. -/
def storedSteps (files : Files (StateM σ)) (cwd : Path) (o : Options) (s : σ) : List Step :=
  match readRequired o.require with
  | .error _ => []
  | .ok _ => performedSteps files cwd o s

end Session

end VersionStamp
