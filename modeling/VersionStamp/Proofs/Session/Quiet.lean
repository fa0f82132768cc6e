/-
# Sessions with and without details

A quiet session is the verbose session with the details taken out of its log: it makes the same
calls on the files in the same order, and comes to the same result.  This holds in every lawful
monad, so nothing is assumed of the files and of what they answer.  The main facts:

* `Bump.run_quiet` : the steps of a bump, by induction on the steps;
* `Session.run_quiet` : a whole session.
-/
import VersionStamp.Session

namespace VersionStamp

/-! ## Logs without details -/

namespace Log

/-- A log without its entries of the levels for information and for debugging. -/
def withoutDetails (log : List Entry) : List Entry :=
  log.filter fun entry => entry.level ≠ .info ∧ entry.level ≠ .debug

@[simp] theorem withoutDetails_nil : withoutDetails [] = [] :=
  rfl

@[simp] theorem withoutDetails_append (log more : List Entry) :
    withoutDetails (log ++ more) = withoutDetails log ++ withoutDetails more :=
  List.filter_append log more

/-- An entry is left out of a log that is not verbose if and only if it is a detail. -/
@[simp] theorem withoutDetails_note (entry : Entry) :
    withoutDetails (note true entry) = note false entry := by
  obtain ⟨level, message, trace⟩ := entry
  cases level <;> rfl

end Log

variable {m : Type → Type} [Monad m] [LawfulMonad m]

/-! ## Bumps -/

namespace Bump

variable {ε : Type}

/-- How a request went, with the details taken out of the log. -/
def Outcome.quiet (outcome : Outcome ε) : Outcome ε :=
  { outcome with log := Log.withoutDetails outcome.log }

/-- The steps are taken alike, whether the log is verbose or not. -/
theorem run_quiet (store : Version → m (Except ε Unit)) (steps : List Step) (v : Version) :
    run store false steps v = Outcome.quiet <$> run store true steps v := by
  induction steps generalizing v with
  | nil =>
    rw [run, run, map_pure]
    rfl
  | cons step rest ih =>
    rw [run, run, map_bind]
    refine bind_congr fun answer => ?_
    cases answer with
    | error e =>
      rw [map_pure]
      rfl
    | ok _ =>
      simp only [ih, map_bind, bind_map_left, map_pure]
      refine bind_congr fun later => ?_
      simp only [Outcome.quiet, Log.withoutDetails_append, Log.withoutDetails_note]

end Bump

/-! ## Sessions -/

namespace Session

/-- A course with the details taken out of the log. -/
def Course.quiet (course : Course) : Course :=
  (Log.withoutDetails course.1, course.2)

/-- How a session went, with the details taken out of the log. -/
def Outcome.quiet (outcome : Outcome) : Outcome :=
  { outcome with log := Log.withoutDetails outcome.log }

/-- Every failure is logged as an error. -/
theorem Failure.level_entry (failure : Failure) : failure.entry.level = .error := by
  obtain ⟨stage, fault⟩ := failure
  cases stage <;> rfl

/-- The failure of a session is no detail. -/
theorem Outcome.entries_quiet (outcome : Outcome) :
    outcome.quiet.entries = Log.withoutDetails outcome.entries := by
  obtain ⟨log, failure | line⟩ := outcome
  · have hkept : Log.withoutDetails [failure.entry] = [failure.entry] :=
      List.filter_cons_of_pos (by simp [failure.level_entry])
    simp only [quiet, entries, Log.withoutDetails_append, hkept]
  · rfl

variable {files : Files m} {store : Store} {cwd : Path} {o : Options} {r : Bump.Request}

/-- What is announced of a request without details. -/
@[simp] theorem withoutDetails_announce (r : Bump.Request) :
    Log.withoutDetails (announce true r) = announce false r := by
  unfold announce
  split <;> split <;> simp

/-- A version is bumped alike, whether the log is verbose or not. -/
theorem bump_quiet (v : Version) :
    bump files store false r v = Course.quiet <$> bump files store true r v := by
  rw [bump, bump, Bump.apply, Bump.run_quiet, map_bind, bind_map_left]
  refine bind_congr fun outcome => ?_
  obtain ⟨w, fault | writes, log⟩ := outcome
  · simp [Bump.Outcome.quiet, Course.quiet]
  · cases writes with
    | zero => simp [Bump.Outcome.quiet, Course.quiet]
    | succ n => simp [Bump.Outcome.quiet, Course.quiet]

/-- A store is updated alike, whether the log is verbose or not. -/
theorem update_quiet :
    update files store false r = Course.quiet <$> update files store true r := by
  rw [update, update, map_bind]
  refine bind_congr fun loaded => ?_
  cases loaded with
  | error fault => simp [Course.quiet]
  | ok v =>
    simp only [bump_quiet, map_bind, bind_map_left]
    refine bind_congr fun course => ?_
    simp [Course.quiet]

/-- A request is performed alike, whether the log is verbose or not. -/
theorem perform_quiet :
    perform files cwd { o with verbose := false } =
      Course.quiet <$> perform files cwd { o with verbose := true } := by
  rw [perform, perform, map_bind]
  refine bind_congr fun resolved => ?_
  cases resolved with
  | error fault => simp [Course.quiet]
  | ok store => exact update_quiet

/-- A quiet session is the verbose one, with the details taken out of its log. -/
theorem run_quiet (files : Files m) (cwd : Path) (o : Options) :
    run files cwd { o with verbose := false } =
      Outcome.quiet <$> run files cwd { o with verbose := true } := by
  rw [run, run]
  cases readRequired o.require with
  | error fault =>
    rw [map_pure]
    rfl
  | ok required =>
    simp only [perform_quiet, map_bind, bind_map_left]
    refine bind_congr fun course => ?_
    simp [Course.quiet, Outcome.quiet]

end Session

end VersionStamp
