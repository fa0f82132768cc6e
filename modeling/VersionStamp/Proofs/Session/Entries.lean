/-
# What a session logs

A session that fails before it has loaded a version logs nothing but where the version file is.  One
that has loaded a version logs its request, each step that is stored, and at the end that something
was stored.  So a log tells which versions were written, and that they were:

* `run_of_loads`, `run_of_not_loads` : the two kinds of sessions;
* `filter_success_of_loads` : a success is logged if and only if a step was stored and none refused.
-/
import VersionStamp.Proofs.Bump.Recorder
import VersionStamp.Proofs.Bump.Watched
import VersionStamp.Proofs.Session.Course
import VersionStamp.Proofs.Session.Gating
import VersionStamp.Proofs.Session.Quiet
import VersionStamp.Proofs.Session.Unconfigured

namespace VersionStamp

/-! ## Entries of a level -/

namespace Log

/-- A note is the entry that it was made of, or nothing. -/
theorem eq_of_mem_note {verbose : Bool} {entry other : Entry} (h : other ∈ note verbose entry) :
    other = entry := by
  unfold note at h
  split at h
  · exact List.mem_singleton.1 h
  · cases h

/-- An entry that is no detail is always noted. -/
theorem note_of_not_isDetail {entry : Entry} (h : entry.level.isDetail = false) (verbose : Bool) :
    note verbose entry = [entry] := by
  rw [note, if_pos]
  rw [Level.isShown, h, Bool.not_false, Bool.or_true]

/-- All notes of an entry have its level. -/
theorem level_of_mem_note {verbose : Bool} {entry other : Entry} (h : other ∈ note verbose entry) :
    other.level = entry.level :=
  congrArg Entry.level (eq_of_mem_note h)

/-- If all entries have one level, none of another one is found. -/
theorem filter_level_eq_nil {level other : Level} {log : List Entry}
    (h : ∀ entry ∈ log, entry.level = other) (hne : other ≠ level) :
    log.filter (fun entry => entry.level = level) = [] := by
  rw [List.filter_eq_nil_iff]
  intro entry hentry hlevel
  exact hne ((h entry hentry).symm.trans (of_decide_eq_true hlevel))

end Log

namespace Session

open Bump (applyAll)

/-! ## A bump and its outcome -/

section

variable {m : Type → Type} [Monad m] [LawfulMonad m]

/-- What is logged behind the steps of a bump: that it was stored, if there was something to. -/
def closing (verbose : Bool) (before : Version) (outcome : Bump.Outcome Fault) : List Log.Entry :=
  match outcome.result with
  | .ok (writes + 1) => Log.note verbose (bumped before outcome.version (writes + 1))
  | _ => []

/-- The version that a bump ends with, or its failure. -/
def bumpResult (outcome : Bump.Outcome Fault) : Except Failure Version :=
  match outcome.result with
  | .ok _ => .ok outcome.version
  | .error fault => .error ⟨some .updating, fault⟩

/-- A bump carries out its request, and logs what goes before and behind it. -/
theorem bump_eq (files : Files m) (store : Store) (verbose : Bool) (r : Bump.Request)
    (v : Version) :
    bump files store verbose r v =
      (fun outcome => (announce verbose r ++ outcome.log ++ closing verbose v outcome,
        bumpResult outcome)) <$> Bump.apply (store.persist files) verbose r v := by
  rw [bump, map_eq_pure_bind]
  refine bind_congr fun outcome => ?_
  obtain ⟨w, fault | writes, log⟩ := outcome
  · simp only [closing, bumpResult, List.append_nil]
  · cases writes with
    | zero => simp only [closing, bumpResult, List.append_nil]
    | succ writes => rfl

end

variable {σ : Type} {files : Files (StateM σ)} {cwd : Path} {o : Options} {store store' : Store}
  {v v' : Version} {s s' s'' : σ}

/-! ## Sessions that load a version -/

/-- A session loads a version: what it requires, if anything, is a version, its store is resolved,
and a version is loaded from the store.  The request has no part in it. -/
structure Loads (files : Files (StateM σ)) (cwd : Path) (o : Options) (s : σ) (store : Store)
    (v : Version) (s' : σ) : Prop where
  required : ∃ required, readRequired o.require = .ok required
  loaded : ∃ s₁, (Config.resolve files cwd o.file).run s = (.ok store, s₁) ∧
    (store.load files).run s₁ = (.ok v, s')

/-- In a project without a configuration a version is loaded if what is required is one. -/
theorem loads_unconfigured {text : String} (hparse : Header.parse text = .ok v)
    (hfile : o.file = none) (hrequired : ∃ required, readRequired o.require = .ok required) :
    Loads (Files.ofTree []) ⟨"/"⟩ o (unconfigured text) standardStore v (unconfigured text) where
  required := hrequired
  loaded := by
    rw [hfile]
    exact ⟨_, resolve_unconfigured text, load_unconfigured hparse⟩

/-- A session that loads a version bumps it, whatever is requested. -/
theorem run_of_loads (h : Loads files cwd o s store v s') :
    ∃ required, ∀ r, (run files cwd { o with request := r }).run s =
      let bumped := (Bump.apply (store.persist files) o.verbose r v).run s'
      (⟨Log.note o.verbose (located store) ++ (announce o.verbose r ++ bumped.1.log ++
          closing o.verbose v bumped.1),
        (bumpResult bumped.1).bind (conclude o.report required)⟩, bumped.2) := by
  obtain ⟨required, hrequired⟩ := h.required
  obtain ⟨s₁, hresolve, hload⟩ := h.loaded
  refine ⟨required, fun r => ?_⟩
  have hperform := (perform_run_of_resolved (o := { o with request := r }) hresolve).trans
    (update_run_of_loaded hload)
  rw [bump_eq, StateT.run_map] at hperform
  exact run_of_readRequired_ok (o := { o with request := r }) hrequired hperform

/-- A session that loads no version fails before its request counts, and logs at most where the
version file is. -/
theorem run_of_not_loads (h : ∀ store v s', ¬Loads files cwd o s store v s') :
    ∃ log failure s', (∀ entry ∈ log, entry.level = .info) ∧
      ∀ r, (run files cwd { o with request := r }).run s = (⟨log, .error failure⟩, s') := by
  cases hrequired : readRequired o.require with
  | error fault =>
    refine ⟨[], ⟨none, fault⟩, s, nofun, fun r => ?_⟩
    exact run_of_readRequired_error (o := { o with request := r }) hrequired
  | ok required =>
    rcases hresolve : (Config.resolve files cwd o.file).run s with ⟨fault | store, s₁⟩
    · refine ⟨[], ⟨some .resolving, fault⟩, s₁, nofun, fun r => ?_⟩
      exact run_of_perform_error (o := { o with request := r }) hrequired
        (perform_run_of_unresolved hresolve)
    · rcases hload : (store.load files).run s₁ with ⟨fault | v, s₂⟩
      · refine ⟨Log.note o.verbose (located store), ⟨some .loading, fault⟩, s₂, ?_, fun r => ?_⟩
        · intro entry hentry
          rw [Log.eq_of_mem_note hentry]
          rfl
        · have hperform := (perform_run_of_resolved (o := { o with request := r }) hresolve).trans
            (update_run_of_unloaded hload)
          exact run_of_perform_error (o := { o with request := r }) hrequired hperform
      · exact absurd ⟨⟨required, hrequired⟩, s₁, hresolve, hload⟩ (h store v s₂)

/-! ## The entries of a session -/

/-- An empty suffix is always announced, in front of everything else. -/
theorem announce_eq (verbose : Bool) (r : Bump.Request) :
    announce verbose r = (if r.suffix = some "" then [emptySuffix] else []) ++
      if r.isMutating then [] else Log.note verbose untouched := by
  have hempty : Log.note verbose emptySuffix = [emptySuffix] := Log.note_of_not_isDetail rfl verbose
  rw [announce, hempty]

/-- Of what is announced, the entries of a level are those for an empty suffix, if it is their
level, unless it is the level of details. -/
theorem filter_level_announce (level : Log.Level) (hdebug : .debug ≠ level) (verbose : Bool)
    (r : Bump.Request) :
    (announce verbose r).filter (fun entry => entry.level = level) =
      if r.suffix = some "" ∧ level = .warning then [emptySuffix] else [] := by
  have huntouched : ∀ entry ∈ if r.isMutating then [] else Log.note verbose untouched,
      entry.level = .debug := by
    intro entry hentry
    split at hentry
    · cases hentry
    · exact Log.level_of_mem_note hentry
  rw [announce_eq, List.filter_append, Log.filter_level_eq_nil huntouched hdebug, List.append_nil]
  by_cases hsuffix : r.suffix = some ""
  · by_cases hlevel : level = .warning
    · simp [hsuffix, hlevel, emptySuffix]
    · simp [hsuffix, hlevel, emptySuffix, Ne.symm hlevel]
  · simp [hsuffix]

/-- Behind the log of a session, at most its failure is entered. -/
theorem exists_entries_eq (outcome : Outcome) :
    ∃ failures, outcome.entries = outcome.log ++ failures ∧
      ∀ entry ∈ failures, entry.level = .error := by
  obtain ⟨log, failure | line⟩ := outcome
  · refine ⟨[failure.entry], rfl, ?_⟩
    intro entry hentry
    rw [List.mem_singleton.1 hentry]
    exact failure.level_entry
  · exact ⟨[], (List.append_nil log).symm, nofun⟩

/-- The log of a request has entries for debugging only. -/
theorem level_of_mem_log_apply {ε : Type} {sink : Bump.Sink σ ε} {verbose : Bool}
    {r : Bump.Request} {entry : Log.Entry}
    (h : entry ∈ ((Bump.apply sink verbose r v).run s).1.log) : entry.level = .debug := by
  rw [Bump.apply, Bump.log_run] at h
  exact Bump.level_of_mem_storedEntries h

/-- Behind the steps of a bump, nothing but its success is logged. -/
theorem level_of_mem_closing {verbose : Bool} {outcome : Bump.Outcome Fault} {entry : Log.Entry}
    (h : entry ∈ closing verbose v outcome) : entry.level = .success := by
  unfold closing at h
  split at h
  · rw [Log.eq_of_mem_note h]
    rfl
  · cases h

/-- Of the entries of a session that loads a version, a success and a warning are logged by its
bump. -/
theorem filter_level_of_loads (level : Log.Level) (hinfo : .info ≠ level) (hdebug : .debug ≠ level)
    (herror : .error ≠ level) (h : Loads files cwd o s store v s') :
    ((run files cwd o).run s).1.entries.filter (fun entry => entry.level = level) =
      (announce o.verbose o.request).filter (fun entry => entry.level = level) ++
        (closing o.verbose v ((Bump.apply (store.persist files) o.verbose o.request v).run
          s').1).filter (fun entry => entry.level = level) := by
  obtain ⟨required, hrun⟩ := run_of_loads h
  have hrun : (run files cwd o).run s = _ := hrun o.request
  obtain ⟨failures, hentries, hfailures⟩ := exists_entries_eq ((run files cwd o).run s).1
  have hlocated : ∀ entry ∈ Log.note o.verbose (located store), entry.level = .info :=
    fun entry => Log.level_of_mem_note
  have hsteps : ∀ entry ∈
      ((Bump.apply (store.persist files) o.verbose o.request v).run s').1.log,
      entry.level = .debug := fun entry => level_of_mem_log_apply
  rw [hentries, hrun]
  simp only [List.filter_append, Log.filter_level_eq_nil hlocated hinfo,
    Log.filter_level_eq_nil hsteps hdebug, Log.filter_level_eq_nil hfailures herror,
    List.nil_append, List.append_nil]

/-- A session that loads no version logs neither a success nor a warning. -/
theorem filter_level_of_not_loads (level : Log.Level) (hinfo : .info ≠ level)
    (herror : .error ≠ level) (h : ∀ store v s', ¬Loads files cwd o s store v s') :
    ((run files cwd o).run s).1.entries.filter (fun entry => entry.level = level) = [] := by
  obtain ⟨log, failure, s', hlog, hrun⟩ := run_of_not_loads h
  have hrun : (run files cwd o).run s = _ := hrun o.request
  have hfailure : ∀ entry ∈ [failure.entry], entry.level = .error := by
    intro entry hentry
    rw [List.mem_singleton.1 hentry, failure.level_entry]
  rw [hrun, Outcome.entries, List.filter_append, Log.filter_level_eq_nil hlog hinfo,
    Log.filter_level_eq_nil hfailure herror, List.append_nil]

/-- Of the entries of a session that loads a version, those of a success are logged behind the
steps of its bump. -/
theorem filter_success_of_loads (h : Loads files cwd o s store v s') :
    ((run files cwd o).run s).1.entries.filter (fun entry => entry.level = .success) =
      closing o.verbose v ((Bump.apply (store.persist files) o.verbose o.request v).run s').1 := by
  have hclosing : (closing o.verbose v
      ((Bump.apply (store.persist files) o.verbose o.request v).run s').1).filter
        (fun entry => entry.level = .success) = _ :=
    List.filter_eq_self.2 fun entry hentry => decide_eq_true (level_of_mem_closing hentry)
  rw [filter_level_of_loads .success nofun nofun nofun h, filter_level_announce .success nofun,
    hclosing, if_neg (fun hwarning => nomatch hwarning.2), List.nil_append]

/-! ## What was written, and what was logged of it -/

/-- A bump that stored something closes with the number of versions that were stored. -/
theorem closing_of_pos {outcome : Bump.Outcome Fault} {n : Nat} (h : outcome.result = .ok n)
    (hpos : 0 < n) (verbose : Bool) (before : Version) :
    closing verbose before outcome = [bumped before outcome.version n] := by
  cases n with
  | zero => exact absurd hpos (Nat.lt_irrefl 0)
  | succ writes =>
    simp only [closing, h]
    exact Log.note_of_not_isDetail rfl verbose

/-- A bump closes with something only if something was stored. -/
theorem exists_pos_of_closing {verbose : Bool} {before : Version} {outcome : Bump.Outcome Fault}
    (h : closing verbose before outcome ≠ []) : ∃ n, outcome.result = .ok n ∧ 0 < n := by
  unfold closing at h
  split at h
  next writes hresult => exact ⟨writes + 1, hresult, Nat.succ_pos writes⟩
  · exact absurd rfl h

/-- The number of the versions that were stored is the number of those that the store accepted, and
the version in memory is the last of them. -/
theorem accepted_of_pos {sink : Bump.Sink σ Fault} {verbose : Bool} {r : Bump.Request} {n : Nat}
    (h : ((Bump.apply sink verbose r v).run s).1.result = .ok n) (hpos : 0 < n) :
    let accepted := Bump.Sink.accepted ((Bump.apply sink.watched verbose r v).run (s, [])).2.2
    accepted.length = n ∧
      accepted.getLast? = some ((Bump.apply sink verbose r v).run s).1.version := by
  intro accepted
  obtain ⟨hall, hlength, hversion⟩ := Bump.eq_of_run_ok h
  have haccepted : accepted = Bump.versions r.steps v := by
    rw [← hall]
    exact Bump.accepted_run sink verbose r.steps v s
  rw [haccepted, Bump.length_versions, Bump.apply, hversion]
  have hne : r.steps ≠ [] := List.length_pos_iff.1 (hlength ▸ hpos)
  exact ⟨hlength.symm, Bump.getLast?_versions hne v⟩

/-- **The log tells which versions were written, and that they were.**  A sink may refuse any
version.  The entries of a request in a verbose log are as many as the versions that the sink
accepts: the entry in each place names the step that led to the version in the same place, and its
tag.  Nothing is logged of a version that is refused.

A session logs a success if and only if it loads a version and carries its request out with at least
one write.  There is one such entry then.  It shows the version that was loaded, the last version
that the store accepted and the number of accepted versions, whatever version is required in the
end. -/
theorem log_tells_what_was_written :
    (∀ {σ ε : Type} (sink : Bump.Sink σ ε) (r : Bump.Request) (v : Version) (s : σ),
      let watched := (Bump.apply sink.watched true r v).run (s, [])
      let accepted := Bump.Sink.accepted watched.2.2
      (Bump.apply sink true r v).run s = (watched.1, watched.2.1) ∧
        watched.1.log.length = accepted.length ∧
        ∀ i w, accepted[i]? = some w → ∃ step, r.steps[i]? = some step ∧
          w = applyAll (r.steps.take (i + 1)) v ∧
          watched.1.log[i]? =
            some ⟨.debug, step.field.name ++ " step written: " ++ w.tag, []⟩) ∧
    ∀ {σ : Type} (files : Files (StateM σ)) (cwd : Path) (o : Options) (s : σ),
      let session := (run files cwd o).run s
      let successes := session.1.entries.filter fun entry => entry.level = .success
      let applied := fun (store : Store) (v : Version) (s' : σ) =>
        (Bump.apply (store.persist files) o.verbose o.request v).run s'
      let accepted := fun (store : Store) (v : Version) (s' : σ) => Bump.Sink.accepted
        ((Bump.apply (Bump.Sink.watched (store.persist files)) o.verbose o.request v).run
          (s', [])).2.2
      (successes ≠ [] ↔ ∃ store v s' n, Loads files cwd o s store v s' ∧
        (applied store v s').1.result = .ok n ∧ 0 < n) ∧
      ∀ store v s' n, Loads files cwd o s store v s' → (applied store v s').1.result = .ok n →
        0 < n → session.2 = (applied store v s').2 ∧ (accepted store v s').length = n ∧
          ∃ last, (accepted store v s').getLast? = some last ∧
            successes = [⟨.success, v.tag ++ " -> " ++ last.tag ++ " (" ++ Text.digits n ++
              " write(s))", []⟩] := by
  constructor
  · intro σ ε sink r v s watched accepted
    have hsame : (Bump.apply sink true r v).run s = (watched.1, watched.2.1) :=
      Bump.run_eq_watched sink true r.steps v s
    have houtcome : ((Bump.run sink true r.steps v).run s).1 = watched.1 := congrArg Prod.fst hsame
    refine ⟨hsame, ?_, ?_⟩
    · have haccepted : accepted = _ := Bump.accepted_run sink true r.steps v s
      rw [haccepted, ← houtcome, Bump.log_run, Bump.length_storedEntries, Bump.length_versions]
    · intro i w hw
      rw [← houtcome]
      exact Bump.getElem?_log_run hw
  · intro σ files cwd o s session successes applied accepted
    have hloads : ∀ store v s', Loads files cwd o s store v s' →
        successes = closing o.verbose v (applied store v s').1 :=
      fun store v s' => filter_success_of_loads
    constructor
    · constructor
      · intro hne
        by_cases h : ∃ store v s', Loads files cwd o s store v s'
        · obtain ⟨store, v, s', h⟩ := h
          rw [hloads store v s' h] at hne
          obtain ⟨n, hresult, hpos⟩ := exists_pos_of_closing hne
          exact ⟨store, v, s', n, h, hresult, hpos⟩
        · simp only [not_exists] at h
          exact absurd (filter_level_of_not_loads .success nofun nofun h) hne
      · rintro ⟨store, v, s', n, h, hresult, hpos⟩
        rw [hloads store v s' h, closing_of_pos hresult hpos]
        exact List.cons_ne_nil _ []
    · intro store v s' n h hresult hpos
      obtain ⟨required, hrun⟩ := run_of_loads h
      obtain ⟨hlength, hlast⟩ := accepted_of_pos hresult hpos
      refine ⟨congrArg Prod.snd (hrun o.request), hlength, _, hlast, ?_⟩
      rw [hloads store v s' h, closing_of_pos hresult hpos]
      rfl

/-- Of two steps the sink refuses the second one, and nothing is logged of it.  A patch that does
not reach the required version is logged as a success before the session fails. -/
theorem written_before_refusal_and_failure :
    let watched := (Bump.apply (Bump.Sink.watched (Bump.recorder (some 1) "full")) true
      { major := true, patch := true } ⟨0, 5, 5, "rc1"⟩).run ([], [])
    let session := (run (Files.ofTree []) ⟨"/"⟩
      { request := { patch := true }, require := some "9.0.0" }).run handwrittenTree
    watched.2.2 = [(⟨1, 0, 0, ""⟩, .ok ()), (⟨1, 0, 1, ""⟩, .error "full")] ∧
      watched.1.log.length = 1 ∧
      watched.1.log[0]? = some ⟨.debug, "major step written: v1.0.0", []⟩ ∧
      session.1.report = .error ⟨none, .tooOld ⟨1, 2, 4, ""⟩ ⟨9, 0, 0, ""⟩⟩ ∧
      session.1.entries.filter (fun entry => entry.level = .success) =
        [⟨.success, "v1.2.3-rc1 -> v1.2.4 (1 write(s))", []⟩] := by
  intro watched session
  obtain ⟨hsink, hsession⟩ := log_tells_what_was_written
  obtain ⟨-, hlength, hentries⟩ := hsink (Bump.recorder (some 1) "full")
    { major := true, patch := true } ⟨0, 5, 5, "rc1"⟩ []
  obtain ⟨step, hstep, -, hentry⟩ := hentries 0 ⟨1, 0, 0, ""⟩ rfl
  obtain rfl : .major = step := Option.some.inj hstep
  -- The patch is stored, and the version after it is too old.
  have hloads := loads_unconfigured
    (o := { request := { patch := true }, require := some "9.0.0" }) parse_handwritten rfl ⟨_, rfl⟩
  have haccepts := accepts_unconfigured handwritten (Bump.Request.steps { patch := true })
    ⟨1, 2, 3, "rc1"⟩
  have hrun : (Bump.apply (standardStore.persist (Files.ofTree [])) false { patch := true }
      ⟨1, 2, 3, "rc1"⟩).run handwrittenTree = _ := Bump.run_of_accepts haccepts
  obtain ⟨-, -, last, hlast, hsuccess⟩ := (hsession _ _ _ _).2 _ _ _ 1 hloads
    (congrArg (fun run => run.1.result) hrun) Nat.one_pos
  have haccepted := Bump.accepted_run (standardStore.persist (Files.ofTree [])) false
    (Bump.Request.steps { patch := true }) ⟨1, 2, 3, "rc1"⟩ handwrittenTree
  rw [handwrittenTree, Bump.acceptedSteps_of_accepts haccepts] at haccepted
  obtain rfl : ⟨1, 2, 4, ""⟩ = last :=
    Option.some.inj ((congrArg List.getLast? haccepted).symm.trans hlast)
  obtain ⟨log, t, hperform⟩ := exists_perform_handwritten
  have hrequired : readRequired (some "9.0.0") = .ok (some ⟨9, 0, 0, ""⟩) :=
    readRequired_of_read (by rfl)
  have hreport := congrArg (fun run => run.1.report) (run_of_perform_ok hrequired hperform)
  have hold : conclude .tag (some ⟨9, 0, 0, ""⟩) ⟨1, 2, 4, ""⟩ = _ :=
    conclude_of_lt .tag (by decide)
  exact ⟨rfl, hlength, hentry, hreport.trans hold, hsuccess⟩

end Session

end VersionStamp
