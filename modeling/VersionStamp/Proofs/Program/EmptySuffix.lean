/-
# An empty suffix is the same as none

A request with an empty suffix takes the steps of the request without a suffix.  So two sessions
that differ in it make the same calls on the files and come to the same end; the empty suffix is
mentioned in the log, once a version was loaded.  The main facts:

* `Bump.attempts_iff_isMutating` : a request that changes something hands a version to the sink;
* `Session.run_emptySuffix_of_loads`, `Session.run_emptySuffix_of_not_loads` : the two kinds of
  sessions, with an empty suffix and without one.
-/
import VersionStamp.Proofs.Command.Reading
import VersionStamp.Proofs.Log.Dress
import VersionStamp.Proofs.Program.Frame
import VersionStamp.Proofs.Session.Entries
import VersionStamp.Proofs.Session.Unconfigured

namespace VersionStamp

/-! ## Requests -/

namespace Bump

/-- A request changes something if and only if a version is handed to the sink, whatever the sink
answers, and if nothing is refused, if and only if a version is stored. -/
theorem attempts_iff_isMutating {σ ε : Type} (sink : Sink σ ε) (verbose : Bool) (r : Request)
    (v : Version) (s : σ) :
    (r.isMutating = true ↔ ((apply sink.watched verbose r v).run (s, [])).2.2 ≠ []) ∧
      ∀ n, ((apply sink verbose r v).run s).1.result = .ok n → (0 < n ↔ r.isMutating = true) := by
  have hsteps : r.isMutating = true ↔ r.steps ≠ [] := by
    rw [Ne, steps_eq_nil_iff, Bool.not_eq_false]
  rw [hsteps]
  refine ⟨(calls_run_eq_nil_iff sink verbose r.steps v s).symm.not, ?_⟩
  intro n hresult
  obtain ⟨-, rfl, -⟩ := eq_of_run_ok hresult
  exact List.length_pos_iff

end Bump

/-! ## Sessions -/

/-- Options with the suffix that they have are the same. -/
theorem Options.withSuffix_eq_self {o : Options} {suffix : Option String}
    (h : o.request.suffix = suffix) : o.withSuffix suffix = o := by
  rw [← h]
  rfl

namespace Session

variable {σ : Type} {files : Files (StateM σ)} {cwd : Path} {o : Options} {store : Store}
  {v : Version} {s s' : σ}

/-- The first entries of a session stay in front. -/
theorem entries_append (front back : List Log.Entry) (report : Except Failure String) :
    (Outcome.mk (front ++ back) report).entries = front ++ (Outcome.mk back report).entries := by
  cases report with
  | ok line => rfl
  | error failure => exact List.append_assoc front back [failure.entry]

/-- An empty suffix is announced before all that is announced without it. -/
theorem announce_emptySuffix (verbose : Bool) (r : Bump.Request) :
    announce verbose { r with suffix := some "" } =
      emptySuffix :: announce verbose { r with suffix := none } := by
  rw [announce_eq, announce_eq]
  rfl

/-- A session that loads a version has one entry more for an empty suffix, behind the one for the
version file, and is the same otherwise. -/
theorem run_emptySuffix_of_loads (h : Loads files cwd o s store v s') :
    let left := (run files cwd (o.withSuffix none)).run s
    let given := (run files cwd (o.withSuffix (some ""))).run s
    given.1.report = left.1.report ∧ given.2 = left.2 ∧
      ∃ back, left.1.entries = Log.note o.verbose (located store) ++ back ∧
        given.1.entries = Log.note o.verbose (located store) ++ emptySuffix :: back := by
  intro left given
  obtain ⟨required, hrun⟩ := run_of_loads h
  have hleft : left = _ := hrun { o.request with suffix := none }
  have hgiven : given = _ := hrun { o.request with suffix := some "" }
  have hsame : Bump.apply (store.persist files) o.verbose { o.request with suffix := some "" } v =
      Bump.apply (store.persist files) o.verbose { o.request with suffix := none } v := rfl
  rw [hsame, announce_emptySuffix] at hgiven
  rw [hleft, hgiven]
  exact ⟨rfl, rfl, _, entries_append _ _ _,
    (entries_append _ _ _).trans (congrArg _ (entries_append [emptySuffix] _ _))⟩

/-- A session that loads no version is the same with an empty suffix. -/
theorem run_emptySuffix_of_not_loads (h : ∀ store v s', ¬Loads files cwd o s store v s') :
    (run files cwd (o.withSuffix (some ""))).run s = (run files cwd (o.withSuffix none)).run s := by
  obtain ⟨log, failure, s', -, hrun⟩ := run_of_not_loads h
  exact (hrun { o.request with suffix := some "" }).trans
    (hrun { o.request with suffix := none }).symm

/-- In any case a session ends alike with an empty suffix and without one. -/
theorem run_emptySuffix (files : Files (StateM σ)) (cwd : Path) (o : Options) (s : σ) :
    let left := (run files cwd (o.withSuffix none)).run s
    let given := (run files cwd (o.withSuffix (some ""))).run s
    given.1.exitCode = left.1.exitCode ∧ given.1.output = left.1.output ∧ given.2 = left.2 := by
  intro left given
  by_cases hloads : ∃ store v s', Loads files cwd o s store v s'
  · obtain ⟨store, v, s', hloads⟩ := hloads
    obtain ⟨hreport, hstate, -⟩ := run_emptySuffix_of_loads hloads
    have hreport : given.1.report = left.1.report := hreport
    refine ⟨?_, ?_, hstate⟩
    · rw [Outcome.exitCode, hreport, Outcome.exitCode]
    · rw [Outcome.output, hreport, Outcome.output]
  · simp only [not_exists] at hloads
    have hsame : given = left := run_emptySuffix_of_not_loads hloads
    rw [hsame]
    exact ⟨rfl, rfl, rfl⟩

/-- A session without an empty suffix logs no warning. -/
theorem filter_warning_eq_nil (h : o.request.suffix ≠ some "") :
    ((run files cwd o).run s).1.entries.filter (fun entry => entry.level = .warning) = [] := by
  by_cases hloads : ∃ store v s', Loads files cwd o s store v s'
  · obtain ⟨store, v, s', hloads⟩ := hloads
    rw [filter_level_of_loads .warning nofun nofun nofun hloads,
      filter_level_announce .warning nofun, if_neg (fun hboth => h hboth.1), List.nil_append]
    exact Log.filter_level_eq_nil (fun entry => level_of_mem_closing) nofun
  · simp only [not_exists] at hloads
    exact filter_level_of_not_loads .warning nofun nofun hloads

end Session

/-! ## Runs of the program -/

namespace Program

/-- **An empty suffix is the same as none.**  A request that changes something hands a version to
the sink, whatever the sink answers; one that changes nothing succeeds with no write, and leaves the
sink and the version alone.  If a request succeeds, it has written something if and only if it
changes something.

A session with an empty suffix ends with the same status as the one without a suffix, prints the
same and leaves the same files.  The one without logs no warning; the other one logs a warning more
if a version is loaded, and is logged alike if none is.  So it is with two command lines of which
one gives an empty suffix, as it does with that option in front. -/
theorem empty_suffix_is_the_same_as_none :
    (∀ {σ ε : Type} (sink : Bump.Sink σ ε) (verbose : Bool) (r : Bump.Request) (v : Version)
      (s : σ),
      let applied := (Bump.apply sink verbose r v).run s
      let watched := (Bump.apply sink.watched verbose r v).run (s, [])
      let calls := watched.2.2
      applied = (watched.1, watched.2.1) ∧ (r.isMutating = true ↔ calls ≠ []) ∧
        (r.isMutating = false → applied = (⟨v, .ok 0, []⟩, s)) ∧
        ∀ n, applied.1.result = .ok n → (0 < n ↔ r.isMutating = true)) ∧
    (∀ {σ : Type} (files : Files (StateM σ)) (cwd : Path) (o : Options) (s : σ),
      let left := (Session.run files cwd (o.withSuffix none)).run s
      let given := (Session.run files cwd (o.withSuffix (some ""))).run s
      given.1.exitCode = left.1.exitCode ∧ given.1.output = left.1.output ∧ given.2 = left.2 ∧
        left.1.entries.filter (fun entry => entry.level = .warning) = [] ∧
        (∀ store v s', Session.Loads files cwd o s store v s' → ∃ back,
          left.1.entries = Log.note o.verbose (Session.located store) ++ back ∧
            given.1.entries = Log.note o.verbose (Session.located store) ++
              ⟨.warning, "Empty postfix ignored", []⟩ :: back) ∧
        ((∀ store v s', ¬Session.Loads files cwd o s store v s') →
          given.1.entries = left.1.entries)) ∧
    (∀ fileValue arguments (o : Options), Command.parse fileValue arguments = .run o →
      o.request.suffix = none →
        Command.parse fileValue ("--postfix" :: "" :: arguments) =
            .run (o.withSuffix (some "")) ∧
          Command.parse fileValue ("--postfix=" :: arguments) = .run (o.withSuffix (some ""))) ∧
    ∀ {σ : Type} (files : Files (StateM σ)) (cwd : Path) (style : Log.Style) fileValue
      argumentsLeft argumentsGiven (o : Options) (s : σ),
      Command.parse fileValue argumentsLeft = .run o → o.request.suffix = none →
      Command.parse fileValue argumentsGiven = .run (o.withSuffix (some "")) →
        let left := (run files cwd style fileValue argumentsLeft).run s
        let given := (run files cwd style fileValue argumentsGiven).run s
        given.1.status = left.1.status ∧ given.1.output = left.1.output ∧ given.2 = left.2 ∧
          (∀ store v s', Session.Loads files cwd o s store v s' → ∃ front back,
            left.1.errors = front ++ back ∧
              given.1.errors =
                front ++ style.entry ⟨.warning, "Empty postfix ignored", []⟩ ++ back) ∧
          ((∀ store v s', ¬Session.Loads files cwd o s store v s') →
            given.1.errors = left.1.errors) := by
  refine ⟨?_, ?_, ?_, ?_⟩
  · intro σ ε sink verbose r v s applied watched calls
    obtain ⟨hcalls, hwritten⟩ := Bump.attempts_iff_isMutating sink verbose r v s
    refine ⟨Bump.run_eq_watched sink verbose r.steps v s, hcalls, fun hr => ?_, hwritten⟩
    exact congrArg (fun program => program.run s) (Bump.apply_of_not_isMutating hr sink verbose v)
  · intro σ files cwd o s left given
    obtain ⟨hexit, houtput, hstate⟩ := Session.run_emptySuffix files cwd o s
    refine ⟨hexit, houtput, hstate, Session.filter_warning_eq_nil nofun, ?_, ?_⟩
    · intro store v s' h
      exact (Session.run_emptySuffix_of_loads h).2.2
    · intro h
      exact congrArg (fun session => session.1.entries) (Session.run_emptySuffix_of_not_loads h)
  · intro fileValue arguments o hparse ho
    exact Command.parse_emptySuffix_cons hparse ho
  · intro σ files cwd style fileValue argumentsLeft argumentsGiven o s hleft ho hgiven left given
    rw [← Options.withSuffix_eq_self ho] at hleft
    have hleft : left = _ := run_of_parse hleft cwd style s
    have hgiven : given = _ := run_of_parse hgiven cwd style s
    obtain ⟨hexit, houtput, hstate⟩ := Session.run_emptySuffix files cwd o s
    rw [hleft, hgiven]
    refine ⟨hexit, houtput, hstate, ?_, ?_⟩
    · intro store v s' h
      obtain ⟨-, -, back, hback, hwarned⟩ := Session.run_emptySuffix_of_loads h
      refine ⟨style.render (Log.note o.verbose (Session.located store)), style.render back, ?_, ?_⟩
      · exact (congrArg style.render hback).trans (Log.render_append style _ back)
      · refine (congrArg style.render hwarned).trans ?_
        rw [Log.render_append, Log.render_cons, String.append_assoc]
        rfl
    · intro h
      exact congrArg (fun session => style.render session.1.entries)
        (Session.run_emptySuffix_of_not_loads h)

open Session (Loads handwrittenTree)

/-- A run without arguments prints the handwritten version, and logs nothing. -/
theorem run_of_handwritten :
    (run (Files.ofTree []) ⟨"/"⟩ .plain none []).run handwrittenTree =
      (⟨0, "v1.2.3-rc1\n", ""⟩, handwrittenTree) := by
  have hperform := Session.perform_unconfigured Session.parse_handwritten
    (rfl : ({} : Options).file = none)
  have hparse : Command.parse none [] = .run {} := rfl
  have hrequired : Session.readRequired none = .ok none := rfl
  rw [handwrittenTree, run_of_parse hparse, Session.run_of_perform_ok (o := {}) hrequired hperform]
  rfl

/-- An empty suffix is no change, and with another change it is no second one.  It is mentioned when
the handwritten version is reported, and not when a required version makes no sense. -/
theorem empty_suffix_of_handwritten :
    let idle : Bump.Request := { suffix := some "" }
    let minor : Bump.Request := { minor := true, suffix := some "" }
    let left := (run (Files.ofTree []) ⟨"/"⟩ .plain none []).run handwrittenTree
    let given := (run (Files.ofTree []) ⟨"/"⟩ .plain none ["--postfix", ""]).run handwrittenTree
    let unread := fun suffix => (Session.run (Files.ofTree []) ⟨"/"⟩
      (Options.withSuffix { require := some "1.2" } suffix)).run handwrittenTree
    (Bump.apply (Bump.recorder (some 0) "full") true idle ⟨1, 2, 3, "rc1"⟩).run [] =
        (⟨⟨1, 2, 3, "rc1"⟩, .ok 0, []⟩, []) ∧
      ((Bump.apply (Bump.recorder none "full") true minor ⟨1, 2, 3, "rc1"⟩).run []).1.result =
        .ok 1 ∧ minor.isMutating = true ∧
      left.1 = ⟨0, "v1.2.3-rc1\n", ""⟩ ∧
      given.1.status = 0 ∧ given.1.output = "v1.2.3-rc1\n" ∧ given.2 = left.2 ∧
      given.1.errors = "[versionbump] [WARNING] Empty postfix ignored\n" ∧
      (unread (some "")).1.entries = (unread none).1.entries := by
  intro idle minor left given unread
  obtain ⟨hsink, hsession, hcommand, hprogram⟩ := empty_suffix_is_the_same_as_none
  have hparse : Command.parse none [] = .run {} := rfl
  obtain ⟨hgiven, -⟩ := hcommand none [] {} hparse rfl
  obtain ⟨-, -, hidle, -⟩ := hsink (Bump.recorder (some 0) "full") true idle ⟨1, 2, 3, "rc1"⟩ []
  obtain ⟨-, -, -, hminor⟩ := hsink (Bump.recorder none "full") true minor ⟨1, 2, 3, "rc1"⟩ []
  obtain ⟨hstatus, houtput, hstate, hwarned, -⟩ := hprogram (Files.ofTree []) ⟨"/"⟩ .plain none []
    ["--postfix", ""] {} handwrittenTree hparse rfl hgiven
  -- A required version that makes no sense keeps the session from loading any.
  have hunread : ∀ store v s', ¬Loads (Files.ofTree []) ⟨"/"⟩ { require := some "1.2" }
      handwrittenTree store v s' := by
    intro store v s' h
    obtain ⟨required, hrequired⟩ := h.required
    cases hrequired
  obtain ⟨-, -, -, -, -, halike⟩ := hsession (Files.ofTree []) ⟨"/"⟩ { require := some "1.2" }
    handwrittenTree
  have hloads := Session.loads_unconfigured (o := {}) Session.parse_handwritten rfl ⟨_, rfl⟩
  obtain ⟨front, back, hfront, hback⟩ := hwarned _ _ _ hloads
  have hleft : left = _ := run_of_handwritten
  -- Nothing else is logged, so the warning is all that the other run logs.
  have hsilent : front ++ back = "" := hfront.symm.trans (congrArg (·.1.errors) hleft)
  obtain ⟨rfl, rfl⟩ := String.append_eq_empty_iff.1 hsilent
  exact ⟨hidle rfl, rfl, (hminor 1 rfl).1 Nat.one_pos, congrArg Prod.fst hleft,
    hstatus.trans (congrArg (·.1.status) hleft), houtput.trans (congrArg (·.1.output) hleft),
    hstate, hback, halike hunread⟩

end Program

end VersionStamp
