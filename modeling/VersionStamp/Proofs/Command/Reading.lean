/-
# Command lines that start a session

A command line starts a session if every one of its arguments adds something new to what was found
before, and if what is found in the end is complete.  `Collects` has one rule for each way in which
an argument can add something.  So what is said of sound command lines is shown for each of these
ways, and not for each way in which reading can break off.  The main facts:

* `read_eq_run_iff` : reading starts a session if and only if the arguments are collected;
* `exists_read_eq_behind` : what is found before the arguments is added to the options;
* `parse_verbose_cons` : the flag for details in front makes the session verbose, and nothing else;
* `parse_emptySuffix_cons` : an empty suffix in front is that of the request, and nothing else.
-/
import VersionStamp.Command

namespace VersionStamp

/-- The options with another suffix for the request, or with none. -/
def Options.withSuffix (o : Options) (suffix : Option String) : Options :=
  { o with request := { o.request with suffix } }

namespace Command

variable {found last : Found} {fileVariable : Option String} {arguments : List String} {o : Options}

/-! ## What arguments add -/

/-- The arguments lead from what was found before them to what is found in the end. -/
inductive Collects : List String → Found → Found → Prop where
  | done {found : Found} : Collects [] found found
  | separator {text : String} {found : Found} (htext : Argument.ofText text = .separator) :
      Collects [text] found found
  | short {text : String} {names : List Char} {rest : List String} {found next last : Found}
      (htext : Argument.ofText text = .short names) (hnext : readShort names found = .ok next)
      (hrest : Collects rest next last) : Collects (text :: rest) found last
  | flag {text : String} {name : List Char} {f : Flag} {rest : List String}
      {found next last : Found} (htext : Argument.ofText text = .long name none)
      (hname : longNames.lookup (String.ofList name) = some (.flag f))
      (hnext : found.addFlag f = some next) (hrest : Collects rest next last) :
      Collects (text :: rest) found last
  | setting {text : String} {name value : List Char} {s : Setting} {rest : List String}
      {found next last : Found} (htext : Argument.ofText text = .long name (some value))
      (hname : longNames.lookup (String.ofList name) = some (.setting s))
      (hnext : found.addSetting s (String.ofList value) = some next)
      (hrest : Collects rest next last) : Collects (text :: rest) found last
  | apart {text value : String} {name : List Char} {s : Setting} {rest : List String}
      {found next last : Found} (htext : Argument.ofText text = .long name none)
      (hname : longNames.lookup (String.ofList name) = some (.setting s))
      (hvalue : Argument.ofText value = .word) (hnext : found.addSetting s value = some next)
      (hrest : Collects rest next last) : Collects (text :: value :: rest) found last

/-- Arguments that are collected are read to their end. -/
theorem Collects.read_eq (h : Collects arguments found last) :
    read fileVariable arguments found = last.finish fileVariable := by
  induction h with
  | done => rw [read]
  | separator htext => simp [read, htext]
  | short htext hnext _ ih => simp [read, htext, hnext, ih]
  | flag htext hname hnext _ ih => simp [read, htext, hname, hnext, ih]
  | setting htext hname hnext _ ih => simp [read, htext, hname, hnext, ih]
  | apart htext hname hvalue hnext _ ih => simp [read, htext, hname, hvalue, hnext, ih]

/-- Short options that are run together never start a session by themselves. -/
theorem readShort_ne_run {names : List Char} : readShort names found ≠ .error (.run o) := by
  fun_induction readShort names found with
  | case1 found => exact nofun
  | case2 => exact nofun
  | case3 _ _ _ _ _ _ _ ih => exact ih
  | case4 _ _ _ q => cases q <;> exact nofun
  | case5 => exact nofun

/-- A command line that starts a session is collected. -/
theorem exists_collects_of_read (h : read fileVariable arguments found = .run o) :
    ∃ last, Collects arguments found last ∧ last.finish fileVariable = .run o := by
  fun_induction read fileVariable arguments found with
  | case1 found => exact ⟨found, .done, h⟩
  | case2 text rest found htext hlast =>
    rw [List.isEmpty_iff.1 hlast]
    exact ⟨found, .separator htext, h⟩
  | case6 text rest found names htext next hnext ih =>
    obtain ⟨last, hrest, hfinish⟩ := ih h
    exact ⟨last, .short htext hnext hrest, hfinish⟩
  | case8 text rest found name f hname next hnext htext ih =>
    obtain ⟨last, hrest, hfinish⟩ := ih h
    exact ⟨last, .flag htext hname hnext hrest, hfinish⟩
  | case11 text rest found name s value hname next hnext htext ih =>
    obtain ⟨last, hrest, hfinish⟩ := ih h
    exact ⟨last, .setting htext hname hnext hrest, hfinish⟩
  | case14 text found name s hname value rest hvalue next hnext htext ih =>
    obtain ⟨last, hrest, hfinish⟩ := ih h
    exact ⟨last, .apart htext hname hvalue hnext hrest, hfinish⟩
  -- In all other cases reading breaks off, and no session is started.
  | case5 text rest found names htext command hnames =>
    rw [h] at hnames
    exact absurd hnames readShort_ne_run
  | case9 text rest found name q =>
    cases q <;> cases h
  | _ => cases h

/-- Reading starts a session if and only if all arguments are collected, and what is found in the
end is complete. -/
theorem read_eq_run_iff :
    read fileVariable arguments found = .run o ↔
      ∃ last, Collects arguments found last ∧ last.finish fileVariable = .run o := by
  constructor
  · exact exists_collects_of_read
  · rintro ⟨last, hcollects, hfinish⟩
    rw [hcollects.read_eq, hfinish]

/-! ## Arguments behind others -/

namespace Found

variable {found next front full : Found} {f : Flag} {s : Setting} {value : String}

/-- A flag that is added was not there before. -/
theorem addFlag_eq_some_iff :
    found.addFlag f = some next ↔
      f ∉ found.flags ∧ { found with flags := f :: found.flags } = next := by
  unfold addFlag
  split
  next hmem => exact iff_of_false nofun fun h => h.1 hmem
  next hnew => rw [Option.some_inj, and_iff_right hnew]

/-- A setting that is added was not there before, and has a value that it may have. -/
theorem addSetting_eq_some_iff :
    found.addSetting s value = some next ↔
      (found.settings.lookup s = none ∧ accepts s value = true) ∧
        { found with settings := (s, value) :: found.settings } = next := by
  unfold addSetting
  split
  next hbad =>
    refine iff_of_false nofun fun h => ?_
    simp [h.1.1, h.1.2] at hbad
  next hgood =>
    obtain ⟨hnone, haccepts⟩ := not_or.1 hgood
    have hfree : found.settings.lookup s = none := Option.not_isSome_iff_eq_none.1 hnone
    rw [Option.some_inj, and_iff_right ⟨hfree, by simpa using haccepts⟩]

/-- What was found, and a front before all of it. -/
def behind (found front : Found) : Found where
  flags := found.flags ++ front.flags
  settings := found.settings ++ front.settings

/-- A setting that is not found is looked up in the front. -/
theorem lookup_behind (found front : Found) (s : Setting) :
    (found.behind front).settings.lookup s =
      (found.settings.lookup s).or (front.settings.lookup s) :=
  List.lookup_append

/-- No option of the front is found again. -/
structure Apart (found front : Found) : Prop where
  flags : ∀ f ∈ front.flags, f ∉ found.flags
  settings : ∀ s, (front.settings.lookup s).isSome → found.settings.lookup s = none

/-- A flag that is added behind a front is not in it, so that it is added alike. -/
theorem addFlag_behind (h : found.addFlag f = some next) (hapart : next.Apart front) :
    found.Apart front ∧ (found.behind front).addFlag f = some (next.behind front) := by
  obtain ⟨hnew, rfl⟩ := addFlag_eq_some_iff.1 h
  have hfront : f ∉ front.flags := fun hmem => hapart.flags f hmem List.mem_cons_self
  refine ⟨⟨fun g hg hmem => hapart.flags g hg (List.mem_cons_of_mem f hmem), hapart.settings⟩, ?_⟩
  exact addFlag_eq_some_iff.2 ⟨List.not_mem_append hnew hfront, rfl⟩

/-- A setting that is added behind a front is not in it, so that it is added alike. -/
theorem addSetting_behind (h : found.addSetting s value = some next) (hapart : next.Apart front) :
    found.Apart front ∧ (found.behind front).addSetting s value = some (next.behind front) := by
  obtain ⟨⟨hfree, haccepts⟩, rfl⟩ := addSetting_eq_some_iff.1 h
  have hfound : ∀ t, (front.settings.lookup t).isSome →
      t ≠ s ∧ found.settings.lookup t = none := by
    intro t ht
    have hnone := hapart.settings t ht
    rw [List.lookup_cons] at hnone
    by_cases hts : t = s
    · rw [hts, beq_self_eq_true] at hnone
      cases hnone
    · rw [beq_false_of_ne hts] at hnone
      exact ⟨hts, hnone⟩
  have hfront : front.settings.lookup s = none :=
    Option.not_isSome_iff_eq_none.1 fun hs => (hfound s hs).1 rfl
  refine ⟨⟨hapart.flags, fun t ht => (hfound t ht).2⟩, ?_⟩
  refine addSetting_eq_some_iff.2 ⟨⟨?_, haccepts⟩, rfl⟩
  rw [lookup_behind, hfree, hfront, Option.none_or]

/-- What is found in the end is completed by the file that stands in for one that is not given. -/
inductive Completes : Option String → Found → Found → Prop where
  | given {fileVariable : Option String} {found : Found} {value : String}
      (hfile : found.settings.lookup .file = some value) : Completes fileVariable found found
  | standIn {found full : Found} {value : String} (hfile : found.settings.lookup .file = none)
      (hfull : found.addSetting .file value = some full) : Completes (some value) found full
  | neither {found : Found} (hfile : found.settings.lookup .file = none) :
      Completes none found found

/-- What is complete starts a session, unless it names two forms of the report. -/
theorem Completes.finish_eq (h : Completes fileVariable found full) :
    found.finish fileVariable =
      if .int ∈ full.flags ∧ .json ∈ full.flags then usageError else run full.options := by
  cases h with
  | given hfile => simp only [finish, hfile]
  | standIn hfile hfull => simp only [finish, hfile, hfull]
  | neither hfile => simp only [finish, hfile]

/-- What starts a session can be completed. -/
theorem exists_completes_of_finish (h : found.finish fileVariable = .run o) :
    ∃ full, Completes fileVariable found full := by
  cases hfile : found.settings.lookup .file with
  | some value => exact ⟨found, .given hfile⟩
  | none =>
    cases fileVariable with
    | none => exact ⟨found, .neither hfile⟩
    | some value =>
      cases hfull : found.addSetting .file value with
      | some full => exact ⟨full, .standIn hfile hfull⟩
      | none =>
        simp only [finish, hfile, hfull] at h
        cases h

/-- Behind a front that names no file, what is found is completed alike. -/
theorem Completes.behind (h : Completes fileVariable found full) (hapart : full.Apart front)
    (hfront : front.settings.lookup .file = none) :
    found.Apart front ∧ Completes fileVariable (found.behind front) (full.behind front) := by
  have hlookup : (found.behind front).settings.lookup .file = found.settings.lookup .file := by
    rw [lookup_behind, hfront, Option.or_none]
  cases h with
  | given hfile => exact ⟨hapart, .given (hlookup.trans hfile)⟩
  | standIn hfile hfull =>
    obtain ⟨hfound, hadd⟩ := addSetting_behind hfull hapart
    exact ⟨hfound, .standIn (hlookup.trans hfile) hadd⟩
  | neither hfile => exact ⟨hapart, .neither (hlookup.trans hfile)⟩

end Found

/-- Short options are read alike behind a front. -/
theorem readShort_behind {names : List Char} {next front : Found}
    (h : readShort names found = .ok next) (hapart : next.Apart front) :
    found.Apart front ∧ readShort names (found.behind front) = .ok (next.behind front) := by
  fun_induction readShort names found with
  | case1 found =>
    cases h
    exact ⟨hapart, rfl⟩
  | case3 found name rest f hname next' hnext ih =>
    obtain ⟨hmid, hrest⟩ := ih h
    obtain ⟨hfound, hadd⟩ := Found.addFlag_behind hnext hmid
    refine ⟨hfound, ?_⟩
    simp only [readShort, hname, hadd, hrest]
  | _ => cases h

/-- Arguments are collected alike behind a front of which they name no option again. -/
theorem Collects.behind {front : Found} (h : Collects arguments found last)
    (hapart : last.Apart front) :
    found.Apart front ∧ Collects arguments (found.behind front) (last.behind front) := by
  induction h with
  | done => exact ⟨hapart, .done⟩
  | separator htext => exact ⟨hapart, .separator htext⟩
  | short htext hnext _ ih =>
    obtain ⟨hmid, hrest⟩ := ih hapart
    obtain ⟨hfound, hread⟩ := readShort_behind hnext hmid
    exact ⟨hfound, .short htext hread hrest⟩
  | flag htext hname hnext _ ih =>
    obtain ⟨hmid, hrest⟩ := ih hapart
    obtain ⟨hfound, hadd⟩ := Found.addFlag_behind hnext hmid
    exact ⟨hfound, .flag htext hname hadd hrest⟩
  | setting htext hname hnext _ ih =>
    obtain ⟨hmid, hrest⟩ := ih hapart
    obtain ⟨hfound, hadd⟩ := Found.addSetting_behind hnext hmid
    exact ⟨hfound, .setting htext hname hadd hrest⟩
  | apart htext hname hvalue hnext _ ih =>
    obtain ⟨hmid, hrest⟩ := ih hapart
    obtain ⟨hfound, hadd⟩ := Found.addSetting_behind hnext hmid
    exact ⟨hfound, .apart htext hname hvalue hadd hrest⟩

/-- A command line that starts a session starts one behind a front as well, if it names no option of
the front again, and if the front names neither a file nor a form of the report. -/
theorem exists_read_eq_behind {front : Found} (h : parse fileVariable arguments = .run o)
    (hfile : front.settings.lookup .file = none)
    (hint : .int ∉ front.flags) (hjson : .json ∉ front.flags)
    (hapart : ∀ full : Found, full.options = o → full.Apart front) :
    ∃ full : Found, full.options = o ∧
      read fileVariable arguments front = .run (full.behind front).options := by
  obtain ⟨last, hcollects, hfinish⟩ := read_eq_run_iff.1 h
  obtain ⟨full, hfull⟩ := Found.exists_completes_of_finish hfinish
  rw [hfull.finish_eq] at hfinish
  split at hfinish
  · cases hfinish
  next hforms =>
    have ho : full.options = o := run.inj hfinish
    obtain ⟨hlast, hbehind⟩ := hfull.behind (hapart full ho) hfile
    refine ⟨full, ho, read_eq_run_iff.2 ⟨_, (hcollects.behind hlast).2, ?_⟩⟩
    rw [hbehind.finish_eq, if_neg]
    simpa [Found.behind, hint, hjson] using hforms

/-! ## Two options in front -/

namespace Found

/-- The flag for details makes the options verbose, and nothing else. -/
theorem options_behind_verbose (full : Found) :
    (full.behind ⟨[.verbose], []⟩).options = { full.options with verbose := true } := by
  simp [options, report, behind]

/-- An empty suffix is that of the request if no other one is found, and nothing else. -/
theorem options_behind_emptySuffix {full : Found} (h : full.settings.lookup .suffix = none) :
    (full.behind ⟨[], [(.suffix, "")]⟩).options = full.options.withSuffix (some "") := by
  have hflags : (full.behind ⟨[], [(.suffix, "")]⟩).flags = full.flags := List.append_nil _
  have hsuffix : (full.behind ⟨[], [(.suffix, "")]⟩).settings.lookup .suffix = some "" := by
    rw [lookup_behind, h]
    rfl
  have hfile : (full.behind ⟨[], [(.suffix, "")]⟩).settings.lookup .file =
      full.settings.lookup .file := (lookup_behind ..).trans (Option.or_none ..)
  have hrequire : (full.behind ⟨[], [(.suffix, "")]⟩).settings.lookup .require =
      full.settings.lookup .require := (lookup_behind ..).trans (Option.or_none ..)
  simp only [options, report, Options.withSuffix, hflags, hsuffix, hfile, hrequire]

end Found

/-- The flag for details in front of a command line that has none makes the session verbose, and
changes nothing else. -/
theorem parse_verbose_cons (h : parse fileVariable arguments = .run o) (ho : o.verbose = false) :
    parse fileVariable ("--verbose" :: arguments) = .run { o with verbose := true } := by
  have hapart : ∀ full : Found, full.options = o → full.Apart ⟨[.verbose], []⟩ := by
    rintro full rfl
    refine ⟨fun f hf => ?_, nofun⟩
    rw [List.mem_singleton.1 hf]
    exact of_decide_eq_false ho
  obtain ⟨full, rfl, hread⟩ := exists_read_eq_behind h rfl (by decide) (by decide) hapart
  rw [Found.options_behind_verbose] at hread
  rw [parse, read]
  exact hread

/-- An empty suffix in front of a command line that gives none makes it the suffix of the request,
and changes nothing else; its two spellings are read alike. -/
theorem parse_emptySuffix_cons (h : parse fileVariable arguments = .run o)
    (ho : o.request.suffix = none) :
    parse fileVariable ("--postfix" :: "" :: arguments) = .run (o.withSuffix (some "")) ∧
      parse fileVariable ("--postfix=" :: arguments) = .run (o.withSuffix (some "")) := by
  have hapart : ∀ full : Found, full.options = o → full.Apart ⟨[], [(.suffix, "")]⟩ := by
    rintro full rfl
    refine ⟨nofun, fun s hs => ?_⟩
    cases s with
    | suffix => exact ho
    | file => cases hs
    | require => cases hs
  obtain ⟨full, rfl, hread⟩ := exists_read_eq_behind h rfl (by decide) (by decide) hapart
  rw [Found.options_behind_emptySuffix ho] at hread
  constructor
  · rw [parse, read]
    exact hread
  · rw [parse, read]
    exact hread

end Command

end VersionStamp
