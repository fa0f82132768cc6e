/-
# Requests against a sink that may refuse

A sink takes versions one at a time.  It may refuse any of them, by any rule, and change its
state whatever it answers.  Whether a request succeeds is decided by the sink alone:

* `run_of_accepts` : if every version is accepted, all steps are taken;
* `run_of_refuses` : the first refusal ends the run one step ahead of what was stored;
* `accepts_or_refuses` : there is no third way.
-/
import VersionStamp.Bump

namespace VersionStamp

namespace Bump

variable {σ ε : Type}

/-! ## Sinks -/

/-- A sink for versions, with states of type `σ` and errors of type `ε`. -/
abbrev Sink (σ ε : Type) := Version → StateM σ (Except ε Unit)

namespace Sink

/-- What the sink answers to a version. -/
def answer (store : Sink σ ε) (v : Version) (s : σ) : Except ε Unit :=
  ((store v).run s).1

/-- The state of the sink after its answer. -/
def next (store : Sink σ ε) (v : Version) (s : σ) : σ :=
  ((store v).run s).2

/-- The state of the sink after versions were handed to it in turn. -/
def stateAfter (store : Sink σ ε) (vs : List Version) (s : σ) : σ :=
  vs.foldl (fun s v => store.next v s) s

/-- The sink accepts all of the versions, when they are handed to it in turn. -/
def Accepts (store : Sink σ ε) : List Version → σ → Prop
  | [], _ => True
  | v :: rest, s => store.answer v s = .ok () ∧ Accepts store rest (store.next v s)

/-- The sink with a list of the versions that were handed to it, each with the answer. -/
def watched (store : Sink σ ε) : Sink (σ × List (Version × Except ε Unit)) ε :=
  fun v seen => (store.answer v seen.1, store.next v seen.1, seen.2 ++ [(v, store.answer v seen.1)])

end Sink

/-! ## The versions that steps lead through -/

/-- The version after steps that are taken in turn. -/
def applyAll (steps : List Step) (v : Version) : Version :=
  steps.foldl (fun w step => step.apply w) v

/-- Steps are taken in two parts. -/
theorem applyAll_append (front back : List Step) (v : Version) :
    applyAll (front ++ back) v = applyAll back (applyAll front v) :=
  List.foldl_append

/-- The versions after each of the steps. -/
def versions : List Step → Version → List Version
  | [], _ => []
  | step :: rest, v => step.apply v :: versions rest (step.apply v)

/-- There is one version after each step. -/
theorem length_versions (steps : List Step) (v : Version) :
    (versions steps v).length = steps.length := by
  induction steps generalizing v with
  | nil => rfl
  | cons step rest ih => rw [versions, List.length_cons, List.length_cons, ih]

/-- The versions after steps that are taken in two parts. -/
theorem versions_append (front back : List Step) (v : Version) :
    versions (front ++ back) v = versions front v ++ versions back (applyAll front v) := by
  induction front generalizing v with
  | nil => rfl
  | cons step rest ih =>
    rw [List.cons_append, versions, versions, ih, List.cons_append]
    rfl

/-- The log entries of steps that were all stored. -/
def storedEntries (verbose : Bool) : List Step → Version → List Log.Entry
  | [], _ => []
  | step :: rest, v =>
    Log.note verbose (stored step (step.apply v)) ++ storedEntries verbose rest (step.apply v)

/-! ## Taking the steps -/

section

variable {store : Sink σ ε} {verbose : Bool} {v : Version} {s : σ}

/-- An accepted step is followed by the rest of the steps. -/
theorem run_cons_of_ok {step : Step} {rest : List Step}
    (h : store.answer (step.apply v) s = .ok ()) :
    (run store verbose (step :: rest) v).run s =
      let later := (run store verbose rest (step.apply v)).run (store.next (step.apply v) s)
      (⟨later.1.version, later.1.result.map (· + 1),
        Log.note verbose (stored step (step.apply v)) ++ later.1.log⟩, later.2) := by
  have hpair : (store (step.apply v)).run s = (.ok (), store.next (step.apply v) s) :=
    Prod.ext h rfl
  rw [run, StateT.run_bind, hpair]
  rfl

/-- A refused step is the last one. -/
theorem run_cons_of_error {step : Step} {rest : List Step} {e : ε}
    (h : store.answer (step.apply v) s = .error e) :
    (run store verbose (step :: rest) v).run s =
      (⟨step.apply v, .error e, []⟩, store.next (step.apply v) s) := by
  have hpair : (store (step.apply v)).run s = (.error e, store.next (step.apply v) s) :=
    Prod.ext h rfl
  rw [run, StateT.run_bind, hpair]
  rfl

/-- If the sink accepts every version, all steps are taken. -/
theorem run_of_accepts {steps : List Step} (h : store.Accepts (versions steps v) s) :
    (run store verbose steps v).run s =
      (⟨applyAll steps v, .ok steps.length, storedEntries verbose steps v⟩,
        store.stateAfter (versions steps v) s) := by
  induction steps generalizing v s with
  | nil => rfl
  | cons step rest ih =>
    obtain ⟨hfirst, hrest⟩ := h
    rw [run_cons_of_ok hfirst, ih hrest]
    rfl

/-- The first refusal ends the run, with the version that was refused in memory. -/
theorem run_of_refuses {steps : List Step} {step : Step} {rest : List Step} {e : ε}
    (h : store.Accepts (versions steps v) s)
    (he : store.answer (step.apply (applyAll steps v)) (store.stateAfter (versions steps v) s) =
      .error e) :
    (run store verbose (steps ++ step :: rest) v).run s =
      (⟨step.apply (applyAll steps v), .error e, storedEntries verbose steps v⟩,
        store.next (step.apply (applyAll steps v)) (store.stateAfter (versions steps v) s)) := by
  induction steps generalizing v s with
  | nil => exact run_cons_of_error he
  | cons first more ih =>
    obtain ⟨hfirst, hmore⟩ := h
    rw [List.cons_append, run_cons_of_ok hfirst, ih hmore he]
    rfl

/-- Either the sink accepts every version, or it is a first one that it refuses. -/
theorem accepts_or_refuses (store : Sink σ ε) (steps : List Step) (v : Version) (s : σ) :
    store.Accepts (versions steps v) s ∨
      ∃ done step rest e, steps = done ++ step :: rest ∧ store.Accepts (versions done v) s ∧
        store.answer (step.apply (applyAll done v)) (store.stateAfter (versions done v) s) =
          .error e := by
  induction steps generalizing v s with
  | nil => exact Or.inl trivial
  | cons first more ih =>
    -- The first refusal is the one of this step, or else the first one among the rest.
    cases hfirst : store.answer (first.apply v) s with
    | error e => exact Or.inr ⟨[], first, more, e, rfl, trivial, hfirst⟩
    | ok _ =>
      rcases ih (first.apply v) (store.next (first.apply v) s) with hall | hrefused
      · exact Or.inl ⟨hfirst, hall⟩
      · obtain ⟨done, step, rest, e, rfl, hdone, he⟩ := hrefused
        exact Or.inr ⟨first :: done, step, rest, e, rfl, ⟨hfirst, hdone⟩, he⟩

/-- A sink that refuses nothing accepts every list of versions. -/
theorem accepts_of_never (hnever : ∀ v s, store.answer v s = .ok ()) (vs : List Version) (s : σ) :
    store.Accepts vs s := by
  induction vs generalizing s with
  | nil => trivial
  | cons v rest ih => exact ⟨hnever v s, ih (store.next v s)⟩

/-- The steps whose versions the sink accepts, up to the first that it refuses. -/
def acceptedSteps (store : Sink σ ε) : List Step → Version → σ → List Step
  | [], _, _ => []
  | step :: rest, v, s =>
    match store.answer (step.apply v) s with
    | .error _ => []
    | .ok () => step :: acceptedSteps store rest (step.apply v) (store.next (step.apply v) s)

/-- If every version is accepted, so are all steps. -/
theorem acceptedSteps_of_accepts {steps : List Step} (h : store.Accepts (versions steps v) s) :
    acceptedSteps store steps v s = steps := by
  induction steps generalizing v s with
  | nil => rfl
  | cons step rest ih =>
    obtain ⟨hfirst, hrest⟩ := h
    rw [acceptedSteps, hfirst]
    exact congrArg (step :: ·) (ih hrest)

/-- The first refusal ends the accepted steps. -/
theorem acceptedSteps_of_refuses {steps : List Step} {step : Step} {rest : List Step} {e : ε}
    (h : store.Accepts (versions steps v) s)
    (he : store.answer (step.apply (applyAll steps v)) (store.stateAfter (versions steps v) s) =
      .error e) :
    acceptedSteps store (steps ++ step :: rest) v s = steps := by
  induction steps generalizing v s with
  | nil =>
    have hfirst : store.answer (step.apply v) s = .error e := he
    rw [List.nil_append, acceptedSteps, hfirst]
  | cons first more ih =>
    obtain ⟨hfirst, hmore⟩ := h
    rw [List.cons_append, acceptedSteps, hfirst]
    exact congrArg (first :: ·) (ih hmore he)

end

/-! ## The watched sink -/

section

variable (store : Sink σ ε) {vs : List Version} {s : σ}

/-- Watching a sink does not change which versions it accepts. -/
theorem accepts_watched_iff {calls : List (Version × Except ε Unit)} :
    store.watched.Accepts vs (s, calls) ↔ store.Accepts vs s := by
  induction vs generalizing s calls with
  | nil => rfl
  | cons v rest ih => exact and_congr_right fun _ => ih

/-- A watched sink keeps the answer to every version. -/
theorem next_watched {v : Version} {answer : Except ε Unit} (h : store.answer v s = answer)
    (calls : List (Version × Except ε Unit)) :
    store.watched.next v (s, calls) = (store.next v s, calls ++ [(v, answer)]) :=
  Prod.ext rfl (by rw [← h]; rfl)

/-- A watched sink that accepts all versions keeps them in order. -/
theorem stateAfter_watched {calls : List (Version × Except ε Unit)} (h : store.Accepts vs s) :
    store.watched.stateAfter vs (s, calls) =
      (store.stateAfter vs s, calls ++ vs.map fun v => (v, .ok ())) := by
  induction vs generalizing s calls with
  | nil => exact Prod.ext rfl (List.append_nil calls).symm
  | cons v rest ih =>
    obtain ⟨hfirst, hrest⟩ := h
    show store.watched.stateAfter rest (store.watched.next v (s, calls)) = _
    rw [next_watched store hfirst, ih hrest, List.append_assoc]
    rfl

/-- The calls that a sink accepts are calls with its versions. -/
theorem map_fst_accepted : (vs.map fun v => (v, (.ok () : Except ε Unit))).map Prod.fst = vs := by
  rw [List.map_map]
  exact List.map_id vs

/-- The state after versions and one more. -/
theorem stateAfter_append_singleton (v : Version) :
    store.stateAfter (vs ++ [v]) s = store.next v (store.stateAfter vs s) := by
  simp [Sink.stateAfter]

variable {verbose : Bool} {steps : List Step} {v : Version}

/-- If every version is accepted, the calls are those with the versions after the steps. -/
theorem run_watched_of_accepts (h : store.Accepts (versions steps v) s) :
    (run store.watched verbose steps v).run (s, []) =
      (⟨applyAll steps v, .ok steps.length, storedEntries verbose steps v⟩,
        (store.stateAfter (versions steps v) s,
          (versions steps v).map fun w => (w, .ok ()))) := by
  rw [run_of_accepts ((accepts_watched_iff store).2 h), stateAfter_watched store h,
    List.nil_append]

/-- The last of the calls is the one that is refused. -/
theorem run_watched_of_refuses {step : Step} {rest : List Step} {e : ε}
    (h : store.Accepts (versions steps v) s)
    (he : store.answer (step.apply (applyAll steps v)) (store.stateAfter (versions steps v) s) =
      .error e) :
    (run store.watched verbose (steps ++ step :: rest) v).run (s, []) =
      (⟨step.apply (applyAll steps v), .error e, storedEntries verbose steps v⟩,
        (store.next (step.apply (applyAll steps v)) (store.stateAfter (versions steps v) s),
          (versions steps v).map (fun w => (w, .ok ())) ++
            [(step.apply (applyAll steps v), .error e)])) := by
  have hwatched : store.watched.answer (step.apply (applyAll steps v))
      (store.watched.stateAfter (versions steps v) (s, [])) = .error e := by
    rw [stateAfter_watched store h]
    exact he
  rw [run_of_refuses ((accepts_watched_iff store).2 h) hwatched, stateAfter_watched store h,
    next_watched store he, List.nil_append]

end

end Bump

end VersionStamp
