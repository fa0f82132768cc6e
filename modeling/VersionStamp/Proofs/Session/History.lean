/-
# A history of sessions

Sessions on one store come one after the other, and each loads what those before it have left.
Each takes the version in the file to the next by the effect of its request.  So a history of
sessions is the fold of its requests.
-/
import Mathlib.Data.List.Induction
import VersionStamp.Proofs.Session.Unconfigured
import VersionStamp.Proofs.Session.Update

namespace VersionStamp

namespace Session

open Bump (Request)

variable {σ : Type} {files : Files (StateM σ)} {store : Store} {holds : σ → String → Prop}
  {s : σ} {text : String} {v : Version}

/-! ## The text between two sessions -/

/-- The text of the version file after requests: the old one for as long as nothing is changed,
and from then on the header of the version. -/
def textAfter (stem text : String) (v : Version) (requests : List Request) : String :=
  if requests.any Request.isMutating then Header.render stem (Bump.effectAll requests v) else text

/-- One more request either writes its own version or leaves the text as it was. -/
theorem textAfter_append_singleton (stem text : String) (v : Version) (done : List Request)
    (r : Request) :
    textAfter stem text v (done ++ [r]) =
      if r.isMutating then Header.render stem (r.effect (Bump.effectAll done v))
      else textAfter stem text v done := by
  unfold textAfter
  rw [Bump.effectAll_append_singleton, List.any_append]
  cases hr : r.isMutating with
  | true => simp [hr]
  | false => simp [hr, Bump.effect_of_not_isMutating hr]

/-! ## All sessions -/

/-- The state after sessions that are held in turn. -/
def stateAfter (files : Files (StateM σ)) (store : Store) (verbose : Bool)
    (requests : List Request) (s : σ) : σ :=
  requests.foldl (fun s r => ((update files store verbose r).run s).2) s

/-- The last session starts from the state that the others leave. -/
theorem stateAfter_append_singleton (verbose : Bool) (done : List Request) (r : Request) :
    stateAfter files store verbose (done ++ [r]) s =
      ((update files store verbose r).run (stateAfter files store verbose done s)).2 :=
  List.foldl_append

/-- **Many sessions.**  The file stands for the effect of all requests after their sessions. -/
theorem stands_stateAfter (hkeeps : files.Keeps store.path holds)
    (hstem : Header.IsSafeStem store.stem) (verbose : Bool) {requests : List Request}
    (hall : ∀ r ∈ requests, r.IsWritable) (h : Stands holds s text v) :
    Stands holds (stateAfter files store verbose requests s)
      (textAfter store.stem text v requests) (Bump.effectAll requests v) := by
  induction requests using List.reverseRecOn with
  | nil => exact h
  | append_singleton done r ih =>
    -- The last session starts from what the others have left.
    have hdone := ih fun r' hr' => hall r' (List.mem_append_left _ hr')
    have hr : r.IsWritable := hall r (List.mem_append_right _ List.mem_cons_self)
    obtain ⟨log, s', hrun, hnext⟩ := update_of_stands hkeeps hstem verbose hr hdone
    rw [stateAfter_append_singleton, hrun, textAfter_append_singleton,
      Bump.effectAll_append_singleton]
    exact hnext

/-- **A history of sessions refines the fold of its requests.**  Let the stem hold no blank, let
the version file hold a text that is read as `v`, and let every suffix that is asked for be an
accepted one.  Then every session succeeds and reports the effect of the requests so far, the same
version is loaded after it, and the file holds the old text up to the first change and from then
on the header of that version. -/
theorem history_refines_effectAll (hkeeps : files.Keeps store.path holds)
    (hstem : ∀ c ∈ store.stem.toList, Text.isBlank c = false) (hholds : holds s text)
    (hparse : Header.parse text = .ok v) {requests : List Request}
    (hall : ∀ r ∈ requests, r.IsWritable) (verbose : Bool) :
    let current := fun i => Bump.effectAll (requests.take i) v
    let state := fun i => stateAfter files store verbose (requests.take i) s
    (∀ i, holds (state i) (textAfter store.stem text v (requests.take i)) ∧
        ((store.load files).run (state i)).1 = .ok (current i)) ∧
      ∀ i r, requests[i]? = some r →
        ∃ log result, (update files store verbose r).run (state i) =
            ((log, result), state (i + 1)) ∧
          result = .ok (current (i + 1)) ∧
          ∀ form, result.bind (conclude form none) = .ok (form.render (current (i + 1))) := by
  intro current state
  have hsafe := Header.isSafeStem_of_forall hstem
  have hstands : ∀ i,
      Stands holds (state i) (textAfter store.stem text v (requests.take i)) (current i) := by
    intro i
    refine stands_stateAfter hkeeps hsafe verbose ?_ ⟨hholds, hparse⟩
    exact fun r hr => hall r (List.mem_of_mem_take hr)
  constructor
  · intro i
    obtain ⟨s', hload, -⟩ := store.load_of_holds hkeeps (hstands i).held (hstands i).parsed
    exact ⟨(hstands i).held, congrArg Prod.fst hload⟩
  · intro i r hi
    have htake : requests.take (i + 1) = requests.take i ++ [r] := by
      rw [List.take_add_one, hi]
      rfl
    obtain ⟨log, s', hrun, -⟩ :=
      update_of_stands hkeeps hsafe verbose (hall r (List.mem_of_getElem? hi)) (hstands i)
    have hcurrent : current (i + 1) = r.effect (current i) := by
      simp only [current, htake, Bump.effectAll_append_singleton]
    have hstate : state (i + 1) = s' := by
      simp only [state, htake, stateAfter_append_singleton]
      exact congrArg Prod.snd hrun
    rw [hcurrent, hstate]
    exact ⟨log, _, hrun, rfl, fun form => rfl⟩

/-- A request that changes nothing, one that raises two numbers and sets a suffix, and one that
raises the patch. -/
def threeRequests : List Request :=
  [{ suffix := some "" }, { minor := true, patch := true, suffix := some "rc2" }, { patch := true }]

/-- The handwritten text outlives the first of three sessions, and the last one leaves `1.3.2`. -/
theorem history_of_handwritten :
    let store : Store := ⟨⟨"/src/version.inc"⟩, "APP"⟩
    let state := fun i =>
      stateAfter (Files.ofTree []) store true (threeRequests.take i) handwrittenTree
    Header.parse handwritten = .ok ⟨1, 2, 3, "rc1"⟩ ∧ (∀ r ∈ threeRequests, r.IsWritable) ∧
      handwrittenTree.Holds [] store.path handwritten ∧
      (state 1).Holds [] store.path handwritten ∧
      (state 3).Holds [] store.path (Header.render "APP" ⟨1, 3, 2, ""⟩) ∧
      ((store.load (Files.ofTree [])).run (state 3)).1 = .ok ⟨1, 3, 2, ""⟩ := by
  intro store state
  have hall : ∀ r ∈ threeRequests, r.IsWritable := by decide
  have hholds : handwrittenTree.Holds [] store.path handwritten := holds_unconfigured handwritten
  have hstem : ∀ c ∈ "APP".toList, Text.isBlank c = false :=
    Text.all_not_isBlank_iff.1 (by decide)
  obtain ⟨hstate, -⟩ := history_refines_effectAll (Files.ofTree_keeps [] store.path)
    hstem hholds parse_handwritten hall true
  exact ⟨parse_handwritten, hall, hholds, (hstate 1).1, (hstate 3).1, (hstate 3).2⟩

end Session

end VersionStamp
