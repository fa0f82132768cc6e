/-
# Whether a bump makes a version newer

A step raises one number of the release and resets those below it.  The packed number gains the
weight of the raised number, and loses what the reset ones stood for.  Of the steps of a request
only the first one can lose anything, since it leaves nothing to the others that they could reset;
so a request makes the release newer exactly if its first step loses less than all of them gain.

That is so for every release whose minor and patch number have three digits.  Beyond that a bump
may make a release older: `0.1.0` is older than `0.0.5000`.
-/
import Mathlib.Data.Nat.Init
import VersionStamp.Proofs.Bump.Recorder
import VersionStamp.Proofs.Version.Release

namespace VersionStamp

namespace Bump

/-! ## One step -/

namespace Step

/-- What the packed number gains by the number that the step raises. -/
def gain : Step → Nat
  | major => 1000000
  | minor => 1000
  | patch => 1
  | suffix _ => 0

/-- What the packed number loses by the numbers that the step resets. -/
def loss : Step → Version → Nat
  | major, v => v.minor.toNat * 1000 + v.patch.toNat
  | minor, v => v.patch.toNat
  | patch, _ => 0
  | suffix _, _ => 0

/-- The number that the step raises is not the largest one already. -/
def HasRoom : Step → Version → Prop
  | major, v => v.major ≠ 4294967295
  | minor, v => v.minor ≠ 4294967295
  | patch, v => v.patch ≠ 4294967295
  | suffix _, _ => True

instance (step : Step) (v : Version) : Decidable (step.HasRoom v) :=
  match step with
  | major => inferInstanceAs (Decidable (v.major ≠ 4294967295))
  | minor => inferInstanceAs (Decidable (v.minor ≠ 4294967295))
  | patch => inferInstanceAs (Decidable (v.patch ≠ 4294967295))
  | suffix _ => inferInstanceAs (Decidable True)

/-- The packed number after a step, without a subtraction. -/
theorem packed_apply {step : Step} {v : Version} (h : step.HasRoom v) :
    (step.apply v).packed.toNat + step.loss v = v.packed.toNat + step.gain := by
  rw [Version.toNat_packed, Version.toNat_packed]
  cases step with
  | major =>
    have hne : v.major ≠ 4294967295 := h
    have hnext := Version.toNat_next_of_ne hne
    simp only [apply, Version.bumpMajor, loss, gain, UInt32.toNat_zero]
    omega
  | minor =>
    have hne : v.minor ≠ 4294967295 := h
    have hnext := Version.toNat_next_of_ne hne
    simp only [apply, Version.bumpMinor, loss, gain, UInt32.toNat_zero]
    omega
  | patch =>
    have hne : v.patch ≠ 4294967295 := h
    have hnext := Version.toNat_next_of_ne hne
    simp only [apply, Version.bumpPatch, loss, gain]
    omega
  | suffix value => rfl

/-- A step leaves nothing to a later one that it could reset. -/
theorem loss_apply {step later : Step} (h : step.field.line < later.field.line) (v : Version) :
    later.loss (step.apply v) = 0 := by
  cases step with
  | major =>
    cases later with
    | major => exact absurd h (by decide)
    | _ => rfl
  | minor =>
    cases later with
    | patch => rfl
    | suffix value => rfl
    | _ => exact absurd h (by decide)
  | patch =>
    cases later with
    | suffix value => rfl
    | _ => exact absurd h (by decide)
  | suffix value => cases later <;> simp [field, Field.line] at h

/-- A raised number outweighs three digits of each number below it. -/
theorem loss_lt_gain {step : Step} {v : Version} (h : 0 < step.gain) (hminor : v.minor.toNat ≤ 999)
    (hpatch : v.patch.toNat ≤ 999) : step.loss v < step.gain := by
  cases step with
  | suffix value => exact absurd h (Nat.lt_irrefl 0)
  | _ =>
    simp only [loss, gain]
    omega

end Step

/-! ## The steps of a request -/

/-- What the packed number gains by steps. -/
def gain : List Step → Nat
  | [] => 0
  | step :: rest => step.gain + gain rest

/-- What the packed number loses by steps in their order: what it loses by the first of them. -/
def loss : List Step → Version → Nat
  | [], _ => 0
  | step :: _, v => step.loss v

/-- No step raises a number that is the largest one already. -/
def HasRoom : List Step → Version → Prop
  | [], _ => True
  | step :: rest, v => step.HasRoom v ∧ HasRoom rest (step.apply v)

instance decidableHasRoom : (steps : List Step) → (v : Version) → Decidable (HasRoom steps v)
  | [], _ => inferInstanceAs (Decidable True)
  | step :: rest, v =>
    have := decidableHasRoom rest (step.apply v)
    inferInstanceAs (Decidable (step.HasRoom v ∧ HasRoom rest (step.apply v)))

/-- The packed number after steps that are taken in the order of the fields. -/
theorem packed_applyAll {steps : List Step}
    (hsteps : steps.Pairwise fun a b => a.field.line < b.field.line) {v : Version}
    (hroom : HasRoom steps v) :
    (applyAll steps v).packed.toNat + loss steps v = v.packed.toNat + gain steps := by
  induction steps generalizing v with
  | nil => rfl
  | cons step rest ih =>
    obtain ⟨hfirst, hrest⟩ := List.pairwise_cons.1 hsteps
    have hone := Step.packed_apply hroom.1
    have hmore := ih hrest hroom.2
    have hlater : loss rest (step.apply v) = 0 := by
      cases rest with
      | nil => rfl
      | cons later more => exact Step.loss_apply (hfirst later List.mem_cons_self) v
    have hgain : gain (step :: rest) = step.gain + gain rest := rfl
    show (applyAll rest (step.apply v)).packed.toNat + step.loss v = _
    rw [hgain]
    omega

/-- The steps of a request are in the order of the fields. -/
theorem pairwise_steps (r : Request) :
    r.steps.Pairwise fun a b => a.field.line < b.field.line := by
  have hall : Field.all.Pairwise fun a b => a.line < b.line := by decide
  have hfields := hall.sublist (fields_steps_sublist r)
  exact hfields.of_map Step.field fun _ _ h => h

/-- The release after a request compares with the one before as gain compares with loss. -/
theorem compareRelease_applyAll {r : Request} {v : Version} (hroom : HasRoom r.steps v) :
    (applyAll r.steps v).compareRelease v = compare (gain r.steps) (loss r.steps v) := by
  rw [Version.compareRelease_eq_compare]
  exact Version.compare_eq_of_add_eq (packed_applyAll (pairwise_steps r) hroom)

/-- Does the request raise a number of the release? -/
def Request.raises (r : Request) : Bool :=
  r.major || r.minor || r.patch

/-- The first step of a request that raises a number raises one. -/
theorem exists_gain_pos {r : Request} (hr : r.raises = true) :
    ∃ step rest, r.steps = step :: rest ∧ 0 < step.gain := by
  cases hmajor : r.major with
  | true => exact ⟨.major, _, by rw [Request.steps, hmajor]; rfl, by decide⟩
  | false =>
    cases hminor : r.minor with
    | true => exact ⟨.minor, _, by rw [Request.steps, hmajor, hminor]; rfl, by decide⟩
    | false =>
      have hpatch : r.patch = true := by simpa [Request.raises, hmajor, hminor] using hr
      exact ⟨.patch, _, by rw [Request.steps, hmajor, hminor, hpatch]; rfl, by decide⟩

/-- A request that raises no number gains nothing and loses nothing. -/
theorem gain_eq_loss_of_not_raises {r : Request} (hr : r.raises = false) (v : Version) :
    gain r.steps = loss r.steps v := by
  have hsteps : r.steps = (r.newSuffix?.map Step.suffix).toList := by
    simp only [Request.raises, Bool.or_eq_false_iff] at hr
    rw [Request.steps, hr.1.1, hr.1.2, hr.2]
    rfl
  rw [hsteps]
  cases r.newSuffix? <;> rfl

/-- A request that raises a number gains more than it loses by three digits. -/
theorem loss_lt_gain_of_raises {r : Request} (hr : r.raises = true) {v : Version}
    (hminor : v.minor.toNat ≤ 999) (hpatch : v.patch.toNat ≤ 999) :
    loss r.steps v < gain r.steps := by
  obtain ⟨step, rest, hsteps, hpos⟩ := exists_gain_pos hr
  have hgain : gain (step :: rest) = step.gain + gain rest := rfl
  have hstep := Step.loss_lt_gain hpos hminor hpatch
  rw [hsteps, hgain]
  exact Nat.lt_of_lt_of_le hstep (Nat.le_add_right _ _)

/-! ## Requests in turn -/

section

variable {σ ε : Type} {store : Sink σ ε} (hnever : ∀ v s, store.answer v s = .ok ())
include hnever

/-- On a sink that refuses nothing, a request leads to the version after all of its steps. -/
theorem turn_version_of_never (verbose : Bool) (r : Request) (p : Version × σ) :
    (turn store verbose r p).1.version = applyAll r.steps p.1 := by
  rw [turn, apply, run_of_accepts (accepts_of_never hnever _ p.2)]

/-- **Whether bumps make a version newer.**  Requests are carried out in turn on a sink that
refuses nothing, and no step raises a number that is the largest one already.  Then a request
that raises a number makes the release newer exactly if it loses less than it gains, which is so
if minor and patch number have three digits at most; a request that raises none leaves it as it
is.  A version that is required at least is still reached after requests that lose no more than
they gain. -/
theorem compareRelease_carry (verbose : Bool) (requests : List Request) (v : Version) (s : σ)
    (hroom : ∀ i r, requests[i]? = some r →
      HasRoom r.steps (carry store verbose (requests.take i) (v, s)).1) :
    let current := fun i => (carry store verbose (requests.take i) (v, s)).1
    (∀ i r, requests[i]? = some r →
      (r.raises = true →
        ((current (i + 1)).compareRelease (current i) = .gt ↔
          loss r.steps (current i) < gain r.steps) ∧
        ((current i).minor.toNat ≤ 999 → (current i).patch.toNat ≤ 999 →
          (current (i + 1)).compareRelease (current i) = .gt)) ∧
      (r.raises = false → (current (i + 1)).compareRelease (current i) = .eq)) ∧
    ∀ required i j, i ≤ j → j ≤ requests.length →
      (∀ k r, i ≤ k → k < j → requests[k]? = some r → loss r.steps (current k) ≤ gain r.steps) →
      (current i).compareRelease required ≠ .lt → (current j).compareRelease required ≠ .lt := by
  intro current
  have hstep : ∀ i r, requests[i]? = some r → current (i + 1) = applyAll r.steps (current i) := by
    intro i r hr
    simp only [current]
    rw [carry_take_succ hr]
    exact turn_version_of_never hnever verbose r _
  have hcompare : ∀ i r, requests[i]? = some r → (current (i + 1)).compareRelease (current i) =
      compare (gain r.steps) (loss r.steps (current i)) := by
    intro i r hr
    rw [hstep i r hr]
    exact compareRelease_applyAll (hroom i r hr)
  refine ⟨?_, ?_⟩
  · intro i r hr
    rw [hcompare i r hr]
    refine ⟨fun hraises => ⟨Nat.compare_eq_gt, ?_⟩, ?_⟩
    · intro hminor hpatch
      exact Nat.compare_eq_gt.2 (loss_lt_gain_of_raises hraises hminor hpatch)
    · intro hraises
      exact Nat.compare_eq_eq.2 (gain_eq_loss_of_not_raises hraises (current i))
  · intro required i j hij hj hloss hpass
    -- The packed number never falls between the two requests.
    induction j, hij using Nat.le_induction with
    | base => exact hpass
    | succ j hij ih =>
      obtain ⟨r, hr⟩ : ∃ r, requests[j]? = some r := ⟨requests[j], List.getElem?_eq_getElem hj⟩
      have hbefore := ih (Nat.le_of_succ_le hj) fun k r hik hkj =>
        hloss k r hik (Nat.lt_succ_of_lt hkj)
      have hpacked := packed_applyAll (pairwise_steps r) (hroom j r hr)
      have hnot := hloss j r hij (Nat.lt_succ_self j) hr
      rw [Version.compareRelease_ne_lt_iff] at hbefore ⊢
      rw [hstep j r hr]
      simp only [current] at hbefore hnot ⊢
      omega

end

/-- A sink without a limit refuses nothing. -/
theorem answer_recorder_none {ε : Type} (e : ε) (v : Version) (kept : List Version) :
    (recorder none e).answer v kept = .ok () :=
  rfl

/-- From `0.9.999` a bump of the minor number leads to a newer release, and so does one of the
major number after it; a suffix in between changes nothing. -/
theorem three_digit_bumps_are_newer :
    let requests : List Request :=
      [{ minor := true }, { suffix := some "rc1" }, { major := true, patch := true }]
    let current := fun i =>
      (carry (recorder none "full") false (requests.take i) (⟨0, 9, 999, "dev"⟩, [])).1
    current 3 = ⟨1, 0, 1, ""⟩ ∧ (current 1).compareRelease (current 0) = .gt ∧
      (current 2).compareRelease (current 1) = .eq ∧ (current 3).compareRelease (current 2) = .gt ∧
      (current 3).compareRelease ⟨0, 9, 999, "dev"⟩ ≠ .lt := by
  intro requests current
  have hroom : ∀ i r, requests[i]? = some r → HasRoom r.steps (current i) := by
    rintro (_ | _ | _ | i) r hr
    · cases hr
      decide
    · cases hr
      decide
    · cases hr
      decide
    · cases hr
  obtain ⟨hcompare, hrequired⟩ := compareRelease_carry (answer_recorder_none "full") false requests
    ⟨0, 9, 999, "dev"⟩ [] hroom
  have hloss : ∀ k r, 0 ≤ k → k < 3 → requests[k]? = some r →
      loss r.steps (current k) ≤ gain r.steps := by
    rintro (_ | _ | _ | k) r - hk hr
    · cases hr
      decide
    · cases hr
      decide
    · cases hr
      decide
    · omega
  exact ⟨rfl, ((hcompare 0 _ rfl).1 rfl).2 (by decide) (by decide), (hcompare 1 _ rfl).2 rfl,
    ((hcompare 2 _ rfl).1 rfl).1.2 (by decide),
    hrequired ⟨0, 9, 999, "dev"⟩ 0 3 (by decide) (by decide) hloss (by decide)⟩

/-- A bump of the minor number may make a release older, and break a requirement that was met:
`0.1.0` is packed into a smaller number than `0.0.5000`. -/
theorem minorBump_of_large_patch_is_older :
    let before : Version := ⟨0, 0, 5000, ""⟩
    let after := (carry (recorder none "full") false [{ minor := true }] (before, [])).1
    (∀ v kept, (recorder none "full").answer v kept = .ok ()) ∧
      HasRoom (Request.steps { minor := true }) before ∧ after = ⟨0, 1, 0, ""⟩ ∧
      after.compareRelease before = .lt ∧ before.compareRelease before ≠ .lt := by
  intro before after
  exact ⟨answer_recorder_none "full", by decide, rfl, by decide, by decide⟩

end Bump

end VersionStamp
