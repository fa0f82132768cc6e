/-
# The net effect of a request

The steps of a request raise and reset numbers one after the other.  What they come to in the end
can be told for each number from the flags alone: a number is raised from what it was if no flag of
a number above it is set, and from zero otherwise.  So a request forgets all that stands below the
highest number that it raises.  The main facts:

* `isNetEffect_effect` : the numbers and the suffix that a request leads to;
* `isNetEffect_iff` : they are those of one version only;
* `apply_eq_of_agree` : from two versions that agree down to the highest raised number, a request
  goes the same way.
-/
import VersionStamp.Proofs.Bump.Order

namespace VersionStamp

namespace Bump

/-! ## The numbers in the end -/

/-- The number that a flag makes of another one: the next one if it is set, but none beyond the
largest of 32 bits. -/
def raised (n : UInt32) (flag : Bool) : Nat :=
  min (n.toNat + flag.toNat) 4294967295

/-- A number is raised if its flag is set. -/
theorem toNat_ite_next (n : UInt32) (flag : Bool) :
    (if flag then Version.next n else n).toNat = raised n flag := by
  have hlt := n.toNat_lt
  cases flag with
  | true => exact Version.toNat_next n
  | false =>
    show n.toNat = min (n.toNat + 0) 4294967295
    omega

/-- A number that was reset is raised from zero. -/
theorem toNat_ite_one (flag : Bool) : (if flag then (1 : UInt32) else 0).toNat = flag.toNat := by
  cases flag <;> rfl

/-- The version after the flags of a request, whatever its new suffix. -/
def Request.afterFlags (r : Request) (v : Version) : Version where
  major := if r.major then Version.next v.major else v.major
  minor :=
    if r.major then if r.minor then 1 else 0
    else if r.minor then Version.next v.minor else v.minor
  patch :=
    if r.major || r.minor then if r.patch then 1 else 0
    else if r.patch then Version.next v.patch else v.patch
  suffix := if r.raises then "" else v.suffix

/-- A request without a new suffix leads to the version after its flags. -/
theorem effect_of_flags (major minor patch : Bool) (v : Version) :
    Request.effect { major, minor, patch } v = Request.afterFlags { major, minor, patch } v := by
  cases major <;> cases minor <;> cases patch <;> rfl

/-- The new suffix of a request comes after its flags. -/
theorem effect_eq_afterFlags (r : Request) (v : Version) :
    r.effect v = (r.afterFlags v).withSuffix (r.newSuffix?.getD (r.afterFlags v).suffix) := by
  have hflags := effect_of_flags r.major r.minor r.patch v
  change _ = r.afterFlags v at hflags
  rw [← hflags, Request.effect, Request.effect]
  cases r.newSuffix? <;> rfl

/-- What a request makes of a version in the end.  A number is raised by its flag; if the flag of a
number above it is set, it is raised from zero.  A new suffix replaces the old one, which a flag
takes away. -/
structure IsNetEffect (r : Request) (before after : Version) : Prop where
  major : after.major.toNat = raised before.major r.major
  minor : after.minor.toNat = if r.major then r.minor.toNat else raised before.minor r.minor
  patch : after.patch.toNat =
    if r.major ∨ r.minor then r.patch.toNat else raised before.patch r.patch
  newSuffix : ∀ suffix, r.suffix = some suffix → suffix ≠ "" → after.suffix = suffix
  oldSuffix : r.suffix = none ∨ r.suffix = some "" →
    after.suffix = if r.major ∨ r.minor ∨ r.patch then "" else before.suffix

/-- **The net effect of a request.** -/
theorem isNetEffect_effect (r : Request) (v : Version) : IsNetEffect r v (r.effect v) := by
  rw [effect_eq_afterFlags]
  constructor
  · exact toNat_ite_next v.major r.major
  · show (if r.major then _ else _ : UInt32).toNat = _
    rw [apply_ite UInt32.toNat, toNat_ite_one, toNat_ite_next]
  · show (if r.major || r.minor then _ else _ : UInt32).toNat = _
    rw [apply_ite UInt32.toNat, toNat_ite_one, toNat_ite_next]
    simp only [Bool.or_eq_true]
  · intro suffix hsuffix hne
    have hnew : r.newSuffix? = some suffix := by
      rw [Request.newSuffix?, hsuffix, Option.filter_some, if_pos (decide_eq_true hne)]
    rw [hnew]
    rfl
  · intro hsuffix
    have hnone : r.newSuffix? = none := by
      rcases hsuffix with hsuffix | hsuffix
      · rw [Request.newSuffix?, hsuffix, Option.filter_none]
      · rw [Request.newSuffix?, hsuffix]
        rfl
    rw [hnone]
    show (if r.raises then "" else v.suffix) = _
    simp only [Request.raises, Bool.or_eq_true, or_assoc]

/-- The net effect is all there is to say: it is one version. -/
theorem isNetEffect_iff {r : Request} {v w : Version} : IsNetEffect r v w ↔ w = r.effect v := by
  constructor
  · intro h
    have heffect := isNetEffect_effect r v
    have hmajor := UInt32.toNat_inj.1 (h.major.trans heffect.major.symm)
    have hminor := UInt32.toNat_inj.1 (h.minor.trans heffect.minor.symm)
    have hpatch := UInt32.toNat_inj.1 (h.patch.trans heffect.patch.symm)
    have hsuffix : w.suffix = (r.effect v).suffix := by
      by_cases hold : r.suffix = none ∨ r.suffix = some ""
      · exact (h.oldSuffix hold).trans (heffect.oldSuffix hold).symm
      · obtain ⟨hnone, hempty⟩ := not_or.1 hold
        obtain ⟨suffix, hsuffix⟩ := Option.ne_none_iff_exists'.1 hnone
        have hne : suffix ≠ "" := fun h => hempty (h ▸ hsuffix)
        exact (h.newSuffix suffix hsuffix hne).trans (heffect.newSuffix suffix hsuffix hne).symm
    cases w
    simp only at hmajor hminor hpatch hsuffix
    rw [hmajor, hminor, hpatch, hsuffix]
  · rintro rfl
    exact isNetEffect_effect r v

/-! ## What a request forgets -/

/-- The versions agree on the highest number that the request raises, and on the numbers above. -/
structure Request.Agree (r : Request) (v w : Version) : Prop where
  major : v.major = w.major
  minor : r.major = false → v.minor = w.minor
  patch : r.major = false → r.minor = false → v.patch = w.patch

/-- The first step of a request that raises a number leads to the same version from both. -/
theorem exists_apply_eq_of_agree {r : Request} (hr : r.raises = true) {v w : Version}
    (h : r.Agree v w) : ∃ step rest, r.steps = step :: rest ∧ step.apply v = step.apply w := by
  cases hmajor : r.major with
  | true =>
    refine ⟨.major, _, by rw [Request.steps, hmajor]; rfl, ?_⟩
    rw [Step.apply, Step.apply, Version.bumpMajor, Version.bumpMajor, h.major]
  | false =>
    have hminor := h.minor hmajor
    cases hflag : r.minor with
    | true =>
      refine ⟨.minor, _, by rw [Request.steps, hmajor, hflag]; rfl, ?_⟩
      rw [Step.apply, Step.apply, Version.bumpMinor, Version.bumpMinor, h.major, hminor]
    | false =>
      have hpatch : r.patch = true := by simpa [Request.raises, hmajor, hflag] using hr
      refine ⟨.patch, _, by rw [Request.steps, hmajor, hflag, hpatch]; rfl, ?_⟩
      rw [Step.apply, Step.apply, Version.bumpPatch, Version.bumpPatch, h.major, hminor,
        h.patch hmajor hflag]

/-- **A request that raises a number forgets all that stands below it.**  From two versions that
agree down to that number, the sink is handed the same versions, with the same outcome. -/
theorem apply_eq_of_agree {ε : Type} {m : Type → Type} [Monad m]
    (store : Version → m (Except ε Unit)) (verbose : Bool) {r : Request} (hr : r.raises = true)
    {v w : Version} (h : r.Agree v w) : apply store verbose r v = apply store verbose r w := by
  obtain ⟨step, rest, hsteps, hstep⟩ := exists_apply_eq_of_agree hr h
  rw [apply, apply, hsteps, run, run, hstep]

/-! ## Requests on a sink that refuses nothing -/

/-- **The net effect of a request.**  On a sink that refuses nothing a request succeeds, and leaves
in memory the one version that is its net effect on the version before; no number is beyond the
largest of 32 bits.  If the request raises a number, two versions that agree on the highest one that
is raised and on the numbers above it are taken to the same version, whatever stands below, and the
sink is left in the same state. -/
theorem net_effect_of_request {σ ε : Type} {store : Sink σ ε}
    (hnever : ∀ v s, store.answer v s = .ok ()) (verbose : Bool) (r : Request) (s : σ) :
    let after := fun v => (apply store verbose r v).run s
    (∀ v, (after v).1.result = .ok r.steps.length ∧
      (∀ w, IsNetEffect r v w ↔ (after v).1.version = w) ∧
      (after v).1.version.major.toNat ≤ 4294967295 ∧
      (after v).1.version.minor.toNat ≤ 4294967295 ∧
      (after v).1.version.patch.toNat ≤ 4294967295) ∧
    ((r.major = true ∨ r.minor = true ∨ r.patch = true) → ∀ v w, r.Agree v w →
      (after v).1.version = (after w).1.version ∧ (after v).2 = (after w).2) := by
  intro after
  constructor
  · intro v
    have hrun : after v = _ := run_of_accepts (accepts_of_never hnever (versions r.steps v) s)
    rw [hrun, applyAll_steps]
    exact ⟨rfl, fun w => isNetEffect_iff.trans eq_comm,
      Nat.le_of_lt_succ (r.effect v).major.toNat_lt, Nat.le_of_lt_succ (r.effect v).minor.toNat_lt,
      Nat.le_of_lt_succ (r.effect v).patch.toNat_lt⟩
  · intro hflags v w hagree
    have hraises : r.raises = true := by
      simpa only [Request.raises, Bool.or_eq_true, or_assoc] using hflags
    have hsame : after v = after w :=
      congrArg (fun program => program.run s) (apply_eq_of_agree store verbose hraises hagree)
    rw [hsame]
    exact ⟨rfl, rfl⟩

/-- The largest major number stays, the minor number is reset, and the patch is raised from zero; so
of the version before, only the major number counts. -/
theorem net_effect_at_largest :
    let store : Sink (List Version) String := recorder none "full"
    let r : Request := { major := true, patch := true, suffix := some "" }
    let after := fun v => (apply store false r v).run []
    (∀ v kept, store.answer v kept = .ok ()) ∧
      (after ⟨4294967295, 4294967295, 4294967295, "rc1"⟩).1.version = ⟨4294967295, 0, 1, ""⟩ ∧
      r.Agree ⟨4294967295, 4294967295, 4294967295, "rc1"⟩ ⟨4294967295, 0, 7, ""⟩ ∧
      (after ⟨4294967295, 0, 7, ""⟩).1.version = ⟨4294967295, 0, 1, ""⟩ := by
  intro store r after
  obtain ⟨hnet, hforgets⟩ := net_effect_of_request (answer_recorder_none "full") false r []
  have heffect :
      IsNetEffect r ⟨4294967295, 4294967295, 4294967295, "rc1"⟩ ⟨4294967295, 0, 1, ""⟩ := by
    refine ⟨by decide, by decide, by decide, ?_, fun _ => rfl⟩
    rintro suffix ⟨⟩ hne
    exact absurd rfl hne
  have hagree : r.Agree ⟨4294967295, 4294967295, 4294967295, "rc1"⟩ ⟨4294967295, 0, 7, ""⟩ :=
    ⟨rfl, nofun, nofun⟩
  have hversion := ((hnet _).2.1 _).1 heffect
  exact ⟨answer_recorder_none "full", hversion, hagree,
    (hforgets (Or.inl rfl) _ _ hagree).1.symm.trans hversion⟩

end Bump

end VersionStamp
