/-
# The text of a required version

A session takes the version that it requires from a text.  That text must be one of a version, and
if it is not, the failure says what is wrong and repeats the text as it was given.
-/
import VersionStamp.Proofs.Version.Grammar
import VersionStamp.Session

namespace VersionStamp

namespace Session

open Version (IsTextOf IsFaultOf IsCutInto)
open Text (SpellsNumber)

/-- A text that is a version is what is required. -/
theorem readRequired_of_read {text : String} {required : Version}
    (h : Version.read text = .ok required) : readRequired (some text) = .ok (some required) := by
  simp only [readRequired, h]

/-- A text that is no version is not required. -/
theorem readRequired_of_not_read {text : String} {fault : Version.ReadFault}
    (h : Version.read text = .error fault) :
    readRequired (some text) = .error (.badVersion text fault) := by
  simp only [readRequired, h]

/-- A version is required if the text is one of it. -/
theorem readRequired_eq_ok_iff {s : String} {v : Version} :
    readRequired (some s) = .ok (some v) ↔ IsTextOf s v := by
  rw [← Version.read_eq_ok_iff]
  cases hread : Version.read s with
  | error fault => simp [readRequired_of_not_read hread]
  | ok w => simp [readRequired_of_read hread]

/-- **Required versions are read from the texts of versions, and from no others.**  Any other text
is a fault that repeats the text as it was given.  It says that three parts are expected if the
text is not cut into three pieces, and otherwise names the first piece that spells no number. -/
theorem readRequired_accepts_version_texts (s : String) :
    (∀ v, Version.read s = .ok v ↔ IsTextOf s v) ∧
      (∀ v, readRequired (some s) = .ok (some v) ↔ IsTextOf s v) ∧
      ((∀ v, ¬IsTextOf s v) → ∃ fault,
        Version.read s = .error fault ∧
          readRequired (some s) = .error (.badVersion s fault) ∧
          (Fault.badVersion s fault).message = "invalid version '" ++ s ++ "': " ++ fault.message ∧
          (fault.message = "expected MAJOR.MINOR.PATCH" ↔
            ¬∃ major minor patch tail, IsCutInto s major minor patch tail) ∧
          ∀ major minor patch tail, IsCutInto s major minor patch tail →
            (∀ n, ¬SpellsNumber major n) ∧
                fault.message = "invalid major component '" ++ String.ofList major ++ "'" ∨
              (∃ n, SpellsNumber major n) ∧ (∀ n, ¬SpellsNumber minor n) ∧
                fault.message = "invalid minor component '" ++ String.ofList minor ++ "'" ∨
              (∃ n, SpellsNumber major n) ∧ (∃ n, SpellsNumber minor n) ∧
                (∀ n, ¬SpellsNumber patch n) ∧
                fault.message = "invalid patch component '" ++ String.ofList patch ++ "'") := by
  refine ⟨fun v => Version.read_eq_ok_iff, fun v => readRequired_eq_ok_iff, ?_⟩
  intro hno
  obtain ⟨fault, hfault⟩ := (Version.exists_isTextOf_or_isFaultOf s).resolve_left (not_exists.2 hno)
  have hread := Version.read_eq_error_iff.2 hfault
  refine ⟨fault, hread, readRequired_of_not_read hread, rfl, ?_, ?_⟩
  · rw [Version.ReadFault.message_eq_expected_iff]
    cases hfault with
    | notThreeParts hcut => exact iff_of_true rfl hcut
    | major hcut _ => exact iff_of_false nofun fun hnot => hnot ⟨_, _, _, _, hcut⟩
    | minor hcut _ _ => exact iff_of_false nofun fun hnot => hnot ⟨_, _, _, _, hcut⟩
    | patch hcut _ _ _ => exact iff_of_false nofun fun hnot => hnot ⟨_, _, _, _, hcut⟩
  · intro major minor patch tail hcut
    cases hfault with
    | notThreeParts hnot => exact absurd ⟨_, _, _, _, hcut⟩ hnot
    | major hcut' hmajor =>
      obtain ⟨rfl, -, -⟩ := hcut.unique hcut'
      exact Or.inl ⟨hmajor, rfl⟩
    | minor hcut' hmajor hminor =>
      obtain ⟨rfl, rfl, -⟩ := hcut.unique hcut'
      exact Or.inr (Or.inl ⟨hmajor, hminor, rfl⟩)
    | patch hcut' hmajor hminor hpatch =>
      obtain ⟨rfl, rfl, rfl⟩ := hcut.unique hcut'
      exact Or.inr (Or.inr ⟨hmajor, hminor, hpatch, rfl⟩)

/-- In a text with two bad pieces the first one is named, without the `v` in front of it. -/
theorem readRequired_of_two_bad_pieces :
    (∀ v, ¬IsTextOf "vv1.2.x-rc " v) ∧
      ∃ fault, readRequired (some "vv1.2.x-rc ") = .error (.badVersion "vv1.2.x-rc " fault) ∧
        (Fault.badVersion "vv1.2.x-rc " fault).message =
          "invalid version 'vv1.2.x-rc ': invalid major component 'v1'" := by
  obtain ⟨hread, -, hrefused⟩ := readRequired_accepts_version_texts "vv1.2.x-rc "
  have hno : ∀ v, ¬IsTextOf "vv1.2.x-rc " v := by
    intro v h
    have hok := (hread v).2 h
    have herror : Version.read "vv1.2.x-rc " = .error (.badPart .major "v1") := by rfl
    rw [herror] at hok
    cases hok
  obtain ⟨fault, -, hrequired, hmessage, -, hpieces⟩ := hrefused hno
  have hcut : IsCutInto "vv1.2.x-rc " ['v', '1'] ['2'] ['x'] ['-', 'r', 'c'] :=
    Version.isCutInto_iff.2 ⟨by rfl, by rfl⟩
  have hmajor : ∀ n, ¬SpellsNumber ['v', '1'] n := by
    intro n
    rw [← Text.numeral?_eq_some_iff]
    have hnone : Text.numeral? ['v', '1'] = none := by rfl
    rw [hnone]
    nofun
  refine ⟨hno, fault, hrequired, ?_⟩
  rcases hpieces _ _ _ _ hcut with ⟨-, h⟩ | ⟨⟨n, hn⟩, -⟩ | ⟨⟨n, hn⟩, -⟩
  · rw [hmessage, h]
    rfl
  · exact absurd hn (hmajor n)
  · exact absurd hn (hmajor n)

end Session

end VersionStamp
