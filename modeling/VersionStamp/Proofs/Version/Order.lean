/-
# Releases in the order of their fields

Releases are meant to be ordered by their major numbers first, then by the minor ones, then by
the patches.  The packed number is a numeral to the base 1000 with these three as its digits, so it
orders releases in this way for as long as minor number and patch are digits of that base.  Beyond
that it does not: the next minor release of a release whose patch is no digit is packed into a
number that is not larger, and so is the next major release of one whose minor number is no digit.
The main facts:

* `compareRelease_eq_compareFields` : within three digits the two orders are the same;
* `exists_not_lt_iff` : the releases behind which they differ.
-/
import VersionStamp.Proofs.Version.Release

namespace VersionStamp

namespace Version

/-! ## Numerals to a base -/

/-- Two numerals compare by their leading digits, and by their last digits if these are equal. -/
theorem compare_mul_add {base a b x y : Nat} (hx : x < base) (hy : y < base) :
    compare (a * base + x) (b * base + y) = (compare a b).then (compare x y) := by
  rcases Nat.lt_trichotomy a b with hlt | heq | hgt
  · have hstep : a * base + base ≤ b * base := by
      rw [← Nat.succ_mul]
      exact Nat.mul_le_mul_right base hlt
    rw [Nat.compare_eq_lt.2 hlt, Nat.compare_eq_lt.2 (by omega)]
    rfl
  · subst heq
    rw [Nat.compare_eq_eq.2 rfl, Ordering.eq_then]
    exact compare_eq_of_add_eq (by omega)
  · have hstep : b * base + base ≤ a * base := by
      rw [← Nat.succ_mul]
      exact Nat.mul_le_mul_right base hgt
    rw [Nat.compare_eq_gt.2 hgt, Nat.compare_eq_gt.2 (by omega)]
    rfl

/-- The packed number is a numeral to the base 1000. -/
theorem packed_eq_numeral (v : Version) :
    v.packed.toNat = (v.major.toNat * 1000 + v.minor.toNat) * 1000 + v.patch.toNat := by
  rw [toNat_packed]
  omega

/-- The largest packed number is that of three times the largest number of 32 bits. -/
theorem packed_le (v : Version) : v.packed.toNat ≤ 4299266557262295 := by
  have hmajor := v.major.toNat_lt
  have hminor := v.minor.toNat_lt
  have hpatch := v.patch.toNat_lt
  rw [toNat_packed]
  omega

/-! ## The order of the fields -/

/-- The order of two releases by their major numbers first, then by the minor ones, then by the
patches. -/
def compareFields : Version → Version → Ordering :=
  compareLex (compareOn major) (compareLex (compareOn minor) (compareOn patch))

/-- Numbers of 32 bits compare as natural numbers. -/
theorem compare_eq_compare_toNat (a b : UInt32) : compare a b = compare a.toNat b.toNat := by
  show compareOfLessAndEq a b = compareOfLessAndEq a.toNat b.toNat
  simp only [compareOfLessAndEq, UInt32.lt_iff_toNat_lt, UInt32.toNat_inj]

/-- The order of the fields is that of natural numbers, one field after the other. -/
theorem compareFields_eq_then (a b : Version) :
    a.compareFields b = (compare a.major.toNat b.major.toNat).then
      ((compare a.minor.toNat b.minor.toNat).then (compare a.patch.toNat b.patch.toNat)) := by
  simp only [compareFields, compareLex, compareOn, compare_eq_compare_toNat]

/-- A release comes first if the first field in which it differs is smaller. -/
theorem compareFields_eq_lt_iff {a b : Version} :
    a.compareFields b = .lt ↔
      a.major.toNat < b.major.toNat ∨ a.major.toNat = b.major.toNat ∧
        (a.minor.toNat < b.minor.toNat ∨ a.minor.toNat = b.minor.toNat ∧
          a.patch.toNat < b.patch.toNat) := by
  simp only [compareFields_eq_then, Ordering.then_eq_lt, Nat.compare_eq_lt, Nat.compare_eq_eq]

/-- No release comes first if all fields are the same. -/
theorem compareFields_eq_eq_iff {a b : Version} :
    a.compareFields b = .eq ↔ a.major = b.major ∧ a.minor = b.minor ∧ a.patch = b.patch := by
  simp only [compareFields_eq_then, Ordering.then_eq_eq, Nat.compare_eq_eq, UInt32.toNat_inj]

/-! ## Within three digits -/

/-- The minor number and the patch have three decimal digits at most. -/
def HasThreeDigits (v : Version) : Prop :=
  v.minor.toNat ≤ 999 ∧ v.patch.toNat ≤ 999

instance (v : Version) : Decidable v.HasThreeDigits :=
  inferInstanceAs (Decidable (_ ∧ _))

/-- Within three digits, releases compare by their fields. -/
theorem compareRelease_eq_compareFields {a b : Version} (ha : a.HasThreeDigits)
    (hb : b.HasThreeDigits) : a.compareRelease b = a.compareFields b := by
  obtain ⟨hminor, hpatch⟩ := ha
  obtain ⟨hminor', hpatch'⟩ := hb
  have hlast := @compare_mul_add 1000 (a.major.toNat * 1000 + a.minor.toNat)
    (b.major.toNat * 1000 + b.minor.toNat) _ _ (Nat.lt_succ_of_le hpatch)
    (Nat.lt_succ_of_le hpatch')
  have hfirst := @compare_mul_add 1000 a.major.toNat b.major.toNat _ _ (Nat.lt_succ_of_le hminor)
    (Nat.lt_succ_of_le hminor')
  rw [compareRelease_eq_compare, packed_eq_numeral, packed_eq_numeral, hlast, hfirst,
    Ordering.then_assoc, compareFields_eq_then]

/-! ## Beyond three digits -/

/-- A release that comes later without being packed into a larger number: the next one in which a
number beyond three digits is reset. -/
theorem exists_not_lt {a : Version}
    (h : 1000 ≤ a.patch.toNat ∧ a.minor.toNat < 4294967295 ∨
      1000 ≤ a.minor.toNat ∧ a.major.toNat < 4294967295) :
    ∃ b, a.compareFields b = .lt ∧ a.compareRelease b ≠ .lt := by
  simp only [compareFields_eq_lt_iff, compareRelease_ne_lt_iff, toNat_packed]
  rcases h with ⟨hpatch, hroom⟩ | ⟨hminor, hroom⟩
  · refine ⟨a.bumpMinor, Or.inr ⟨rfl, Or.inl ?_⟩, ?_⟩
    · simp only [bumpMinor, toNat_next]
      omega
    · simp only [bumpMinor, toNat_next, UInt32.toNat_zero]
      omega
  · refine ⟨a.bumpMajor, Or.inl ?_, ?_⟩
    · simp only [bumpMajor, toNat_next]
      omega
    · simp only [bumpMajor, toNat_next, UInt32.toNat_zero]
      omega

/-- A later release is packed into a larger number if what stands below the field that is raised
has three digits, or if that field cannot be raised. -/
theorem packed_lt_packed {a b : Version} (hlater : a.compareFields b = .lt)
    (hminor : 1000 ≤ a.patch.toNat → a.minor.toNat = 4294967295)
    (hmajor : 1000 ≤ a.minor.toNat → a.major.toNat = 4294967295) :
    a.packed.toNat < b.packed.toNat := by
  have hb := b.major.toNat_lt
  have hb' := b.minor.toNat_lt
  rw [toNat_packed, toNat_packed]
  rcases compareFields_eq_lt_iff.1 hlater with hlt | ⟨heq, hlt | ⟨heq', hlt⟩⟩
  · -- The major number can be raised, so the minor number has three digits and can be raised too.
    have hdigits : a.minor.toNat < 1000 := by omega
    omega
  · omega
  · omega

/-- Only behind these releases there is a later one that is not packed into a larger number. -/
theorem exists_not_lt_iff {a : Version} :
    (∃ b, a.compareFields b = .lt ∧ a.compareRelease b ≠ .lt) ↔
      1000 ≤ a.patch.toNat ∧ a.minor.toNat < 4294967295 ∨
        1000 ≤ a.minor.toNat ∧ a.major.toNat < 4294967295 := by
  constructor
  · rintro ⟨b, hlater, hnot⟩
    rw [compareRelease_ne_lt_iff] at hnot
    have hmajor := a.major.toNat_lt
    have hminor := a.minor.toNat_lt
    apply Decidable.byContradiction
    intro hdigits
    have hlt := packed_lt_packed hlater (by omega) (by omega)
    omega
  · exact exists_not_lt

/-- **Releases are ordered by their fields within three digits, and exactly there.**  If the minor
numbers and patches of two releases have at most three digits, the releases compare as their
fields do, one after the other, and only the same release compares as equal.  A release with a
larger patch or minor number is followed by one that is not packed into a larger number, unless
the field above cannot be raised; no other release is.  The packed number itself never wraps. -/
theorem compareRelease_of_three_digits :
    (∀ a b : Version, a.HasThreeDigits → b.HasThreeDigits →
      a.compareRelease b = a.compareFields b ∧
        (a.compareRelease b = .lt ↔
          a.major.toNat < b.major.toNat ∨ a.major.toNat = b.major.toNat ∧
            (a.minor.toNat < b.minor.toNat ∨ a.minor.toNat = b.minor.toNat ∧
              a.patch.toNat < b.patch.toNat)) ∧
        (a.compareRelease b = .eq ↔
          a.major = b.major ∧ a.minor = b.minor ∧ a.patch = b.patch)) ∧
      (∀ a : Version, (∃ b, a.compareFields b = .lt ∧ a.compareRelease b ≠ .lt) ↔
        1000 ≤ a.patch.toNat ∧ a.minor.toNat < 4294967295 ∨
          1000 ≤ a.minor.toNat ∧ a.major.toNat < 4294967295) ∧
      ∀ v : Version,
        v.packed.toNat = v.major.toNat * 1000000 + v.minor.toNat * 1000 + v.patch.toNat ∧
          v.packed.toNat ≤ 4299266557262295 := by
  refine ⟨?_, fun a => exists_not_lt_iff, fun v => ⟨toNat_packed v, packed_le v⟩⟩
  intro a b ha hb
  rw [compareRelease_eq_compareFields ha hb]
  exact ⟨rfl, compareFields_eq_lt_iff, compareFields_eq_eq_iff⟩

/-- `1.0.0` comes behind `0.999.999` and is the same release with any suffix, and behind `0.0.5000`
there is a release that is not newer. -/
theorem compareRelease_at_the_limit :
    compareRelease ⟨0, 999, 999, "rc1"⟩ ⟨1, 0, 0, ""⟩ = .lt ∧
      compareRelease ⟨1, 0, 0, "rc1"⟩ ⟨1, 0, 0, ""⟩ = .eq ∧
      ∃ b, compareFields ⟨0, 0, 5000, ""⟩ b = .lt ∧ compareRelease ⟨0, 0, 5000, ""⟩ b ≠ .lt := by
  obtain ⟨hwithin, hbeyond, -⟩ := compareRelease_of_three_digits
  refine ⟨?_, ?_, (hbeyond ⟨0, 0, 5000, ""⟩).2 (by decide)⟩
  · exact (hwithin ⟨0, 999, 999, "rc1"⟩ ⟨1, 0, 0, ""⟩ (by decide) (by decide)).2.1.2 (by decide)
  · exact (hwithin ⟨1, 0, 0, "rc1"⟩ ⟨1, 0, 0, ""⟩ (by decide) (by decide)).2.2.2 (by decide)

end Version

end VersionStamp
