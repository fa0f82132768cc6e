/-
# The packed number of a release

The packed number is computed in 64 bits, which is more than the largest three numbers of 32 bits
need: it never wraps, so releases compare as the natural numbers do that they are packed into.
-/
import VersionStamp.Version.Basic

namespace VersionStamp

namespace Version

/-- A number that is not the largest one of 32 bits is followed by the next natural number. -/
theorem toNat_next_of_ne {n : UInt32} (h : n ≠ 4294967295) : (next n).toNat = n.toNat + 1 := by
  have hlt := n.toNat_lt
  have hne : n.toNat ≠ 4294967295 := fun hn => h (UInt32.toNat_inj.1 hn)
  rw [toNat_next]
  omega

/-- The packed number does not wrap. -/
theorem toNat_packed (v : Version) :
    v.packed.toNat = v.major.toNat * 1000000 + v.minor.toNat * 1000 + v.patch.toNat := by
  have hmajor := v.major.toNat_lt
  have hminor := v.minor.toNat_lt
  have hpatch := v.patch.toNat_lt
  have hmillion : (1000000 : UInt64).toNat = 1000000 := rfl
  have hthousand : (1000 : UInt64).toNat = 1000 := rfl
  simp only [packed, UInt64.toNat_add, UInt64.toNat_mul, UInt32.toNat_toUInt64, hmillion, hthousand]
  omega

/-- Two numbers compare as what was gained and what was lost from one to the other. -/
theorem compare_eq_of_add_eq {a b gained lost : Nat} (h : a + lost = b + gained) :
    compare a b = compare gained lost := by
  rcases Nat.lt_trichotomy a b with hlt | heq | hgt
  · rw [Nat.compare_eq_lt.2 hlt, Nat.compare_eq_lt.2 (by omega)]
  · rw [Nat.compare_eq_eq.2 heq, Nat.compare_eq_eq.2 (by omega)]
  · rw [Nat.compare_eq_gt.2 hgt, Nat.compare_eq_gt.2 (by omega)]

/-- Releases compare as their packed numbers do among the natural numbers. -/
theorem compareRelease_eq_compare (a b : Version) :
    a.compareRelease b = compare a.packed.toNat b.packed.toNat := by
  show compareOfLessAndEq a.packed b.packed = compareOfLessAndEq a.packed.toNat b.packed.toNat
  simp only [compareOfLessAndEq, UInt64.lt_iff_toNat_lt, UInt64.toNat_inj]

/-- A release is not older than another one if its packed number is not smaller. -/
theorem compareRelease_ne_lt_iff {a b : Version} :
    a.compareRelease b ≠ .lt ↔ b.packed.toNat ≤ a.packed.toNat := by
  rw [compareRelease_eq_compare, Ne, Nat.compare_eq_lt, Nat.not_lt]

end Version

end VersionStamp
