/-
# Versions

A version is a release of three 32-bit numbers and a suffix, which is empty when there is
none.  A bump raises one number, stops at the largest one, and resets every field below it.
Releases are compared by one packed number, which leaves three decimal digits to the minor
and the patch number; the suffix takes no part.
-/

namespace VersionStamp

/-- The version that a version file holds. -/
structure Version where
  major : UInt32
  minor : UInt32
  patch : UInt32
  suffix : String
  deriving DecidableEq, Repr

namespace Version

/-- The version `0.0.0` without a suffix. -/
def zero : Version := ⟨0, 0, 0, ""⟩

/-! ## Bumps -/

/-- The next number, or the same one if it is the largest of 32 bits. -/
def next (n : UInt32) : UInt32 :=
  if n = 4294967295 then n else n + 1

/-- The next number is one larger, up to the largest of 32 bits. -/
theorem toNat_next (n : UInt32) : (next n).toNat = min (n.toNat + 1) 4294967295 := by
  have hlt := n.toNat_lt
  unfold next
  split
  next h =>
    subst h
    decide
  next h =>
    have hne : n.toNat ≠ 4294967295 := fun hn => h (UInt32.toNat_inj.1 hn)
    rw [UInt32.toNat_add]
    have hone : (1 : UInt32).toNat = 1 := rfl
    omega

/-- The next major release. -/
def bumpMajor (v : Version) : Version :=
  ⟨next v.major, 0, 0, ""⟩

/-- The next minor release of the same major release. -/
def bumpMinor (v : Version) : Version :=
  ⟨v.major, next v.minor, 0, ""⟩

/-- The next patch of the same minor release. -/
def bumpPatch (v : Version) : Version :=
  ⟨v.major, v.minor, next v.patch, ""⟩

/-- The same release with another suffix. -/
def withSuffix (v : Version) (suffix : String) : Version :=
  { v with suffix }

/-! ## Order of releases -/

/-- The release as one number: a million for a major, a thousand for a minor, one for a patch. -/
def packed (v : Version) : UInt64 :=
  v.major.toUInt64 * 1000000 + v.minor.toUInt64 * 1000 + v.patch.toUInt64

/-- The order of two releases, by their packed numbers. -/
def compareRelease (a b : Version) : Ordering :=
  compare a.packed b.packed

end Version

end VersionStamp
