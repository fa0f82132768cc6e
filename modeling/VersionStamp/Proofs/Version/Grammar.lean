/-
# The grammar of version texts

Which texts are versions, and what is wrong with those that are not.  Blanks around a text and one
`v` in front do not count; what is left is the core of the text.  A core is cut at its points and at
its first hyphen, and the three pieces in front of the hyphen must spell numbers.  The main facts:

* `read_eq_ok_iff` : the texts that are read, and what they are read as;
* `read_eq_error_iff` : the texts that are refused, and the fault that is found.
-/
import VersionStamp.Proofs.Except
import VersionStamp.Proofs.Text.Cutting
import VersionStamp.Proofs.Text.Spelling
import VersionStamp.Version.Tag

namespace VersionStamp

namespace Version

/-! ## The core of a text -/

/-- What is left of a text without the blanks around it and without the `v` in front, if there is
one. -/
def IsCoreOf (s : String) (core : List Char) : Prop :=
  ∃ front sign back, s.toList = front ++ (sign ++ core) ++ back ∧
    (∀ c ∈ front, Text.isBlank c = true) ∧ (∀ c ∈ back, Text.isBlank c = true) ∧
    Text.IsTrimmed (sign ++ core) ∧ (sign = ['v'] ∨ sign = [] ∧ core.head? ≠ some 'v')

/-- One `v` in front is left out, and nothing else. -/
theorem bare_eq_iff {cs core : List Char} :
    bare cs = core ↔ ∃ sign, cs = sign ++ core ∧
      (sign = ['v'] ∨ sign = [] ∧ core.head? ≠ some 'v') := by
  constructor
  · rintro rfl
    unfold bare
    split
    next rest => exact ⟨['v'], rfl, Or.inl rfl⟩
    next hno =>
      refine ⟨[], rfl, Or.inr ⟨rfl, ?_⟩⟩
      intro hhead
      obtain ⟨rest, hrest⟩ := List.head?_eq_some_iff.1 hhead
      exact hno rest hrest
  · rintro ⟨sign, rfl, rfl | ⟨rfl, hhead⟩⟩
    · rfl
    · unfold bare
      split
      next rest hcore =>
        rw [List.nil_append] at hcore
        rw [hcore] at hhead
        exact absurd rfl hhead
      · rfl

/-- The core of a text is what reading starts from. -/
theorem isCoreOf_iff {s : String} {core : List Char} :
    IsCoreOf s core ↔ bare (Text.trim s.toList) = core := by
  rw [bare_eq_iff]
  constructor
  · rintro ⟨front, sign, back, hs, hfront, hback, htrimmed, hsign⟩
    exact ⟨sign, Text.trim_eq_iff.2 ⟨front, back, hs, hfront, hback, htrimmed⟩, hsign⟩
  · rintro ⟨sign, htrim, hsign⟩
    obtain ⟨front, back, hs, hfront, hback, htrimmed⟩ := Text.trim_eq_iff.1 htrim
    exact ⟨front, sign, back, hs, hfront, hback, htrimmed, hsign⟩

/-! ## The pieces of a text -/

/-- A text is cut into three pieces and a tail.  There are points between the pieces, which hold no
point and no hyphen themselves, and the tail is empty or starts with a hyphen. -/
structure IsCutInto (s : String) (major minor patch tail : List Char) : Prop where
  core : IsCoreOf s (major ++ '.' :: (minor ++ '.' :: (patch ++ tail)))
  points : '.' ∉ major ∧ '.' ∉ minor ∧ '.' ∉ patch
  hyphens : '-' ∉ major ∧ '-' ∉ minor ∧ '-' ∉ patch
  tail : ∀ c, tail.head? = some c → c = '-'

/-- The pieces stand in front of the first hyphen, and the tail starts with it. -/
theorem isCutInto_iff {s : String} {major minor patch tail : List Char} :
    IsCutInto s major minor patch tail ↔
      (releasePart (bare (Text.trim s.toList))).splitOn '.' = [major, minor, patch] ∧
        (bare (Text.trim s.toList)).dropWhile (· ≠ '-') = tail := by
  have hjoin : ['.'].intercalate [major, minor, patch] =
      major ++ '.' :: (minor ++ '.' :: patch) := by
    simp
  have hassoc : major ++ '.' :: (minor ++ '.' :: (patch ++ tail)) =
      major ++ '.' :: (minor ++ '.' :: patch) ++ tail := by
    simp
  rw [Text.splitOn_eq_iff (List.cons_ne_nil _ _), hjoin]
  constructor
  · rintro ⟨hcore, ⟨hpoint, hpoint', hpoint''⟩, ⟨hhyphen, hhyphen', hhyphen''⟩, htail⟩
    have hrelease : ∀ c ∈ major ++ '.' :: (minor ++ '.' :: patch), decide (c ≠ '-') = true := by
      intro c hc
      rw [decide_eq_true_iff]
      rintro rfl
      simp [hhyphen, hhyphen', hhyphen''] at hc
    have htail : ∀ c, tail.head? = some c → decide (c ≠ '-') = false := by
      intro c hc
      rw [htail c hc]
      rfl
    rw [isCoreOf_iff.1 hcore, hassoc, releasePart, Text.takeWhile_append_eq hrelease htail,
      Text.dropWhile_append_eq hrelease htail]
    refine ⟨⟨rfl, ?_⟩, rfl⟩
    simp [hpoint, hpoint', hpoint'']
  · rintro ⟨⟨hrelease, hpoints⟩, htail⟩
    have hcore := List.takeWhile_append_dropWhile (p := fun c => decide (c ≠ '-'))
      (l := bare (Text.trim s.toList))
    rw [← releasePart, htail, hrelease, ← hassoc] at hcore
    have hhyphen : '-' ∉ major ++ '.' :: (minor ++ '.' :: patch) := by
      rw [← hrelease]
      intro hmem
      have hkept := List.all_eq_true.1 List.all_takeWhile '-' hmem
      simp at hkept
    refine ⟨isCoreOf_iff.2 hcore.symm, by simpa using hpoints, by simpa using hhyphen, ?_⟩
    intro c hc
    rw [← htail] at hc
    simpa using Text.head?_dropWhile_eq_false hc

/-- A text is cut in one way only. -/
theorem IsCutInto.unique {s : String}
    {major minor patch tail major' minor' patch' tail' : List Char}
    (h : IsCutInto s major minor patch tail) (h' : IsCutInto s major' minor' patch' tail') :
    major' = major ∧ minor' = minor ∧ patch' = patch := by
  obtain ⟨hpieces, -⟩ := isCutInto_iff.1 h
  obtain ⟨hpieces', -⟩ := isCutInto_iff.1 h'
  simpa using hpieces'.symm.trans hpieces

/-! ## The numbers of a text -/

/-- A number is read from a piece that spells it. -/
theorem readPart_eq_ok_iff {field : Field} {part : List Char} {n : UInt32} :
    readPart field part = .ok n ↔ Text.SpellsNumber part n := by
  rw [← Text.numeral?_eq_some_iff, readPart]
  cases Text.numeral? part <;> simp

/-- A piece that spells no number is the fault. -/
theorem readPart_eq_error_iff {field : Field} {part : List Char} {fault : ReadFault} :
    readPart field part = .error fault ↔
      (∀ n, ¬Text.SpellsNumber part n) ∧ fault = .badPart field (String.ofList part) := by
  simp only [← Text.numeral?_eq_some_iff, readPart]
  cases Text.numeral? part with
  | none => simp [eq_comm]
  | some n => simp

/-! ## Reading -/

/-- The text is one of the version: its core spells the three numbers with points between them, and
behind them there is nothing or a hyphen and the suffix. -/
def IsTextOf (s : String) (v : Version) : Prop :=
  ∃ major minor patch tail, IsCoreOf s (major ++ '.' :: (minor ++ '.' :: (patch ++ tail))) ∧
    Text.SpellsNumber major v.major ∧ Text.SpellsNumber minor v.minor ∧
    Text.SpellsNumber patch v.patch ∧
    (tail = [] ∧ v.suffix = "" ∨ tail = '-' :: v.suffix.toList)

/-- The fault is that of the text: it is not cut into three pieces, or one of these is the first
that spells no number. -/
inductive IsFaultOf (s : String) : ReadFault → Prop where
  | notThreeParts (hcut : ¬∃ major minor patch tail, IsCutInto s major minor patch tail) :
      IsFaultOf s .notThreeParts
  | major {major minor patch tail : List Char} (hcut : IsCutInto s major minor patch tail)
      (hmajor : ∀ n, ¬Text.SpellsNumber major n) :
      IsFaultOf s (.badPart .major (String.ofList major))
  | minor {major minor patch tail : List Char} (hcut : IsCutInto s major minor patch tail)
      (hmajor : ∃ n, Text.SpellsNumber major n) (hminor : ∀ n, ¬Text.SpellsNumber minor n) :
      IsFaultOf s (.badPart .minor (String.ofList minor))
  | patch {major minor patch tail : List Char} (hcut : IsCutInto s major minor patch tail)
      (hmajor : ∃ n, Text.SpellsNumber major n) (hminor : ∃ n, Text.SpellsNumber minor n)
      (hpatch : ∀ n, ¬Text.SpellsNumber patch n) :
      IsFaultOf s (.badPart .patch (String.ofList patch))

/-- A text that is cut into three pieces is read piece by piece. -/
theorem read_of_isCutInto {s : String} {major minor patch tail : List Char}
    (h : IsCutInto s major minor patch tail) :
    read s = (do
      let a ← readPart .major major
      let b ← readPart .minor minor
      let c ← readPart .patch patch
      return ⟨a, b, c, String.ofList (tail.drop 1)⟩) := by
  obtain ⟨hpieces, rfl⟩ := isCutInto_iff.1 h
  simp only [read, hpieces, suffixPart]

/-- A text that is not cut into three pieces is refused. -/
theorem read_of_not_isCutInto {s : String}
    (h : ¬∃ major minor patch tail, IsCutInto s major minor patch tail) :
    read s = .error .notThreeParts := by
  unfold read
  dsimp only
  split
  next major minor patch hpieces =>
    exact absurd ⟨major, minor, patch, _, isCutInto_iff.2 ⟨hpieces, rfl⟩⟩ h
  · rfl

/-- The pieces that spell the numbers of a version are those that its text is cut into. -/
theorem isTextOf_iff {s : String} {v : Version} :
    IsTextOf s v ↔ ∃ major minor patch tail, IsCutInto s major minor patch tail ∧
      Text.SpellsNumber major v.major ∧ Text.SpellsNumber minor v.minor ∧
      Text.SpellsNumber patch v.patch ∧ String.ofList (tail.drop 1) = v.suffix := by
  constructor
  · rintro ⟨major, minor, patch, tail, hcore, ha, hb, hc, htail⟩
    have hpoint : '.'.isDigit = false := by decide
    have hhyphen : '-'.isDigit = false := by decide
    refine ⟨major, minor, patch, tail, ⟨hcore, ?_, ?_, ?_⟩, ha, hb, hc, ?_⟩
    · exact ⟨Text.not_mem_of_spellsNumber ha hpoint (by decide),
        Text.not_mem_of_spellsNumber hb hpoint (by decide),
        Text.not_mem_of_spellsNumber hc hpoint (by decide)⟩
    · exact ⟨Text.not_mem_of_spellsNumber ha hhyphen (by decide),
        Text.not_mem_of_spellsNumber hb hhyphen (by decide),
        Text.not_mem_of_spellsNumber hc hhyphen (by decide)⟩
    · rcases htail with ⟨rfl, -⟩ | rfl
      · exact nofun
      · intro c hhead
        exact (Option.some.inj hhead).symm
    · rcases htail with ⟨rfl, hsuffix⟩ | rfl
      · exact hsuffix.symm
      · exact String.ofList_toList
  · rintro ⟨major, minor, patch, tail, hcut, ha, hb, hc, hsuffix⟩
    refine ⟨major, minor, patch, tail, hcut.core, ha, hb, hc, ?_⟩
    cases tail with
    | nil => exact Or.inl ⟨rfl, hsuffix.symm⟩
    | cons c rest =>
      obtain rfl : c = '-' := hcut.tail c rfl
      rw [← hsuffix, String.toList_ofList]
      exact Or.inr rfl

/-- **The texts that are read** as a version are the texts of that version. -/
theorem read_eq_ok_iff {s : String} {v : Version} : read s = .ok v ↔ IsTextOf s v := by
  rw [isTextOf_iff]
  constructor
  · intro h
    by_cases hcut : ∃ major minor patch tail, IsCutInto s major minor patch tail
    · obtain ⟨major, minor, patch, tail, hcut⟩ := hcut
      rw [read_of_isCutInto hcut] at h
      simp only [bind_eq_ok_iff, readPart_eq_ok_iff] at h
      obtain ⟨a, ha, b, hb, c, hc, h⟩ := h
      cases h
      exact ⟨major, minor, patch, tail, hcut, ha, hb, hc, rfl⟩
    · rw [read_of_not_isCutInto hcut] at h
      cases h
  · rintro ⟨major, minor, patch, tail, hcut, ha, hb, hc, hsuffix⟩
    rw [read_of_isCutInto hcut]
    simp only [bind_eq_ok_iff, readPart_eq_ok_iff]
    exact ⟨_, ha, _, hb, _, hc, congrArg Except.ok (by rw [hsuffix])⟩

/-- The fault of a text keeps it from being read. -/
theorem read_of_isFaultOf {s : String} {fault : ReadFault} (h : IsFaultOf s fault) :
    read s = .error fault := by
  cases h with
  | notThreeParts hcut => exact read_of_not_isCutInto hcut
  | major hcut hmajor =>
    rw [read_of_isCutInto hcut, readPart_eq_error_iff.2 ⟨hmajor, rfl⟩]
    rfl
  | minor hcut hmajor hminor =>
    obtain ⟨a, ha⟩ := hmajor
    rw [read_of_isCutInto hcut, readPart_eq_ok_iff.2 ha, readPart_eq_error_iff.2 ⟨hminor, rfl⟩]
    rfl
  | patch hcut hmajor hminor hpatch =>
    obtain ⟨a, ha⟩ := hmajor
    obtain ⟨b, hb⟩ := hminor
    rw [read_of_isCutInto hcut, readPart_eq_ok_iff.2 ha, readPart_eq_ok_iff.2 hb,
      readPart_eq_error_iff.2 ⟨hpatch, rfl⟩]
    rfl

/-- Every text is one of a version, or has a fault. -/
theorem exists_isTextOf_or_isFaultOf (s : String) :
    (∃ v, IsTextOf s v) ∨ ∃ fault, IsFaultOf s fault := by
  by_cases hcut : ∃ major minor patch tail, IsCutInto s major minor patch tail
  · obtain ⟨major, minor, patch, tail, hcut⟩ := hcut
    by_cases hmajor : ∃ n, Text.SpellsNumber major n
    · by_cases hminor : ∃ n, Text.SpellsNumber minor n
      · by_cases hpatch : ∃ n, Text.SpellsNumber patch n
        · obtain ⟨a, ha⟩ := hmajor
          obtain ⟨b, hb⟩ := hminor
          obtain ⟨c, hc⟩ := hpatch
          exact Or.inl ⟨⟨a, b, c, String.ofList (tail.drop 1)⟩,
            isTextOf_iff.2 ⟨major, minor, patch, tail, hcut, ha, hb, hc, rfl⟩⟩
        · exact Or.inr ⟨_, .patch hcut hmajor hminor (not_exists.1 hpatch)⟩
      · exact Or.inr ⟨_, .minor hcut hmajor (not_exists.1 hminor)⟩
    · exact Or.inr ⟨_, .major hcut (not_exists.1 hmajor)⟩
  · exact Or.inr ⟨_, .notThreeParts hcut⟩

/-- **The texts that are refused** for a fault are those that have it. -/
theorem read_eq_error_iff {s : String} {fault : ReadFault} :
    read s = .error fault ↔ IsFaultOf s fault := by
  constructor
  · intro h
    rcases exists_isTextOf_or_isFaultOf s with ⟨v, htext⟩ | ⟨found, hfound⟩
    · rw [read_eq_ok_iff.2 htext] at h
      cases h
    · rw [read_of_isFaultOf hfound] at h
      cases h
      exact hfound
  · exact read_of_isFaultOf

/-! ## Messages -/

/-- Only one fault says that three parts are expected. -/
theorem ReadFault.message_eq_expected_iff {fault : ReadFault} :
    fault.message = "expected MAJOR.MINOR.PATCH" ↔ fault = .notThreeParts := by
  constructor
  · intro h
    cases fault with
    | notThreeParts => rfl
    | badPart field part =>
      -- The two messages differ in their first letter.
      have hfirst := congrArg (fun message => message.toList.head?) h
      simp [message, String.toList_append] at hfirst
  · rintro rfl
    rfl

end Version

end VersionStamp
