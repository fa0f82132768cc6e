/-
# The JSON report

The report of a version in JSON keeps all of the version: it is an object whose members `major`,
`minor`, `patch`, `postfix` and `version` hold, in this order, the three numbers, the suffix and
the tag, whatever characters the suffix has.  It holds no control character below U+0020, so it
takes one line of output.  The main facts:

* `le_toNat_of_mem_object` : no control character stands in an object;
* `json_report_is_decodable` : the JSON report is read back, on one line.
-/
import VersionStamp.Proofs.Json.Reading
import VersionStamp.Proofs.Text.Lines

namespace VersionStamp

namespace Json

/-! ## Control characters -/

/-- An escaped character holds no control character. -/
theorem le_toNat_of_mem_escape {c d : Char} (h : d ∈ Text.escape c) : 0x20 ≤ d.toNat := by
  have hhex : ∀ n < 16, 0x20 ≤ (Text.hexDigit n).toNat := by decide
  unfold Text.escape at h
  split at h
  case h_8 =>
    split at h
    next hcontrol =>
      simp only [List.mem_cons, List.not_mem_nil, or_false] at h
      rcases h with rfl | rfl | rfl | rfl | rfl | rfl
      · decide
      · decide
      · decide
      · decide
      · exact hhex _ (by omega)
      · exact hhex _ (by omega)
    next hcontrol =>
      rw [List.mem_singleton.1 h]
      exact Nat.not_lt.1 hcontrol
  -- A short escape is a backslash and one more character.
  all_goals
    simp only [List.mem_cons, List.not_mem_nil, or_false] at h
    rcases h with rfl | rfl
    · decide
    · decide

/-- A quoted string holds no control character. -/
theorem le_toNat_of_mem_quoted {s : String} {c : Char} (h : c ∈ (Text.quoted s).toList) :
    0x20 ≤ c.toNat := by
  have hparts : c = '"' ∨ (∃ d ∈ s.toList, c ∈ Text.escape d) ∨ c = '"' := by
    simpa [Text.quoted] using h
  rcases hparts with rfl | ⟨d, -, hd⟩ | rfl
  · decide
  · exact le_toNat_of_mem_escape hd
  · decide

/-- A value holds no control character. -/
theorem le_toNat_of_mem_text {x : Value} {c : Char} (h : c ∈ x.text.toList) : 0x20 ≤ c.toNat := by
  cases x with
  | number n =>
    have hdigit : 48 ≤ c.toNat ∧ c.toNat ≤ 57 :=
      Char.isDigit_iff_toNat.1 (Text.isDigit_of_mem_digits h)
    omega
  | string s => exact le_toNat_of_mem_quoted h

/-- A member holds no control character. -/
theorem le_toNat_of_mem_memberText {entry : String × Value} {c : Char}
    (h : c ∈ memberText entry) : 0x20 ≤ c.toNat := by
  have hparts : (c ∈ (Text.quoted entry.1).toList ∨ c = ':') ∨ c ∈ entry.2.text.toList := by
    simpa [memberText, Report.member, or_assoc] using h
  rcases hparts with (hname | rfl) | hvalue
  · exact le_toNat_of_mem_quoted hname
  · decide
  · exact le_toNat_of_mem_text hvalue

/-- An object holds no control character. -/
theorem le_toNat_of_mem_object {entries : List (String × Value)} {c : Char}
    (h : c ∈ (Report.object (entries.map fun entry => (entry.1, entry.2.text))).toList) :
    0x20 ≤ c.toNat := by
  cases entries with
  | nil =>
    have hparts : c = '\x7b' ∨ c = '\x7d' := by
      simpa [Report.object] using h
    rcases hparts with rfl | rfl
    · decide
    · decide
  | cons entry more =>
    rw [toList_object] at h
    have hparts : c = '\x7b' ∨ c ∈ memberText entry ∨
        (∃ next ∈ more, c = ',' ∨ c ∈ memberText next) ∨ c = '\x7d' := by
      simpa [furtherText] using h
    rcases hparts with rfl | hfirst | ⟨next, -, rfl | hnext⟩ | rfl
    · decide
    · exact le_toNat_of_mem_memberText hfirst
    · decide
    · exact le_toNat_of_mem_memberText hnext
    · decide

end Json

namespace Report

/-! ## The report of a version -/

/-- The members of the JSON report, with their values. -/
def entries (v : Version) : List (String × Json.Value) :=
  [("major", .number v.major.toNat), ("minor", .number v.minor.toNat),
   ("patch", .number v.patch.toNat), ("postfix", .string v.suffix), ("version", .string v.tag)]

/-- The JSON report is the object of these members. -/
theorem render_json (v : Version) :
    render v .json = object ((entries v).map fun entry => (entry.1, entry.2.text)) :=
  rfl

/-- A version is known from the members of its report. -/
theorem entries_injective {v w : Version} (h : entries v = entries w) : v = w := by
  obtain ⟨major, minor, patch, suffix⟩ := v
  obtain ⟨major', minor', patch', suffix'⟩ := w
  simp only [entries, List.cons.injEq, Prod.mk.injEq, Json.Value.number.injEq,
    Json.Value.string.injEq, UInt32.toNat_inj, true_and] at h
  obtain ⟨rfl, rfl, rfl, rfl, -⟩ := h
  rfl

/-- **The JSON report is decodable and stays on one line.**  Whatever the numbers and the suffix of
a version are, a reader of JSON finds in its report an object with exactly the members `major`,
`minor`, `patch`, `postfix` and `version`, in this order, which hold its numbers, its suffix and
its tag.  The report holds no control character below U+0020, so it is one line of output, and
different versions have different reports. -/
theorem json_report_is_decodable (v : Version) :
    Json.object? (render v .json).toList =
        some [("major", .number v.major.toNat), ("minor", .number v.minor.toNat),
          ("patch", .number v.patch.toNat), ("postfix", .string v.suffix),
          ("version", .string v.tag)] ∧
      (∀ c ∈ (render v .json).toList, 0x20 ≤ c.toNat) ∧
      Text.lines (render v .json ++ "\n").toList = [(render v .json).toList] ∧
      ∀ w : Version, render w .json = render v .json → w = v := by
  have hread : ∀ w, Json.object? (render w .json).toList = some (entries w) := by
    intro w
    rw [render_json]
    exact Json.object?_object (entries w)
  have hcontrol : ∀ c ∈ (render v .json).toList, 0x20 ≤ c.toNat := by
    intro c hc
    rw [render_json] at hc
    exact Json.le_toNat_of_mem_object hc
  refine ⟨hread v, hcontrol, ?_, ?_⟩
  · have hfeed : '\n' ∉ (render v .json).toList := fun h => absurd (hcontrol _ h) (by decide)
    have hreturn : (render v .json).toList.getLast? ≠ some '\r' := fun h =>
      absurd (hcontrol _ (List.mem_of_getLast? h)) (by decide)
    have hend : "\n".toList = ['\n'] := rfl
    rw [String.toList_append, hend, Text.lines_append_lineFeed hfeed,
      Text.withoutReturn_eq_self hreturn, Text.lines_nil]
  · intro w h
    have hentries := hread w
    rw [h, hread v] at hentries
    exact (entries_injective (Option.some.inj hentries)).symm

/-- A suffix that looks like the end of the object and holds control characters is kept, and its
report differs from that of a version whose suffix holds the escapes themselves. -/
theorem json_report_of_hostile_suffix :
    let v : Version := ⟨1, 0, 4294967295, "\"\x7d\\\x00\n"⟩
    let report := render v .json
    report = "\x7b\"major\":1,\"minor\":0,\"patch\":4294967295," ++
        "\"postfix\":\"\\\"\x7d\\\\\\u0000\\n\"," ++
        "\"version\":\"v1.0.4294967295-\\\"\x7d\\\\\\u0000\\n\"\x7d" ∧
      Json.object? report.toList =
        some [("major", .number 1), ("minor", .number 0), ("patch", .number 4294967295),
          ("postfix", .string "\"\x7d\\\x00\n"),
          ("version", .string "v1.0.4294967295-\"\x7d\\\x00\n")] ∧
      '\n' ∉ report.toList ∧ Text.lines (report ++ "\n").toList = [report.toList] ∧
      render ⟨1, 0, 4294967295, "\"\x7d\\u0000\\n"⟩ .json ≠ report := by
  intro v report
  obtain ⟨hread, hcontrol, hlines, hinjective⟩ := json_report_is_decodable v
  have htag : v.tag = "v1.0.4294967295-\"\x7d\\\x00\n" := by decide +kernel
  rw [htag] at hread
  refine ⟨by decide +kernel, hread, ?_, hlines, ?_⟩
  · exact fun h => absurd (hcontrol '\n' h) (by decide)
  · intro h
    have hsuffix := congrArg Version.suffix (hinjective _ h)
    exact absurd hsuffix (by decide)

end Report

end VersionStamp
