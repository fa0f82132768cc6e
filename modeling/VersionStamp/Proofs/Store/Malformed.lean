/-
# Version files that are refused

A version file that is no header is blamed on one of its first four lines, and the fault names the
path of the store.  A line without a value goes before a value that is no number, whichever stands
first, and of two defects of one kind the one on the earlier line is named.
-/
import VersionStamp.Proofs.Header.Faults
import VersionStamp.Proofs.Store.Access

namespace VersionStamp

namespace Store

open Header (HoldsValue)
open Text (SpellsLines SpellsNumber)

/-- A text that is refused is a fault of the file at the path of the store. -/
theorem load_run_of_malformed {σ : Type} {files : Files (StateM σ)} {store : Store} {s s' : σ}
    {text : String} {fault : Header.Fault} (h : Header.parse text = .error fault)
    (hread : (files.read store.path).run s = (.ok text, s')) :
    (store.load files).run s = (.error (.malformed store.path fault), s') := by
  rw [load_run, hread, versionOf, h]
  rfl

/-- **Version files are blamed on the right line.**  A text that is refused is a fault at the path
of the store, on one of the first four lines.

If some of these lines hold no value, the first one that holds none is named; it is said to be
missing if the text has fewer lines, and else to have too few words.  If all of them hold a value,
the first line of a number is named whose value spells none, and the value is repeated; the line of
the suffix is not named then. -/
theorem malformed_files_are_blamed_on_the_right_line :
    ∀ (text : String) (fault : Header.Fault), Header.parse text = .error fault →
      (1 ≤ fault.line ∧ fault.line ≤ 4) ∧
        (∀ {σ : Type} (files : Files (StateM σ)) (store : Store) (s s' : σ),
          (files.read store.path).run s = (.ok text, s') →
            (store.load files).run s = (.error (.malformed store.path fault), s')) ∧
        (∀ path : Path, (Fault.malformed path fault).message =
          "malformed version file '" ++ path.text ++ "' (line " ++ Text.digits fault.line ++ "): " ++
            fault.message) ∧
        ((∃ field, ∀ word, ¬HoldsValue text field word) →
          (∀ word, ¬HoldsValue text fault.field word) ∧
            (∀ field : Field, field.line < fault.line → ∃ word, HoldsValue text field word) ∧
            ∀ lines, SpellsLines text.toList lines →
              (lines.length < fault.line →
                fault.message = "missing " ++ fault.field.name ++ " line") ∧
              (fault.line ≤ lines.length → fault.message = "expected at least three tokens")) ∧
        ((∀ field, ∃ word, HoldsValue text field word) →
          fault.line ≤ 3 ∧ ∃ word, HoldsValue text fault.field word ∧
            (∀ n, ¬SpellsNumber word n) ∧
            (∀ field : Field, field.line < fault.line →
              ∃ value n, HoldsValue text field value ∧ SpellsNumber value n) ∧
            fault.message = fault.field.name ++ " value '" ++ String.ofList word ++
              "' is not a non-negative integer") := by
  intro text fault h
  refine ⟨⟨fault.field.one_le_line, fault.field.line_le_four⟩,
    fun files store s s' => load_run_of_malformed h, fun path => rfl, ?_, ?_⟩
  · rintro ⟨empty, hempty⟩
    cases Header.isFaultOf_of_parse h with
    | missing hlacks hshort =>
      refine ⟨hlacks.noValue, hlacks.earlier, fun lines hlines => ⟨fun _ => rfl, ?_⟩⟩
      rw [Text.lines_eq_iff.2 hlines] at hshort
      intro hlong
      exact absurd hshort (Nat.not_lt.2 hlong)
    | tooFewWords hlacks hlong =>
      refine ⟨hlacks.noValue, hlacks.earlier, fun lines hlines => ⟨?_, fun _ => rfl⟩⟩
      rw [Text.lines_eq_iff.2 hlines] at hlong
      intro hshort
      exact absurd hshort (Nat.not_lt.2 hlong)
    | notNumeral hmisspells =>
      obtain ⟨value, hvalue⟩ := hmisspells.values empty
      exact absurd hvalue (hempty value)
  · intro hvalues
    cases Header.isFaultOf_of_parse h with
    | @missing field hlacks _ =>
      obtain ⟨word, hword⟩ := hvalues field
      exact absurd hword (hlacks.noValue word)
    | @tooFewWords field hlacks _ =>
      obtain ⟨word, hword⟩ := hvalues field
      exact absurd hword (hlacks.noValue word)
    | @notNumeral field word hmisspells =>
      exact ⟨Field.line_le_three hmisspells.number, word, hmisspells.value, hmisspells.noNumber,
        hmisspells.earlier, rfl⟩

/-- A text with a bad number in front of a line that is too short, and in front of a missing one. -/
def shortThirdLine : String :=
  "#define A one\n#define B 2\n#define C"

/-- A text with two bad numbers. -/
def twoBadNumbers : String :=
  "#define A 1\n#define B 0x2 // hexadecimal\n#define C -3\n#define D \"\""

/-- The short line is named although the first number is bad, and of two bad numbers the first. -/
theorem malformed_lines_of_two_defects :
    Header.parse shortThirdLine = .error ⟨.patch, .tooFewWords⟩ ∧
      Header.Fault.message ⟨.patch, .tooFewWords⟩ = "expected at least three tokens" ∧
      (∃ word, HoldsValue shortThirdLine .major word) ∧
      Header.parse twoBadNumbers = .error ⟨.minor, .notNumeral "0x2"⟩ ∧
      ∃ word, HoldsValue twoBadNumbers .minor word ∧ (∀ n, ¬SpellsNumber word n) ∧
        Header.Fault.message ⟨.minor, .notNumeral "0x2"⟩ =
          "minor value '" ++ String.ofList word ++ "' is not a non-negative integer" := by
  have hshort : Header.parse shortThirdLine = .error ⟨.patch, .tooFewWords⟩ := by rfl
  have hbad : Header.parse twoBadNumbers = .error ⟨.minor, .notNumeral "0x2"⟩ := by rfl
  obtain ⟨-, -, -, hlacks, -⟩ := malformed_files_are_blamed_on_the_right_line _ _ hshort
  obtain ⟨-, -, -, -, hmisspells⟩ := malformed_files_are_blamed_on_the_right_line _ _ hbad
  have hempty : ∀ word, ¬HoldsValue shortThirdLine .patch word := by
    intro word
    have hnone : Header.valueWord (Text.lines shortThirdLine.toList) .patch =
        .error ⟨.patch, .tooFewWords⟩ := by rfl
    rw [← Header.valueWord_eq_ok_iff_holdsValue, hnone]
    nofun
  have hvalues : ∀ field, ∃ word, HoldsValue twoBadNumbers field word := by
    simp only [← Header.valueWord_eq_ok_iff_holdsValue]
    intro field
    cases field with
    | major => exact ⟨"1".toList, rfl⟩
    | minor => exact ⟨"0x2".toList, rfl⟩
    | patch => exact ⟨"-3".toList, rfl⟩
    | suffix => exact ⟨"\"\"".toList, rfl⟩
  obtain ⟨-, hearlier, hlines⟩ := hlacks ⟨.patch, hempty⟩
  obtain ⟨-, word, hword, hno, -, hmessage⟩ := hmisspells hvalues
  have hlength : 3 ≤ (Text.lines shortThirdLine.toList).length := by decide
  exact ⟨hshort, (hlines _ (Text.spellsLines_lines _)).2 hlength, hearlier .major (by decide), hbad,
    word, hword, hno, hmessage⟩

end Store

end VersionStamp
