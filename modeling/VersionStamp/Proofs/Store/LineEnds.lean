/-
# Version files with other line ends

Of a version file only the words on its lines are looked at.  So a file with a carriage return in
front of every line feed is read as the one without, or refused for the same fault; and a file that
is read as a version is read as the same version whatever follows it on further lines.
-/
import VersionStamp.Proofs.Files.Tree
import VersionStamp.Proofs.Header.Grammar
import VersionStamp.Proofs.Store.Access
import VersionStamp.Proofs.Text.LineEnds

namespace VersionStamp

namespace Header

/-! ## Values and the words on lines -/

/-- The value of a field depends on the words on its line only. -/
theorem valueWord_eq_of_lineWords {text₁ text₂ : List Char} {field : Field}
    (h : (Text.lineWords text₁)[field.line - 1]? = (Text.lineWords text₂)[field.line - 1]?) :
    valueWord (Text.lines text₁) field = valueWord (Text.lines text₂) field := by
  simp only [Text.lineWords, List.getElem?_map] at h
  unfold valueWord
  cases hline₁ : (Text.lines text₁)[field.line - 1]? with
  | none =>
    rw [hline₁, Option.map_none, eq_comm, Option.map_eq_none_iff] at h
    rw [h]
  | some line₁ =>
    rw [hline₁, Option.map_some, eq_comm, Option.map_eq_some_iff] at h
    obtain ⟨line₂, hline₂, hwords⟩ := h
    simp only [hline₂, hwords]

/-! ## The whole text -/

/-- A text with a carriage return put in front of every line feed. -/
def withReturns (text : String) : String :=
  String.ofList (Text.withReturns text.toList)

/-- Carriage returns in front of line feeds change nothing in what a text is read as. -/
theorem parse_withReturns (text : String) : parse (withReturns text) = parse text := by
  refine parse_congr fun field => valueWord_eq_of_lineWords ?_
  rw [withReturns, String.toList_ofList, Text.lineWords_withReturns]

/-- A value that a text holds is the same when more text follows on further lines. -/
theorem valueWord_append {text : List Char} {field : Field} {word : List Char}
    (h : valueWord (Text.lines text) field = .ok word) (more : List Char) :
    valueWord (Text.lines (text ++ '\n' :: more)) field = .ok word := by
  obtain ⟨line, hline, -⟩ := valueWord_eq_ok_iff.1 h
  rw [← h]
  refine (valueWord_eq_of_lineWords ?_).symm
  -- The line is there, so it is one of those in front.
  have hwords : (Text.lineWords text)[field.line - 1]? = some (Text.words line) := by
    rw [Text.lineWords, List.getElem?_map, hline, Option.map_some]
  rw [hwords]
  obtain ⟨hlt, hat⟩ := List.getElem?_eq_some_iff.1 hwords
  have hsame := (Text.lineWords_prefix_append text more).getElem hlt
  rw [eq_comm, List.getElem?_eq_some_iff]
  exact ⟨_, hsame.symm.trans hat⟩

/-- A header is read as the same version when more text follows on further lines. -/
theorem parse_append_of_ok {text : String} {v : Version} (h : parse text = .ok v) (more : String) :
    parse (text ++ "\n" ++ more) = .ok v := by
  have hlist : (text ++ "\n" ++ more).toList = text.toList ++ '\n' :: more.toList := by
    simp
  obtain ⟨major, minor, patch, suffix, hmajor, hminor, hpatch, hsuffix, hvalues⟩ :=
    parse_eq_ok_iff.1 h
  rw [parse_eq_ok_iff, hlist]
  exact ⟨major, minor, patch, suffix, valueWord_append hmajor _, valueWord_append hminor _,
    valueWord_append hpatch _, valueWord_append hsuffix _, hvalues⟩

end Header

namespace Store

/-- **Line ends and further lines make no difference.**  A text with a carriage return put in front
of every line feed is read as the text without them: as the same version, or it is refused for the
same fault, on the same line and with the same message.  So a version file is loaded alike from both
texts.  A text that is read as a version is read as the same version when it is followed by a line
feed and any other text. -/
theorem line_ends_and_further_lines_do_not_matter :
    (∀ text : String, Header.parse (Header.withReturns text) = Header.parse text) ∧
      (∀ {σ : Type} (files : Files (StateM σ)) (store : Store) (text : String) (s s' : σ),
        ((files.read store.path).run s).1 = .ok text →
          ((files.read store.path).run s').1 = .ok (Header.withReturns text) →
            ((store.load files).run s').1 = ((store.load files).run s).1) ∧
      ∀ (text : String) (v : Version), Header.parse text = .ok v →
        ∀ more : String, Header.parse (text ++ "\n" ++ more) = .ok v := by
  refine ⟨Header.parse_withReturns, ?_, fun text v => Header.parse_append_of_ok⟩
  intro σ files store text s s' hread hread'
  rw [load_run, load_run, hread, hread', versionOf, versionOf, Header.parse_withReturns]

/-- A header with line feeds, a line feed behind one and behind two carriage returns, a carriage
return between words, and one at the end. -/
def mixedEnds : String :=
  "#define A 1\r\n#define\rB 2\n#define C 3\r\r\n#define D \"rc\"1\r"

/-- A tree with nothing but a version file. -/
def treeOf (text : String) : Tree :=
  ⟨[(["version.inc"], .file text.toUTF8)]⟩

/-- The version file of that tree is read. -/
theorem read_treeOf (text : String) :
    ((Files.ofTree []).read ⟨"/version.inc"⟩).run (treeOf text) = (.ok text, treeOf text) :=
  Files.ofTree_read_run ⟨by decide, ["version.inc"], rfl, rfl⟩

/-- With all kinds of line ends, with more carriage returns, and with another line behind it, the
header is read as the same version. -/
theorem mixedEnds_are_read_alike :
    let store : Store := ⟨⟨"/version.inc"⟩, "LC0"⟩
    Header.parse mixedEnds = .ok ⟨1, 2, 3, "rc1"⟩ ∧
      Header.withReturns mixedEnds =
        "#define A 1\r\r\n#define\rB 2\r\n#define C 3\r\r\r\n#define D \"rc\"1\r" ∧
      ((store.load (Files.ofTree [])).run (treeOf (Header.withReturns mixedEnds))).1 =
        .ok ⟨1, 2, 3, "rc1"⟩ ∧
      Header.parse (mixedEnds ++ "\n" ++ "\n#define E\r") = .ok ⟨1, 2, 3, "rc1"⟩ := by
  intro store
  obtain ⟨-, hload, happend⟩ := line_ends_and_further_lines_do_not_matter
  have hparse : Header.parse mixedEnds = .ok ⟨1, 2, 3, "rc1"⟩ := by rfl
  have hsame := hload (Files.ofTree []) store mixedEnds (treeOf mixedEnds)
    (treeOf (Header.withReturns mixedEnds)) (congrArg Prod.fst (read_treeOf _))
    (congrArg Prod.fst (read_treeOf _))
  refine ⟨hparse, by rfl, hsame.trans ?_, happend mixedEnds _ hparse _⟩
  exact congrArg Prod.fst (load_run_of_parse hparse (read_treeOf mixedEnds))

end Store

end VersionStamp
