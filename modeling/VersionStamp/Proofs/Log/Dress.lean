/-
# Entries and their dress

An entry is written as a front, made of signature and label, and its message and trace behind it.
The styles differ in the front only, and there only by control sequences: what is printed outside
of these is the plain front.
-/
import VersionStamp.Log.Style

namespace VersionStamp

namespace Log

/-! ## What stands outside of control sequences -/

/-- The characters outside of control sequences, from a place that is inside of one or not.  A
control sequence starts with the escape character and ends with the next letter m. -/
def outside : Bool → List Char → List Char
  | _, [] => []
  | true, c :: rest => outside (c ≠ 'm') rest
  | false, c :: rest => if c = '\x1b' then outside true rest else c :: outside false rest

/-- A text without its control sequences. -/
def undressed (text : String) : String :=
  String.ofList (outside false text.toList)

/-- A control sequence is passed over up to its end. -/
theorem outside_true_append {cs : List Char} (h : 'm' ∉ cs) (rest : List Char) :
    outside true (cs ++ 'm' :: rest) = outside false rest := by
  induction cs with
  | nil => rfl
  | cons c cs ih =>
    obtain ⟨hne, hcs⟩ := not_or.1 (mt List.mem_cons.2 h)
    have hc : decide (c ≠ 'm') = true := decide_eq_true (Ne.symm hne)
    rw [List.cons_append, outside, hc, ih hcs]

/-- Text without an escape character stands outside of control sequences. -/
theorem outside_false_append {cs : List Char} (h : '\x1b' ∉ cs) (rest : List Char) :
    outside false (cs ++ rest) = cs ++ outside false rest := by
  induction cs with
  | nil => rfl
  | cons c cs ih =>
    obtain ⟨hne, hcs⟩ := not_or.1 (mt List.mem_cons.2 h)
    rw [List.cons_append, outside, if_neg (Ne.symm hne), ih hcs, List.cons_append]

/-- A control sequence in front of a text is not seen. -/
theorem undressed_control {parameters : String} (h : 'm' ∉ parameters.toList) (text : String) :
    undressed (control parameters ++ text) = undressed text := by
  have hcontrol : (control parameters ++ text).toList =
      '\x1b' :: ('[' :: parameters.toList ++ 'm' :: text.toList) := by
    simp [control]
  have hparameters : 'm' ∉ '[' :: parameters.toList := by simpa using h
  rw [undressed, hcontrol, outside, if_pos rfl, outside_true_append hparameters, undressed]

/-- Text without an escape character is seen. -/
theorem undressed_append {text : String} (h : '\x1b' ∉ text.toList) (more : String) :
    undressed (text ++ more) = text ++ undressed more := by
  rw [undressed, String.toList_append, outside_false_append h, String.ofList_append,
    String.ofList_toList, undressed]

/-! ## Signatures and labels -/

/-- No colour is chosen by the letter with which its control sequence ends. -/
theorem Colour.not_mem_parameters (colour : Colour) : 'm' ∉ colour.parameters.toList := by
  have hdigits : ∀ n, 'm' ∉ (Text.digits n).toList := by
    intro n hmem
    exact absurd (Text.isDigit_of_mem_digits hmem) (by decide)
  cases colour with
  | indexed n => simp [parameters, hdigits]
  | mixed red green blue => simp [parameters, hdigits]

/-- A colour that is chosen in front of a text is not seen. -/
theorem undressed_foreground (withColours : Bool) (colour : Colour) (text : String) :
    undressed (foreground withColours colour ++ text) = undressed text := by
  refine undressed_control ?_ text
  cases withColours with
  | true => exact colour.not_mem_parameters
  | false => exact nofun

/-- What stands in front of the message of an entry. -/
def Style.front (style : Style) (level : Level) : String :=
  style.signature ++ " " ++ style.label level ++ " "

/-- The label of a level has no control sequence in it. -/
theorem Level.not_mem_label (level : Level) : '\x1b' ∉ level.label.toList := by
  cases level <;> decide

/-- The plain front, in one piece. -/
theorem plain_front (level : Level) :
    Style.plain.front level = "[versionbump] [" ++ level.label ++ "] " := by
  cases level <;> rfl

/-- In every style the front of an entry is the plain front but for control sequences. -/
theorem undressed_front (style : Style) (level : Level) :
    undressed (style.front level) = Style.plain.front level := by
  have hbold : ∀ text, undressed (bold ++ text) = undressed text :=
    undressed_control (by decide)
  have hreset : ∀ text, undressed (reset ++ text) = undressed text :=
    undressed_control (by decide)
  have hname : ∀ text, undressed (signatureName ++ text) = signatureName ++ undressed text :=
    undressed_append (by decide)
  have hlabel : ∀ text, undressed (level.label ++ text) = level.label ++ undressed text :=
    undressed_append level.not_mem_label
  have hopen : ∀ text, undressed ("[" ++ text) = "[" ++ undressed text :=
    undressed_append (by decide)
  have hclose : ∀ text, undressed ("]" ++ text) = "]" ++ undressed text :=
    undressed_append (by decide)
  have hblank : ∀ text, undressed (" " ++ text) = " " ++ undressed text :=
    undressed_append (by decide)
  have hend : undressed " " = " " := by rfl
  cases style <;>
    simp only [Style.front, Style.signature, Style.label, dressedSignature, dressedLabel,
      String.append_assoc, undressed_foreground, hbold, hreset, hname, hlabel, hopen, hclose,
      hblank, hend]

/-- An entry is written as its front and its body. -/
theorem Style.entry_eq (style : Style) (entry : Entry) :
    style.entry entry = style.front entry.level ++ entry.body :=
  rfl

/-- A log is written entry by entry. -/
theorem render_cons (style : Style) (entry : Entry) (more : List Entry) :
    style.render (entry :: more) = style.entry entry ++ style.render more := by
  rw [Style.render, List.map_cons, String.join_cons, Style.render]

/-- Two logs in a row are written one behind the other. -/
theorem render_append (style : Style) (log more : List Entry) :
    style.render (log ++ more) = style.render log ++ style.render more := by
  rw [Style.render, List.map_append, String.join_append, Style.render, Style.render]

/-- A plain log is made of plain fronts and bodies. -/
theorem render_plain (log : List Entry) :
    Style.plain.render log = String.join (log.map fun entry =>
      "[versionbump] [" ++ entry.level.label ++ "] " ++ entry.body) := by
  rw [Style.render]
  congr 2
  funext entry
  rw [Style.entry_eq, plain_front]

end Log

end VersionStamp
