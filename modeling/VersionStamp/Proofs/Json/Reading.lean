/-
# Reading a JSON object

A reader for the JSON objects whose values are strings and natural numbers, by the grammar of JSON:
white space may stand around every token, an escape of a string is one of the short ones or four
hexadecimal digits, a character beyond U+FFFF may be a pair of these, and no number has a zero in
front.  The main facts:

* `codes_escape` : one escaped character is read back, whatever stands behind it;
* `string_quoted` : a quoted string is read back;
* `object?_object` : an object is read back, with its members in order.
-/
import VersionStamp.Proofs.Text.Cutting
import VersionStamp.Report

namespace VersionStamp

namespace Json

/-! ## The reader -/

/-- The white space between tokens. -/
def isSpace (c : Char) : Bool :=
  c = ' ' || c = '\t' || c = '\n' || c = '\r'

/-- The text without the white space in front. -/
def skip (cs : List Char) : List Char :=
  cs.dropWhile isSpace

/-- The character that a single character behind a backslash stands for. -/
def escaped? : Char → Option Char
  | '"' => some '"'
  | '\\' => some '\\'
  | '/' => some '/'
  | 'b' => some '\x08'
  | 'f' => some '\x0c'
  | 'n' => some '\n'
  | 'r' => some '\r'
  | 't' => some '\t'
  | _ => none

/-- The reading with a code in front of those that were read. -/
def prepend (n : Nat) (reading : Option (List Nat × List Char)) :
    Option (List Nat × List Char) :=
  reading.map fun (codes, rest) => (n :: codes, rest)

/-- The codes of a string, behind its opening quote: those of its characters and of its escapes. -/
def codes : List Char → Option (List Nat × List Char)
  | '"' :: rest => some ([], rest)
  | '\\' :: 'u' :: a :: b :: c :: d :: rest =>
    (Text.hexNumber? [a, b, c, d]).bind fun n => prepend n (codes rest)
  | '\\' :: c :: rest => (escaped? c).bind fun x => prepend x.toNat (codes rest)
  | c :: rest => if 0x20 ≤ c.toNat ∧ c ≠ '\\' then prepend c.toNat (codes rest) else none
  | [] => none

/-- The first half of a pair of surrogates. -/
def isHigh (n : Nat) : Bool :=
  0xD800 ≤ n && n < 0xDC00

/-- The second half of a pair of surrogates. -/
def isLow (n : Nat) : Bool :=
  0xDC00 ≤ n && n < 0xE000

/-- The characters that codes stand for: a pair of surrogates for one, every other code for one,
and a surrogate without its other half for none. -/
def characters : List Nat → Option (List Char)
  | [] => some []
  | n :: rest =>
    if isHigh n then
      match rest with
      | m :: more =>
        if isLow m then
          (characters more).map (Char.ofNat (0x10000 + 0x400 * (n - 0xD800) + (m - 0xDC00)) :: ·)
        else none
      | [] => none
    else if n.isValidChar then (characters rest).map (Char.ofNat n :: ·)
    else none

/-- A string with its quotes. -/
def string : List Char → Option (String × List Char)
  | '"' :: rest => do
    let (codes, rest) ← codes rest
    let cs ← characters codes
    return (String.ofList cs, rest)
  | _ => none

/-- A natural number: digits, without zeros in front. -/
def number (cs : List Char) : Option (Nat × List Char) :=
  let digits := cs.takeWhile Char.isDigit
  if digits = [] ∨ digits.head? = some '0' ∧ digits ≠ ['0'] then none
  else some (Nat.ofDigitChars 10 digits 0, cs.dropWhile Char.isDigit)

/-- The value of a member. -/
inductive Value where
  | number (n : Nat)
  | string (s : String)
  deriving DecidableEq, Repr

/-- A value, without white space around it. -/
def value (cs : List Char) : Option (Value × List Char) :=
  if cs.head? = some '"' then (string cs).map fun (s, rest) => (.string s, rest)
  else (number cs).map fun (n, rest) => (.number n, rest)

/-- A member: its name, a colon and its value, with the white space around each. -/
def member (cs : List Char) : Option ((String × Value) × List Char) := do
  let (name, rest) ← string (skip cs)
  match skip rest with
  | ':' :: rest => do
    let (x, rest) ← value (skip rest)
    return ((name, x), skip rest)
  | _ => none

/-- One or more members between commas, at most `limit`, and the brace that closes them. -/
def members : Nat → List Char → Option (List (String × Value) × List Char)
  | 0, _ => none
  | limit + 1, cs => do
    let (entry, rest) ← member cs
    match rest with
    | ',' :: rest => (members limit rest).map fun (entries, rest) => (entry :: entries, rest)
    | '\x7d' :: rest => return ([entry], rest)
    | _ => none

/-- The members of the JSON object that the text holds, in their order.  A text has no more members
than characters. -/
def object? (cs : List Char) : Option (List (String × Value)) :=
  match skip cs with
  | '\x7b' :: cs =>
    if (skip cs).head? = some '\x7d' then
      if skip ((skip cs).drop 1) = [] then some [] else none
    else do
      let (entries, rest) ← members cs.length cs
      if skip rest = [] then some entries else none
  | _ => none

/-! ## Strings -/

/-- An escaped character is read back whatever stands behind it, so no escape ends the string. -/
theorem codes_escape (c : Char) (rest : List Char) :
    codes (Text.escape c ++ rest) = prepend c.toNat (codes rest) := by
  unfold Text.escape
  split
  case h_8 hquote hbackslash _ _ _ _ _ =>
    split
    next hcontrol =>
      have hsmall : c.toNat < 256 := Nat.lt_trans hcontrol (by decide)
      simp only [List.cons_append, List.nil_append, codes, Text.hexNumber?_hexDigit hsmall,
        Option.bind_some]
    next hcontrol =>
      -- A character that stands for itself is neither a quote nor a backslash.
      have hplain : 0x20 ≤ c.toNat ∧ c ≠ '\\' := ⟨Nat.not_lt.1 hcontrol, hbackslash⟩
      rw [List.singleton_append, codes]
      · rw [if_pos hplain]
      · exact hquote
      · rintro _ _ _ _ _ hc
        exact absurd hc hbackslash
      · rintro _ _ hc
        exact absurd hc hbackslash
  all_goals rfl

/-- A string is read back up to its closing quote. -/
theorem codes_flatMap_escape (cs rest : List Char) :
    codes (cs.flatMap Text.escape ++ '"' :: rest) = some (cs.map Char.toNat, rest) := by
  induction cs with
  | nil => rfl
  | cons c cs ih =>
    rw [List.flatMap_cons, List.append_assoc, codes_escape, ih]
    rfl

/-- Characters are found by their code points, since no character is a surrogate. -/
theorem characters_map_toNat (cs : List Char) : characters (cs.map Char.toNat) = some cs := by
  induction cs with
  | nil => rfl
  | cons c cs ih =>
    have hvalid : c.toNat.isValidChar := c.valid
    have hhigh : isHigh c.toNat = false := by
      simp only [isHigh, Bool.and_eq_false_iff, decide_eq_false_iff_not]
      rcases hvalid with h | h <;> omega
    rw [List.map_cons, characters.eq_def]
    simp [hhigh, hvalid, ih]

/-- A quoted string is read back. -/
theorem string_quoted (s : String) (rest : List Char) :
    string ((Text.quoted s).toList ++ rest) = some (s, rest) := by
  have htext : (Text.quoted s).toList ++ rest =
      '"' :: (s.toList.flatMap Text.escape ++ '"' :: rest) := by
    simp [Text.quoted]
  rw [htext, string]
  simp [codes_flatMap_escape, characters_map_toNat]

/-! ## Numbers -/

/-- A number above zero has no zero in front. -/
theorem head?_toDigits_ne_zero {n : Nat} (h : 0 < n) : (Nat.toDigits 10 n).head? ≠ some '0' := by
  induction n using Nat.strongRecOn with
  | _ n ih =>
    by_cases hsmall : n < 10
    · have hdigit : ∀ m < 10, 0 < m → m.digitChar ≠ '0' := by decide
      rw [Nat.toDigits_of_lt_base hsmall, List.head?_cons]
      exact fun hzero => hdigit n hsmall h (Option.some.inj hzero)
    -- The first digit is that of the number without its last digit.
    · have hlarge : 10 ≤ n := Nat.not_lt.1 hsmall
      have hfront := ih (n / 10) (by omega) (by omega)
      obtain ⟨c, cs, hdigits⟩ := List.exists_cons_of_ne_nil
        (Nat.toDigits_ne_nil : Nat.toDigits 10 (n / 10) ≠ [])
      rw [Nat.toDigits_of_base_le (by decide) hlarge, hdigits]
      rwa [hdigits] at hfront

/-- A number is read back up to the first character that is no digit. -/
theorem number_digits (n : Nat) {c : Char} (rest : List Char) (hc : c.isDigit = false) :
    number ((Text.digits n).toList ++ c :: rest) = some (n, c :: rest) := by
  have hdigit : ∀ d ∈ (Text.digits n).toList, d.isDigit = true := fun d =>
    Text.isDigit_of_mem_digits
  have hrest : ∀ d, (c :: rest).head? = some d → d.isDigit = false := by
    rintro d hd
    rwa [← Option.some.inj hd]
  have hzeros : (Text.digits n).toList.head? = some '0' → (Text.digits n).toList = ['0'] := by
    rw [Text.digits, Nat.toList_repr]
    intro hzero
    cases n with
    | zero => rfl
    | succ m => exact absurd hzero (head?_toDigits_ne_zero (Nat.succ_pos m))
  have hform : ¬((Text.digits n).toList = [] ∨
      (Text.digits n).toList.head? = some '0' ∧ (Text.digits n).toList ≠ ['0']) := by
    rintro (hnil | ⟨hzero, hne⟩)
    · exact Text.digits_ne_nil n hnil
    · exact hne (hzeros hzero)
  simp only [number, Text.takeWhile_append_eq hdigit hrest, Text.dropWhile_append_eq hdigit hrest,
    if_neg hform, Text.ofDigitChars_digits]

/-! ## Objects -/

/-- A value as it is written. -/
def Value.text : Value → String
  | number n => Text.digits n
  | string s => Text.quoted s

/-- A member as it is written. -/
def memberText (entry : String × Value) : List Char :=
  (Report.member (entry.1, entry.2.text)).toList

/-- Further members as they are written, each behind a comma. -/
def furtherText (entries : List (String × Value)) : List Char :=
  entries.flatMap fun entry => ',' :: memberText entry

/-- Nothing is skipped in front of a text that starts with no white space. -/
theorem skip_append {cs : List Char} {c : Char} (hhead : cs.head? = some c)
    (hspace : isSpace c = false) (rest : List Char) : skip (cs ++ rest) = cs ++ rest := by
  cases cs with
  | nil => cases hhead
  | cons d ds =>
    obtain rfl : d = c := Option.some.inj hhead
    rw [List.cons_append, skip, List.dropWhile_cons_of_neg (by simp [hspace])]

/-- A quoted string starts with a quote. -/
theorem head?_quoted (s : String) : (Text.quoted s).toList.head? = some '"' := by
  simp [Text.quoted]

/-- A digit is no white space. -/
theorem isSpace_of_isDigit {c : Char} (h : c.isDigit = true) : isSpace c = false := by
  have hne : c ≠ ' ' ∧ c ≠ '\t' ∧ c ≠ '\n' ∧ c ≠ '\r' := by
    refine ⟨?_, ?_, ?_, ?_⟩ <;>
      · rintro rfl
        cases h
  simp [isSpace, hne]

/-- A value is read back where no digit follows, and no white space stands in front of it. -/
theorem value_text (x : Value) {c : Char} (rest : List Char) (hc : c.isDigit = false) :
    value (skip (x.text.toList ++ c :: rest)) = some (x, c :: rest) := by
  cases x with
  | number n =>
    obtain ⟨d, ds, hdigits, hdigit⟩ := Text.exists_digits_eq_cons n
    have hhead : (Text.digits n).toList.head? = some d := by
      rw [hdigits, List.head?_cons]
    have hquote : d ≠ '"' := by
      rintro rfl
      cases hdigit
    rw [Value.text, skip_append hhead (isSpace_of_isDigit hdigit), value,
      if_neg (by simpa [List.head?_append, hhead] using hquote), number_digits n rest hc]
    rfl
  | string s =>
    rw [Value.text, skip_append (head?_quoted s) rfl, value,
      if_pos (by simp [List.head?_append, head?_quoted]), string_quoted]
    rfl

/-- A member starts with a quote. -/
theorem head?_memberText (entry : String × Value) : (memberText entry).head? = some '"' := by
  simp [memberText, Report.member, List.head?_append, head?_quoted]

/-- A member is read back where neither a digit nor white space follows. -/
theorem member_memberText (entry : String × Value) {c : Char} (rest : List Char)
    (hc : c.isDigit = false) (hspace : isSpace c = false) :
    member (memberText entry ++ c :: rest) = some (entry, c :: rest) := by
  obtain ⟨name, x⟩ := entry
  have htext : memberText (name, x) ++ c :: rest =
      (Text.quoted name).toList ++ ':' :: (x.text.toList ++ c :: rest) := by
    simp [memberText, Report.member]
  have hcolon : skip (':' :: (x.text.toList ++ c :: rest)) = ':' :: (x.text.toList ++ c :: rest) :=
    rfl
  have hend : skip (c :: rest) = c :: rest := skip_append (rfl : [c].head? = some c) hspace rest
  rw [htext, member, skip_append (head?_quoted name) rfl, string_quoted]
  simp only [Option.bind_eq_bind, Option.bind_some, hcolon, value_text x rest hc, hend]
  rfl

/-- Members between commas are read back up to the closing brace. -/
theorem members_furtherText (entry : String × Value) {more : List (String × Value)} {limit : Nat}
    (hlimit : more.length < limit) (rest : List Char) :
    members limit (memberText entry ++ (furtherText more ++ '\x7d' :: rest)) =
      some (entry :: more, rest) := by
  induction more generalizing entry limit with
  | nil =>
    obtain ⟨limit, rfl⟩ := Nat.exists_eq_succ_of_ne_zero (Nat.ne_zero_of_lt hlimit)
    rw [furtherText, List.flatMap_nil, List.nil_append, members,
      member_memberText entry rest rfl rfl]
    rfl
  | cons next more ih =>
    obtain ⟨limit, rfl⟩ := Nat.exists_eq_succ_of_ne_zero (Nat.ne_zero_of_lt hlimit)
    have htext : furtherText (next :: more) ++ '\x7d' :: rest =
        ',' :: (memberText next ++ (furtherText more ++ '\x7d' :: rest)) := by
      simp [furtherText]
    have hnext := ih next (Nat.lt_of_succ_lt_succ hlimit)
    rw [htext, members, member_memberText entry _ rfl rfl]
    simp only [Option.bind_eq_bind, Option.bind_some, hnext, Option.map_some]

/-- There are no more members than characters. -/
theorem length_le_length_furtherText (entries : List (String × Value)) :
    entries.length ≤ (furtherText entries).length := by
  induction entries with
  | nil => exact Nat.le_refl 0
  | cons entry entries ih =>
    have htext : furtherText (entry :: entries) =
        ',' :: memberText entry ++ furtherText entries := List.flatMap_cons
    simp only [htext, List.length_append, List.length_cons]
    omega

/-- The members of an object stand between commas. -/
theorem intercalate_memberText (entry : String × Value) (more : List (String × Value)) :
    [','].intercalate ((entry :: more).map memberText) = memberText entry ++ furtherText more := by
  induction more generalizing entry with
  | nil => simp [furtherText]
  | cons next more ih =>
    rw [List.map_cons, List.map_cons, List.intercalate_cons_cons, ← List.map_cons, ih]
    simp [furtherText]

/-- An object with a member as it is written. -/
theorem toList_object (entry : String × Value) (more : List (String × Value)) :
    (Report.object ((entry :: more).map fun entry => (entry.1, entry.2.text))).toList =
      '\x7b' :: (memberText entry ++ (furtherText more ++ ['\x7d'])) := by
  have hmembers : (((entry :: more).map fun entry => (entry.1, entry.2.text)).map
      Report.member).map String.toList = (entry :: more).map memberText := by
    rw [List.map_map, List.map_map]
    rfl
  have hopen : "\x7b".toList = ['\x7b'] := rfl
  have hcomma : ",".toList = [','] := rfl
  have hclose : "\x7d".toList = ['\x7d'] := rfl
  rw [Report.object, String.toList_append, String.toList_append, String.toList_intercalate,
    hmembers, hcomma, intercalate_memberText, hopen, hclose, List.append_assoc, List.append_assoc,
    List.singleton_append]

/-- **A JSON object is read back, with all its members in order.** -/
theorem object?_object (entries : List (String × Value)) :
    object? (Report.object (entries.map fun entry => (entry.1, entry.2.text))).toList =
      some entries := by
  cases entries with
  | nil => rfl
  | cons entry more =>
    have hopen : ∀ cs, skip ('\x7b' :: cs) = '\x7b' :: cs := fun cs => rfl
    -- The first member starts with a quote, so the object is not taken for an empty one.
    have hfirst := skip_append (head?_memberText entry) rfl (furtherText more ++ ['\x7d'])
    have hmember : ¬(memberText entry ++ (furtherText more ++ ['\x7d'])).head? = some '\x7d' := by
      rw [List.head?_append, head?_memberText]
      exact fun hbrace => absurd (Option.some.inj hbrace) (by decide)
    have hlimit : more.length < (memberText entry ++ (furtherText more ++ ['\x7d'])).length := by
      have hle := length_le_length_furtherText more
      simp only [List.length_append, List.length_cons]
      omega
    rw [toList_object, object?, hopen]
    simp only [hfirst, if_neg hmember, members_furtherText entry hlimit, Option.bind_eq_bind,
      Option.bind_some]
    rfl

/-- White space, short escapes and pairs of surrogates are read as JSON has them. -/
example : object? " \x7b \"a\" : \"\\u0041\\uD83D\\uDE00\\/\" , \"b\" : 0 \x7d\n".toList =
    some [("a", .string (String.ofList ['A', Char.ofNat 0x1F600, '/'])), ("b", .number 0)] := by
  decide +kernel

/-- A comma behind the last member is refused. -/
example : object? "\x7b\"a\":1,\x7d".toList = none := by
  decide +kernel

end Json

end VersionStamp
