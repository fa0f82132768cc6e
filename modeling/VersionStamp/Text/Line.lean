/-
# The lines of a text

A line feed ends a line.  One carriage return right before that line feed belongs to the line
end; any other carriage return is text.  The end of the last line may be left out, so a text
that ends in a line feed has no empty line after it.
-/

namespace VersionStamp.Text

/-- The lines of a text, without their line ends. -/
def lines : List Char → List (List Char)
  | [] => []
  | '\n' :: rest => [] :: lines rest
  | '\r' :: '\n' :: rest => [] :: lines rest
  | c :: rest =>
    match lines rest with
    | [] => [[c]]
    | line :: more => (c :: line) :: more

/-- The empty text has no line. -/
@[simp] theorem lines_nil : lines [] = [] := by
  simp [lines]

/-- A line feed closes an empty line. -/
@[simp] theorem lines_lineFeed (rest : List Char) :
    lines ('\n' :: rest) = [] :: lines rest := by
  simp [lines]

/-- A carriage return and a line feed close an empty line together. -/
@[simp] theorem lines_returnFeed (rest : List Char) :
    lines ('\r' :: '\n' :: rest) = [] :: lines rest := by
  simp [lines]

end VersionStamp.Text
