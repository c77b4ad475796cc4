/-!
# Lines of a text

A line ends with a line feed, a carriage return, or both in that order. A last line without an
end is a line unless it is empty.
-/

namespace A64Machine.Text

/-- The lines of a text without their ends, after the characters of the first line that were
read so far in reverse. -/
def linesFrom : (line : List Char) → List Char → List (List Char)
  | line, [] => if line.isEmpty then [] else [line.reverse]
  | line, '\r' :: '\n' :: rest => line.reverse :: linesFrom [] rest
  | line, c :: rest =>
    if c = '\n' ∨ c = '\r' then line.reverse :: linesFrom [] rest else linesFrom (c :: line) rest

/-- The lines of a text without their ends. -/
def lines (text : String) : List String := (linesFrom [] text.toList).map String.ofList

end A64Machine.Text
