/-!
# Blank characters

The characters that separate words, and the removal of blanks at the ends of a text.
-/

namespace A64Machine.Text

/-- The blanks: white space of all scripts and the four ASCII separators. -/
def blankRanges : List (Nat × Nat) :=
  [
    (0x9, 0xd), (0x1c, 0x20), (0x85, 0x85), (0xa0, 0xa0), (0x1680, 0x1680), (0x2000, 0x200a),
    (0x2028, 0x2029), (0x202f, 0x202f), (0x205f, 0x205f), (0x3000, 0x3000)
  ]

/-- Whether the character is blank. -/
def isBlank (c : Char) : Bool :=
  blankRanges.any fun (first, last) => decide (first ≤ c.toNat ∧ c.toNat ≤ last)

/-- The text without the characters of a class at its end. -/
def dropEndWhile (p : Char → Bool) (text : List Char) : List Char :=
  (text.reverse.dropWhile p).reverse

/-- The text without the blanks at its start and at its end. -/
def trimBlanks (text : List Char) : List Char := dropEndWhile isBlank (text.dropWhile isBlank)

/-- The maximal runs of characters that are not blank, given the run read so far in reverse. -/
def blankSeparated : (word : List Char) → List Char → List (List Char)
  | word, [] => if word.isEmpty then [] else [word.reverse]
  | word, c :: rest =>
    if isBlank c then
      if word.isEmpty then blankSeparated [] rest else word.reverse :: blankSeparated [] rest
    else blankSeparated (c :: word) rest

/-- The words of a text: its maximal runs of characters that are not blank. -/
def words (text : List Char) : List (List Char) := blankSeparated [] text

end A64Machine.Text
