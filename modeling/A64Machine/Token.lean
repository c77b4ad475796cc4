import A64Machine.Complaint
import A64Machine.Text.Blank
import A64Machine.Text.Digit
import A64Machine.Text.Letter

/-!
# Tokens of operand text

Operand text is cut into numbers, names and punctuation, with blanks between them left out. The
tokens are then divided into groups at the commas that stand outside square brackets, one group
for each operand.
-/

namespace A64Machine

/-- The kinds of tokens. -/
inductive TokenKind where
  | number | name | punct
  deriving DecidableEq, Repr

/-- A token and the place where it was found. -/
structure Token where
  kind : TokenKind
  text : String
  span : Span
  deriving DecidableEq, Repr

namespace Token

/-- Whether the token is the given punctuation. -/
def isPunct (token : Token) (text : String) : Bool := token.kind == .punct && token.text == text

/-- The place from the first to the last of some tokens. -/
def spanOf (first : Token) (rest : List Token) : Span :=
  ⟨first.span.start, ((first :: rest).getLast?.getD first).span.stop⟩

end Token

namespace Lexeme

/-- Whether the character is a hexadecimal digit. -/
def isHexDigit (c : Char) : Bool :=
  c.isDigit || decide ('a' ≤ c ∧ c ≤ 'f') || decide ('A' ≤ c ∧ c ≤ 'F')

/-- Whether the character is a binary digit. -/
def isBinaryDigit (c : Char) : Bool := c == '0' || c == '1'

/-- Whether a name may begin with the character. -/
def startsName (c : Char) : Bool := c.isAlpha || c == '_' || c == '.' || c == '$'

/-- Whether a name may go on with the character. -/
def continuesName (c : Char) : Bool := Text.isWordChar c || c == '.' || c == '$'

/-- The punctuation characters. -/
def isPunctuation (c : Char) : Bool :=
  ['[', ']', '#', '!', ',', '+', '-', '(', ')'].contains c

/-- How many characters at the start of a text belong to a class. -/
def runLength (p : Char → Bool) (text : List Char) : Nat := (text.takeWhile p).length

/-- The length of the number at the start of a text, which is zero when there is none. A lead
counts only if a digit of its base follows it. -/
def numberLength : List Char → Nat
  | '0' :: lead :: rest =>
    let digits :=
      if lead = 'x' ∨ lead = 'X' then runLength isHexDigit rest
      else if lead = 'b' ∨ lead = 'B' then runLength isBinaryDigit rest
      else 0
    if digits = 0 then runLength Text.isDigit ('0' :: lead :: rest) else digits + 2
  | text => runLength Text.isDigit text

/-- The kind and the length of the token at the start of a text that does not begin with a
blank. -/
def token? : List Char → Option (TokenKind × Nat)
  | [] => none
  | c :: rest =>
    let digits := numberLength (c :: rest)
    if digits ≠ 0 then some (.number, digits)
    else if startsName c then some (.name, 1 + runLength continuesName rest)
    else if isPunctuation c then some (.punct, 1)
    else none

end Lexeme

namespace Token

/-- The tokens of a text that begins at the given position, after `skip` characters that belong
to a token already read. -/
def scan : (skip : Nat) → (position : Int) → List Char → Except AssemblyError (List Token)
  | _, _, [] => .ok []
  | skip + 1, position, _ :: rest => scan skip (position + 1) rest
  | 0, position, c :: rest =>
    if Text.isBlank c then scan 0 (position + 1) rest
    else
      match Lexeme.token? (c :: rest) with
      | none => .error ⟨.unexpectedCharacter c, ⟨position, position + 1⟩⟩
      | some (kind, length) =>
        (scan (length - 1) (position + 1) rest).map
          (⟨kind, String.ofList ((c :: rest).take length), ⟨position, position + length⟩⟩ :: ·)

/-- Puts a token in front of the first group. -/
def consToFirst (token : Token) : List (List Token) → List (List Token)
  | [] => [[token]]
  | group :: groups => (token :: group) :: groups

/-- The groups of a token list at a bracket depth, cut at the commas of depth zero. -/
def groupAt : (depth : Int) → List Token → List (List Token)
  | _, [] => [[]]
  | depth, token :: rest =>
    if token.isPunct "," ∧ depth = 0 then [] :: groupAt depth rest
    else
      let depth :=
        if token.isPunct "[" then depth + 1
        else if token.isPunct "]" then depth - 1
        else depth
      consToFirst token (groupAt depth rest)

/-- The token groups of an operand text that begins at the given position of its line. A text
without tokens has no group. -/
def groups (text : String) (offset : Int) : Except AssemblyError (List (List Token)) := do
  match groupAt 0 (← scan 0 offset text.toList) with
  | [[]] => return []
  | groups => return groups

/-- The groups of a token list, cut at every comma. -/
def splitCommas : List Token → List (List Token)
  | [] => [[]]
  | token :: rest =>
    if token.isPunct "," then [] :: splitCommas rest else consToFirst token (splitCommas rest)

end Token

end A64Machine
