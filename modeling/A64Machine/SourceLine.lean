import A64Machine.Token
import A64Machine.Text.LowerCase

/-!
# Lines of source

A line holds an optional label, an optional mnemonic and its operand text. Comments are removed
first: block comments within the line give way to blanks, so that the columns stay true, and a
comment to the end of the line is cut off.
-/

namespace A64Machine

/-- The parts of a line, with the column at which the operand text begins. -/
structure SourceLine where
  label : Option String
  mnemonic : Option String
  operands : String
  column : Nat
  deriving DecidableEq, Repr

namespace SourceLine

/-- Whether the character ends a line. -/
def isLineEnd (c : Char) : Bool := c == '\r' || c == '\n'

/-- The number of characters up to the end of a block comment, which must lie in the line. -/
def commentEnd? : List Char → Option Nat
  | [] => none
  | c :: rest =>
    if c = '*' ∧ rest.head? = some '/' then some 2
    else if c = '\n' then none
    else (commentEnd? rest).map (· + 1)

/-- The number of characters that a block comment takes after its first one. -/
def commentTail? (c : Char) (rest : List Char) : Option Nat :=
  match c, rest with
  | '/', '*' :: body => (commentEnd? body).map (· + 1)
  | _, _ => none

/-- The line with its closed block comments replaced by blanks, after `inside` characters that
still belong to one. -/
def blankComments : (inside : Nat) → List Char → List Char
  | _, [] => []
  | inside + 1, _ :: rest => ' ' :: blankComments inside rest
  | 0, c :: rest =>
    match commentTail? c rest with
    | some inside => ' ' :: blankComments inside rest
    | none => c :: blankComments 0 rest

/-- Whether a text begins with the given characters. -/
def startsWith (marker text : List Char) : Bool := text.take marker.length == marker

/-- The position of the first occurrence of a marker. -/
def position? (marker : List Char) : List Char → Option Nat
  | [] => none
  | c :: rest =>
    if startsWith marker (c :: rest) then some 0 else (position? marker rest).map (· + 1)

/-- The text in front of a marker, or all of it where the marker does not occur. -/
def before (marker : List Char) (text : List Char) : List Char :=
  match position? marker text with
  | some position => text.take position
  | none => text

/-- The line without its comments. -/
def withoutComments (line : List Char) : Except AssemblyError (List Char) :=
  let line := blankComments 0 (Text.dropEndWhile isLineEnd line)
  match position? ['/', '*'] line with
  | some start => .error ⟨.unterminatedComment, ⟨start, line.length⟩⟩
  | none => .ok (before [';'] (before ['/', '/'] line))

/-- The label at the start of a line and the text behind its colon. -/
def label? (line : List Char) : Option (List Char × List Char) :=
  match line.dropWhile Text.isBlank with
  | [] => none
  | c :: rest =>
    if Lexeme.startsName c then
      match (rest.dropWhile Lexeme.continuesName).dropWhile Text.isBlank with
      | ':' :: behind => some (c :: rest.takeWhile Lexeme.continuesName, behind)
      | _ => none
    else none

/-- The parts of a line. -/
def parse (line : String) : Except AssemblyError SourceLine := do
  let line ← withoutComments line.toList
  let (label, behind) :=
    match label? line with
    | some (name, behind) => (some (String.ofList name), behind)
    | none => (none, line)
  let start := behind.dropWhile Text.isBlank
  let word := start.takeWhile fun c => !Text.isBlank c
  if word.isEmpty then return ⟨label, none, "", line.length⟩
  let operands := (start.drop word.length).dropWhile Text.isBlank
  return ⟨label, some (Text.lower (String.ofList word)),
    String.ofList (Text.dropEndWhile Text.isBlank operands), line.length - operands.length⟩

end SourceLine

end A64Machine
