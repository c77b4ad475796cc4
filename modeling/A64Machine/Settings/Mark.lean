import A64Machine.Text.Numeral

/-!
# Marks of a setting document

The text of a document is made of marks: scalars, the indicators that are written between them, and
the beginnings and ends of blocks, which indentation shows. This file holds the marks, the cursor
that reads a text, and the classes of characters.
-/

namespace A64Machine.Settings

/-- Why a document has no value: a character that no document may hold, a text that does not divide
into marks, marks in an order that makes no sense, more than one document, a key that is no scalar,
an escaped code that is no character, or a number that cannot be read. -/
inductive DocumentError where
  | unprintable
  | unmarked
  | disordered
  | severalDocuments
  | compositeKey
  | escapedCode (code : Nat)
  | numeral (bad : Text.BadNumeral)
  deriving DecidableEq, Repr

/-- The text of an error in a document. -/
def DocumentError.message : DocumentError → String
  | .unprintable => "special characters are not allowed"
  | .unmarked => "a character has no place where it stands"
  | .disordered => "a mark has no place where it stands"
  | .severalDocuments => "expected a single document"
  | .compositeKey => "a key must be a scalar"
  | .escapedCode _ => "chr() arg not in range(0x110000)"
  | .numeral bad => bad.message

/-- A mark of a document. The last mark of a text is its end, or the error that kept it from being
read to the end. -/
inductive Mark where
  | scalar (text : String) (plain : Bool)
  | blockList
  | blockMap
  | blockEnd
  | item
  | key
  | value
  | flowList
  | flowListEnd
  | flowMap
  | flowMapEnd
  | comma
  | documentStart
  | documentEnd
  | textEnd
  | failure (error : DocumentError)
  deriving DecidableEq, Repr

namespace Mark

/-- Whether the character ends a line. -/
def isBreak (c : Char) : Bool := ['\n', '\u2028', '\u2029'].contains c

/-- Whether the character is a blank within a line. -/
def isBlank (c : Char) : Bool := c == ' ' || c == '\t'

/-- Whether a text goes on with a blank, the end of the line or nothing. -/
def atGap (text : List Char) : Bool := text.head?.all fun c => isBlank c || isBreak c

/-- Whether a text begins with three dashes or dots and a gap behind them, which separate documents
at the start of a line. -/
def atSeparator (text : List Char) : Bool :=
  (['-', '-', '-'].isPrefixOf text || ['.', '.', '.'].isPrefixOf text) && atGap (text.drop 3)

/-- Whether the character is an indicator of flow: a comma or a bracket. -/
def isFlowIndicator (c : Char) : Bool := ",[]\x7b\x7d".toList.contains c

/-- Whether the character means something at the start of a mark, so that a plain scalar may begin
with it only in front of something else, or not at all. -/
def isIndicator (c : Char) : Bool := "-?:,[]\x7b\x7d#&*!|>'\"%@\x60".toList.contains c

end Mark

/-- A place in a text: what is to come, the number of characters before it, and its line and
column. -/
structure Cursor where
  rest : List Char
  index : Nat
  line : Nat
  column : Nat

namespace Cursor

/-- The cursor at the start of a text. -/
def start (text : List Char) : Cursor := ⟨text, 0, 0, 0⟩

/-- The cursor behind a number of characters. A byte order mark takes no column. -/
def forward (cursor : Cursor) : (count : Nat) → Cursor
  | 0 => cursor
  | count + 1 =>
    match cursor.rest with
    | [] => cursor
    | c :: rest =>
      let index := cursor.index + 1
      if Mark.isBreak c then forward ⟨rest, index, cursor.line + 1, 0⟩ count
      else
        let column := if c = '\ufeff' then cursor.column else cursor.column + 1
        forward ⟨rest, index, cursor.line, column⟩ count

/-- The cursor where a given rest of its text begins. -/
def upTo (cursor : Cursor) (rest : List Char) : Cursor :=
  cursor.forward (cursor.rest.length - rest.length)

end Cursor

end A64Machine.Settings
