import A64Machine.Settings.ScalarText

/-!
# The marks of a text

A text is divided into marks from its start to its end. Indentation opens and closes blocks outside
of brackets. A scalar or a bracket may turn out to be a key only at the colon behind it, so the
place where the mark of the key belongs is remembered until then: there is at most one such place at
every depth of brackets, and it is given up at the end of its line.
-/

namespace A64Machine.Settings

/-- A place where a key may begin: the depth of brackets, how many marks come before it, whether a
key must begin there, and where it is in the text. -/
structure KeyPlace where
  depth : Nat
  position : Nat
  required : Bool
  index : Nat
  line : Nat
  column : Nat

/-- What is known while a text is divided: the cursor, the depth of brackets, the column of the open
block and those of the blocks around it, whether a key may begin, the places where keys may have
begun, and the marks so far. The column of no block is `-1`. -/
structure Markup where
  cursor : Cursor
  depth : Nat
  indent : Int
  enclosing : List Int
  keyAllowed : Bool
  places : List KeyPlace
  marks : Array Mark

namespace Markup

/-- The markup at the start of a text. -/
def start (text : List Char) : Markup := ⟨.start text, 0, -1, [], true, [], #[]⟩

/-- The most characters that a key may have. -/
def longestKey : Nat := 1024

/-- Adds a mark. -/
def push (markup : Markup) (mark : Mark) : Markup := { markup with marks := markup.marks.push mark }

/-- Adds a mark that is some characters long. -/
def take (markup : Markup) (mark : Mark) (length : Nat) : Markup :=
  { markup with cursor := markup.cursor.forward length, marks := markup.marks.push mark }

/-- The number of characters up to the next mark, which are blanks, line ends and comments, and
whether a line ends among them. -/
def gap : (inComment : Bool) → List Char → Nat × Bool
  | _, [] => (0, false)
  | inComment, c :: rest =>
    if Mark.isBreak c then ((gap false rest).1 + 1, true)
    else if inComment || c == ' ' || c == '#' then
      let (length, crossed) := gap (inComment || c == '#') rest
      (length + 1, crossed)
    else (0, false)

/-- Goes on to the next mark. Behind the end of a line a key may begin, except between brackets. -/
def skipGap (markup : Markup) : Markup :=
  let (length, crossed) := gap false markup.cursor.rest
  { markup with
    cursor := markup.cursor.forward length
    keyAllowed := markup.keyAllowed || crossed && markup.depth == 0 }

/-- Gives up the places with a property, none of which may be required. -/
def giveUp (markup : Markup) (given : KeyPlace → Bool) : Except DocumentError Markup :=
  if markup.places.any fun place => given place && place.required then .error .unmarked
  else .ok { markup with places := markup.places.filter fun place => !given place }

/-- Whether a place is on another line than the cursor or too far away from it. -/
def isStale (markup : Markup) (place : KeyPlace) : Bool :=
  place.line != markup.cursor.line || decide (place.index + longestKey < markup.cursor.index)

/-- Gives up the places that are stale. -/
def giveUpStale (markup : Markup) : Except DocumentError Markup := markup.giveUp markup.isStale

/-- Gives up the place at the depth of the cursor. -/
def giveUpHere (markup : Markup) : Except DocumentError Markup :=
  markup.giveUp fun place => place.depth == markup.depth

/-- Remembers the cursor as a place where a key may begin, if one may. A key must begin where a
block goes on. -/
def remember (markup : Markup) : Except DocumentError Markup := do
  let cursor := markup.cursor
  if !markup.keyAllowed then return markup
  let markup ← markup.giveUpHere
  let required := markup.depth == 0 && markup.indent == cursor.column
  let place : KeyPlace :=
    ⟨markup.depth, markup.marks.size, required, cursor.index, cursor.line, cursor.column⟩
  return { markup with places := place :: markup.places }

/-- Closes the blocks that are indented more than a column, given those around the open one. -/
def closeBlocks (column : Int) : (enclosing : List Int) → Markup → Markup
  | [], markup => markup
  | outer :: enclosing, markup =>
    if column < markup.indent then
      closeBlocks column enclosing
        { markup.push .blockEnd with indent := outer, enclosing := enclosing }
    else markup

/-- Closes the blocks that are indented more than a column. Between brackets there are none. -/
def unwind (markup : Markup) (column : Int) : Markup :=
  if markup.depth = 0 then closeBlocks column markup.enclosing markup else markup

/-- Opens a block at a column whose mark belongs at a position, unless one is open there already or
the place is between brackets. -/
def openBlock (markup : Markup) (mark : Mark) (column position : Nat) : Markup :=
  if markup.depth = 0 ∧ markup.indent < column then
    { markup with
      indent := column
      enclosing := markup.indent :: markup.enclosing
      marks := markup.marks.insertIdxIfInBounds position mark }
  else markup

/-- Opens a block at the cursor. -/
def openBlockHere (markup : Markup) (mark : Mark) : Markup :=
  markup.openBlock mark markup.cursor.column markup.marks.size

/-- Takes a mark that separates documents and closes all blocks. -/
def separator (markup : Markup) (mark : Mark) : Except DocumentError Markup := do
  let markup ← (markup.unwind (-1)).giveUpHere
  return { markup with keyAllowed := false }.take mark 3

/-- Takes an opening bracket, behind which a key may begin. -/
def openBracket (markup : Markup) (mark : Mark) : Except DocumentError Markup := do
  let markup ← markup.remember
  return { markup with depth := markup.depth + 1, keyAllowed := true }.take mark 1

/-- Takes a closing bracket. -/
def closeBracket (markup : Markup) (mark : Mark) : Except DocumentError Markup := do
  let markup ← markup.giveUpHere
  return { markup with depth := markup.depth - 1, keyAllowed := false }.take mark 1

/-- Takes a comma, behind which a key may begin. -/
def comma (markup : Markup) : Except DocumentError Markup := do
  let markup ← markup.giveUpHere
  return { markup with keyAllowed := true }.take .comma 1

/-- Takes the dash of an item, which opens a block of items if it is indented more. -/
def item (markup : Markup) : Except DocumentError Markup := do
  if markup.depth = 0 ∧ !markup.keyAllowed then throw .unmarked
  let markup ← (markup.openBlockHere .blockList).giveUpHere
  return { markup with keyAllowed := true }.take .item 1

/-- Takes the question mark in front of a key of any form. -/
def explicitKey (markup : Markup) : Except DocumentError Markup := do
  if markup.depth = 0 ∧ !markup.keyAllowed then throw .unmarked
  let markup ← (markup.openBlockHere .blockMap).giveUpHere
  return { markup with keyAllowed := markup.depth == 0 }.take .key 1

/-- Takes the colon in front of a value. If a key may have begun at the depth of the cursor, it did;
its mark and that of a block that it opens are put in their places. -/
def value (markup : Markup) : Except DocumentError Markup := do
  match markup.places.find? fun place => place.depth == markup.depth with
  | some place =>
    let places := markup.places.filter fun place => place.depth != markup.depth
    let marks := markup.marks.insertIdxIfInBounds place.position .key
    let markup := { markup with places := places, marks := marks, keyAllowed := false }
    return (markup.openBlock .blockMap place.column place.position).take .value 1
  | none =>
    if markup.depth = 0 ∧ !markup.keyAllowed then throw .unmarked
    let markup := markup.openBlockHere .blockMap
    return { markup with keyAllowed := markup.depth == 0 }.take .value 1

/-- Takes a scalar between quotes. -/
def quoted (markup : Markup) (quote : Char) : Except DocumentError Markup := do
  let markup ← markup.remember
  let behind := markup.cursor.rest.tail
  let (text, rest) ← ScalarText.quoted quote (behind.length + 1) behind
  let markup := { markup with cursor := markup.cursor.upTo rest, keyAllowed := false }
  return markup.push (.scalar (String.ofList text) false)

/-- Takes a plain scalar. -/
def plain (markup : Markup) : Except DocumentError Markup := do
  let markup ← markup.remember
  let (text, cursor, crossed) :=
    ScalarText.plain (markup.depth != 0) (markup.indent + 1) markup.cursor.rest.length false []
      markup.cursor
  let markup := { markup with cursor := cursor, keyAllowed := crossed }
  return markup.push (.scalar (String.ofList text) true)

/-- Whether a plain scalar may begin with a character in front of a text. -/
def startsPlain (inFlow : Bool) (c : Char) (rest : List Char) : Bool :=
  !(Mark.isBlank c || Mark.isBreak c || Mark.isIndicator c) ||
    !Mark.atGap rest && (c == '-' || !inFlow && (c == '?' || c == ':'))

/-- Takes the mark that begins with a character in front of a text. -/
def mark (markup : Markup) (c : Char) (rest : List Char) : Except DocumentError Markup :=
  let inFlow := markup.depth != 0
  let separates := markup.cursor.column == 0 && Mark.atSeparator (c :: rest)
  if separates then markup.separator (if c = '-' then .documentStart else .documentEnd)
  else if c = '[' then markup.openBracket .flowList
  else if c = '\x7b' then markup.openBracket .flowMap
  else if c = ']' then markup.closeBracket .flowListEnd
  else if c = '\x7d' then markup.closeBracket .flowMapEnd
  else if c = ',' then markup.comma
  else if c = '-' ∧ Mark.atGap rest then markup.item
  else if c = '?' ∧ (inFlow ∨ Mark.atGap rest) then markup.explicitKey
  else if c = ':' ∧ (inFlow ∨ Mark.atGap rest) then markup.value
  else if c = '\'' ∨ c = '"' then markup.quoted c
  else if startsPlain inFlow c rest then markup.plain
  else .error .unmarked

/-- Goes on by one mark. There is no further markup at the end of the text, where all blocks are
closed. -/
def step (markup : Markup) : Except DocumentError (Option Markup) := do
  let markup ← markup.skipGap.giveUpStale
  let markup := markup.unwind markup.cursor.column
  match markup.cursor.rest with
  | [] =>
    discard (markup.unwind (-1)).giveUpHere
    return none
  | c :: rest => markup.mark c rest

/-- The number of marks in front of the first one whose key is still open. -/
def settled (markup : Markup) : Nat :=
  (markup.places.filter fun place => place.required || !markup.isStale place).foldl
    (fun count place => min count place.position) markup.marks.size

/-- The settled marks and an error in place of the others. -/
def failing (markup : Markup) (error : DocumentError) : Array Mark :=
  (markup.marks.take markup.settled).push (.failure error)

/-- The marks of the text from the cursor on behind those so far. An error comes before the marks
that are not settled, since a reader of marks looks at none of them before it is. -/
def finish : (fuel : Nat) → Markup → Array Mark
  | 0, markup => markup.failing .unmarked
  | fuel + 1, markup =>
    match markup.step with
    | .error error => markup.failing error
    | .ok (some markup) => finish fuel markup
    | .ok none => (markup.unwind (-1)).marks.push .textEnd

/-- The text with every line end that is no separator of lines or paragraphs as a line feed. -/
def withLineFeeds : List Char → List Char
  | [] => []
  | '\r' :: '\n' :: rest => '\n' :: withLineFeeds rest
  | c :: rest => (if c = '\r' ∨ c = '\u0085' then '\n' else c) :: withLineFeeds rest

/-- Whether a document may hold the character. -/
def isAllowed (c : Char) : Bool :=
  ['\t', '\n', '\r', '\u0085'].contains c || decide (' ' ≤ c ∧ c ≤ '~') ||
    decide ('\u00a0' ≤ c) && c != '\ufffe' && c != '\uffff'

end Markup

/-- The marks of a text. A byte order mark at its start means nothing. -/
def Mark.ofText (text : String) : List Mark :=
  let cs := text.toList
  if cs.all Markup.isAllowed then
    let cs := Markup.withLineFeeds (if cs.head? = some '\ufeff' then cs.tail else cs)
    ((Markup.start cs).finish (cs.length + 1)).toList
  else [.failure .unprintable]

end A64Machine.Settings
