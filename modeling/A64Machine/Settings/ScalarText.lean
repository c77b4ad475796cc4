import A64Machine.Settings.Mark

/-!
# The text of scalars

A scalar stands between single or double quotes, or it is plain. All three may go on over several
lines: a line end is read as one blank and every empty line as a line end. Between single quotes a
quote is written twice, and between double quotes a reverse solidus begins an escape. A plain scalar
ends at a colon or a number sign that a blank sets apart, where the indentation ends it, and between
brackets at a comma or a bracket.
-/

namespace A64Machine.Settings.ScalarText

open Mark

/-- The characters that a letter behind a reverse solidus stands for. -/
def escapes : List (Char × Char) :=
  [
    ('0', '\x00'), ('a', '\x07'), ('b', '\x08'), ('t', '\t'), ('\t', '\t'), ('n', '\n'),
    ('v', '\x0b'), ('f', '\x0c'), ('r', '\r'), ('e', '\x1b'), (' ', ' '), ('"', '"'),
    ('\\', '\\'), ('/', '/'), ('N', '\u0085'), ('_', '\u00a0'), ('L', '\u2028'), ('P', '\u2029')
  ]

/-- The number of digits of the code that a letter behind a reverse solidus announces. -/
def codeLengths : List (Char × Nat) := [('x', 2), ('u', 4), ('U', 8)]

/-- The character of a code. -/
def ofCode (code : Nat) : Except DocumentError Char :=
  if code.isValidChar then .ok (Char.ofNat code) else .error (.escapedCode code)

/-- The character of an escape and what is behind it. -/
def escape : List Char → Except DocumentError (Char × List Char)
  | [] => .error .unmarked
  | letter :: rest =>
    match escapes.lookup letter, codeLengths.lookup letter with
    | some c, _ => .ok (c, rest)
    | none, none => .error .unmarked
    | none, some length =>
      let digits := (rest.take length).filterMap (Text.asciiDigit? 16)
      if digits.length = length then
        (ofCode (digits.foldl (16 * · + ·) 0)).map fun c => (c, rest.drop length)
      else .error .unmarked

/-- The empty lines and the blanks in front of the next line of a quoted scalar: the ends of the
empty lines and what is behind them. No line may separate documents. -/
def emptyLines : (atStart : Bool) → List Char → Except DocumentError (List Char × List Char)
  | _, [] => .ok ([], [])
  | atStart, c :: rest =>
    if atStart && atSeparator (c :: rest) then .error .unmarked
    else if isBlank c then emptyLines false rest
    else if isBreak c then
      (emptyLines true rest).map fun (breaks, behind) => (c :: breaks, behind)
    else .ok ([], c :: rest)

/-- What the end of a line and the empty lines behind it are read as. -/
def folded (lineEnd : Char) (breaks : List Char) : List Char :=
  if lineEnd ≠ '\n' then lineEnd :: breaks else if breaks.isEmpty then [' '] else breaks

/-- The text up to the closing quote and what is behind it. -/
def quoted (quote : Char) : (fuel : Nat) → List Char → Except DocumentError (List Char × List Char)
  | 0, _ | _, [] => .error .unmarked
  | fuel + 1, c :: rest =>
    let more (read : List Char) (rest : List Char) : Except DocumentError (List Char × List Char) :=
      (quoted quote fuel rest).map fun (text, behind) => (read ++ text, behind)
    if c = quote then
      if quote = '\'' ∧ rest.head? = some '\'' then more ['\''] rest.tail else .ok ([], rest)
    else if c = '\\' ∧ quote = '"' then
      if rest.head?.any isBreak then do
        let (breaks, rest) ← emptyLines true rest.tail
        more breaks rest
      else do
        let (c, rest) ← escape rest
        more [c] rest
    else
      let blanks := (c :: rest).takeWhile isBlank
      match (c :: rest).drop blanks.length with
      | [] => .error .unmarked
      | next :: behind =>
        if isBreak next then do
          let (breaks, rest) ← emptyLines true behind
          more (folded next breaks) rest
        else if blanks.isEmpty then more [c] rest
        else more blanks (next :: behind)

/-- The characters at the start of a text that belong to a plain scalar without a blank. -/
def plainWord (inFlow : Bool) : List Char → List Char
  | [] => []
  | c :: rest =>
    if isBlank c || isBreak c then []
    else if c = ':' ∧ (atGap rest ∨ inFlow ∧ rest.head?.any isFlowIndicator) then []
    else if inFlow && (c == '?' || isFlowIndicator c) then []
    else c :: plainWord inFlow rest

/-- The line ends and the blanks behind the first line end in a plain scalar: the ends of the empty
lines, and what is behind them unless a line separates documents. -/
def plainLines : (atStart : Bool) → List Char → Option (List Char) × List Char
  | _, [] => (some [], [])
  | atStart, c :: rest =>
    if atStart && atSeparator (c :: rest) then (none, c :: rest)
    else if c = ' ' then plainLines false rest
    else if isBreak c then
      let (breaks, behind) := plainLines true rest
      (breaks.map (c :: ·), behind)
    else (some [], c :: rest)

/-- What stands between two words of a plain scalar: how it is read, whether it holds a line end,
and what is behind it. Nothing is read where the scalar cannot go on. -/
def plainGap (text : List Char) : List Char × Bool × List Char :=
  let blanks := text.takeWhile (· == ' ')
  match text.drop blanks.length with
  | [] => (blanks, false, [])
  | next :: behind =>
    if isBreak next then
      let (breaks, rest) := plainLines true behind
      ((breaks.map (folded next)).getD [], true, rest)
    else (blanks, false, next :: behind)

/-- The text of a plain scalar that must be indented at least to a column, where it ends, and
whether it ends behind a line end. -/
def plain (inFlow : Bool) (indent : Int) :
    (fuel : Nat) → (crossed : Bool) → (gap : List Char) → Cursor → List Char × Cursor × Bool
  | 0, crossed, _, cursor => ([], cursor, crossed)
  | fuel + 1, crossed, gap, cursor =>
    let word := plainWord inFlow cursor.rest
    if word.isEmpty ∨ cursor.rest.head? = some '#' then ([], cursor, crossed)
    else
      let (next, crossed, rest) := plainGap (cursor.rest.drop word.length)
      let cursor := cursor.upTo rest
      if next.isEmpty ∨ !inFlow ∧ cursor.column < indent then (gap ++ word, cursor, crossed)
      else
        let (text, cursor, crossed) := plain inFlow indent fuel crossed next cursor
        (gap ++ word ++ text, cursor, crossed)

end A64Machine.Settings.ScalarText
