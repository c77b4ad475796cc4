import A64Machine.Settings.Markup

/-!
# The nodes of a document

A document is a scalar, a list or a map, whose items, keys and values are nodes again. Nodes are
read from marks: every block and every bracket is read to its end, and where a node may be left out
an empty scalar takes its place.
-/

namespace A64Machine.Settings

/-- A node of a document. -/
inductive Node where
  | scalar (text : String) (plain : Bool)
  | list (items : List Node)
  | map (entries : List (Node × Node))

namespace Node

/-- The node that stands where none is written. -/
def empty : Node := .scalar "" true

/-- The error at a mark that makes no sense where it stands. -/
def unexpected : List Mark → DocumentError
  | .failure error :: _ => error
  | _ => .disordered

/-- Whether the next mark is one of those given. -/
def nextIs (marks : List Mark) (expected : List Mark) : Bool := marks.head?.any expected.contains

/-- The marks behind the next one, if that is the given mark. -/
def skip? (mark : Mark) : List Mark → Option (List Mark)
  | [] => none
  | next :: rest => if next = mark then some rest else none

/-- Passes over the comma in front of every entry between brackets but the first. -/
def skipComma (first : Bool) (marks : List Mark) : Except DocumentError (List Mark) :=
  if first then .ok marks
  else
    match skip? .comma marks with
    | some rest => .ok rest
    | none => .error (unexpected marks)

mutual

/-- A node, which may be a block, and may also be a list whose items are not indented. -/
def read (block unindented : Bool) : (fuel : Nat) → List Mark →
    Except DocumentError (Node × List Mark)
  | 0, marks => .error (unexpected marks)
  | fuel + 1, marks =>
    match marks with
    | .scalar text plain :: rest => .ok (.scalar text plain, rest)
    | .flowList :: rest =>
      (readFlowItems true fuel rest).map fun (items, rest) => (.list items, rest)
    | .flowMap :: rest =>
      (readFlowEntries true fuel rest).map fun (entries, rest) => (.map entries, rest)
    | .item :: rest =>
      if unindented then
        (readUnindented fuel (.item :: rest)).map fun (items, rest) => (.list items, rest)
      else .error .disordered
    | .blockList :: rest =>
      if block then (readItems fuel rest).map fun (items, rest) => (.list items, rest)
      else .error .disordered
    | .blockMap :: rest =>
      if block then (readEntries fuel rest).map fun (entries, rest) => (.map entries, rest)
      else .error .disordered
    | marks => .error (unexpected marks)

/-- A node, or the empty one where one of some marks is next. -/
def readUnless (ends : List Mark) (block unindented : Bool) : (fuel : Nat) → List Mark →
    Except DocumentError (Node × List Mark)
  | 0, marks => .error (unexpected marks)
  | fuel + 1, marks =>
    if nextIs marks ends then .ok (empty, marks) else read block unindented fuel marks

/-- A value behind its mark, or the empty node where that mark is missing. -/
def readValue (ends : List Mark) (block : Bool) : (fuel : Nat) → List Mark →
    Except DocumentError (Node × List Mark)
  | 0, marks => .error (unexpected marks)
  | fuel + 1, marks =>
    match skip? .value marks with
    | some rest => readUnless ends block block fuel rest
    | none => .ok (empty, marks)

/-- The items of a block up to its end. -/
def readItems : (fuel : Nat) → List Mark → Except DocumentError (List Node × List Mark)
  | 0, marks => .error (unexpected marks)
  | fuel + 1, marks =>
    match marks with
    | .item :: rest => do
      let (item, rest) ← readUnless [.item, .blockEnd] true false fuel rest
      let (items, rest) ← readItems fuel rest
      return (item :: items, rest)
    | .blockEnd :: rest => .ok ([], rest)
    | marks => .error (unexpected marks)

/-- The items of a list that are not indented, which end where another mark follows. -/
def readUnindented : (fuel : Nat) → List Mark → Except DocumentError (List Node × List Mark)
  | 0, marks => .error (unexpected marks)
  | fuel + 1, marks =>
    match marks with
    | .item :: rest => do
      let (item, rest) ← readUnless [.item, .key, .value, .blockEnd] true false fuel rest
      let (items, rest) ← readUnindented fuel rest
      return (item :: items, rest)
    | marks => .ok ([], marks)

/-- The entries of a block up to its end. -/
def readEntries : (fuel : Nat) → List Mark → Except DocumentError (List (Node × Node) × List Mark)
  | 0, marks => .error (unexpected marks)
  | fuel + 1, marks =>
    match marks with
    | .key :: rest => do
      let (key, rest) ← readUnless [.key, .value, .blockEnd] true true fuel rest
      let (value, rest) ← readValue [.key, .value, .blockEnd] true fuel rest
      let (entries, rest) ← readEntries fuel rest
      return ((key, value) :: entries, rest)
    | .blockEnd :: rest => .ok ([], rest)
    | marks => .error (unexpected marks)

/-- The items between brackets up to the closing one. An item with a key is a map of one entry. -/
def readFlowItems (first : Bool) : (fuel : Nat) → List Mark →
    Except DocumentError (List Node × List Mark)
  | 0, marks => .error (unexpected marks)
  | fuel + 1, marks =>
    match skip? .flowListEnd marks with
    | some rest => .ok ([], rest)
    | none => do
      let marks ← skipComma first marks
      match marks with
      | .flowListEnd :: rest => return ([], rest)
      | .key :: rest =>
        let (key, rest) ← readUnless [.value, .comma, .flowListEnd] false false fuel rest
        let (value, rest) ← readValue [.comma, .flowListEnd] false fuel rest
        let (items, rest) ← readFlowItems false fuel rest
        return (.map [(key, value)] :: items, rest)
      | marks =>
        let (item, rest) ← read false false fuel marks
        let (items, rest) ← readFlowItems false fuel rest
        return (item :: items, rest)

/-- The entries between brackets up to the closing one. A node without the mark of a key is a key
without a value. -/
def readFlowEntries (first : Bool) : (fuel : Nat) → List Mark →
    Except DocumentError (List (Node × Node) × List Mark)
  | 0, marks => .error (unexpected marks)
  | fuel + 1, marks =>
    match skip? .flowMapEnd marks with
    | some rest => .ok ([], rest)
    | none => do
      let marks ← skipComma first marks
      match marks with
      | .flowMapEnd :: rest => return ([], rest)
      | .key :: rest =>
        let (key, rest) ← readUnless [.value, .comma, .flowMapEnd] false false fuel rest
        let (value, rest) ← readValue [.comma, .flowMapEnd] false fuel rest
        let (entries, rest) ← readFlowEntries false fuel rest
        return ((key, value) :: entries, rest)
      | marks =>
        let (key, rest) ← read false false fuel marks
        let (entries, rest) ← readFlowEntries false fuel rest
        return ((key, empty) :: entries, rest)

end

/-- The marks behind the ends of documents. -/
def skipEnds (marks : List Mark) : List Mark := marks.dropWhile (· == .documentEnd)

/-- Checks that no further document follows. -/
def checkEnd (marks : List Mark) : Except DocumentError Unit :=
  match skipEnds marks with
  | [.textEnd] => .ok ()
  | .documentStart :: _ => .error .severalDocuments
  | marks => .error (unexpected marks)

/-- The node of the only document among marks; a text without a document has the empty node. -/
def ofMarks (marks : List Mark) : Except DocumentError Node := do
  let fuel := 4 * marks.length + 4
  let (node, rest) ←
    match marks with
    | [.textEnd] => pure (empty, [.textEnd])
    | .documentStart :: rest =>
      readUnless [.documentStart, .documentEnd, .textEnd] true false fuel rest
    | marks => read true false fuel marks
  checkEnd rest
  return node

end Node

end A64Machine.Settings
