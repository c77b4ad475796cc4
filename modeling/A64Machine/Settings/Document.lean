import A64Machine.Settings.Node
import A64Machine.Settings.Spelling

/-!
# Setting documents

The text form of setting values, a part of YAML: maps and lists in blocks or between brackets,
plain and quoted scalars, and comments. The nodes of a text become values: a plain scalar is what it
is spelled like, and the keys of a map are scalars. Of equal keys the first keeps its place and the
last gives the value.
-/

namespace A64Machine.Settings

namespace Node

/-- The scalar that a node without parts stands for. -/
def scalarValue (text : String) (plain : Bool) : Except DocumentError Scalar :=
  if plain then (Spelling.scalar text).mapError .numeral else .ok (.text text)

/-- The scalar that a key stands for. -/
def keyValue : Node → Except DocumentError Scalar
  | .scalar text plain => scalarValue text plain
  | .list _ | .map _ => .error .compositeKey

mutual

/-- The value that a node stands for. -/
def value : Node → Except DocumentError Value
  | .scalar text plain => (scalarValue text plain).map .scalar
  | .list items => (itemValues items).map .list
  | .map entries => (entryValues [] entries).map .map

/-- The values of the items of a list. -/
def itemValues : List Node → Except DocumentError (List Value)
  | [] => .ok []
  | item :: rest => do
    let item ← item.value
    return item :: (← itemValues rest)

/-- The entries of a map behind those already known. -/
def entryValues (known : Entries) : List (Node × Node) → Except DocumentError Entries
  | [] => .ok known
  | (key, value) :: rest => do
    let key ← key.keyValue
    entryValues (known.insert key (← value.value)) rest

end

end Node

namespace Document

/-- The value of a document. -/
def read (text : String) : Except DocumentError Value := do
  (← Node.ofMarks (Mark.ofText text)).value

end Document

end A64Machine.Settings
