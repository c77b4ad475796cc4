import A64Machine.Text.Blank
import A64Machine.Text.Quoted

/-!
# Setting values

Settings are read from values: scalars, lists, and maps whose keys are scalars. A value has two
texts. Shown inside a list or a map, a text stands between quotes; on its own it stands as it is.
All other values have the same text in both places.
-/

namespace A64Machine.Settings

/-- A scalar. A decimal is a mantissa with a number of places behind the point. -/
inductive Scalar where
  | null
  | bool (value : Bool)
  | int (value : Int)
  | decimal (mantissa : Int) (places : Nat)
  | text (value : String)
  deriving DecidableEq, Repr

/-- A value. The entries of a map are in the order of their definition. -/
inductive Value where
  | scalar (value : Scalar)
  | list (items : List Value)
  | map (entries : List (Scalar × Value))
  deriving Inhabited

/-- The entries of a map. -/
abbrev Entries := List (Scalar × Value)

/-- The text of a decimal: at least one digit on either side of the point, and no zeros at the
end that are not needed. -/
def decimalText (mantissa : Int) (places : Nat) : String :=
  let digits := Text.number 10 [] (places + 1) mantissa.natAbs
  let whole := digits.take (digits.length - places)
  let fraction := Text.dropEndWhile (· == '0') (digits.drop (digits.length - places))
  String.ofList
    ((if mantissa < 0 then ['-'] else []) ++ whole ++ ['.'] ++
      (if fraction.isEmpty then ['0'] else fraction))

namespace Scalar

/-- The text of a scalar inside a list or a map. -/
def shown : Scalar → String
  | .null => "None"
  | .bool true => "True"
  | .bool false => "False"
  | .int value => Text.decimal value
  | .decimal mantissa places => decimalText mantissa places
  | .text value => Text.quoted value

/-- The text of a scalar on its own. -/
def asText : Scalar → String
  | .text value => value
  | other => other.shown

/-- Whether a scalar is no integer that is too long for decimal notation. -/
def isWritable : Scalar → Bool
  | .int value => Text.isWritable value
  | _ => true

/-- The number that a scalar counts as where values are compared, as a mantissa and a number of
places behind the point. Truth values count as one and zero. -/
def number? : Scalar → Option (Int × Nat)
  | .bool value => some (value.toNat, 0)
  | .int value => some (value, 0)
  | .decimal mantissa places => some (mantissa, places)
  | .null | .text _ => none

/-- Whether two scalars are the same key. Numbers are compared by their value. -/
def isSameKey (first second : Scalar) : Bool :=
  match first.number?, second.number? with
  | some (m, p), some (n, q) => m * (10 ^ q : Nat) == n * (10 ^ p : Nat)
  | none, none => first == second
  | _, _ => false

/-- Whether a scalar counts as not given. -/
def isBlank : Scalar → Bool
  | .null => true
  | .bool value => !value
  | .int value => value == 0
  | .decimal mantissa _ => mantissa == 0
  | .text value => value.isEmpty

end Scalar

namespace Value

mutual

/-- The text of a value inside a list or a map. -/
def shown : Value → String
  | .scalar value => value.shown
  | .list items => "[" ++ ", ".intercalate (shownItems items) ++ "]"
  | .map entries => "\x7b" ++ ", ".intercalate (shownEntries entries) ++ "\x7d"

/-- The texts of the items of a list. -/
def shownItems : List Value → List String
  | [] => []
  | item :: rest => shown item :: shownItems rest

/-- The texts of the entries of a map. -/
def shownEntries : List (Scalar × Value) → List String
  | [] => []
  | (key, value) :: rest => (key.shown ++ ": " ++ shown value) :: shownEntries rest

end

/-- The text of a value on its own. -/
def asText : Value → String
  | .scalar value => value.asText
  | other => other.shown

mutual

/-- Whether all integers of a value can be written in decimal notation. -/
def isWritable : Value → Bool
  | .scalar value => value.isWritable
  | .list items => areItemsWritable items
  | .map entries => areEntriesWritable entries

/-- Whether all integers of the items of a list can be written. -/
def areItemsWritable : List Value → Bool
  | [] => true
  | item :: rest => isWritable item && areItemsWritable rest

/-- Whether all integers of the entries of a map can be written. -/
def areEntriesWritable : List (Scalar × Value) → Bool
  | [] => true
  | (key, value) :: rest => key.isWritable && isWritable value && areEntriesWritable rest

end

/-- Whether a value counts as not given: null, false, zero, or empty. -/
def isBlank : Value → Bool
  | .scalar value => value.isBlank
  | .list items => items.isEmpty
  | .map entries => entries.isEmpty

end Value

namespace Entries

/-- The value under a name. -/
def get? (entries : Entries) (name : String) : Option Value := entries.lookup (.text name)

/-- Gives a key a value. A key that is there already keeps its place and its form. -/
def insert (key : Scalar) (value : Value) : Entries → Entries
  | [] => [(key, value)]
  | (known, old) :: rest =>
    if known.isSameKey key then (known, value) :: rest
    else (known, old) :: insert key value rest

end Entries

end A64Machine.Settings
