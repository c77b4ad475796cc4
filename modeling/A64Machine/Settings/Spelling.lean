import A64Machine.Settings.Value
import A64Machine.Text.Numeral

/-!
# The spelling of plain scalars

A scalar without quotes is null, a truth value or a number if it is spelled like one, and a text
otherwise. Integers are written in base two, eight, ten or sixteen, or as hours, minutes and
seconds between colons; low lines between their digits mean nothing.
-/

namespace A64Machine.Settings.Spelling

/-- The scalars that have a spelling of their own, in the spellings they have. -/
def constants : List (Scalar × List String) :=
  [
    (.null, ["", "~", "null", "Null", "NULL"]),
    (.bool true, ["true", "True", "TRUE", "yes", "Yes", "YES", "on", "On", "ON"]),
    (.bool false, ["false", "False", "FALSE", "no", "No", "NO", "off", "Off", "OFF"])
  ]

/-- Whether the text consists of digits of a base and of low lines. -/
def isDigits (base : Nat) (text : List Char) : Bool :=
  text.all fun c => c == '_' || (Text.asciiDigit? base c).isSome

/-- The number that digits with low lines stand for. -/
def valueOf (base : Nat) (text : List Char) : Except Text.BadNumeral Nat :=
  let digits := text.filter (· != '_')
  match Text.digitRun? base 0 digits with
  | some value => Text.withinLimit base digits value
  | none => .error (.malformed base (String.ofList digits))

/-- The base of an integer without a sign and the digits behind its lead, if the text is spelled
like an integer. -/
def integer? : List Char → Option (Nat × List Char)
  | ['0'] => some (10, ['0'])
  | '0' :: 'b' :: digits =>
    if !digits.isEmpty && isDigits 2 digits then some (2, digits) else none
  | '0' :: 'x' :: digits =>
    if !digits.isEmpty && isDigits 16 digits then some (16, digits) else none
  | '0' :: digits => if isDigits 8 digits then some (8, '0' :: digits) else none
  | '_' :: _ => none
  | [] => none
  | digits => if isDigits 10 digits then some (10, digits) else none

/-- The parts of a text that colons separate. -/
def colonParts : List Char → List (List Char)
  | [] => [[]]
  | c :: rest =>
    if c = ':' then [] :: colonParts rest
    else
      match colonParts rest with
      | part :: parts => (c :: part) :: parts
      | [] => [[c]]

/-- Whether a part behind a colon counts minutes or seconds. -/
def isSixtieth : List Char → Bool
  | [digit] => digit.isDigit
  | [ten, digit] => decide ('0' ≤ ten ∧ ten ≤ '5') && digit.isDigit
  | _ => false

/-- The parts of an integer that counts in sixties, if the text is spelled like one. -/
def sixties? (text : List Char) : Option (List (List Char)) :=
  match colonParts text with
  | first :: second :: rest =>
    let leads := first.head?.any fun c => c.isDigit && c != '0'
    if leads && isDigits 10 first && (second :: rest).all isSixtieth then
      some (first :: second :: rest)
    else none
  | _ => none

/-- The integer that a text without a sign is spelled like, if it is spelled like one. -/
def natural? (text : List Char) : Option (Except Text.BadNumeral Nat) :=
  match integer? text with
  | some (base, digits) => some (valueOf base digits)
  | none =>
    (sixties? text).map fun parts =>
      parts.foldlM (fun total part => (valueOf 10 part).map (60 * total + ·)) 0

/-- The mantissa and the places of the decimal that a text without a sign is spelled like. It has a
digit in front of its point or, without a sign, directly behind it. -/
def decimal? (signed : Bool) (text : List Char) : Option (Nat × Nat) :=
  let whole := text.takeWhile (· != '.')
  match text.drop whole.length with
  | [] => none
  | _ :: fraction =>
    let leads :=
      if whole.isEmpty then !signed && fraction.head?.any Char.isDigit
      else whole.head?.any Char.isDigit
    if leads && isDigits 10 whole && isDigits 10 fraction then
      let places := (fraction.filter (· != '_')).length
      some (((whole ++ fraction).filterMap (Text.asciiDigit? 10)).foldl (10 * · + ·) 0, places)
    else none

/-- The number that a text is spelled like, if it is spelled like one. -/
def number? (text : List Char) : Option (Except Text.BadNumeral Scalar) :=
  let negative := text.head? == some '-'
  let signed := negative || text.head? == some '+'
  let unsigned := if signed then text.tail else text
  let withSign (value : Nat) : Int := if negative then -value else value
  match natural? unsigned with
  | some value => some (value.map fun value => .int (withSign value))
  | none =>
    (decimal? signed unsigned).map fun (mantissa, places) =>
      .ok (.decimal (withSign mantissa) places)

/-- The scalar that a text without quotes spells. -/
def scalar (text : String) : Except Text.BadNumeral Scalar :=
  match constants.find? fun (_, spellings) => spellings.contains text with
  | some (scalar, _) => .ok scalar
  | none => (number? text.toList).getD (.ok (.text text))

end A64Machine.Settings.Spelling
