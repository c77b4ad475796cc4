import A64Machine.Text.Blank
import A64Machine.Text.Digit
import A64Machine.Text.Quoted

/-!
# Numerals

The reading of integers. A numeral in a known base may stand between blanks, carry a sign, and
have single low lines between its digits; in base sixteen it may be led by `0x`. A literal shows
its base by its lead, and in base ten may not have a leading zero unless it is zero. Digits of
every script are read.

`readLiteral` is meant for the texts of number tokens. These have no blanks, no sign and no octal
lead, so it refuses all three, whatever another reader of literals would make of them.
-/

namespace A64Machine.Text

/-- A numeral that was refused: one that is no numeral in the base it was read in, which is zero
for a literal that shows its base, or one of too many decimal digits. -/
inductive BadNumeral where
  | malformed (base : Nat) (text : String)
  | tooLong (digits : Nat)
  deriving DecidableEq, Repr

/-- The text of the refusal, in which the quoted numeral is cut to two hundred characters. -/
def BadNumeral.message : BadNumeral → String
  | .malformed base text =>
    "invalid literal for int() with base " ++ decimal base ++ ": " ++
      String.ofList ((quoted text).toList.take 200)
  | .tooLong digits =>
    "Exceeds the limit (" ++ decimal mostDigits ++ " digits) for integer string conversion: " ++
      "value has " ++ decimal digits ++ " digits; " ++
      "use sys.set_int_max_str_digits() to increase the limit"

/-- The value of a digit in the given base: a decimal digit of any script or an ASCII letter. -/
def baseDigit? (base : Nat) (c : Char) : Option Nat :=
  let value? :=
    if 'a' ≤ c ∧ c ≤ 'z' then some (c.toNat - 87)
    else if 'A' ≤ c ∧ c ≤ 'Z' then some (c.toNat - 55)
    else digitValue? c
  value?.filter (· < base)

/-- The value of an ASCII digit in the given base. -/
def asciiDigit? (base : Nat) (c : Char) : Option Nat :=
  if c.toNat < 128 then baseDigit? base c else none

/-- The value of a run of digits with single low lines between them, after the value read so
far. -/
def digitRun? (base : Nat) : (value : Nat) → List Char → Option Nat
  | _, [] => none
  | value, c :: rest =>
    match baseDigit? base c with
    | none => none
    | some digit =>
      match rest with
      | [] => some (value * base + digit)
      | '_' :: rest => digitRun? base (value * base + digit) rest
      | next :: rest => digitRun? base (value * base + digit) (next :: rest)

/-- Whether the first two characters are a zero and one of the given letters. -/
def ledBy (letters : List Char) : List Char → Bool
  | first :: letter :: _ => digitValue? first == some 0 && letters.contains letter
  | _ => false

/-- The blanks that may stand around a numeral, which leave out the ASCII separators. -/
def isNumeralBlank (c : Char) : Bool := isBlank c && !decide (28 ≤ c.toNat ∧ c.toNat ≤ 31)

/-- The value of an unsigned numeral in the given base. -/
def unsignedNumeral? (base : Nat) (cs : List Char) : Option Nat :=
  if base = 16 ∧ ledBy ['x', 'X'] cs then
    match cs.drop 2 with
    | '_' :: rest => digitRun? base 0 rest
    | rest => digitRun? base 0 rest
  else digitRun? base 0 cs

/-- The value of a numeral in the given base, given that its digits have one. Only decimal digits
are limited in number, and low lines do not count. -/
def withinLimit (base : Nat) (cs : List Char) (value : Nat) : Except BadNumeral Nat :=
  let digits := cs.countP (· != '_')
  if base = 10 ∧ mostDigits < digits then .error (.tooLong digits) else .ok value

/-- The integer that a numeral in the given base stands for. -/
def readNumeral (base : Nat) (text : String) : Except BadNumeral Int :=
  let cs := dropEndWhile isNumeralBlank (text.toList.dropWhile isNumeralBlank)
  let negative := cs.head? == some '-'
  let unsigned := if negative || cs.head? == some '+' then cs.tail else cs
  match unsignedNumeral? base unsigned with
  | none => .error (.malformed base text)
  | some value =>
    (withinLimit base unsigned value).map fun value =>
      if negative then -(value : Int) else value

/-- The number that a literal stands for, read in the base its lead shows. -/
def readLiteral (text : String) : Except BadNumeral Nat :=
  let cs := text.toList
  let read (base lead : Nat) : Except BadNumeral Nat :=
    match digitRun? base 0 (cs.drop lead) with
    | none => .error (.malformed 0 text)
    | some value => withinLimit base cs value
  if ledBy ['x', 'X'] cs then read 16 2
  else if ledBy ['b', 'B'] cs then read 2 2
  else do
    let value ← read 10 0
    if value ≠ 0 ∧ cs.head?.bind digitValue? = some 0 then throw (.malformed 0 text)
    return value

end A64Machine.Text
