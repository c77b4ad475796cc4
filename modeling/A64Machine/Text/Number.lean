import A64Machine.Bits

/-!
# Numbers in positional notation

Integers written with a sign, a lead such as `0x`, zeros up to a least width, and digits.
-/

namespace A64Machine.Text

/-- The digit for a value below sixteen, in lower case. -/
def digitChar (value : Nat) : Char := Char.ofNat (if value < 10 then 48 + value else 87 + value)

/-- The digits of a value in front of those already written, for at most `fuel` digits. -/
def digitsBefore (base : Nat) : (fuel value : Nat) → List Char → List Char
  | 0, _, written => written
  | fuel + 1, value, written =>
    let written := digitChar (value % base) :: written
    if value < base then written else digitsBefore base fuel (value / base) written

/-- The digits of a value, most significant first. -/
def digits (base value : Nat) : List Char := digitsBefore base (value.log2 + 1) value []

/-- An integer with its sign, a lead and zeros up to a total of `width` characters. -/
def number (base : Nat) (lead : List Char) (width : Nat) (value : Int) : List Char :=
  let lead := if value < 0 then '-' :: lead else lead
  let digits := digits base value.natAbs
  lead ++ List.replicate (width - lead.length - digits.length) '0' ++ digits

/-- An integer in decimal notation. -/
def decimal (value : Int) : String := String.ofList (number 10 [] 0 value)

/-- The most digits that an integer in decimal notation may have. -/
def mostDigits : Nat := 4300

/-- Whether an integer can be written in decimal notation. -/
def isWritable (value : Int) : Bool := decide (value.natAbs < 10 ^ mostDigits)

/-- The text about an integer that is too long for decimal notation. -/
def unwritableMessage : String :=
  "Exceeds the limit (" ++ decimal mostDigits ++ " digits) for integer string conversion; " ++
    "use sys.set_int_max_str_digits() to increase the limit"

/-- A text around an integer in decimal notation; an integer that is too long is the subject of the
text instead. -/
def aroundDecimal (value : Int) (text : (digits : String) → String) : String :=
  if isWritable value then text (decimal value) else unwritableMessage

/-- An integer in hexadecimal notation, led by `0x`. -/
def hex (value : Int) : String := String.ofList (number 16 ['0', 'x'] 0 value)

/-- A word in hexadecimal notation: `0x` and at least eight digits. -/
def wordHex (value : Int) : String := String.ofList (number 16 ['0', 'x'] 10 value)

/-- An integer in bare upper-case hexadecimal notation of a least width. -/
def upperHex (width : Nat) (value : Int) : String :=
  String.ofList ((number 16 [] width value).map Char.toUpper)

/-- An integer in binary notation, led by `0b`, of a least total width. -/
def binary (width : Nat) (value : Int) : String :=
  String.ofList (number 2 ['0', 'b'] width value)

end A64Machine.Text
