import A64Machine.Bits

/-!
# Shifts and extensions

The twelve keywords that modify a register operand, the codes under which instructions carry
them, and their effect on a value.

`Modifier.ofName?` is meant for the texts of name tokens in lower case. Such a text has no blanks
and no line breaks, so a keyword is compared with the whole of it.
-/

namespace A64Machine

/-- A shift or an extension written behind a register. -/
inductive Modifier where
  | lsl | lsr | asr | ror
  | uxtb | uxth | uxtw | uxtx
  | sxtb | sxth | sxtw | sxtx
  deriving DecidableEq, Repr

namespace Modifier

/-- The shifts, in the order of their codes. -/
def shifts : List Modifier := [.lsl, .lsr, .asr, .ror]

/-- The extensions, in the order of their codes. -/
def extensions : List Modifier := [.uxtb, .uxth, .uxtw, .uxtx, .sxtb, .sxth, .sxtw, .sxtx]

/-- The keyword as it is written. -/
def name : Modifier → String
  | .lsl => "lsl"
  | .lsr => "lsr"
  | .asr => "asr"
  | .ror => "ror"
  | .uxtb => "uxtb"
  | .uxth => "uxth"
  | .uxtw => "uxtw"
  | .uxtx => "uxtx"
  | .sxtb => "sxtb"
  | .sxth => "sxth"
  | .sxtw => "sxtw"
  | .sxtx => "sxtx"

/-- The modifier of a keyword in lower case. -/
def ofName? (word : String) : Option Modifier :=
  (shifts ++ extensions).find? (fun modifier => modifier.name == word)

/-- The two-bit code of a shift. -/
def shiftCode? : Modifier → Option Nat
  | .lsl => some 0
  | .lsr => some 1
  | .asr => some 2
  | .ror => some 3
  | _ => none

/-- The three-bit code of an extension. -/
def extendCode? : Modifier → Option Nat
  | .uxtb => some 0
  | .uxth => some 1
  | .uxtw => some 2
  | .uxtx => some 3
  | .sxtb => some 4
  | .sxth => some 5
  | .sxtw => some 6
  | .sxtx => some 7
  | _ => none

/-- Number of bits that the extension with a code keeps. -/
def extendWidth (code : Nat) : Nat := 8 <<< (code % 4)

/-- The extension code of an index register in an address. A plain or left-shifted index is read
at full width, and the byte and half-word extensions have no place there. -/
def indexCode? : Option Modifier → Option Nat
  | none => some 3
  | some .lsl => some 3
  | some .uxtw => some 2
  | some .sxtw => some 6
  | some .sxtx => some 7
  | some _ => none

end Modifier

/-- The value of the given size shifted by the shift with the given code, where every code from
three on rotates. -/
def shiftValue (value code amount size : Nat) : Nat :=
  let value := value % 2 ^ size
  match code with
  | 0 => Bits.shiftLeft value amount size
  | 1 => value >>> amount
  | 2 => Bits.wrap size (Bits.signExtend value size >>> amount)
  | _ => Bits.rotateRight value amount size

/-- The value cut to the width of the extension code, widened with zeros or with its sign, and
shifted left. -/
def extendValue (value code shift size : Nat) : Nat :=
  let width := Modifier.extendWidth code
  let extended : Int := if code ≥ 4 then Bits.signExtend value width else (value % 2 ^ width : Nat)
  if size ≤ shift then 0 else Bits.wrap size (extended * (2 ^ shift : Nat))

end A64Machine
