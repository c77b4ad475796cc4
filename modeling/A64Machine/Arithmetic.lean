import A64Machine.Flags
import A64Machine.LogicalImmediate
import A64Machine.Modifier

/-!
# Bit arithmetic on all integers

The operations on words, for operands, widths and amounts of any sign. An integer is read as an
endless row of bits, led by zeros or by ones. A width that the operation cannot have is an error;
for all others the operation is the one on words.
-/

namespace A64Machine

/-- Why an operation on integers has no value: a shift by a negative amount, a step or a divisor
of zero, a group of bits that is too long for the bytes it is reversed in, or a result that is too
long to be represented or to be held. -/
inductive ArithmeticError where
  | negativeShift
  | zeroStep
  | zeroDivisor
  | groupTooLong
  | tooLong
  | exhausted
  deriving DecidableEq, Repr

/-- The text of an arithmetic error. -/
def ArithmeticError.message : ArithmeticError → String
  | .negativeShift => "negative shift count"
  | .zeroStep => "range() arg 3 must not be zero"
  | .zeroDivisor => "integer modulo by zero"
  | .groupTooLong => "int too big to convert"
  | .tooLong => "too many digits in integer"
  | .exhausted => "integer too long to be held"

namespace Arithmetic

/-- Number of bits from which on an integer is too long to be represented. -/
def longestLength : Nat := 30 * 2 ^ (61 : Nat)

/-- Number of bits from which on an integer is too long to be held. -/
def heldLength : Nat := 2 ^ (32 : Nat)

/-- Whether an integer of so many bits can be held. -/
def checkLength (bits : Nat) : Except ArithmeticError Unit :=
  if longestLength ≤ bits then .error .tooLong
  else if heldLength ≤ bits then .error .exhausted
  else .ok ()

/-- A width or an amount, which may not be negative. -/
def amountOf (amount : Int) : Except ArithmeticError Nat :=
  if amount < 0 then .error .negativeShift else .ok amount.toNat

/-- A width that is at least one. -/
def positiveWidth (width : Int) : Except ArithmeticError Nat := do
  return (← amountOf (width - 1)) + 1

/-- The value with zeros put behind its bits. -/
def shiftLeft (value amount : Int) : Except ArithmeticError Int := do
  let amount ← amountOf amount
  if value = 0 then return 0
  checkLength amount
  return value * (2 ^ amount : Nat)

/-- The value without its last bits. -/
def shiftRight (value amount : Int) : Except ArithmeticError Int := do
  return value >>> (← amountOf amount)

/-- The number whose lowest `bits` bits are set and whose other bits are clear. -/
def mask (bits : Int) : Except ArithmeticError Int := do
  return (← shiftLeft 1 bits) - 1

/-- The lowest bits of a value, with their number. -/
def lowest (value width : Int) : Except ArithmeticError (Nat × Nat) := do
  let width ← amountOf width
  checkLength width
  return (Bits.wrap width value, width)

/-- The two's complement reading of the lowest bits, of which there must be one at least. -/
def signExtend (value bits : Int) : Except ArithmeticError Int := do
  let (value, width) ← lowest value bits
  return Bits.signExtend value (← positiveWidth width)

/-- The lowest bits of a value turned right by an amount of any sign. -/
def rotateRight (value amount width : Int) : Except ArithmeticError Nat := do
  if width = 0 then throw .zeroDivisor
  let (value, size) ← lowest value width
  return Bits.rotateRight value (amount % width).toNat size

/-- The bits that at least one of two integers has. -/
def union : Int → Int → Int
  | .ofNat x, .ofNat y => .ofNat (x ||| y)
  | .ofNat x, .negSucc y => .negSucc (Bits.clear y x)
  | .negSucc x, .ofNat y => .negSucc (Bits.clear x y)
  | .negSucc x, .negSucc y => .negSucc (x &&& y)

/-- How many multiples of a step lie from zero on in front of a limit, where a negative step
counts downward. -/
def stepCount (limit step : Int) : Except ArithmeticError Nat :=
  if step = 0 then .error .zeroStep
  else if 0 < step then .ok ((limit + step - 1) / step).toNat
  else .ok ((-limit - step - 1) / -step).toNat

/-- The union of pieces of which each is shifted to its place, `count` places from `place` on that
are a step apart. -/
def layPieces (piece : (place : Int) → Except ArithmeticError Int) (step : Int) :
    (count : Nat) → (place result : Int) → Except ArithmeticError Int
  | 0, _, result => .ok result
  | count + 1, place, result => do
    let laid ← shiftLeft (← piece place) place
    layPieces piece step count (place + step) (union result laid)

/-- Copies of an element laid at every multiple of its size below a width. -/
def replicate (element size width : Int) : Except ArithmeticError Int := do
  layPieces (fun _ => .ok element) size (← stepCount width size) 0 0

/-- The bytes of every group of `container` bits in the opposite order. A group of bits that are
no whole number of bytes must not use the bits beyond them. -/
def reverseBytes (value width container : Int) : Except ArithmeticError Int := do
  let group (place : Int) : Except ArithmeticError Int := do
    let (bits, size) ← lowest (← shiftRight value place) container
    if Bits.bitLength bits ≤ 8 * (size / 8) then return (Bits.swapBytes bits (size / 8) : Nat)
    else throw .groupTooLong
  layPieces group container (← stepCount width container) 0 0

/-- Position of the highest set bit of the magnitude, which is `-1` for zero. -/
def highestSetBit (value : Int) : Int := Bits.highestSetBit value.natAbs

/-- How many of the lowest bits stand above the highest set one. -/
def leadingZeros (value width : Int) : Except ArithmeticError Nat := do
  let (value, width) ← lowest value width
  return Bits.leadingZeros value width

/-- How many bits directly below the top bit of the width repeat it. -/
def leadingSignBits (value width : Int) : Except ArithmeticError Nat := do
  let width ← positiveWidth width
  checkLength width
  return Bits.leadingSignBits (Bits.wrap width value) width

/-- The lowest bits in the opposite order; there are none for a negative width. -/
def reverseBits (value width : Int) : Nat :=
  Bits.reverseBits (Bits.wrap width.toNat value) width.toNat

/-- The masks that a packed immediate stands for. -/
def decodeMasks (n imms immr size : Int) (strict : Bool) :
    Except ArithmeticError (Option (Nat × Nat)) := do
  let length := highestSetBit (n * 64 + (63 - imms % 64))
  if length < 1 then return none
  let length := length.toNat
  let imms := Bits.wrap length imms
  if strict && imms == Bits.mask length then return none
  if size < (2 ^ length : Nat) then return none
  checkLength (2 ^ length)
  return LogicalImmediate.masks length imms (Bits.wrap length immr) size.toNat

/-- The packed form of a mask, if it has one. Where the size is no power of two, the element that
repeats can be zero although the mask is not, and then its run has no length. -/
def encodeMask (value size : Int) : Except ArithmeticError (Option (Nat × Nat × Int)) := do
  let (value, size) ← lowest value size
  let width := LogicalImmediate.elementSize value size.log2 size
  if value ≠ 0 ∧ value % 2 ^ width = 0 then return some (0, 0, -1)
  return (LogicalImmediate.encode value size).map fun (n, immr, imms) => (n, immr, (imms : Int))

/-- Whether a wide move loads the value directly or in its complemented form. -/
def wideEncodable (value size : Int) : Except ArithmeticError Bool := do
  let size ← amountOf size
  checkLength size
  return WideImmediate.encodable value size

/-- The sum of two operands and a carry of any size, with the flags it leaves. -/
def addWithCarry (x y carry size : Int) : Except ArithmeticError (Nat × Flags) := do
  let size ← positiveWidth size
  checkLength size
  return A64Machine.addWithCarry (Bits.wrap size x) (Bits.wrap size y) carry size

/-- The flags of a logical result, where a negative result has its highest bit set. -/
def logicalFlags (result size : Int) : Except ArithmeticError Flags := do
  let size ← positiveWidth size
  return .ofLogical result size

/-- Whether a condition code holds under the flags in the lowest bits of a number. Only the lowest
bit of a negative code counts. -/
def conditionHolds (code status : Int) : Bool :=
  if code < 0 then decide (code % 2 = 0)
  else Flags.holds code.toNat (.ofNat (Bits.wrap 4 status))

/-- The value of the given size shifted by the shift with the given code, where every other code
rotates. -/
def shiftValue (value code amount size : Int) : Except ArithmeticError Nat := do
  let (value, width) ← lowest value size
  let shifted ←
    if code = 0 then shiftLeft value amount
    else if code = 1 then shiftRight value amount
    else if code = 2 then shiftRight (← signExtend value size) amount
    else return ← rotateRight value amount size
  return Bits.wrap width shifted

/-- The value cut to the width of the extension code, widened and shifted left. -/
def extendValue (value code shift size : Int) : Except ArithmeticError Nat := do
  let width := Modifier.extendWidth (code % 4).toNat
  let extended : Int :=
    if 4 ≤ code then Bits.signExtend value width else Bits.wrap width value
  let (extended, _) ← lowest (← shiftLeft extended shift) size
  return extended

end Arithmetic

end A64Machine
