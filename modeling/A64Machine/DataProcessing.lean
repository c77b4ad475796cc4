import A64Machine.Execution
import A64Machine.LogicalImmediate

/-!
# Data processing

The execution of additions, logical operations, moves, bitfields, operations on one, two and
three registers, and addresses relative to the instruction.
-/

namespace A64Machine.DataProcessing

open Execution

/-- Adds the second operand and the carry, or its complement and the carry for a subtraction,
and sets the flags if the instruction does. -/
def addSub (instruction : Instruction) (x y carry size : Nat) : Execution Unit := do
  let y := if (← field instruction 'p') ≠ 0 then Bits.wrap size (-1 - y) else y
  let (result, flags) := addWithCarry x y carry size
  writeField instruction 'd' result size
  if (← field instruction 'f') ≠ 0 then setFlags flags

/-- Addition or subtraction of an extended register. -/
def addSubExtended (instruction : Instruction) : Execution Unit := do
  let size := dataSize instruction
  let x ← readField instruction 'n' size
  let source ← readField instruction 'm' 64
  let y := extendValue source (← field instruction 'o') (← field instruction 'i') size
  addSub instruction x y (← field instruction 'p') size

/-- Addition or subtraction of a shifted register. -/
def addSubShifted (instruction : Instruction) : Execution Unit := do
  let size := dataSize instruction
  let x ← readField instruction 'n' size
  let source ← readField instruction 'm' size
  let y := shiftValue source (← field instruction 's') (← field instruction 'i') size
  addSub instruction x y (← field instruction 'p') size

/-- Addition or subtraction of an immediate. -/
def addSubImmediate (instruction : Instruction) : Execution Unit := do
  let size := dataSize instruction
  let x ← readField instruction 'n' size
  let y := Bits.shiftLeft (← field instruction 'i') (12 * (← field instruction 's')) size
  addSub instruction x y (← field instruction 'p') size

/-- Addition or subtraction with the carry flag. -/
def addSubCarry (instruction : Instruction) : Execution Unit := do
  let size := dataSize instruction
  let x ← readField instruction 'n' size
  let y ← readField instruction 'm' size
  addSub instruction x y (← flags).c.toNat size

/-- Combines two operands bit by bit, and sets the flags if the instruction does. -/
def logic (instruction : Instruction) (x y size : Nat) : Execution Unit := do
  let code ← field instruction 'c'
  let result : Nat :=
    match code with
    | 0 | 3 => x &&& y
    | 1 => x ||| y
    | _ => x ^^^ y
  writeField instruction 'd' result size
  if code = 3 then setFlags (Flags.ofLogical result size)

/-- A logical operation on a shifted register or on its complement. -/
def logicShifted (instruction : Instruction) : Execution Unit := do
  let size := dataSize instruction
  let source ← readField instruction 'm' size
  let y := shiftValue source (← field instruction 's') (← field instruction 'i') size
  let y := if (← field instruction 'N') ≠ 0 then Bits.wrap size (-1 - y) else y
  logic instruction (← readField instruction 'n' size) y size

/-- The masks of a packed immediate. -/
def masks (instruction : Instruction) (size : Nat) (strict : Bool) : Execution (Nat × Nat) := do
  let n ← field instruction 'N'
  let s ← field instruction 's'
  let r ← field instruction 'r'
  match LogicalImmediate.decode n s r size strict with
  | some decoded => return decoded
  | none => throw .reservedMask

/-- A logical operation on a packed immediate. -/
def logicImmediate (instruction : Instruction) : Execution Unit := do
  let size := dataSize instruction
  let (mask, _) ← masks instruction size true
  logic instruction (← readField instruction 'n' size) mask size

/-- A wide move: the half-word in place, its complement, or the register with one half-word
replaced. -/
def moveWide (instruction : Instruction) : Execution Unit := do
  let size := dataSize instruction
  let shift := 16 * (← field instruction 'h')
  let value := Bits.shiftLeft (← field instruction 'j') shift size
  let code ← field instruction 'c'
  if code = 3 then
    let current ← readField instruction 'd' size
    let place := Bits.shiftLeft 0xffff shift size
    writeField instruction 'd' (Bits.clear current place ||| value : Nat) size
  else if code = 0 then writeField instruction 'd' (-1 - value) size
  else writeField instruction 'd' value size

/-- A bitfield move: the turned source within both masks, and around it the destination, the
sign of the field or zeros. -/
def bitfield (instruction : Instruction) : Execution Unit := do
  let size := dataSize instruction
  let turn ← field instruction 'r'
  let top ← field instruction 's'
  let (wordMask, fieldMask) ← masks instruction size false
  let source ← readField instruction 'n' size
  let bottom := Bits.rotateRight source turn size &&& wordMask
  let code ← field instruction 'c'
  let (above, below) : Nat × Nat ←
    if code = 1 then do
      let current ← readField instruction 'd' size
      pure (current, bottom ||| Bits.clear current wordMask)
    else if code = 0 then pure (if source.testBit top then Bits.mask size else 0, bottom)
    else pure (0, bottom)
  writeField instruction 'd' (Bits.clear above fieldMask ||| (below &&& fieldMask) : Nat) size

/-- The bits of two joined registers from a position on. -/
def extract (instruction : Instruction) : Execution Unit := do
  let size := dataSize instruction
  let high ← readField instruction 'n' size
  let low ← readField instruction 'm' size
  let position ← field instruction 's'
  writeField instruction 'd' ((high <<< size ||| low) >>> position : Nat) size

/-- An operation on one register. -/
def oneSource (instruction : Instruction) : Execution Unit := do
  let size := dataSize instruction
  let value ← readField instruction 'n' size
  let code ← field instruction 'c'
  let result : Nat ←
    match code with
    | 0 => pure (Bits.reverseBits value size)
    | 1 => pure (Bits.reverseBytes value size 16)
    | 2 => pure (Bits.reverseBytes value size 32)
    | 3 => pure (Bits.reverseBytes value size 64)
    | 4 => pure (Bits.leadingZeros value size)
    | 5 => pure (Bits.leadingSignBits value size)
    | _ => throw (.unsupportedCode 1 code)
  writeField instruction 'd' result size

/-- The quotient of two signed numbers, cut toward zero; dividing by zero gives zero. -/
def signedQuotient (x y size : Nat) : Int :=
  (Bits.signExtend x size).tdiv (Bits.signExtend y size)

/-- An operation on two registers. Dividing by zero gives zero, and shifts take their amount
modulo the data size. -/
def twoSource (instruction : Instruction) : Execution Unit := do
  let size := dataSize instruction
  let x ← readField instruction 'n' size
  let y ← readField instruction 'm' size
  let code ← field instruction 'c'
  let result : Int ←
    match code with
    | 2 => pure ((x / y : Nat) : Int)
    | 3 => pure (signedQuotient x y size)
    | 8 | 9 | 10 | 11 => pure (shiftValue x (code % 4) (y % size) size : Int)
    | _ => throw (.unsupportedCode 2 code)
  writeField instruction 'd' result size

/-- The addend with a product added to it or taken from it. -/
def accumulate (instruction : Instruction) (product : Int) (size : Nat) : Execution Unit := do
  let addend ← readField instruction 'a' size
  let result := if (← field instruction 'p') ≠ 0 then addend - product else addend + product
  writeField instruction 'd' result size

/-- The upper half of the product of two full registers. -/
def multiplyHigh (instruction : Instruction) (signed : Bool) : Execution Unit := do
  let x ← readField instruction 'n' 64
  let y ← readField instruction 'm' 64
  let product : Int :=
    if signed then Bits.signExtend x 64 * Bits.signExtend y 64 else (x * y : Nat)
  writeField instruction 'd' (product / (2 ^ (64 : Nat) : Nat)) 64

/-- An operation on three registers. -/
def threeSource (instruction : Instruction) : Execution Unit := do
  let size := dataSize instruction
  let code ← field instruction 'c'
  match code with
  | 0 =>
    let x ← readField instruction 'n' size
    let y ← readField instruction 'm' size
    accumulate instruction (x * y : Nat) size
  | 2 => multiplyHigh instruction true
  | 6 => multiplyHigh instruction false
  | _ =>
    let x ← readField instruction 'n' 32
    let y ← readField instruction 'm' 32
    match code with
    | 1 => accumulate instruction (Bits.signExtend x 32 * Bits.signExtend y 32) 64
    | 5 => accumulate instruction (x * y : Nat) 64
    | _ => throw (.unsupportedCode 3 code)

/-- The address a signed distance away from the instruction, or from its page in pages. -/
def pcRelative (instruction : Instruction) : Execution Unit := do
  let words ← field instruction 'I'
  let bytes ← field instruction 'i'
  let offset := Bits.signExtend (words <<< 2 ||| bytes : Nat) 21
  let here := instruction.address
  let result :=
    if (← field instruction 'p') ≠ 0 then here - here % 4096 + offset * 4096 else here + offset
  writeField instruction 'd' result 64

end A64Machine.DataProcessing
