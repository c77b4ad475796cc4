import A64Machine.Execution

/-!
# Branches

The execution of branches, hints and exceptions. A branch that is taken answers its target; the
program counter is left to the machine.
-/

namespace A64Machine.Branch

open Execution

/-- The target that is a signed number of words away, given by a field of some width. -/
def relative (instruction : Instruction) (width : Nat) : Execution Nat := do
  let words := Bits.signExtend (← field instruction 'I') width
  return Bits.wrap 64 (instruction.address + words * 4)

/-- Leaves the address of the next instruction in the link register. -/
def link (instruction : Instruction) : Execution Unit :=
  writeRegister Register.linkSlot (instruction.address + Instruction.byteLength) 64

/-- A branch, with or without link. -/
def immediate (instruction : Instruction) : Execution (Option Nat) := do
  if (← field instruction 'p') ≠ 0 then link instruction
  return some (← relative instruction 26)

/-- A branch under a condition. -/
def conditional (instruction : Instruction) : Execution (Option Nat) := do
  let code ← field instruction 'c'
  if (← flags).holds code then return some (← relative instruction 19)
  return none

/-- A branch if a register is zero, or if it is not. -/
def compare (instruction : Instruction) : Execution (Option Nat) := do
  let value ← readField instruction 't' (dataSize instruction)
  let negated ← field instruction 'p'
  if (value == 0) != (negated != 0) then return some (← relative instruction 19)
  return none

/-- A branch if a bit of a register is clear, or if it is set. -/
def test (instruction : Instruction) : Execution (Option Nat) := do
  let value ← readField instruction 't' 64
  let position ← field instruction 'b'
  if (value.testBit position).toNat = (← field instruction 'p') then
    return some (← relative instruction 14)
  return none

/-- A branch to the address in a register, which is read before the link register is written. -/
def register (instruction : Instruction) : Execution (Option Nat) := do
  let target ← readField instruction 'n' 64
  if (← field instruction 'c') = 1 then link instruction
  return some target

end A64Machine.Branch
