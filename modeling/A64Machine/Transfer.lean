import A64Machine.Execution
import A64Machine.Modifier

/-!
# Loads and stores

The execution of transfers between registers and memory. The address is computed first, then the
transfer is made, and only then is a changed base written back, so that a transfer that fails
leaves the base alone.
-/

namespace A64Machine.Transfer

open Execution

/-- One transfer of some bytes. Code 0 stores; the others load with zeros, with the sign to full
width, or with the sign to half width. -/
def transfer (code width address slot : Nat) : Execution Unit := do
  if code = 0 then
    let value ← readRegister slot (min (8 * width) 64)
    checkWidth width
    store address width value
  else
    let value ← load address width
    let extended : Int :=
      match code with
      | 2 => Bits.wrap 64 (Bits.signExtend value (8 * width))
      | 3 => Bits.wrap 32 (Bits.signExtend value (8 * width))
      | _ => value
    writeRegister slot extended 64

/-- The address of a transfer whose index mode is given: the base for post-indexing and the
changed base otherwise. -/
def indexedAddress (mode base : Nat) (offset : Int) : Nat :=
  if mode = 1 then base else Bits.wrap 64 (base + offset)

/-- Writes the changed base back in the modes of pre-indexing and post-indexing. -/
def writeBack (instruction : Instruction) (mode base : Nat) (offset : Int) : Execution Unit := do
  if mode = 1 ∨ mode = 3 then writeField instruction 'n' (base + offset) 64

/-- A transfer with an unsigned offset counted in accesses. -/
def scaled (instruction : Instruction) : Execution Unit := do
  let width : Nat := 2 ^ (← field instruction 'x')
  let base ← readField instruction 'n' 64
  let address := Bits.wrap 64 (base + (← field instruction 'I') * width : Nat)
  transfer (← field instruction 'c') width address (← field instruction 't')

/-- A transfer with a signed offset counted in bytes, which may change the base. -/
def near (instruction : Instruction) : Execution Unit := do
  let width : Nat := 2 ^ (← field instruction 'x')
  let base ← readField instruction 'n' 64
  let offset := Bits.signExtend (← field instruction 'I') 9
  let mode ← field instruction 'w'
  transfer (← field instruction 'c') width (indexedAddress mode base offset)
    (← field instruction 't')
  writeBack instruction mode base offset

/-- A transfer with an extended index register, which may be counted in accesses. -/
def indexed (instruction : Instruction) : Execution Unit := do
  let size ← field instruction 'x'
  let shift := if (← field instruction 'S') ≠ 0 then size else 0
  let source ← readField instruction 'm' 64
  let offset := extendValue source (← field instruction 'o') shift 64
  let base ← readField instruction 'n' 64
  transfer (← field instruction 'c') (2 ^ size) (Bits.wrap 64 (base + offset : Nat))
    (← field instruction 't')

/-- A load from an address a number of words away from the instruction. -/
def literal (instruction : Instruction) : Execution Unit := do
  let words := Bits.signExtend (← field instruction 'I') 19
  let address := Bits.wrap 64 (instruction.address + words * 4)
  let code ← field instruction 'c'
  if code = 2 then transfer 2 4 address (← field instruction 't')
  else transfer 1 (if code ≠ 0 then 8 else 4) address (← field instruction 't')

/-- A transfer of two registers, the second behind the first. -/
def pair (instruction : Instruction) : Execution Unit := do
  let width : Nat := if (← field instruction 'c').testBit 1 then 8 else 4
  let base ← readField instruction 'n' 64
  let offset := Bits.signExtend (← field instruction 'I') 7 * width
  let mode ← field instruction 'w'
  let address := indexedAddress mode base offset
  let code := if (← field instruction 'L') ≠ 0 then 1 else 0
  transfer code width address (← field instruction 't')
  transfer code width (Bits.wrap 64 (address + width : Nat)) (← field instruction 'u')
  writeBack instruction mode base offset

end A64Machine.Transfer
