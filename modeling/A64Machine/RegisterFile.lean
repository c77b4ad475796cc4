import A64Machine.Access
import A64Machine.Bits

/-!
# The register file

Thirty-one registers of 64 bits and a slot for the zero register, which takes no value. A slot is
named by its number, or by a negative number that counts from behind the last slot. While accesses
are tracked, every access is recorded under the number that was given, except one under the number
of the zero register.
-/

namespace A64Machine

/-- The registers, whether accesses are tracked, and the record of accesses from the oldest. -/
structure RegisterFile where
  slots : Vector Nat 32
  tracking : Bool
  log : List Access

namespace RegisterFile

/-- Registers that are all zero and not tracked. -/
def initial : RegisterFile := ⟨Vector.replicate 32 0, false, []⟩

/-- The slot that a number names, if it names one. -/
def slot? (number : Int) : Option (Fin 32) :=
  let index := if number < 0 then number + 32 else number
  if h : 0 ≤ index ∧ index < 32 then some ⟨index.toNat, by omega⟩ else none

/-- The value of a slot, without a record. -/
def peek? (file : RegisterFile) (number : Int) : Option Nat :=
  (slot? number).map fun slot => file.slots[slot]

/-- The value of a slot, which is zero where there is no slot. -/
def value (file : RegisterFile) (number : Int) : Nat := (file.peek? number).getD 0

/-- The registers with one more access on record, if accesses under the number are tracked. -/
def recorded (file : RegisterFile) (kind : AccessKind) (number : Int) (before after : Nat) :
    RegisterFile :=
  if file.tracking ∧ number ≠ Register.zeroSlot then
    { file with log := file.log ++ [⟨kind, .register number, before, after, 8⟩] }
  else file

/-- Reads a slot. -/
def read? (file : RegisterFile) (number : Int) : Option (Nat × RegisterFile) :=
  (file.peek? number).map fun value => (value, file.recorded .read number value value)

/-- Writes the lowest 64 bits of a value to a slot. The zero register stays zero. -/
def write? (file : RegisterFile) (number : Int) (value : Int) : Option RegisterFile :=
  (slot? number).map fun slot =>
    let after := Bits.wrap 64 value
    { file with
      slots := (file.slots.set slot after).set Register.zeroSlot 0 }.recorded
        .write number file.slots[slot] after

/-- Writes the lowest 64 bits of a value to a slot, without a record. -/
def poke? (file : RegisterFile) (number : Int) (value : Int) : Option RegisterFile :=
  let untracked : RegisterFile := { file with tracking := false }
  (untracked.write? number value).map fun written => { written with tracking := file.tracking }

/-- The registers with all slots zero and an empty record. -/
def reset (file : RegisterFile) : RegisterFile := { initial with tracking := file.tracking }

/-- The values of the general registers. -/
def generalValues (file : RegisterFile) : List Nat := file.slots.toList.take Register.zeroSlot

/-- The record of accesses, and the registers with the record emptied. -/
def takeLog (file : RegisterFile) : List Access × RegisterFile :=
  (file.log, { file with log := [] })

end RegisterFile

end A64Machine
