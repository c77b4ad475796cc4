import A64Machine.Machine
import A64Machine.Text.LowerCase

/-!
# Registers by name

Besides the general registers, the program counter and the flags have names. Names are read in
either case. Reading and writing by name leaves no record of accesses.
-/

namespace A64Machine

/-- What a register name stands for. -/
inductive NamedRegister where
  | pc
  | nzcv
  | general (register : Register)
  deriving DecidableEq, Repr

namespace NamedRegister

/-- What a name in either case stands for. -/
def ofName? (name : String) : Option NamedRegister :=
  let word := Text.lower name
  if word = "pc" then some .pc
  else if word = "nzcv" then some .nzcv
  else (Register.ofName? word).map .general

/-- Number of bits of a general register at one of its widths. -/
def bitsOf (register : Register) : Nat := if register.wide then 64 else 32

/-- The text about a name that stands for no register. -/
def unknownMessage (name : String) : String := "Unknown register: " ++ name

end NamedRegister

namespace Machine

/-- The value of a named register. -/
def valueOf (machine : Machine) : NamedRegister → Int
  | .pc => machine.pc
  | .nzcv => machine.core.status.toInt
  | .general register =>
    (machine.core.registers.value register.slot % 2 ^ NamedRegister.bitsOf register : Nat)

/-- The machine with a named register set to the lowest bits of a value. A register that is
written at half width has its upper half cleared. -/
def assign (machine : Machine) (value : Int) : NamedRegister → Machine
  | .pc => { machine with pc := Bits.wrap 64 value }
  | .nzcv =>
    { machine with core := { machine.core with status := .ofInt (Bits.wrap 4 value) } }
  | .general register =>
    let written :=
      machine.core.registers.poke? register.slot
        (Bits.wrap (NamedRegister.bitsOf register) value)
    { machine with
      core := { machine.core with registers := written.getD machine.core.registers } }

/-- The value of the register of a name. -/
def readRegister? (machine : Machine) (name : String) : Option Int :=
  (NamedRegister.ofName? name).map machine.valueOf

/-- The machine with the register of a name set to the lowest bits of a value. -/
def writeRegister? (machine : Machine) (name : String) (value : Int) : Option Machine :=
  (NamedRegister.ofName? name).map (machine.assign value)

/-- The name of a general register in a display. -/
def displayName (slot : Nat) : String := "X" ++ Text.decimal slot

/-- The registers of a display with their values. -/
def registerMap (machine : Machine) : List (String × Int) :=
  machine.core.registers.generalValues.zipIdx.map
      (fun (value, slot) => (displayName slot, (value : Int))) ++
    [("PC", (machine.pc : Int)), ("NZCV", machine.core.status.toInt)]

/-- The groups of registers of a display, with the number of bits of each register. -/
def registerLayout : List (String × List (String × Nat)) :=
  [("General", (List.range Register.zeroSlot).map fun slot => (displayName slot, 64)),
    ("Special", [("PC", 64), ("NZCV", 4)])]

end Machine

end A64Machine
