import A64Machine.Bits

/-!
# Condition flags

The four flags that comparisons leave behind, the status number that holds them, the arithmetic
that produces them and the sixteen conditions that read them.
-/

namespace A64Machine

/-- The condition flags: negative, zero, carry and signed overflow. -/
structure Flags where
  n : Bool
  z : Bool
  c : Bool
  v : Bool
  deriving DecidableEq, Repr, Inhabited

namespace Flags

/-- All four flags clear. -/
def clear : Flags := ⟨false, false, false, false⟩

/-- The flags as a four-bit number, negative first. -/
def toNat (flags : Flags) : Nat :=
  8 * flags.n.toNat + 4 * flags.z.toNat + 2 * flags.c.toNat + flags.v.toNat

/-- The flags named by the lowest four bits of a number. -/
def ofNat (value : Nat) : Flags :=
  ⟨value.testBit 3, value.testBit 2, value.testBit 1, value.testBit 0⟩

/-- Whether the four-bit condition code holds. The lowest bit negates the condition, except that
both codes of the last pair always hold. -/
def holds (code : Nat) (flags : Flags) : Bool :=
  let positive :=
    match code / 2 with
    | 0 => flags.z
    | 1 => flags.c
    | 2 => flags.n
    | 3 => flags.v
    | 4 => flags.c && !flags.z
    | 5 => flags.n == flags.v
    | 6 => flags.n == flags.v && !flags.z
    | _ => true
  if code % 2 = 1 ∧ code ≠ 15 then !positive else positive

/-- The flags of a logical result of the given size: carry and overflow are clear. -/
def ofLogical (result : Int) (size : Nat) : Flags :=
  ⟨decide (result >>> (size - 1) ≠ 0), decide (result = 0), false, false⟩

end Flags

/-- A status number: its lowest four bits are the condition flags, and what stands above them has
no meaning. -/
structure Status where
  flags : Flags
  above : Int
  deriving DecidableEq, Repr

namespace Status

/-- The status of flags with nothing above them. -/
def ofFlags (flags : Flags) : Status := ⟨flags, 0⟩

/-- The status with all flags clear and nothing above them. -/
def clear : Status := ofFlags .clear

/-- The status that an integer stands for. -/
def ofInt (value : Int) : Status := ⟨.ofNat (Bits.wrap 4 value), value / 16⟩

/-- The status as an integer. -/
def toInt (status : Status) : Int := 16 * status.above + status.flags.toNat

end Status

/-- The sum of two operands and a carry at the given size, with the flags it leaves: carry when
the unsigned sum does not fit, overflow when the signed sum does not. -/
def addWithCarry (x y : Nat) (carry : Int) (size : Nat) : Nat × Flags :=
  let unsigned : Int := (x % 2 ^ size + y % 2 ^ size : Nat) + carry
  let signed := Bits.signExtend x size + Bits.signExtend y size + carry
  let result := Bits.wrap size unsigned
  (result,
    ⟨decide (2 ^ (size - 1) ≤ result), decide (result = 0), decide (unsigned ≠ result),
      decide (Bits.signExtend result size ≠ signed)⟩)

end A64Machine
