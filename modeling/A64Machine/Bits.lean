/-!
# Fixed-width readings of a number

A machine word is a natural number together with a width that is known from the context. This
file holds the operations that read or rearrange the lowest bits of a number: reduction to a
width, the two's complement reading, rotation, replication, reversal and the counting of
leading bits.
-/

namespace A64Machine

/-- The power of natural numbers, which stays that of the core library whichever other libraries
are in scope. -/
@[default_instance 20000]
instance (priority := 2000) corePow : Pow Nat Nat := instPowNat

namespace Bits

/-- The number whose lowest `bits` bits are set and whose other bits are clear. -/
def mask (bits : Nat) : Nat := 2 ^ bits - 1

/-- The representative of an integer among the numbers of `bits` bits. -/
def wrap (bits : Nat) (value : Int) : Nat := (value % (2 ^ bits : Nat)).toNat

/-- The two's complement reading of the lowest `bits` bits. -/
def signExtend (value : Int) (bits : Nat) : Int := value.bmod (2 ^ bits)

/-- Number of bits needed to write the value, which is zero for zero. -/
def bitLength (value : Nat) : Nat := if value = 0 then 0 else value.log2 + 1

/-- The value with the bits of another number cleared. -/
def clear (value cleared : Nat) : Nat := value ^^^ (value &&& cleared)

/-- Position of the highest set bit, which is `-1` when no bit is set. -/
def highestSetBit (value : Nat) : Int := bitLength value - 1

/-- The lowest `width` bits of `value` turned right by `amount` places. -/
def rotateRight (value amount width : Nat) : Nat :=
  let amount := amount % width
  let value := value % 2 ^ width
  ((value >>> amount) ||| (value <<< (width - amount))) % 2 ^ width

/-- The lowest `width` bits of `value` moved up by `amount` places. -/
def shiftLeft (value amount width : Nat) : Nat :=
  if width ≤ amount then 0 else (value <<< amount) % 2 ^ width

/-- Copies of `element` laid at every multiple of `elementSize` below `width`. -/
def replicate (element elementSize width : Nat) : Nat :=
  (List.range ((width + elementSize - 1) / elementSize)).foldl
    (fun copies index => copies ||| element <<< (index * elementSize)) 0

/-- How many of the `width` lowest bits stand above the highest set one. -/
def leadingZeros (value width : Nat) : Nat := width - bitLength (value % 2 ^ width)

/-- How many bits directly below the top bit of the width repeat it. -/
def leadingSignBits (value width : Nat) : Nat :=
  leadingZeros ((value >>> 1) ^^^ value) (width - 1)

/-- The `width` lowest bits in the opposite order. -/
def reverseBits (value : Nat) : (width : Nat) → Nat
  | 0 => 0
  | width + 1 => (value % 2) <<< width ||| reverseBits (value >>> 1) width

/-- The `count` lowest bytes in the opposite order. -/
def swapBytes (value : Nat) : (count : Nat) → Nat
  | 0 => 0
  | count + 1 => (value % 256) <<< (8 * count) ||| swapBytes (value >>> 8) count

/-- The bytes of every group of `container` bits in the opposite order, the groups staying in
place. -/
def reverseBytes (value width container : Nat) : Nat :=
  (List.range ((width + container - 1) / container)).foldl
    (fun result index =>
      result ||| swapBytes (value >>> (index * container)) (container / 8) <<< (index * container))
    0

end Bits

end A64Machine
