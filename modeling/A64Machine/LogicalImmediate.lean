import A64Machine.Bits

/-!
# Immediates in packed form

Logical instructions carry a mask as an element of 2, 4, 8, 16, 32 or 64 bits that holds a
rotated run of ones and is repeated over the register. Wide moves carry one half-word and its
position. This file holds both directions of the first form and the test for the second.
-/

namespace A64Machine

namespace LogicalImmediate

/-- The two masks of an element of `2 ^ length` bits that is repeated over a size: the run of ones
turned into its place, and the run of the bits that a bitfield move takes from its source. -/
def masks (length imms immr size : Nat) : Nat × Nat :=
  let s := imms % 2 ^ length
  let r := immr % 2 ^ length
  let d := (s + 2 ^ length - r) % 2 ^ length
  (Bits.replicate (Bits.rotateRight (Bits.mask (s + 1)) r (2 ^ length)) (2 ^ length) size,
    Bits.replicate (Bits.mask (d + 1)) (2 ^ length) size)

/-- The masks that a packed immediate stands for. Reserved combinations have none, and neither has
a run that fills its element when `strict` is set. -/
def decode (n imms immr size : Nat) (strict : Bool) : Option (Nat × Nat) :=
  let length := (n <<< 6 ||| (63 - imms % 64)).log2
  if length < 1 then none
  else if strict && imms % 2 ^ length == Bits.mask length then none
  else if size < 2 ^ length then none
  else some (masks length imms immr size)

/-- Halves the element size while both halves of the element agree, at most `fuel` times. -/
def elementSize (value : Nat) : (fuel size : Nat) → Nat
  | 0, size => size
  | fuel + 1, size =>
    let half := size / 2
    if size > 2 ∧ value % 2 ^ half = (value >>> half) % 2 ^ half then
      elementSize value fuel half
    else size

/-- The packed form `(n, immr, imms)` of a mask of the given size, if it has one. The element is
the smallest that repeats, and the rotation the smallest that turns a run of ones into it. -/
def encode (value : Int) (size : Nat) : Option (Nat × Nat × Nat) :=
  let value := Bits.wrap size value
  if value = 0 ∨ value = Bits.mask size then none
  else
    let width := elementSize value size.log2 size
    let element := value % 2 ^ width
    (List.range width).findSome? fun rotation =>
      let run := Bits.rotateRight element (width - rotation) width
      if run &&& (run + 1) = 0 then
        some (if width = 64 then 1 else 0, rotation,
          (63 - (2 * width - 1) % 64) ||| (Bits.bitLength run - 1))
      else none

end LogicalImmediate

namespace WideImmediate

/-- The half-word positions of a register of the given size. -/
def positions (size : Nat) : List Nat := List.range (size / 16)

/-- Whether the value is zero outside the half-word at the given position. -/
def fitsAt (value position : Nat) : Bool :=
  value == ((value >>> (16 * position)) % 2 ^ (16 : Nat)) <<< (16 * position)

/-- The lowest position whose half-word holds all of the value. -/
def position? (value size : Nat) : Option Nat := (positions size).find? (fitsAt value)

/-- Whether a wide move loads the value directly or in its complemented form. -/
def encodable (value : Int) (size : Nat) : Bool :=
  (decide (0 ≤ value) && (position? value.toNat size).isSome) ||
    (position? (Bits.wrap size (-1 - value)) size).isSome

end WideImmediate

end A64Machine
