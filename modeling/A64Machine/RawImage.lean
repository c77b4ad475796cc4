import A64Machine.Memory

/-!
# Raw images

Bytes that are placed into an image as they are.
-/

namespace A64Machine.RawImage

/-- Bytes that an image does not hold at an address. -/
structure DoesNotFit where
  bytes : Nat
  address : Int
  size : Nat
  deriving DecidableEq, Repr

/-- The text of bytes that do not fit. -/
def DoesNotFit.message (error : DoesNotFit) : String :=
  "Binary of " ++ Text.decimal error.bytes ++ " bytes at " ++ Text.hex error.address ++
    " does not fit memory image of size " ++ Text.decimal error.size

/-- Places bytes into an image from an address on. -/
def load (data : List UInt8) (image : Array UInt8) (address : Int) :
    Except DoesNotFit (Array UInt8) :=
  if Memory.holds image.size address data.length then
    .ok (Memory.overwrite image address.toNat data)
  else .error ⟨data.length, address, image.size⟩

end A64Machine.RawImage
