import A64Machine.Access
import A64Machine.Bits

/-!
# Memory images

A memory holds a working copy of its origin. Programs change the working copy only, and a reset
restores it. Values of several bytes are read and written in the byte order of the memory. While
accesses are tracked, every read and write is recorded.
-/

namespace A64Machine

/-- The order of the bytes of a value. -/
inductive Endianness where
  | little | big
  deriving DecidableEq, Repr

namespace Endianness

/-- The name of a byte order. -/
def name : Endianness → String
  | .little => "little"
  | .big => "big"

/-- The byte order of a name. -/
def ofName? (name : String) : Option Endianness :=
  [little, big].find? fun order => order.name == name

/-- The value of bytes of which the first is the least significant. -/
def littleValue : List UInt8 → Nat
  | [] => 0
  | byte :: rest => byte.toNat + 256 * littleValue rest

/-- The lowest bytes of a value, the least significant first. -/
def littleBytes : (width value : Nat) → List UInt8
  | 0, _ => []
  | width + 1, value => UInt8.ofNat (value % 256) :: littleBytes width (value / 256)

/-- The value of bytes in this order. -/
def valueOf (order : Endianness) (bytes : List UInt8) : Nat :=
  match order with
  | .little => littleValue bytes
  | .big => littleValue bytes.reverse

/-- The bytes of a value in this order. -/
def bytesOf (order : Endianness) (width value : Nat) : List UInt8 :=
  match order with
  | .little => littleBytes width value
  | .big => (littleBytes width value).reverse

end Endianness

/-- An access that memory does not allow: one that leaves its bounds, or a write of fewer than no
bytes. -/
inductive MemoryFault where
  | outside (address width : Int) (size : Nat)
  | outsideOrigin (address width : Int) (size : Nat)
  | misaligned (pc width : Nat)
  | pcOutside (pc size : Nat)
  | negativeWrite
  deriving DecidableEq, Repr

namespace MemoryFault

/-- Whether the fault is that an access leaves the bounds, or that an instruction is fetched where
there is none. A write of fewer than no bytes fails in another way. -/
def isAccessFault : MemoryFault → Bool
  | .outside _ _ _ | .outsideOrigin _ _ _ | .misaligned _ _ | .pcOutside _ _ => true
  | .negativeWrite => false

open Text (decimal hex)

/-- The text about a stretch of bytes that leaves the bounds of something. -/
def boundsMessage (address width : Int) (what : String) (size : Nat) : String :=
  "Address " ++ hex address ++ " (+" ++ decimal width ++ ") out of bounds for " ++ what ++
    " of size " ++ decimal size ++ "."

/-- The text of a memory fault. -/
def message : MemoryFault → String
  | .outside address width size => boundsMessage address width "memory" size
  | .outsideOrigin address width size => boundsMessage address width "origin" size
  | .misaligned pc width =>
    "Misaligned PC " ++ hex pc ++ " (instruction width " ++ decimal width ++ ")."
  | .pcOutside pc size =>
    "PC " ++ hex pc ++ " out of bounds for memory of size " ++ decimal size ++ "."
  | .negativeWrite => "negative shift count"

end MemoryFault

/-- Why a memory cannot be set up. -/
inductive SetupError where
  | memorySize
  | endianness (name : String)
  | negativeSize
  | sizeNotIndexed (size : Nat)
  | sizeNotHeld (size : Nat)
  | emptyOrigin
  | instructionWidth (width : Int)
  deriving DecidableEq, Repr

/-- The text of a set-up error. -/
def SetupError.message : SetupError → String
  | .memorySize => "Memory size must be a positive integer."
  | .endianness name => "Unsupported endianness: " ++ name
  | .negativeSize => "negative count"
  | .sizeNotIndexed size => "Memory size cannot be indexed: " ++ Text.hex size
  | .sizeNotHeld size => "Memory size cannot be held: " ++ Text.hex size
  | .emptyOrigin => "Origin image must not be empty."
  | .instructionWidth _ => "A64 instruction width must be 4 bytes."

/-- Number of bytes from which on a memory is too large to be held. -/
def heldSize : Nat := 2 ^ (32 : Nat)

/-- Zeros of a given number, of which at most `most` can be indexed. -/
def blankBytes (size most : Nat) : Except SetupError (Array UInt8) :=
  if most < size then .error (.sizeNotIndexed size)
  else if heldSize ≤ size then .error (.sizeNotHeld size)
  else .ok (Array.replicate size 0)

/-- The most bytes that an image may have. -/
def mostImageBytes : Nat := 2 ^ (63 : Nat) - 1

/-- An image of zeros. -/
def blankImage (size : Int) : Except SetupError (Array UInt8) :=
  if size < 0 then .error .negativeSize else blankBytes size.toNat mostImageBytes

/-- The size and the byte order of a memory, once both are known to be valid. -/
def checkSetup (size : Int) (endianness : String) : Except SetupError (Nat × Endianness) :=
  if size ≤ 0 then .error .memorySize
  else
    match Endianness.ofName? endianness with
    | none => .error (.endianness endianness)
    | some order => .ok (size.toNat, order)

/-- A memory: its byte order, the origin, the working copy, whether accesses are tracked, and
the record of accesses from the oldest. -/
structure Memory where
  endianness : Endianness
  origin : Array UInt8
  bytes : Array UInt8
  tracking : Bool
  log : List Access

namespace Memory

/-- An untracked memory whose origin and working copy hold the given bytes. -/
def ofBytes (endianness : Endianness) (bytes : Array UInt8) : Memory :=
  ⟨endianness, bytes, bytes, false, []⟩

/-- The most bytes that a memory may have. -/
def mostBytes : Nat := 2 ^ (63 : Nat) - 34

/-- A memory of zeros. -/
def create (size : Int) (endianness : String) : Except SetupError Memory := do
  let (size, order) ← checkSetup size endianness
  return ofBytes order (← blankBytes size mostBytes)

/-- Number of bytes. -/
def size (memory : Memory) : Nat := memory.bytes.size

/-- The working copy restored from the origin, and an empty record. -/
def reset (memory : Memory) : Memory := { memory with bytes := memory.origin, log := [] }

/-- The memory with a new origin, which may not be empty. -/
def loadOrigin (memory : Memory) (image : Array UInt8) : Except SetupError Memory :=
  if image.isEmpty then .error .emptyOrigin else .ok { memory with origin := image }.reset

/-- Whether `width` bytes from an address on lie within a size. -/
def holds (size : Nat) (address width : Int) : Bool :=
  decide (0 ≤ address ∧ address + width ≤ size)

/-- The bytes from an address up to the one that is `width` bytes behind it. An end that is below
zero, as that of a negative width can be, counts from the end of the bytes, and where the end comes
before the beginning there are no bytes. -/
def stretch (bytes : Array UInt8) (address width : Int) : List UInt8 :=
  let stop := address + width
  let stop := if stop < 0 then stop + bytes.size else stop
  (bytes.extract address.toNat stop.toNat).toList

/-- The bytes with some of them replaced from an index on. -/
def overwrite (bytes : Array UInt8) : (index : Nat) → List UInt8 → Array UInt8
  | _, [] => bytes
  | index, byte :: rest => overwrite (bytes.setIfInBounds index byte) (index + 1) rest

/-- The bytes of the working copy from an address on. -/
def readBytes (memory : Memory) (address length : Int) : Except MemoryFault (List UInt8) :=
  if holds memory.size address length then .ok (stretch memory.bytes address length)
  else .error (.outside address length memory.size)

/-- The value at an address of the working copy, without a record. -/
def peek (memory : Memory) (address width : Int) : Except MemoryFault Nat :=
  (memory.readBytes address width).map memory.endianness.valueOf

/-- The value at an address of the origin, without a record. -/
def peekOrigin (memory : Memory) (address width : Int) : Except MemoryFault Nat :=
  if holds memory.origin.size address width then
    .ok (memory.endianness.valueOf (stretch memory.origin address width))
  else .error (.outsideOrigin address width memory.origin.size)

/-- The memory with one more access on record, if accesses are tracked. -/
def recorded (memory : Memory) (kind : AccessKind) (address before after : Nat) (width : Int) :
    Memory :=
  if memory.tracking then
    { memory with log := memory.log ++ [⟨kind, .memory address, before, after, width⟩] }
  else memory

/-- Reads the value at an address. -/
def read (memory : Memory) (address width : Int) : Except MemoryFault (Nat × Memory) :=
  (memory.peek address width).map fun value =>
    (value, memory.recorded .read address.toNat value value width)

/-- Writes the lowest bytes of a value at an address. -/
def write (memory : Memory) (address width value : Int) : Except MemoryFault Memory := do
  let before ← memory.peek address width
  if width < 0 then throw .negativeWrite
  let after := Bits.wrap (8 * width.toNat) value
  let memory := memory.recorded .write address.toNat before after width
  let bytes := memory.endianness.bytesOf width.toNat after
  return { memory with bytes := overwrite memory.bytes address.toNat bytes }

/-- Writes bytes from an address on, one at a time. -/
def writeBytes (memory : Memory) : (address : Int) → List UInt8 → Except MemoryFault Memory
  | _, [] => .ok memory
  | address, byte :: rest => do
    (← memory.write address 1 byte.toNat).writeBytes (address + 1) rest

/-- The record of accesses, and the memory with the record emptied. -/
def takeLog (memory : Memory) : List Access × Memory := (memory.log, { memory with log := [] })

end Memory

end A64Machine
