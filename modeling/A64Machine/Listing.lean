import A64Machine.Disassembly
import A64Machine.Memory

/-!
# Listings

The words of a stretch of memory with their addresses and texts. A stretch begins at the word
that holds its first byte and ends early where memory does. Listing a memory leaves no record of
accesses.
-/

namespace A64Machine

/-- One word of a listing. -/
structure ListingRow where
  address : Int
  word : Nat
  text : String
  deriving DecidableEq, Repr

/-- Why a stretch of memory cannot be listed. -/
inductive ListingFault where
  | memory (fault : MemoryFault)
  | defective (defect : TableDefect)
  deriving DecidableEq, Repr

namespace Memory

/-- The row of the word at an address. -/
def listingRow (memory : Memory) (codec : Codec) (address : Int) :
    Except ListingFault ListingRow := do
  let word ← (memory.peek address Instruction.byteLength).mapError .memory
  let text ← (codec.wordText word address).mapError .defective
  return ⟨address, word, text⟩

/-- At most `count` rows from an address on, as far as memory has whole words. -/
def listingRows (memory : Memory) (codec : Codec) :
    (count : Nat) → (address : Int) → Except ListingFault (List ListingRow)
  | 0, _ => .ok []
  | count + 1, address =>
    if memory.size < address + Instruction.byteLength then .ok []
    else do
      let row ← listingRow memory codec address
      return row :: (← listingRows memory codec count (address + Instruction.byteLength))

/-- The rows of all words that have a byte in the stretch of `length` bytes from `start` on. -/
def listing (memory : Memory) (codec : Codec) (start length : Int) :
    Except ListingFault (List ListingRow) :=
  let width : Int := Instruction.byteLength
  let first := start - start % width
  listingRows memory codec ((start + length - first + width - 1) / width).toNat first

end Memory

end A64Machine
