import A64Machine.Memory
import A64Machine.Proofs.Bits
import A64Machine.Proofs.Outcome

/-!
# Bytes in memory

A value is laid into memory as bytes and made of bytes again. The byte order decides which byte
comes first, not what comes back. What was laid over bytes is found where it was laid, and all
other bytes are as they were; an access is refused as soon as one of its bytes is out of bounds.
-/

namespace A64Machine

namespace Endianness

@[simp] theorem length_littleBytes (width value : Nat) :
    (littleBytes width value).length = width := by
  induction width generalizing value with
  | zero => rfl
  | succ width ih => rw [littleBytes, List.length_cons, ih]

/-- A value takes as many bytes as it is wide. -/
@[simp] theorem length_bytesOf (order : Endianness) (width value : Nat) :
    (order.bytesOf width value).length = width := by
  cases order <;> simp [bytesOf]

theorem littleValue_lt (bytes : List UInt8) : littleValue bytes < 2 ^ (8 * bytes.length) := by
  induction bytes with
  | nil => exact Nat.one_pos
  | cons byte rest ih =>
    have small := byte.toNat_lt
    rw [littleValue, List.length_cons, Nat.mul_succ, Nat.pow_add]
    omega

/-- Some bytes make a value of their width. -/
theorem valueOf_lt (order : Endianness) (bytes : List UInt8) :
    order.valueOf bytes < 2 ^ (8 * bytes.length) := by
  cases order with
  | little => exact littleValue_lt bytes
  | big => simpa [valueOf] using littleValue_lt bytes.reverse

theorem littleValue_littleBytes (width value : Nat) :
    littleValue (littleBytes width value) = value % 2 ^ (8 * width) := by
  induction width generalizing value with
  | zero => simp [littleBytes, littleValue, Nat.mod_one]
  | succ width ih =>
    have byte : (UInt8.ofNat (value % 256)).toNat = value % 256 := by simp
    rw [littleBytes, littleValue, ih, byte, Nat.mul_succ, Nat.add_comm (8 * width), Nat.pow_add,
      Nat.mod_mul]

theorem littleBytes_mod (width value : Nat) :
    littleBytes width (value % 2 ^ (8 * width)) = littleBytes width value := by
  induction width generalizing value with
  | zero => rfl
  | succ width ih =>
    rw [littleBytes, littleBytes, Nat.mul_succ, Nat.add_comm (8 * width), Nat.pow_add,
      Nat.mod_mul_right_mod, Nat.mod_mul_right_div_self, ih]

/-- Only the lowest bits of a value are laid into its bytes. -/
theorem bytesOf_mod (order : Endianness) (width value : Nat) :
    order.bytesOf width (value % 2 ^ (8 * width)) = order.bytesOf width value := by
  cases order <;> rw [bytesOf, bytesOf, littleBytes_mod]

theorem littleBytes_littleValue (bytes : List UInt8) :
    littleBytes bytes.length (littleValue bytes) = bytes := by
  induction bytes with
  | nil => rfl
  | cons byte rest ih =>
    have small := byte.toNat_lt
    rw [List.length_cons, littleBytes, littleValue,
      show (byte.toNat + 256 * littleValue rest) % 256 = byte.toNat by omega,
      show (byte.toNat + 256 * littleValue rest) / 256 = littleValue rest by omega, ih,
      UInt8.ofNat_toNat]

/-- The value of bytes is laid into the same bytes again, in either order. -/
theorem bytesOf_valueOf (order : Endianness) (bytes : List UInt8) :
    order.bytesOf bytes.length (order.valueOf bytes) = bytes := by
  cases order with
  | little => exact littleBytes_littleValue bytes
  | big =>
    rw [bytesOf, valueOf, ← List.length_reverse, littleBytes_littleValue, List.reverse_reverse]

/-- The bytes of a value make its lowest bits again, in either order. -/
theorem valueOf_bytesOf (order : Endianness) (width value : Nat) :
    order.valueOf (order.bytesOf width value) = value % 2 ^ (8 * width) := by
  cases order with
  | little => exact littleValue_littleBytes width value
  | big =>
    rw [valueOf, bytesOf, List.reverse_reverse]
    exact littleValue_littleBytes width value

end Endianness

namespace Memory

/-- Replacing bytes keeps their number. -/
theorem size_overwrite (bytes : Array UInt8) (index : Nat) (replacement : List UInt8) :
    (overwrite bytes index replacement).size = bytes.size := by
  induction replacement generalizing bytes index with
  | nil => rfl
  | cons byte rest ih => rw [overwrite, ih, Array.size_setIfInBounds]

/-- Replaced bytes are found where they were laid, and all others are as before. -/
theorem getElem?_overwrite (bytes : Array UInt8) {index : Nat} {replacement : List UInt8}
    (fits : index + replacement.length ≤ bytes.size) (place : Nat) :
    (overwrite bytes index replacement)[place]? =
      if index ≤ place ∧ place < index + replacement.length then replacement[place - index]?
      else bytes[place]? := by
  induction replacement generalizing bytes index with
  | nil =>
    rw [overwrite, if_neg (by simp only [List.length_nil]; omega)]
  | cons byte rest ih =>
    rw [List.length_cons] at fits
    rw [overwrite, ih _ (by rw [Array.size_setIfInBounds]; omega), Array.getElem?_setIfInBounds,
      List.length_cons]
    by_cases here : place = index
    · subst here
      simp only [Nat.lt_add_one, Nat.not_le.mpr, false_and, if_false, if_true, Nat.sub_self,
        List.getElem?_cons_zero, Nat.le_refl, true_and]
      rw [if_pos (by omega), if_pos (by omega)]
    · by_cases behind : index + 1 ≤ place ∧ place < index + 1 + rest.length
      · rw [if_pos behind, if_pos (by omega), show place - index = place - (index + 1) + 1 by omega,
          List.getElem?_cons_succ]
      · rw [if_neg behind, if_neg (by omega), if_neg (by omega)]

/-- What bytes are replaced by does not depend on the other bytes. -/
theorem getElem?_overwrite_congr {bytes other : Array UInt8} {index place : Nat}
    {replacement : List UInt8} (sameSize : bytes.size = other.size)
    (same : bytes[place]? = other[place]?) :
    (overwrite bytes index replacement)[place]? = (overwrite other index replacement)[place]? := by
  induction replacement generalizing bytes other index with
  | nil => exact same
  | cons byte rest ih =>
    rw [overwrite, overwrite]
    apply ih
    · rw [Array.size_setIfInBounds, Array.size_setIfInBounds, sameSize]
    · rw [Array.getElem?_setIfInBounds, Array.getElem?_setIfInBounds, same, sameSize]

/-- A stretch of some width consists of the bytes from its address on. -/
theorem getElem?_stretch (bytes : Array UInt8) (address width place : Nat) :
    (stretch bytes address width)[place]? =
      if place < width then bytes[address + place]? else none := by
  have stop : ¬ ((address : Int) + width < 0) := by omega
  simp only [stretch, stop, if_false, Array.getElem?_toList, Array.getElem?_extract,
    Int.toNat_natCast]
  by_cases within : place < width
  · rw [if_pos within]
    split
    · rfl
    · rw [eq_comm, Array.getElem?_eq_none_iff]
      omega
  · rw [if_neg within, if_neg (by omega)]

theorem length_stretch_le (bytes : Array UInt8) (address width : Nat) :
    (stretch bytes address width).length ≤ width := by
  have beyond : (stretch bytes address width)[width]? = none := by
    rw [getElem?_stretch, if_neg (Nat.lt_irrefl width)]
  exact List.getElem?_eq_none_iff.mp beyond

/-- A stretch within the bytes has its full length. -/
theorem length_stretch {bytes : Array UInt8} {address width : Nat}
    (within : address + width ≤ bytes.size) :
    (stretch bytes address width).length = width := by
  apply Nat.le_antisymm (length_stretch_le bytes address width)
  apply Nat.le_of_not_lt
  intro short
  have beyond := getElem?_stretch bytes address width (stretch bytes address width).length
  rw [List.getElem?_eq_none (Nat.le_refl _), if_pos short, eq_comm,
    Array.getElem?_eq_none_iff] at beyond
  omega

/-- Bytes that are the same from an address on make the same stretch. -/
theorem stretch_congr {bytes other : Array UInt8} {address width : Nat}
    (same : ∀ place, address ≤ place → place < address + width → bytes[place]? = other[place]?) :
    stretch bytes address width = stretch other address width := by
  apply List.ext_getElem?
  intro place
  rw [getElem?_stretch, getElem?_stretch]
  split
  · exact same _ (Nat.le_add_right ..) (by omega)
  · rfl

/-- What was laid over bytes is the stretch in its place. -/
theorem stretch_overwrite (bytes : Array UInt8) {index : Nat} {replacement : List UInt8}
    (fits : index + replacement.length ≤ bytes.size) :
    stretch (overwrite bytes index replacement) index replacement.length = replacement := by
  apply List.ext_getElem?
  intro place
  rw [getElem?_stretch]
  by_cases inside : place < replacement.length
  · rw [if_pos inside, getElem?_overwrite bytes fits, if_pos (by omega), Nat.add_sub_cancel_left]
  · rw [if_neg inside, eq_comm, List.getElem?_eq_none_iff]
    omega

theorem holds_iff {size address width : Nat} :
    holds size address width = true ↔ address + width ≤ size := by
  simp only [holds, decide_eq_true_eq]
  omega

/-- A look at some bytes gives their value, if all of them are within bounds. -/
theorem peek_natCast (memory : Memory) (address width : Nat) :
    memory.peek address width =
      if address + width ≤ memory.size then
        .ok (memory.endianness.valueOf (stretch memory.bytes address width))
      else .error (.outside address width memory.size) := by
  rw [peek, readBytes]
  simp only [holds_iff]
  split <;> rfl

/-- A record of an access is not part of what memory holds. -/
theorem recorded_eq (memory : Memory) (kind : AccessKind) (address before after : Nat)
    (width : Int) :
    ∃ log, memory.recorded kind address before after width = { memory with log := log } := by
  unfold recorded
  split
  · exact ⟨_, rfl⟩
  · exact ⟨memory.log, rfl⟩

/-- A read gives the value of its bytes and changes the record at most, unless it is out of
bounds. -/
theorem read_natCast (memory : Memory) (address width : Nat) :
    ∃ log, memory.read address width =
      if address + width ≤ memory.size then
        .ok (memory.endianness.valueOf (stretch memory.bytes address width),
          { memory with log := log })
      else .error (.outside address width memory.size) := by
  obtain ⟨log, same⟩ := memory.recorded_eq .read address
    (memory.endianness.valueOf (stretch memory.bytes address width))
    (memory.endianness.valueOf (stretch memory.bytes address width)) width
  refine ⟨log, ?_⟩
  rw [read, peek_natCast, ← same]
  split <;> rfl

/-- A write lays the lowest bytes of its value over those in its place and changes the record, unless
it is out of bounds. -/
theorem write_intCast (memory : Memory) (address width : Nat) (value : Int) :
    ∃ log, memory.write address width value =
      if address + width ≤ memory.size then
        .ok { memory with
          log := log
          bytes := overwrite memory.bytes address
            (memory.endianness.bytesOf width (Bits.wrap (8 * width) value)) }
      else .error (.outside address width memory.size) := by
  obtain ⟨log, same⟩ := memory.recorded_eq .write address
    (memory.endianness.valueOf (stretch memory.bytes address width)) (Bits.wrap (8 * width) value)
    width
  refine ⟨log, ?_⟩
  rw [write, peek_natCast]
  split
  · rw [ok_bind rfl, if_neg (by omega)]
    simp only [Int.toNat_natCast]
    rw [same]
    rfl
  · rfl

/-- A write of a natural number lays down its lowest bytes. -/
theorem write_natCast (memory : Memory) (address width value : Nat) :
    ∃ log, memory.write address width value =
      if address + width ≤ memory.size then
        .ok { memory with
          log := log
          bytes := overwrite memory.bytes address (memory.endianness.bytesOf width value) }
      else .error (.outside address width memory.size) := by
  obtain ⟨log, written⟩ := memory.write_intCast address width value
  refine ⟨log, written.trans ?_⟩
  rw [Bits.wrap_natCast, Endianness.bytesOf_mod]

end Memory

end A64Machine
