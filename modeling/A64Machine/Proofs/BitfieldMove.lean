import A64Machine.Proofs.AssembledStep

/-!
# Bitfield moves

All moves, insertions and extractions of bitfields, all extensions and the shifts by an immediate are
one operation: the source is turned, a mask made of both positions takes the field out of it, and a
second mask tells where the surroundings begin. Bit by bit, this puts a field of the source into a
place of the destination, whatever the positions.
-/

namespace A64Machine

namespace Bits

/-! ### Bits of readings and of fields -/

/-- The bits of a two's complement reading repeat its highest bit. -/
theorem testBit_wrap_signExtend {size width : Nat} (positive : 0 < width) (value : Nat) {bit : Nat}
    (below : bit < size) :
    (wrap size (signExtend value width)).testBit bit = value.testBit (min bit (width - 1)) := by
  have same : wrap size (signExtend value width) =
      ((BitVec.ofNat width value).signExtend size).toNat := by
    rw [BitVec.signExtend, BitVec.toNat_ofInt, BitVec.toInt_eq_toNat_bmod, BitVec.toNat_ofNat,
      Int.natCast_emod, Int.emod_bmod]
    rfl
  rw [same, BitVec.testBit_toNat, BitVec.getLsbD_signExtend, BitVec.msb_eq_getLsbD_last]
  simp only [BitVec.getLsbD_ofNat, below, decide_true, Bool.true_and]
  by_cases inside : bit < width
  · simp [inside, show min bit (width - 1) = bit by omega]
  · simp [inside, show min bit (width - 1) = width - 1 by omega, show width - 1 < width by omega]

/-- A two's complement reading does not look above its width. -/
theorem signExtend_mod (value width : Nat) :
    signExtend (value % 2 ^ width : Nat) width = signExtend value width := by
  rw [signExtend, Int.natCast_emod, Int.emod_bmod, signExtend]

/-- A multiple by a power of two has the bits of the number further up. -/
theorem wrap_mul_two_pow (size : Nat) (value : Int) (amount : Nat) :
    wrap size (value * (2 ^ amount : Nat)) = (wrap size value <<< amount) % 2 ^ size := by
  rw [← wrap_natCast, Nat.shiftLeft_eq, Int.natCast_mul, natCast_wrap, wrap, wrap, Int.mul_emod,
    Int.mul_emod (value % (2 ^ size : Nat)) (2 ^ amount : Nat), Int.emod_emod]

/-- A cleared bit is not set. -/
theorem testBit_clear (value cleared bit : Nat) :
    (clear value cleared).testBit bit = (value.testBit bit && !cleared.testBit bit) := by
  rw [clear, Nat.testBit_xor, Nat.testBit_and]
  cases value.testBit bit <;> cases cleared.testBit bit <;> rfl

/-- The value with `width` bits from `low` on replaced by the lowest bits of another number. -/
def withField (value low width field : Nat) : Nat :=
  value % 2 ^ low ||| (field % 2 ^ width) <<< low ||| (value >>> (low + width)) <<< (low + width)

/-- A replaced field is found in its place, and the other bits are kept. -/
theorem testBit_withField (value low width field bit : Nat) :
    (withField value low width field).testBit bit =
      if low ≤ bit ∧ bit < low + width then field.testBit (bit - low) else value.testBit bit := by
  simp only [withField, Nat.testBit_or, Nat.testBit_mod_two_pow, Nat.testBit_shiftLeft,
    Nat.testBit_shiftRight]
  by_cases before : bit < low
  · simp [before, Nat.not_le.mpr before, show ¬low + width ≤ bit by omega]
  · by_cases inside : bit < low + width
    · simp [before, Nat.not_lt.mp before, inside, show bit - low < width by omega,
        Nat.not_le.mpr inside]
    · simp [before, Nat.not_lt.mp before, inside, show ¬bit - low < width by omega,
        Nat.not_lt.mp inside, show low + width + (bit - (low + width)) = bit by omega]

end Bits

/-! ### Fields in their surroundings -/

/-- What stands around a field that is moved: its sign above and zeros below, the former bits of the
register, or zeros. -/
inductive Surroundings where
  | sign
  | kept
  | zeros
  deriving DecidableEq, Repr

namespace Surroundings

/-- The code that a bitfield move has for the surroundings. -/
def code : Surroundings → Nat
  | .sign => 0
  | .kept => 1
  | .zeros => 2

/-- A register with the lowest bits of a number put at a place. -/
def place (around : Surroundings) (former field low width : Nat) : Int :=
  match around with
  | .sign => Bits.signExtend field width * (2 ^ low : Nat)
  | .kept => Bits.withField former low width field
  | .zeros => (field % 2 ^ width) <<< low

/-- Only the bits of the field count. -/
theorem place_congr (around : Surroundings) (former : Nat) {field other low width : Nat}
    (same : field % 2 ^ width = other % 2 ^ width) :
    around.place former field low width = around.place former other low width := by
  cases around with
  | sign => rw [place, place, ← Bits.signExtend_mod, same, Bits.signExtend_mod]
  | kept => rw [place, place, Bits.withField, Bits.withField, same]
  | zeros => rw [place, place, same]

/-- A bit outside the place. -/
def bit (around : Surroundings) (former field low width bit : Nat) : Bool :=
  match around with
  | .sign => decide (low ≤ bit) && field.testBit (width - 1)
  | .kept => former.testBit bit
  | .zeros => false

/-- The bits of a register with a field at a place. -/
theorem testBit_place (around : Surroundings) (former field : Nat) {low width size position : Nat}
    (positive : 0 < width) (below : position < size) :
    (Bits.wrap size (around.place former field low width)).testBit position =
      if low ≤ position ∧ position < low + width then field.testBit (position - low)
      else around.bit former field low width position := by
  cases around with
  | sign =>
    simp only [place, Surroundings.bit]
    rw [Bits.wrap_mul_two_pow, Nat.testBit_mod_two_pow, Nat.testBit_shiftLeft, decide_eq_true below,
      Bool.true_and]
    by_cases above : low ≤ position
    · rw [Bits.testBit_wrap_signExtend positive field (show position - low < size by omega)]
      by_cases inside : position < low + width
      · simp [above, inside, show min (position - low) (width - 1) = position - low by omega]
      · simp [above, inside, show min (position - low) (width - 1) = width - 1 by omega]
    · simp [above]
  | kept =>
    simp only [place, Surroundings.bit]
    rw [Bits.wrap_natCast, Nat.testBit_mod_two_pow, decide_eq_true below, Bool.true_and,
      Bits.testBit_withField]
  | zeros =>
    simp only [place, Surroundings.bit]
    rw [Bits.wrap_natCast, Nat.testBit_mod_two_pow, decide_eq_true below, Bool.true_and,
      Nat.testBit_shiftLeft, Nat.testBit_mod_two_pow]
    by_cases above : low ≤ position
    · by_cases inside : position < low + width
      · simp [above, inside, show position - low < width by omega]
      · simp [above, inside, show ¬position - low < width by omega]
    · simp [above]

end Surroundings

/-! ### Positions of a bitfield move -/

/-- The positions of a bitfield move of `size` bits take `width` bits of the source from `start` on and
put them from `low` on. One of both places is at the bottom. -/
structure Moves (size turn top start low width : Nat) : Prop where
  positive : 0 < width
  source : start + width ≤ size
  target : low + width ≤ size
  top : top + 1 = start + width
  turn : low = 0 ∧ turn = start ∨ start = 0 ∧ turn = (size - low) % size

namespace Moves

variable {size turn top start low width : Nat}

/-- A field that is not moved up is extracted, and otherwise it is inserted. -/
theorem extracts_or_inserts (moves : Moves size turn top start low width) :
    low = 0 ∧ turn = start ∨ 0 < low ∧ start = 0 ∧ turn = size - low := by
  obtain ⟨_, _, target, _, turned⟩ := moves
  rcases turned with first | ⟨bottom, turned⟩
  · exact .inl first
  · rcases Nat.eq_zero_or_pos low with rfl | above
    · exact .inl ⟨rfl, by rw [turned, bottom, Nat.sub_zero, Nat.mod_self]⟩
    · exact .inr ⟨above, bottom, turned.trans (Nat.mod_eq_of_lt (by omega))⟩

theorem turn_lt (moves : Moves size turn top start low width) : turn < size := by
  have ⟨positive, source, target, _, _⟩ := moves
  rcases moves.extracts_or_inserts with ⟨_, rfl⟩ | ⟨above, _, rfl⟩ <;> omega

/-- The second mask ends where the field ends. -/
theorem fieldTop (moves : Moves size turn top start low width) :
    (top + size - turn) % size = low + width - 1 := by
  have ⟨positive, source, target, last, _⟩ := moves
  rcases moves.extracts_or_inserts with ⟨rfl, rfl⟩ | ⟨above, rfl, rfl⟩
  · rw [show top + size - turn = width - 1 + size by omega, Nat.add_mod_right,
      Nat.mod_eq_of_lt (by omega)]
    omega
  · rw [Nat.mod_eq_of_lt (by omega)]
    omega

/-- Up to the end of the field, the turned source has the field in its place and is outside the first
mask below it. -/
theorem turned (moves : Moves size turn top start low width) {bit : Nat}
    (below : bit < low + width) :
    if low ≤ bit then (bit + turn) % size = start + (bit - low) ∧ (bit + turn) % size ≤ top
    else top < (bit + turn) % size := by
  have ⟨positive, source, target, last, _⟩ := moves
  rcases moves.extracts_or_inserts with ⟨rfl, rfl⟩ | ⟨above, rfl, rfl⟩
  · rw [if_pos (Nat.zero_le bit), Nat.mod_eq_of_lt (by omega)]
    omega
  · split
    · rw [show bit + (size - low) = bit - low + size by omega, Nat.add_mod_right,
        Nat.mod_eq_of_lt (by omega)]
      omega
    · rw [Nat.mod_eq_of_lt (by omega)]
      omega

end Moves

/-! ### The result of a bitfield move -/

namespace LogicalImmediate

/-- The second mask has the bits up to the end of its run. -/
theorem testBit_fieldMask {length imms immr bit : Nat} (top : imms < 2 ^ length)
    (turn : immr < 2 ^ length) (below : bit < 2 ^ length) :
    (masks length imms immr (2 ^ length)).2.testBit bit =
      decide (bit ≤ (imms + 2 ^ length - immr) % 2 ^ length) := by
  have positive := Nat.two_pow_pos length
  have small := Nat.mod_lt (imms + 2 ^ length - immr) positive
  have fits : Bits.mask ((imms + 2 ^ length - immr) % 2 ^ length + 1) < 2 ^ 2 ^ length :=
    Nat.le_trans (Nat.le_of_eq (Bits.mask_add_one _)) (Nat.pow_le_pow_right (by decide) small)
  have repeated := @Bits.testBit_replicate _ _ fits positive 1 bit
  rw [Nat.mul_one] at repeated
  simp only [masks, Nat.mod_eq_of_lt top, Nat.mod_eq_of_lt turn]
  rw [repeated, Bits.testBit_mask, Nat.mod_eq_of_lt below, decide_eq_true below, Bool.true_and]
  exact decide_eq_decide.mpr Nat.lt_succ_iff

/-- The first mask has the bits that come from the run at the bottom. -/
theorem testBit_wordMask {length imms immr bit : Nat} (top : imms < 2 ^ length)
    (below : bit < 2 ^ length) :
    (masks length imms immr (2 ^ length)).1.testBit bit =
      decide ((bit + immr) % 2 ^ length ≤ imms) := by
  have run := isRun_masks length imms immr 1
  rw [Nat.mul_one] at run
  rw [run bit below, Nat.mod_eq_of_lt top]
  exact decide_eq_decide.mpr Nat.lt_succ_iff

end LogicalImmediate

namespace DataProcessing

/-- What a bitfield move with some surroundings makes of its source and of the former value of its
destination, by both masks. -/
def moved (around : Surroundings) (turn top size : Nat) (masks : Nat × Nat)
    (former source : Nat) : Nat :=
  let bottom := Bits.rotateRight source turn size &&& masks.1
  let above :=
    match around with
    | .sign => if source.testBit top then Bits.mask size else 0
    | .kept => former
    | .zeros => 0
  let below :=
    match around with
    | .kept => bottom ||| Bits.clear former masks.1
    | _ => bottom
  Bits.clear above masks.2 ||| (below &&& masks.2)

/-- A bitfield move puts a field of the source into its place. -/
theorem wrap_moved {length turn top start low width : Nat} (around : Surroundings)
    (moves : Moves (2 ^ length) turn top start low width) (former source : Nat) :
    Bits.wrap (2 ^ length)
        (moved around turn top (2 ^ length) (LogicalImmediate.masks length top turn (2 ^ length))
          former source) =
      Bits.wrap (2 ^ length) (around.place former (source >>> start) low width) := by
  have ⟨positive, within, target, last, _⟩ := moves
  refine Bits.eq_of_testBit_lt (Bits.wrap_lt _ _) (Bits.wrap_lt _ _) fun bit below => ?_
  have inField := LogicalImmediate.testBit_fieldMask (show top < 2 ^ length by omega) moves.turn_lt
    below
  have inWord := @LogicalImmediate.testBit_wordMask length top turn bit (by omega) below
  rw [moves.fieldTop] at inField
  rw [around.testBit_place former (source >>> start) positive below, Bits.wrap_natCast,
    Nat.testBit_mod_two_pow, decide_eq_true below, Bool.true_and]
  have turned := Bits.testBit_rotateRight source turn below
  by_cases inside : bit < low + width
  · -- within the second mask, only what stands below it counts
    have field : bit ≤ low + width - 1 := by omega
    have place := moves.turned inside
    split at place
    · rename_i above
      rw [if_pos ⟨above, inside⟩, Nat.testBit_shiftRight, ← place.1]
      cases around <;>
        simp [moved, Bits.testBit_clear, inField, field, inWord, turned, place.2]
    · rename_i above
      rw [if_neg fun both => above both.1]
      cases around <;>
        simp [moved, Bits.testBit_clear, inField, field, inWord, turned, Nat.not_le.mpr place,
          Surroundings.bit, above]
  · have field : ¬bit ≤ low + width - 1 := by omega
    have above : low ≤ bit := by omega
    have sign : start + (width - 1) = top := by omega
    rw [if_neg fun both : _ ∧ _ => inside both.2]
    cases around with
    | sign =>
      cases set : source.testBit top <;>
        simp [moved, Bits.testBit_clear, inField, field, Surroundings.bit, above, sign, set,
          Bits.testBit_mask, below]
    | kept => simp [moved, Bits.testBit_clear, inField, field, Surroundings.bit]
    | zeros => simp [moved, Bits.testBit_clear, inField, field, Surroundings.bit]

section Ensures

variable {instruction : Instruction} {allowed : ExecutionFault → Prop} {before : CoreState}
  {wide : Bool} {start low width : Nat}

/-- A bitfield move leaves its destination with the field of the source at its place. -/
theorem ensures_bitfield (around : Surroundings)
    (offers : instruction.Offers ['N', 's', 'r', 'n', 'c', 'd'])
    (op : instruction.form.op = .bitfield)
    (size : Execution.dataSize instruction = InstructionForm.dataSize wide)
    (element : instruction.value 'N' = wide.toNat) (code : instruction.value 'c' = around.code)
    (moves : Moves (InstructionForm.dataSize wide) (instruction.value 'r') (instruction.value 's')
      start low width) :
    Execution.Ensures allowed (Execution.perform instruction)
      (fun branched after => branched = none ∧ before.Receives after ⟨instruction.value 'd', wide⟩
        (around.place (before.contents ⟨instruction.value 'd', wide⟩)
          (before.contents ⟨instruction.value 'n', wide⟩ >>> start) low width) before.status)
      before := by
  have small : instruction.value 's' < InstructionForm.dataSize wide := by
    have ⟨_, source, _, top, _⟩ := moves
    omega
  have decoded := InstructionSet.decode_element small (instruction.value 'r')
  have result (former source : Nat) := InstructionSet.two_pow_sizeLength wide ▸ @wrap_moved
    (InstructionSet.sizeLength wide) _ _ _ _ _ around
    ((InstructionSet.two_pow_sizeLength wide).symm ▸ moves) former source
  have named := offers.registers 'd' (by decide)
  have written {registers : RegisterFile}
      (same : ∀ slot : Nat, registers.value slot = before.registers.value slot) :=
    (CoreState.receives_of_write wide same named before.status _).congr
      (result (before.contents ⟨instruction.value 'd', wide⟩)
        (before.contents ⟨instruction.value 'n', wide⟩))
  cases around <;>
    simp only [Execution.perform, op, bitfield, masks, offers.present, offers.registers, size,
      element, decoded, code, Surroundings.code, Execution.ensures_sequential,
      Execution.ensures_bind, Execution.ensures_ite, Execution.ensures_pure,
      Execution.ensures_field_offered, Execution.ensures_readField_offered,
      Execution.ensures_writeField_offered, List.mem_cons, true_or, or_true, true_and,
      pure_bind, if_true, if_false, Nat.zero_ne_one, Nat.succ_ne_self, reduceCtorEq,
      RegisterFile.value_afterRead] <;>
    exact written (by simp)

end Ensures

end DataProcessing

end A64Machine
