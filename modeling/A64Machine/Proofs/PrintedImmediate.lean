import A64Machine.Proofs.PrintedOperand

/-!
# Printed immediates encode their fields again

An immediate is printed as its value and encoded by it, whatever its kind makes of the value: a
field, a shifted or a masked number, a distance or the positions of a bitfield. Only the rotation of
a masked immediate may come back smaller, by a multiple of the element size.
-/

namespace A64Machine

open InstructionForm (Agree dataSize)
open Encode (value amount)

namespace Encode

variable {form : InstructionForm} {here : Int} {role : List Char} {fields target : Fields}
  {wide : Bool}

/-! ### Fields and shifted numbers -/

/-- An immediate without a shift is printed and read back when its value encodes to the fields. -/
theorem prints_of_immediate {kind : OperandKind} {given : Int}
    (text : Disassembly.operand form kind role fields wide here = .ok (Disassembly.immediate given))
    (shapes : kind.Shapes (.plain (.immediate given none)))
    (firm : ∀ other, refuses other kind = false)
    (encodes : ∀ operand : ImmediateOperand, operand.amount = none → ∀ draft, Ready form kind fields wide draft →
        ∃ after, immediate form here kind role operand given (Codec.addressOnly here) draft =
          .ok after ∧ Holds kind role fields wide after) :
    ∃ spelling, Prints form here kind role fields wide fields spelling := by
  refine ⟨.plain (.immediate given none), ?_, ?_, shapes, ?_, ?_⟩
  · rw [text]
    simp [Spelling.text, PlainSpelling.text, Spelling.modificationText]
  · intro shift none
    contradiction
  · rintro _ ⟨operand, rfl, denotes, _, unwritten⟩ draft ready
    rw [operand_immediate kind denotes]
    exact encodes operand unwritten draft ready
  · intro _ other refused
    rw [firm other] at refused
    contradiction

/-- A number is printed and read back when its value encodes to the fields. -/
theorem prints_of_number {kind : OperandKind} {given : Int}
    (text : Disassembly.operand form kind role fields wide here = .ok (Text.hex given))
    (shapes : kind.Shapes (.plain (.number given false)))
    (firm : ∀ other, refuses other kind = false)
    (encodes : ∀ operand : ImmediateOperand, ∀ draft, Ready form kind fields wide draft →
        ∃ after, immediate form here kind role operand given (Codec.addressOnly here) draft =
          .ok after ∧ Holds kind role fields wide after) :
    ∃ spelling, Prints form here kind role fields wide fields spelling := by
  refine ⟨.plain (.number given false), ?_, trivial, shapes, ?_, ?_⟩
  · rw [text]
    simp [Spelling.text, PlainSpelling.text]
  · rintro _ ⟨operand, rfl, denotes, _⟩ draft ready
    rw [operand_immediate kind denotes]
    exact encodes operand draft ready
  · intro _ other refused
    rw [firm other] at refused
    contradiction

/-- The field of an immediate. -/
theorem exists_role {kind : OperandKind} (printable : form.Printable kind role)
    (areFields : AreFields form fields) (single : kind = .immediate ∨ kind = .shiftAmount) :
    ∃ letter width given, role = [letter] ∧ form.pattern.width? letter = some width ∧
      fields.lookup letter = some given ∧ given < 2 ^ width := by
  obtain ⟨one, fieldsOf⟩ := printable.single single
  obtain ⟨letter, rfl⟩ := List.length_eq_one_iff.mp one
  obtain ⟨positions, known⟩ := Option.isSome_iff_exists.mp (fieldsOf letter List.mem_cons_self)
  have width : form.pattern.width? letter = some positions.length := by
    rw [BitPattern.width?, known]
    rfl
  obtain ⟨given, found, small⟩ := areFields letter _ width
  exact ⟨letter, _, given, rfl, width, found, small⟩

/-- An immediate is printed and read back. -/
theorem prints_immediate (printable : form.Printable .immediate role)
    (areFields : AreFields form fields) :
    ∃ spelling, Prints form here .immediate role fields wide fields spelling := by
  obtain ⟨letter, width, given, rfl, known, found, small⟩ :=
    exists_role printable areFields (.inl rfl)
  refine @prints_of_immediate _ _ _ _ _ _ given ?_ ⟨_, rfl⟩ (fun other => by cases other <;> rfl) ?_
  · rw [Disassembly.operand, Fields.readRole, ok_bind (read_of_lookup found)]
    rfl
  · intro operand _ draft _
    have spans : fieldWidth form [letter] = .ok width := by rw [fieldWidth, known]
    refine ⟨draft.set letter given, ?_, .of_agree (by simp) rfl ?_⟩
    · rw [immediate, ok_bind spans, ok_bind (require_isBelow small)]
      rfl
    · simp [OperandKind.letters, OperandKind.fieldLetters, Agree, Draft.lookup_set, found]

/-- The positions of an instruction whose positions fit are below the data size. -/
theorem lt_size_of_positionsFit (op : form.op = .bitfield ∨ form.op = .extract)
    (positions : form.positionsFit fields (dataSize wide) = true) {letter : Char} {given : Nat}
    (position : letter = 'r' ∨ letter = 's') (found : fields.lookup letter = some given) :
    given < dataSize wide := by
  have moves : (form.op == .bitfield || form.op == .extract) = true := by simpa using op
  rw [InstructionForm.positionsFit, moves] at positions
  simp only [Bool.not_true, Bool.false_or, List.all_eq_true, decide_eq_true_eq] at positions
  have fits := positions letter (by simpa using position)
  rwa [found] at fits

/-- A shift amount is printed and read back. -/
theorem prints_shiftAmount (printable : form.Printable .shiftAmount role)
    (areFields : AreFields form fields)
    (positions : form.positionsFit fields (dataSize wide) = true) :
    ∃ spelling, Prints form here .shiftAmount role fields wide fields spelling := by
  obtain ⟨letter, width, given, rfl, known, found, small⟩ :=
    exists_role printable areFields (.inr rfl)
  have below : given < dataSize wide :=
    lt_size_of_positionsFit (printable.moves rfl) positions
      (by simpa using printable.position rfl) found
  refine @prints_of_immediate _ _ _ _ _ _ given ?_ ⟨_, rfl⟩ (fun other => by cases other <;> rfl) ?_
  · rw [Disassembly.operand, Fields.readRole, ok_bind (read_of_lookup found)]
    rfl
  · intro operand _ draft ready
    have size := size_of_width (ready.width rfl)
    refine ⟨draft.set letter given, ?_, .of_agree (by simp) rfl ?_⟩
    · rw [immediate, size, ok_bind (require_isBelow below)]
      rfl
    · simp [OperandKind.letters, OperandKind.fieldLetters, Agree, Draft.lookup_set, found]

/-- The number of a tested bit is printed and read back. At half width it is below 32, since it is
what tells the width of the instruction. -/
theorem prints_bitNumber (printable : form.Printable .bitNumber role)
    (areFields : AreFields form fields)
    (narrow : wide = false → ∀ bit, fields.lookup 'b' = some bit → bit < 32) :
    ∃ spelling, Prints form here .bitNumber role fields wide fields spelling := by
  obtain ⟨bit, found, small⟩ :=
    exists_printed printable areFields (show ('b', 6) ∈ _ by simp [OperandKind.printedFields])
  refine @prints_of_immediate _ _ _ _ _ _ bit ?_ ⟨_, rfl⟩ (fun other => by cases other <;> rfl) ?_
  · rw [Disassembly.operand, ok_bind (read_of_lookup found)]
    rfl
  · intro operand _ draft ready
    have below : bit < draft.size := by
      rw [Draft.size]
      split
      · rename_i isNarrow
        exact narrow (ready.compatible _ isNarrow).symm bit found
      · exact small
    refine ⟨draft.set 'b' bit, ?_, .of_agree (by simp) rfl ?_⟩
    · rw [immediate, ok_bind (require_isBelow below)]
      rfl
    · simp [OperandKind.letters, OperandKind.fieldLetters, Agree, Draft.lookup_set, found]

/-- An immediate of an addition is printed and read back. -/
theorem prints_arithmeticImmediate (printable : form.Printable .arithmeticImmediate role)
    (areFields : AreFields form fields) :
    ∃ spelling, Prints form here .arithmeticImmediate role fields wide fields spelling := by
  obtain ⟨shifted, knownS, smallS⟩ :=
    exists_printed printable areFields (show ('s', 1) ∈ _ by simp [OperandKind.printedFields])
  obtain ⟨field, knownI, smallI⟩ :=
    exists_printed printable areFields (show ('i', 12) ∈ _ by simp [OperandKind.printedFields])
  have holds (draft : Draft) : Holds .arithmeticImmediate role fields wide
      ((draft.set 's' shifted).set 'i' field) := by
    refine .of_agree (by simp) rfl ?_
    simp [OperandKind.letters, OperandKind.fieldLetters, Agree, Draft.lookup_set, knownS, knownI]
  by_cases zero : shifted ≠ 0 ∧ field = 0
  · obtain rfl : shifted = 1 := by omega
    obtain rfl := zero.2
    refine ⟨.plain (.immediate 0 (some 12)), ?_, ?_, ⟨_, _, rfl⟩, ?_, ?_⟩
    · rw [Disassembly.operand, ok_bind (read_of_lookup knownS), ok_bind (read_of_lookup knownI),
        if_pos zero]
      refine congrArg Except.ok ?_
      decide
    · intro amount written
      obtain rfl := Option.some.inj written
      decide
    · rintro _ ⟨operand, rfl, denotes, modified, reads⟩ draft _
      refine ⟨_, ?_, holds draft⟩
      rw [operand_immediate _ denotes, immediate]
      exact arithmeticImmediate_of_shifted (by decide) (amount_of_reads reads) draft
    · intro _ other refused
      contradiction
  · refine @prints_of_immediate _ _ _ _ _ _ (field <<< (12 * shifted) : Nat) ?_ ⟨_, _, rfl⟩
      (fun other => by cases other <;> rfl) ?_
    · rw [Disassembly.operand, ok_bind (read_of_lookup knownS), ok_bind (read_of_lookup knownI),
        if_neg zero]
      rfl
    · intro operand none draft _
      refine ⟨_, ?_, holds draft⟩
      rw [immediate]
      exact arithmeticImmediate_of_plain smallI (by omega) (by rw [none]; rfl) draft

/-! ### Masks and half-words -/

/-- The data size is a power of two. -/
theorem dataSize_eq (wide : Bool) :
    ∃ whole, (whole = 5 ∨ whole = 6) ∧ dataSize wide = 2 ^ whole := by
  cases wide with
  | false => exact ⟨5, .inl rfl, rfl⟩
  | true => exact ⟨6, .inr rfl, rfl⟩

/-- A value that is no half-word at a position is refused by a wide move. -/
theorem wideImmediate_refused {span : Span} {given : Int} {draft : Draft}
    (unfit : 0 ≤ given → WideImmediate.position? given.toNat draft.size = none) :
    ∃ error, wideImmediate span given draft = .error (.refused (.assembly error)) := by
  by_cases range : isBelow given (2 ^ draft.size) = true
  · have passed : require (isBelow given (2 ^ draft.size)) .immediateRange span = .ok () :=
      require_eq_ok.mpr range
    rw [wideImmediate, ok_bind passed, unfit (isBelow_iff.mp range).1]
    exact ⟨_, rfl⟩
  · rw [wideImmediate, require, if_neg range]
    exact ⟨_, rfl⟩

/-- A value that is no half-word at a position, and whose complement is none, is refused by both
kinds of wide moves. -/
theorem move_refused {other : OperandKind} (moves : other = .wide ∨ other = .invertedWide)
    {given : Int} {draft : Draft} {operand : ImmediateOperand} {evaluate : Evaluator}
    (unfit : 0 ≤ given → WideImmediate.position? given.toNat draft.size = none)
    (unfit' : other = .invertedWide →
      WideImmediate.position? (Bits.wrap draft.size (-1 - given)) draft.size = none) :
    ∃ error, immediate form here other role operand given evaluate draft =
      .error (.refused (.assembly error)) := by
  rcases moves with rfl | rfl
  · exact wideImmediate_refused unfit
  · rw [immediate]
    by_cases range : -(2 ^ draft.size : Nat) < given ∧ given < (2 ^ draft.size : Nat)
    · have passed : require (decide (-(2 ^ draft.size : Nat) < given ∧
          given < (2 ^ draft.size : Nat))) .immediateRange operand.span = .ok () :=
        require_eq_ok.mpr (by simpa using range)
      rw [ok_bind passed]
      exact wideImmediate_refused fun _ => by rw [Int.toNat_natCast, unfit' rfl]
    · rw [require, if_neg (by simpa using range)]
      exact ⟨_, rfl⟩

/-- A half-word at its position is encoded by a wide move. -/
theorem wideImmediate_of_fields {half position whole : Nat} {draft : Draft} {span : Span}
    (size : draft.size = 2 ^ whole) (small : half < 2 ^ 16) (inside : position < 2 ^ whole / 16)
    (lowest : half = 0 → position = 0) :
    wideImmediate span (half <<< (16 * position) : Nat) draft =
      .ok ((draft.set 'h' position).set 'j' half) := by
  rw [wideImmediate, size, ok_bind (require_isBelow (WideImmediate.shiftLeft_lt small inside)),
    Int.toNat_natCast, WideImmediate.position?_shiftLeft small lowest inside]
  change Except.ok ((draft.set 'h' position).set 'j'
    ((half <<< (16 * position)) >>> (16 * position) : Nat)) = _
  rw [WideImmediate.shiftRight_shiftLeft]

/-- The half-word of an admitted wide move, and its position. -/
theorem half_of_admitted {kind : OperandKind} (moves : kind = .wide ∨ kind = .invertedWide)
    {half position : Nat} (knownJ : fields.lookup 'j' = some half)
    (knownH : fields.lookup 'h' = some position)
    (admitted : InstructionForm.admitsOperand form.mnemonic fields (dataSize wide) kind role =
      .ok true) : position < dataSize wide / 16 ∧ (half = 0 → position = 0) ∧
        (kind = .invertedWide → dataSize wide = 32 → half ≠ 0xffff) := by
  have decided : InstructionForm.admitsWide (kind == .invertedWide) fields (dataSize wide) =
      .ok true := by
    rcases moves with rfl | rfl <;> exact admitted
  obtain ⟨inside, lowest, proper⟩ :=
    (InstructionForm.admitsWide_eq_true (read_of_lookup knownJ) (read_of_lookup knownH)).mp decided
  exact ⟨inside, lowest, fun inverted => proper (beq_iff_eq.mpr inverted)⟩

/-- A half-word at its position is printed and read back. -/
theorem prints_wide (printable : form.Printable .wide role) (areFields : AreFields form fields)
    (admitted : InstructionForm.admitsOperand form.mnemonic fields (dataSize wide) .wide role =
      .ok true) : ∃ spelling, Prints form here .wide role fields wide fields spelling := by
  obtain ⟨position, knownH, _⟩ :=
    exists_printed printable areFields (show ('h', 2) ∈ _ by simp [OperandKind.printedFields])
  obtain ⟨half, knownJ, small⟩ :=
    exists_printed printable areFields (show ('j', 16) ∈ _ by simp [OperandKind.printedFields])
  obtain ⟨inside, lowest, _⟩ := half_of_admitted (.inl rfl) knownJ knownH admitted
  obtain ⟨whole, _, size⟩ := dataSize_eq wide
  refine @prints_of_immediate _ _ _ _ _ _ (half <<< (16 * position) : Nat) ?_ ⟨_, rfl⟩
    (fun other => by cases other <;> rfl) ?_
  · rw [Disassembly.operand, ok_bind (read_of_lookup knownJ), ok_bind (read_of_lookup knownH)]
    rfl
  · intro operand _ draft ready
    have size' := (size_of_width (ready.width rfl)).trans size
    refine ⟨_, wideImmediate_of_fields size' small (size ▸ inside) lowest,
      .of_agree (by simp) rfl ?_⟩
    simp [OperandKind.letters, OperandKind.fieldLetters, Agree, Draft.lookup_set, knownH, knownJ]

/-- The complement of a half-word at its position is printed and read back. -/
theorem prints_invertedWide (printable : form.Printable .invertedWide role)
    (areFields : AreFields form fields)
    (admitted : InstructionForm.admitsOperand form.mnemonic fields (dataSize wide) .invertedWide
      role = .ok true) :
    ∃ spelling, Prints form here .invertedWide role fields wide fields spelling := by
  obtain ⟨position, knownH, _⟩ :=
    exists_printed printable areFields (show ('h', 2) ∈ _ by simp [OperandKind.printedFields])
  obtain ⟨half, knownJ, small⟩ :=
    exists_printed printable areFields (show ('j', 16) ∈ _ by simp [OperandKind.printedFields])
  obtain ⟨inside, lowest, proper⟩ := half_of_admitted (.inr rfl) knownJ knownH admitted
  obtain ⟨whole, sizes, size⟩ := dataSize_eq wide
  rw [size] at inside
  have direct : half <<< (16 * position) < 2 ^ 2 ^ whole := WideImmediate.shiftLeft_lt small inside
  let printed : Int :=
    Bits.signExtend (Bits.wrap (2 ^ whole) (-1 - (half <<< (16 * position) : Nat))) (2 ^ whole)
  have restored : Bits.wrap (2 ^ whole) (-1 - printed) = half <<< (16 * position) :=
    Bits.wrap_complement direct
  refine ⟨.plain (.immediate printed none), ?_, ?_, ⟨_, rfl⟩, ?_, ?_⟩
  · simp only [Disassembly.operand]
    rw [ok_bind (read_of_lookup knownJ), ok_bind (read_of_lookup knownH), size]
    refine congrArg Except.ok ?_
    simp [printed, Spelling.text, PlainSpelling.text, Spelling.modificationText]
  · intro shift none
    contradiction
  · rintro _ ⟨operand, rfl, denotes, _⟩ draft ready
    have size' := (size_of_width (ready.width rfl)).trans size
    have range : require (decide (-(2 ^ draft.size : Nat) < printed ∧
        printed < (2 ^ draft.size : Nat))) .immediateRange operand.span = .ok () := by
      rw [require_eq_ok, decide_eq_true_eq, size']
      exact Bits.signExtend_range (Nat.two_pow_pos whole) _
    refine ⟨((draft.set 'h' position).set 'j' half), ?_, .of_agree (by simp) rfl ?_⟩
    · rw [operand_immediate _ denotes, immediate, ok_bind range, size', restored]
      exact wideImmediate_of_fields size' small inside lowest
    · simp [OperandKind.letters, OperandKind.fieldLetters, Agree, Draft.lookup_set, knownH, knownJ]
  · rintro _ other refused _ ⟨operand, rfl, denotes, _⟩ draft width form'
    have moves : other = .wide := eq_of_beq refused
    rw [operand_immediate _ denotes]
    refine move_refused (.inl moves) (fun nonneg => ?_) fun impossible => by
      rw [moves] at impossible
      contradiction
    have same : printed =
        Bits.wrap (2 ^ whole) (-1 - (half <<< (16 * position) : Nat)) :=
      Bits.signExtend_of_nonneg (Nat.two_pow_pos whole) (Bits.wrap_lt _ _) nonneg
    rw [size_of_width width, size, same, Int.toNat_natCast]
    refine WideImmediate.position?_complement sizes small inside (fun five => ?_)
      (Bits.add_wrap_complement direct)
    exact proper rfl (by simp [size, five])

/-- The mask of an admitted masked immediate, which in a move is no half-word at a position. -/
theorem mask_of_admitted {n r s : Nat} (knownN : fields.lookup 'N' = some n)
    (knownR : fields.lookup 'r' = some r) (knownS : fields.lookup 's' = some s)
    (admitted : InstructionForm.admitsOperand form.mnemonic fields (dataSize wide) .bitmask role =
      .ok true) : ∃ mask other, LogicalImmediate.decode n s r (dataSize wide) true =
        some (mask, other) ∧
          (form.mnemonic = "mov" → WideImmediate.encodable mask (dataSize wide) = false) := by
  rw [InstructionForm.admitsOperand, InstructionForm.admitsBitmask,
    ok_bind (read_of_lookup knownN)] at admitted
  split at admitted
  · exact absurd (Except.ok.inj admitted) (by simp)
  · rw [ok_bind (read_of_lookup knownS), ok_bind (read_of_lookup knownR)] at admitted
    split at admitted
    · exact absurd (Except.ok.inj admitted) (by simp)
    · rename_i mask other unpacked
      refine ⟨mask, other, unpacked, fun moved => ?_⟩
      simpa [moved] using Except.ok.inj admitted

/-- A masked immediate is printed and read back, with its rotation reduced to the element size. -/
theorem prints_bitmask (printable : form.Printable .bitmask role) (areFields : AreFields form fields)
    (admitted : InstructionForm.admitsOperand form.mnemonic fields (dataSize wide) .bitmask role =
      .ok true) (restored : Restored .bitmask role fields target) :
    ∃ spelling, Prints form here .bitmask role fields wide target spelling := by
  obtain ⟨n, knownN, smallN⟩ :=
    exists_printed printable areFields (show ('N', 1) ∈ _ by simp [OperandKind.printedFields])
  obtain ⟨r, knownR, _⟩ :=
    exists_printed printable areFields (show ('r', 6) ∈ _ by simp [OperandKind.printedFields])
  obtain ⟨s, knownS, smallS⟩ :=
    exists_printed printable areFields (show ('s', 6) ∈ _ by simp [OperandKind.printedFields])
  obtain ⟨mask, other, unpacked, unfit⟩ := mask_of_admitted knownN knownR knownS admitted
  obtain ⟨whole, sizes, size⟩ := dataSize_eq wide
  rw [size] at unpacked unfit
  have packed : LogicalImmediate.encode mask (2 ^ whole) =
      some (n, r % LogicalImmediate.ringSize n s, s) :=
    LogicalImmediate.encode_decode smallN smallS unpacked
  have small : mask < 2 ^ 2 ^ whole :=
    LogicalImmediate.lt_of_decode (by omega) (by omega) smallN smallS unpacked
  refine ⟨.plain (.number mask true), ?_, trivial, ⟨_, rfl⟩, ?_, ?_⟩
  · simp only [Disassembly.operand]
    rw [ok_bind (read_of_lookup knownN), ok_bind (read_of_lookup knownS),
      ok_bind (read_of_lookup knownR), size, unpacked]
    rfl
  · rintro _ ⟨operand, rfl, denotes, _⟩ draft ready
    have size' := (size_of_width (ready.width rfl)).trans size
    have range : require (decide (-(2 ^ (draft.size - 1) : Nat) ≤ (mask : Int) ∧
        (mask : Int) < (2 ^ draft.size : Nat))) .immediateRange operand.span = .ok () := by
      rw [require_eq_ok, decide_eq_true_eq, size']
      refine ⟨?_, Int.ofNat_lt.mpr small⟩
      exact Int.le_trans (Int.neg_nonpos_of_nonneg (Int.natCast_nonneg _)) (Int.natCast_nonneg _)
    refine ⟨((draft.set 'N' n).set 'r' (r % LogicalImmediate.ringSize n s : Nat)).set 's' s, ?_,
      .of_agree (by simp) rfl ?_⟩
    · rw [operand_immediate _ denotes, immediate, bitmask, ok_bind range, size', packed]
      rfl
    · have same := restored.same
      simp only [OperandKind.letters, OperandKind.fieldLetters, Option.getD_some,
        List.forall_mem_cons] at same
      have rotation := restored.rotation rfl n r s knownN knownR knownS
      simp [OperandKind.letters, OperandKind.fieldLetters, Agree, Draft.lookup_set, rotation,
        same.1 (.inr (by decide)), same.2.2.1 (.inr (by decide)), knownN, knownS]
  · rintro moved other refused _ ⟨operand, rfl, denotes, _⟩ draft width form'
    have moves : other = .wide ∨ other = .invertedWide := by
      simpa [refuses] using refused
    have neither := unfit moved
    simp only [WideImmediate.encodable, Bool.or_eq_false_iff, Bool.and_eq_false_imp,
      decide_eq_true_eq, Option.isSome_eq_false_iff, Option.isNone_iff_eq_none] at neither
    rw [operand_immediate _ denotes]
    refine move_refused moves (fun nonneg => ?_) fun _ => ?_
    · rw [size_of_width width, size]
      exact neither.1 nonneg
    · rw [size_of_width width, size]
      exact neither.2

/-! ### Targets -/

/-- The target of a branch is printed and read back. -/
theorem prints_branchTarget (printable : form.Printable .branchTarget role)
    (areFields : AreFields form fields) :
    ∃ spelling, Prints form here .branchTarget role fields wide fields spelling := by
  obtain ⟨width, given, known, positive, found, small⟩ :=
    exists_distance printable areFields rfl
  have spans : Disassembly.fieldWidth form 'I' = .ok width := by
    rw [Disassembly.fieldWidth, known]
  refine @prints_of_number _ _ _ _ _ _ (here + Bits.signExtend given width * 4) ?_ ⟨_, rfl⟩
    (fun other => by cases other <;> rfl) ?_
  · rw [Disassembly.operand, ok_bind (read_of_lookup found), ok_bind spans]
    rfl
  · intro operand draft _
    have offset : here + Bits.signExtend given width * 4 - here = Bits.signExtend given width * 4 := by
      omega
    have aligned : require (Bits.signExtend given width * 4 % 4 == 0) .targetUnaligned
        operand.span = .ok () := require_eq_ok.mpr (by simp)
    have spans' : fieldWidth form ['I'] = .ok width := by rw [fieldWidth, known]
    have inRange : require (isSigned (Bits.signExtend given width) width) .targetRange
        operand.span = .ok () := require_eq_ok.mpr (isSigned_signExtend positive _)
    refine ⟨draft.set 'I' given, ?_, .of_agree (by simp) rfl ?_⟩
    · simp only [immediate, offset]
      rw [ok_bind aligned, ok_bind spans', Int.mul_ediv_cancel _ (by decide), ok_bind inRange,
        Bits.wrap_signExtend small]
      rfl
    · simp [OperandKind.letters, OperandKind.fieldLetters, Agree, Draft.lookup_set, found]

/-- The distance that is split into words and bytes is read and encoded again. -/
theorem exists_splitOffset {kind : OperandKind} (printable : form.Printable kind role)
    (areFields : AreFields form fields) (split : kind = .byteTarget ∨ kind = .pageTarget) :
    ∃ distance, Disassembly.splitOffset fields = .ok distance ∧ ∀ span draft,
      ∃ after, splitOffset span distance draft = .ok after ∧ Holds kind role fields wide after := by
  have printed : kind.printedFields role = [('I', 19), ('i', 2)] := by
    rcases split with rfl | rfl <;> rfl
  obtain ⟨words, knownI, smallI⟩ :=
    exists_printed printable areFields (show ('I', 19) ∈ _ by simp [printed])
  obtain ⟨bytes, knowni, smalli⟩ :=
    exists_printed printable areFields (show ('i', 2) ∈ _ by simp [printed])
  have joined : words <<< 2 ||| bytes = words * 4 + bytes := by
    rw [Nat.shiftLeft_eq, Nat.mul_comm]
    exact (Nat.two_pow_add_eq_or_of_lt smalli words).symm
  refine ⟨Bits.signExtend (words * 4 + bytes : Nat) 21, ?_, fun span draft => ?_⟩
  · rw [Disassembly.splitOffset, ok_bind (read_of_lookup knownI), ok_bind (read_of_lookup knowni),
      joined]
    rfl
  · have inRange : require (isSigned (Bits.signExtend (words * 4 + bytes : Nat) 21) 21)
        .addressRange span = .ok () := require_eq_ok.mpr (isSigned_signExtend (by decide) _)
    have whole : Bits.wrap 21 (Bits.signExtend (words * 4 + bytes : Nat) 21) = words * 4 + bytes :=
      Bits.wrap_signExtend (by omega)
    have upper : (words * 4 + bytes) / 4 = words := by omega
    have lower : (words * 4 + bytes) % 4 = bytes := by omega
    refine ⟨(draft.set 'I' words).set 'i' bytes, ?_, ?_⟩
    · rw [splitOffset, ok_bind inRange, whole]
      simp only [upper, lower]
      rfl
    · rcases split with rfl | rfl <;>
        · refine .of_agree (by simp) rfl ?_
          simp [OperandKind.letters, OperandKind.fieldLetters, Agree, Draft.lookup_set, knownI, knowni]

/-- The address that is a number of bytes away is printed and read back. -/
theorem prints_byteTarget (printable : form.Printable .byteTarget role)
    (areFields : AreFields form fields) :
    ∃ spelling, Prints form here .byteTarget role fields wide fields spelling := by
  obtain ⟨distance, read, encoded⟩ := exists_splitOffset printable areFields (.inl rfl)
  refine @prints_of_number _ _ _ _ _ _ (here + distance) ?_ ⟨_, rfl⟩
    (fun other => by cases other <;> rfl) ?_
  · rw [Disassembly.operand, ok_bind read]
    rfl
  · intro operand draft _
    have offset : here + distance - here = distance := by omega
    rw [immediate, offset]
    exact encoded operand.span draft

/-- The address that is a number of pages away is printed and read back. -/
theorem prints_pageTarget (printable : form.Printable .pageTarget role)
    (areFields : AreFields form fields) :
    ∃ spelling, Prints form here .pageTarget role fields wide fields spelling := by
  obtain ⟨distance, read, encoded⟩ := exists_splitOffset printable areFields (.inr rfl)
  refine @prints_of_number _ _ _ _ _ _ (here - here % 4096 + distance * 4096) ?_ ⟨_, rfl⟩
    (fun other => by cases other <;> rfl) ?_
  · rw [Disassembly.operand, ok_bind read]
    rfl
  · intro operand draft _
    have offset : (here - here % 4096 + distance * 4096) / 4096 - here / 4096 = distance := by omega
    rw [immediate, offset]
    exact encoded operand.span draft

/-! ### Bitfields -/

/-- The two positions of a bitfield operand lie within the data size. -/
theorem exists_positions {kind : OperandKind} (printable : form.Printable kind role)
    (areFields : AreFields form fields)
    (positions : form.positionsFit fields (dataSize wide) = true)
    (printed : kind.printedFields role = [('r', 6), ('s', 6)]) (moves : kind.printsPosition = true) :
    ∃ r s, fields.lookup 'r' = some r ∧ fields.lookup 's' = some s ∧ r < dataSize wide ∧
      s < dataSize wide := by
  obtain ⟨r, knownR, _⟩ :=
    exists_printed printable areFields (show ('r', 6) ∈ _ by simp [printed])
  obtain ⟨s, knownS, _⟩ :=
    exists_printed printable areFields (show ('s', 6) ∈ _ by simp [printed])
  exact ⟨r, s, knownR, knownS,
    lt_size_of_positionsFit (printable.moves moves) positions (.inl rfl) knownR,
    lt_size_of_positionsFit (printable.moves moves) positions (.inr rfl) knownS⟩

/-- A left shift is printed and read back. -/
theorem prints_leftShift (printable : form.Printable .leftShift role)
    (areFields : AreFields form fields)
    (positions : form.positionsFit fields (dataSize wide) = true)
    (admitted : InstructionForm.admitsOperand form.mnemonic fields (dataSize wide) .leftShift role =
      .ok true) : ∃ spelling, Prints form here .leftShift role fields wide fields spelling := by
  obtain ⟨r, s, knownR, knownS, belowR, belowS⟩ :=
    exists_positions printable areFields positions rfl rfl
  obtain rfl : s + 1 = r := by
    rw [InstructionForm.admitsOperand, ok_bind (read_of_lookup knownS)] at admitted
    split at admitted
    · exact absurd (Except.ok.inj admitted) (by simp)
    · rw [ok_bind (read_of_lookup knownR)] at admitted
      simpa using Except.ok.inj admitted
  refine @prints_of_immediate _ _ _ _ _ _ (dataSize wide - 1 - s) ?_ ⟨_, rfl⟩
    (fun other => by cases other <;> rfl) ?_
  · rw [Disassembly.operand, ok_bind (read_of_lookup knownS)]
    rfl
  · intro operand _ draft ready
    have size := size_of_width (ready.width rfl)
    have range : require (isBelow (dataSize wide - 1 - s) (dataSize wide)) .shiftAmountRange
        operand.span = .ok () := by
      rw [require_eq_ok, isBelow_iff]
      omega
    have turned : -((dataSize wide : Int) - 1 - s) % dataSize wide = (s + 1 : Nat) := by
      rw [← Int.add_emod_right]
      exact (Int.emod_eq_of_lt (by omega) (by omega)).trans (by omega)
    have last : (dataSize wide : Int) - 1 - (dataSize wide - 1 - s) = s := by omega
    refine ⟨(draft.set 'r' (s + 1 : Nat)).set 's' s, ?_, .of_agree (by simp) rfl ?_⟩
    · simp only [immediate, size]
      rw [ok_bind range, turned, last]
      rfl
    · simp [OperandKind.letters, OperandKind.fieldLetters, Agree, Draft.lookup_set, knownR, knownS]

/-- The lowest bit of an inserted bitfield is printed and read back. -/
theorem prints_insertLow (printable : form.Printable .insertLow role)
    (areFields : AreFields form fields)
    (positions : form.positionsFit fields (dataSize wide) = true) :
    ∃ spelling, Prints form here .insertLow role fields wide fields spelling := by
  obtain ⟨r, s, knownR, knownS, belowR, belowS⟩ :=
    exists_positions printable areFields positions rfl rfl
  have positive : (0 : Int) < dataSize wide := by omega
  refine @prints_of_immediate _ _ _ _ _ _ (-(r : Int) % dataSize wide) ?_ ⟨_, rfl⟩
    (fun other => by cases other <;> rfl) ?_
  · rw [Disassembly.operand, ok_bind (read_of_lookup knownR)]
    rfl
  · intro operand _ draft ready
    have size := size_of_width (ready.width rfl)
    have range : require (isBelow (-(r : Int) % dataSize wide) (dataSize wide)) .lsbRange
        operand.span = .ok () := by
      rw [require_eq_ok, isBelow_iff]
      exact ⟨Int.emod_nonneg _ (Int.ne_of_gt positive), Int.emod_lt_of_pos _ positive⟩
    have turned : -(-(r : Int) % dataSize wide) % dataSize wide = r := by
      rw [← Int.zero_sub (-(r : Int) % dataSize wide), Int.sub_emod, Int.emod_emod, ← Int.sub_emod,
        Int.zero_sub, Int.neg_neg, Int.emod_eq_of_lt (by omega) (by omega)]
    refine ⟨{ draft with lowest := -(r : Int) % dataSize wide }.set 'r' r, ?_, ?_, by simp, ?_⟩
    · simp only [immediate, size]
      rw [ok_bind range, turned]
      rfl
    · simp [OperandKind.letters, OperandKind.fieldLetters, Agree, Draft.lookup_set, knownR]
    · intro _ r' known
      obtain rfl : r = r' := Option.some.inj (knownR.symm.trans known)
      rfl

/-- The lowest bit of an extracted bitfield is printed and read back. -/
theorem prints_extractLow (printable : form.Printable .extractLow role)
    (areFields : AreFields form fields)
    (positions : form.positionsFit fields (dataSize wide) = true) :
    ∃ spelling, Prints form here .extractLow role fields wide fields spelling := by
  obtain ⟨r, s, knownR, knownS, belowR, belowS⟩ :=
    exists_positions printable areFields positions rfl rfl
  refine @prints_of_immediate _ _ _ _ _ _ r ?_ ⟨_, rfl⟩ (fun other => by cases other <;> rfl) ?_
  · rw [Disassembly.operand, ok_bind (read_of_lookup knownR)]
    rfl
  · intro operand _ draft ready
    have size := size_of_width (ready.width rfl)
    refine ⟨{ draft with lowest := r }.set 'r' r, ?_, ?_, by simp, ?_⟩
    · simp only [immediate, size]
      rw [ok_bind (require_isBelow belowR)]
      rfl
    · simp [OperandKind.letters, OperandKind.fieldLetters, Agree, Draft.lookup_set, knownR]
    · intro _ r' known
      obtain rfl : r = r' := Option.some.inj (knownR.symm.trans known)
      rfl

/-- The width of an inserted bitfield is printed and read back. -/
theorem prints_insertWidth (printable : form.Printable .insertWidth role)
    (areFields : AreFields form fields)
    (positions : form.positionsFit fields (dataSize wide) = true) {role' : List Char}
    (companion : InstructionForm.admitsOperand form.mnemonic fields (dataSize wide) .insertLow
      role' = .ok true) :
    ∃ spelling, Prints form here .insertWidth role fields wide fields spelling := by
  obtain ⟨r, s, knownR, knownS, belowR, belowS⟩ :=
    exists_positions printable areFields positions rfl rfl
  have ordered : s < r := by
    rw [InstructionForm.admitsOperand, ok_bind (read_of_lookup knownS),
      ok_bind (read_of_lookup knownR)] at companion
    simpa using Except.ok.inj companion
  refine @prints_of_immediate _ _ _ _ _ _ (s + 1) ?_ ⟨_, rfl⟩
    (fun other => by cases other <;> rfl) ?_
  · rw [Disassembly.operand, ok_bind (read_of_lookup knownS)]
    rfl
  · intro operand _ draft ready
    have size := size_of_width (ready.width rfl)
    have lowest : draft.lowest = dataSize wide - r := by
      rw [ready.lowest rfl r knownR, OperandKind.lowestBit, ← Int.add_emod_right]
      exact (Int.emod_eq_of_lt (by omega) (by omega)).trans (by omega)
    have range : require (decide (1 ≤ (s + 1 : Int) ∧ (s + 1 : Int) ≤ dataSize wide - draft.lowest))
        .bitfieldWidthRange operand.span = .ok () := by
      rw [require_eq_ok, decide_eq_true_eq]
      omega
    have last : (s + 1 : Int) - 1 = s := by omega
    refine ⟨draft.set 's' s, ?_, .of_agree (by simp) rfl ?_⟩
    · simp only [immediate, size]
      rw [ok_bind range, last]
      rfl
    · simp [OperandKind.letters, OperandKind.fieldLetters, Agree, Draft.lookup_set, knownS]

/-- The width of an extracted bitfield is printed and read back. -/
theorem prints_extractWidth (printable : form.Printable .extractWidth role)
    (areFields : AreFields form fields)
    (positions : form.positionsFit fields (dataSize wide) = true) {role' : List Char}
    (companion : InstructionForm.admitsOperand form.mnemonic fields (dataSize wide) .extractLow
      role' = .ok true) :
    ∃ spelling, Prints form here .extractWidth role fields wide fields spelling := by
  obtain ⟨r, s, knownR, knownS, belowR, belowS⟩ :=
    exists_positions printable areFields positions rfl rfl
  have ordered : r ≤ s := by
    rw [InstructionForm.admitsOperand, ok_bind (read_of_lookup knownR),
      ok_bind (read_of_lookup knownS)] at companion
    simpa using Except.ok.inj companion
  refine @prints_of_immediate _ _ _ _ _ _ (s - r + 1) ?_ ⟨_, rfl⟩
    (fun other => by cases other <;> rfl) ?_
  · rw [Disassembly.operand, ok_bind (read_of_lookup knownS), ok_bind (read_of_lookup knownR)]
    rfl
  · intro operand _ draft ready
    have size := size_of_width (ready.width rfl)
    have lowest : draft.lowest = r := ready.lowest rfl r knownR
    have range : require (decide (1 ≤ (s - r + 1 : Int) ∧
        (s - r + 1 : Int) ≤ dataSize wide - draft.lowest)) .bitfieldWidthRange operand.span =
        .ok () := by
      rw [require_eq_ok, decide_eq_true_eq]
      omega
    have last : draft.lowest + (s - r + 1 : Int) - 1 = s := by omega
    refine ⟨draft.set 's' s, ?_, .of_agree (by simp) rfl ?_⟩
    · simp only [immediate, size]
      rw [ok_bind range, last]
      rfl
    · simp [OperandKind.letters, OperandKind.fieldLetters, Agree, Draft.lookup_set, knownS]

end Encode

end A64Machine
