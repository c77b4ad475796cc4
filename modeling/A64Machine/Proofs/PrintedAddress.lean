import A64Machine.Proofs.PrintedOperand

/-!
# Printed addresses encode their fields again

An address is printed as its base and an offset or an index. The offset is counted in bytes, so it
is a multiple of the access size wherever the field counts accesses; an index is scaled by that size
or not at all.
-/

namespace A64Machine

open InstructionForm (Agree dataSize)
open Encode (value amount)

namespace Encode

variable {form : InstructionForm} {here : Int} {role : List Char} {fields : Fields}
  {wide : Bool}

/-- The access size of an address is positive, small and the same in both directions. -/
theorem accessSize_of_ready {kind : OperandKind} (printable : form.Printable kind role)
    (isAddress : kind.isAddress = true) :
    ∃ size : Nat, 0 < size ∧ size < 256 ∧ Disassembly.accessSize form wide = size ∧
      ∀ draft, Ready form kind fields wide draft → accessSize form (draft.wide != some false) = size := by
  have access := printable.access isAddress
  cases fixed : form.size with
  | none =>
    refine ⟨if wide then 8 else 4, ?_, ?_, ?_, fun draft ready => ?_⟩
    · cases wide <;> decide
    · cases wide <;> decide
    · rw [Disassembly.accessSize, fixed]
      cases wide <;> rfl
    · have width : draft.wide = some wide :=
        ready.width (by simp [OperandKind.needsWidth, isAddress, fixed])
      rw [accessSize, fixed, width]
      cases wide <;> rfl
  | some size =>
    rw [fixed] at access
    have bounds : 0 < size ∧ size < 256 := by simpa using access
    have positive : size ≠ 0 := by omega
    refine ⟨size.toNat, by omega, by omega, ?_, fun draft _ => ?_⟩
    · rw [Disassembly.accessSize, fixed]
      simp only [if_neg positive]
      omega
    · rw [accessSize, fixed]
      simp only [if_neg positive]
      omega

/-- A multiple of the access size is encoded as its quotient. -/
theorem offset_of_multiple {width field : Nat} {given size : Int} {scaled : Bool} {span : Span}
    {draft : Draft} (spans : fieldWidth form ['I'] = .ok width)
    (sizes : (if scaled then accessSize form (draft.wide != some false) else 1) = size)
    (positive : 0 < size)
    (inRange : (if form.pair || !scaled then isSigned given width else isBelow given (2 ^ width)) =
      true) (wrapped : Bits.wrap width given = field) :
    offset form span scaled (given * size) draft = .ok (draft.set 'I' field) := by
  have multiple : require (given * size % size == 0) (.offsetMultiple size) span = .ok () :=
    require_eq_ok.mpr (by simp)
  have passed : require (if form.pair || !scaled then isSigned given width
      else isBelow given (2 ^ width)) .offsetRange span = .ok () := require_eq_ok.mpr inRange
  rw [offset, ok_bind spans]
  simp only [sizes]
  rw [ok_bind multiple, Int.mul_ediv_cancel _ (Int.ne_of_gt positive), ok_bind passed, wrapped]
  rfl

/-- The offset of an address is read and encoded again. -/
theorem exists_offset {kind : OperandKind} (printable : form.Printable kind role)
    (areFields : AreFields form fields) (distance : kind.printsDistance = true)
    (isAddress : kind.isAddress = true) :
    ∃ given printed, fields.lookup 'I' = some given ∧
      Disassembly.offset form kind fields wide = .ok printed ∧
        ∀ span draft, Ready form kind fields wide draft →
          ∀ slot, offset form span (kind == .scaledAddress || form.pair) printed
            (draft.set 'n' slot) = .ok ((draft.set 'n' slot).set 'I' (given : Nat)) := by
  obtain ⟨width, given, known, positive, found, small⟩ :=
    exists_distance printable areFields distance
  obtain ⟨size, some, _, printedSize, encodedSize⟩ :=
    @accessSize_of_ready _ _ fields wide _ printable isAddress
  have spans : Disassembly.fieldWidth form 'I' = .ok width := by rw [Disassembly.fieldWidth, known]
  have spans' : fieldWidth form ['I'] = .ok width := by rw [fieldWidth, known]
  have signed := isSigned_signExtend positive (given : Int)
  have wrapped : Bits.wrap width (Bits.signExtend given width) = given := Bits.wrap_signExtend small
  have reads : Disassembly.offset form kind fields wide =
      if form.pair then .ok (Bits.signExtend given width * size)
      else if kind = .scaledAddress then .ok (given * size)
      else .ok (Bits.signExtend given width) := by
    rw [Disassembly.offset, ok_bind spans, ok_bind (read_of_lookup found), printedSize]
    rfl
  by_cases pair : form.pair = true
  · refine ⟨given, Bits.signExtend given width * size, found, by rw [reads, if_pos pair],
      fun span draft ready slot => offset_of_multiple spans' ?_ (by omega) ?_ wrapped⟩
    · rw [pair, Bool.or_true]
      exact encodedSize draft ready
    · rw [pair]
      exact signed
  · have single : form.pair = false := by simpa using pair
    by_cases scaled : kind = .scaledAddress
    · refine ⟨given, given * size, found, by rw [reads, if_neg pair, if_pos scaled],
        fun span draft ready slot => offset_of_multiple spans' ?_ (by omega) ?_
          (Bits.wrap_of_lt small)⟩
      · rw [scaled]
        exact encodedSize draft ready
      · rw [scaled, single]
        exact isBelow_iff.mpr (by omega)
    · have unscaled : (kind == .scaledAddress || form.pair) = false := by simp [scaled, single]
      refine ⟨given, Bits.signExtend given width, found, by rw [reads, if_neg pair, if_neg scaled],
        fun span draft ready slot => ?_⟩
      rw [unscaled, ← Int.mul_one (Bits.signExtend given width)]
      refine offset_of_multiple spans' rfl (by decide) ?_ wrapped
      rw [single]
      exact signed

/-- An address and its base are of the same kind when it is full. -/
theorem require_base {first : RegisterOperand} {slot : Nat} (named : first.register = ⟨slot, true⟩) :
    require first.register.wide .baseRegister first.span = .ok () :=
  require_eq_ok.mpr (by rw [named])

/-- An address without an offset is encoded with the offset zero. -/
theorem address_of_base {kind : OperandKind}
    (offsets : kind = .scaledAddress ∨ kind = .unscaledAddress) {given : AddressOperand}
    {first : RegisterOperand} {slot : Nat} (parts : given.parts = [.register first])
    (named : first.register = ⟨slot, true⟩) (draft : Draft) :
    address form kind given (Codec.addressOnly here) draft =
      offset form given.span (kind == .scaledAddress || form.pair) 0 (draft.set 'n' slot) := by
  rw [address, parts]
  simp only
  rw [ok_bind (require_base named), named]
  rcases offsets with rfl | rfl <;> rfl

/-- An address with an offset is encoded with its value. -/
theorem address_of_offset {kind : OperandKind}
    (offsets : kind = .scaledAddress ∨ kind = .unscaledAddress ∨ kind = .preIndexed)
    {given : AddressOperand} {first : RegisterOperand} {second : ImmediateOperand} {slot : Nat}
    {printed : Int} (parts : given.parts = [.register first, .immediate second])
    (named : first.register = ⟨slot, true⟩) (denotes : second.value.Denotes printed)
    (draft : Draft) :
    address form kind given (Codec.addressOnly here) draft =
      offset form given.span (kind == .scaledAddress || form.pair) printed (draft.set 'n' slot) := by
  rw [address, parts]
  simp only
  rw [ok_bind (require_base named), named]
  rcases offsets with rfl | rfl | rfl <;>
    · simp only
      rw [ok_bind (value_of_denotes denotes)]

/-- The base and the offset of an address are set. -/
theorem holds_of_offset {kind : OperandKind} {slot given : Nat} (distance : kind.printsDistance = true)
    (isAddress : kind.isAddress = true) (knownN : fields.lookup 'n' = some slot)
    (knownI : fields.lookup 'I' = some given) (draft : Draft) :
    Holds kind role fields wide ((draft.set 'n' slot).set 'I' given) := by
  cases kind with
  | scaledAddress | unscaledAddress | preIndexed | postIndexed =>
    refine .of_agree (by simp) rfl ?_
    simp [OperandKind.letters, OperandKind.fieldLetters, Agree, Draft.lookup_set, knownN, knownI]
  | _ => contradiction

/-- The spellings of an address with an offset that may be left out when it is zero. -/
def offsetSpelling (base : Register) (printed : Int) : Spelling :=
  .address base (if printed = 0 then none else some (.immediate printed none)) false

/-- An address with an offset is printed and read back. -/
theorem prints_offsetAddress {kind : OperandKind} (printable : form.Printable kind role)
    (areFields : AreFields form fields)
    (offsets : kind = .scaledAddress ∨ kind = .unscaledAddress) :
    ∃ spelling, Prints form here kind role fields wide fields spelling := by
  have base : (('n', 5) : Char × Nat) ∈ kind.printedFields role := by
    rcases offsets with rfl | rfl <;> exact List.mem_cons_self
  obtain ⟨slot, knownN, small⟩ := exists_printed printable areFields base
  obtain ⟨given, printed, knownI, read, encoded⟩ :=
    exists_offset printable areFields (by rcases offsets with rfl | rfl <;> rfl)
      (by rcases offsets with rfl | rfl <;> rfl)
  have text : Disassembly.operand form kind role fields wide here =
      .ok (if printed = 0 then "[" ++ Disassembly.register slot true ++ "]"
        else "[" ++ Disassembly.register slot true ++ ", " ++ Disassembly.immediate printed ++ "]") := by
    rcases offsets with rfl | rfl <;>
      · rw [Disassembly.operand, Disassembly.address, ok_bind (read_of_lookup knownN)]
        simp only
        rw [ok_bind read]
        rfl
  have holds := @holds_of_offset role fields wide kind slot given
    (by rcases offsets with rfl | rfl <;> rfl) (by rcases offsets with rfl | rfl <;> rfl) knownN knownI
  refine ⟨offsetSpelling ⟨slot, true⟩ printed, ?_, ?_, ?_, ?_, ?_⟩
  · rw [text, offsetSpelling]
    split <;> simp [Spelling.text, PlainSpelling.text, Spelling.modificationText,
      Disassembly.register, String.append_assoc]
  · refine ⟨small, fun spelling inside => ?_⟩
    split at inside
    · contradiction
    · obtain rfl := Option.some.inj inside
      intro shift none
      contradiction
  · rw [offsetSpelling]
    rcases offsets with rfl | rfl <;>
      · refine ⟨⟨slot, true⟩, ?_⟩
        split
        · exact .inl rfl
        · exact .inr ⟨_, rfl⟩
  · intro operand reads draft ready
    rw [offsetSpelling] at reads
    split at reads
    · rename_i zero
      obtain ⟨address, first, rfl, parts, named, _⟩ := Spelling.reads_base reads
      refine ⟨_, ?_, holds draft⟩
      rw [operand_address, address_of_base offsets parts named, ← zero]
      exact encoded _ draft ready _
    · obtain ⟨address, first, second, rfl, parts, named, _, denotes, _⟩ :=
        Spelling.reads_offset reads
      refine ⟨_, ?_, holds draft⟩
      rw [operand_address, address_of_offset (offsets.imp_right .inl) parts named denotes]
      exact encoded _ draft ready _
  · intro _ other refused
    rcases offsets with rfl | rfl <;> contradiction

/-- An address that is changed before the access is printed and read back. -/
theorem prints_preIndexed (printable : form.Printable .preIndexed role)
    (areFields : AreFields form fields) :
    ∃ spelling, Prints form here .preIndexed role fields wide fields spelling := by
  obtain ⟨slot, knownN, small⟩ :=
    exists_printed printable areFields (show ('n', 5) ∈ _ by simp [OperandKind.printedFields])
  obtain ⟨given, printed, knownI, read, encoded⟩ := exists_offset printable areFields rfl rfl
  refine ⟨.address ⟨slot, true⟩ (some (.immediate printed none)) true, ?_, ?_, ⟨_, _, rfl⟩, ?_, ?_⟩
  · rw [Disassembly.operand, Disassembly.address, ok_bind (read_of_lookup knownN)]
    simp only
    rw [ok_bind read]
    refine congrArg Except.ok ?_
    simp [Spelling.text, PlainSpelling.text, Spelling.modificationText, Disassembly.register,
      String.append_assoc]
  · refine ⟨small, fun spelling inside => ?_⟩
    obtain rfl := Option.some.inj inside
    intro shift none
    contradiction
  · intro operand reads draft ready
    obtain ⟨address, first, second, rfl, parts, named, _, denotes, _⟩ := Spelling.reads_offset reads
    refine ⟨_, ?_, holds_of_offset rfl rfl knownN knownI draft⟩
    rw [operand_address, address_of_offset (.inr (.inr rfl)) parts named denotes]
    exact encoded _ draft ready _
  · intro _ other refused
    contradiction

/-- An address that is changed after the access is printed and read back. -/
theorem prints_postIndexed (printable : form.Printable .postIndexed role)
    (areFields : AreFields form fields) :
    ∃ spelling, Prints form here .postIndexed role fields wide fields spelling := by
  obtain ⟨slot, knownN, small⟩ :=
    exists_printed printable areFields (show ('n', 5) ∈ _ by simp [OperandKind.printedFields])
  obtain ⟨given, printed, knownI, read, encoded⟩ := exists_offset printable areFields rfl rfl
  refine ⟨.postIndexed ⟨slot, true⟩ printed, ?_, small, ⟨_, _, rfl⟩, ?_, ?_⟩
  · rw [Disassembly.operand, Disassembly.address, ok_bind (read_of_lookup knownN)]
    simp only
    rw [ok_bind read]
    refine congrArg Except.ok ?_
    simp [Spelling.text, Disassembly.register, String.append_assoc]
  · intro operand reads draft ready
    obtain ⟨found, first, expression, rfl, parts, named, _, _, waits, denotes⟩ :=
      Spelling.reads_postIndexed reads
    have written : amount (Codec.addressOnly here) found.postIndex = .ok printed := by
      rw [waits]
      exact value_of_denotes denotes
    refine ⟨_, ?_, holds_of_offset rfl rfl knownN knownI draft⟩
    rw [operand_address, address, parts]
    simp only
    rw [ok_bind (require_base named), named, ok_bind written]
    exact encoded _ draft ready _
  · intro _ other refused
    contradiction

/-- The keyword of an extension of an index is printed, and it has the code again. -/
theorem exists_indexExtension : ∀ code ∈ [2, 3, 6, 7], code ≠ 3 →
    ∃ keyword, Modifier.extensions[code]? = some keyword ∧
      Modifier.indexCode? (some keyword) = some code := by
  decide

/-- What is printed behind an index whose extension has a code, when it is scaled by `scale`. -/
def IsIndexed (code scaled scale : Nat) (modification : Modification) : Prop :=
  (Modifier.indexCode? (modification.map Prod.fst)) = some code ∧
    modification.bind Prod.snd = if scaled = 0 then none else some scale

/-- An index register is printed with its extension and its scale. -/
theorem exists_index {code scaled scale number : Nat} (knownO : fields.lookup 'o' = some code)
    (knownM : fields.lookup 'm' = some number) (knownS : fields.lookup 'S' = some scaled)
    (indexed : code ∈ [2, 3, 6, 7])
    (scales : (Bits.bitLength (Disassembly.accessSize form wide).natAbs : Int) - 1 = scale) :
    ∃ modification, IsIndexed code scaled scale modification ∧
      Disassembly.index form fields wide =
        .ok (PlainSpelling.register ⟨number, code % 4 == 3⟩ modification).text := by
  by_cases plain : code = 3
  · refine ⟨if scaled = 0 then none else some (.lsl, some scale), ?_, ?_⟩
    · subst plain
      by_cases zero : scaled = 0 <;> simp [IsIndexed, zero, Modifier.indexCode?]
    · simp only [Disassembly.index]
      rw [ok_bind (read_of_lookup knownO), ok_bind (read_of_lookup knownM)]
      rw [if_neg (by simpa using plain), ok_bind (read_of_lookup knownS), scales]
      refine congrArg Except.ok ?_
      by_cases zero : scaled = 0
      · simp [zero, PlainSpelling.text, Spelling.modificationText, Disassembly.register]
      · simp [zero, PlainSpelling.text, Spelling.modificationText, Spelling.amountText,
          Disassembly.register, Modifier.name]
        rw [← String.append_assoc, show ", lsl" ++ " #" = ", lsl #" by decide]
  · obtain ⟨keyword, found, coded⟩ := exists_indexExtension code indexed plain
    refine ⟨some (keyword, if scaled = 0 then none else some scale), ?_, ?_⟩
    · by_cases zero : scaled = 0 <;> simp [IsIndexed, zero, coded]
    · simp only [Disassembly.index]
      rw [ok_bind (read_of_lookup knownO), ok_bind (read_of_lookup knownM)]
      rw [if_pos (by simpa using plain), ok_bind (modifier_of_getElem? found),
        ok_bind (read_of_lookup knownS), scales]
      refine congrArg Except.ok ?_
      by_cases zero : scaled = 0 <;>
        simp [zero, PlainSpelling.text, Spelling.modificationText, Spelling.amountText,
          Disassembly.register, String.append_assoc]

/-- An index register is encoded with its extension and its scale. -/
theorem index_of_reads {code scaled scale number : Nat} {modification : Modification}
    {given : RegisterOperand} {draft : Draft} (indexed : IsIndexed code scaled scale modification)
    (bit : scaled < 2) (named : given.register = ⟨number, code % 4 == 3⟩)
    (modified : given.modifier = modification.map Prod.fst)
    (reads : PlainSpelling.ReadsAmount (modification.bind Prod.snd) given.amount)
    (scales : accessScale (accessSize form (draft.wide != some false)) = scale) :
    index form given (Codec.addressOnly here) draft =
      .ok (((draft.set 'S' scaled).set 'm' number).set 'o' code) := by
  obtain ⟨coded, written⟩ := indexed
  have coded' : (Modifier.indexCode? given.modifier).getD 3 = code := by rw [modified, coded]; rfl
  have numbered : registerNumber given (code % 4 == 3) = .ok (number : Int) :=
    registerNumber_of_wide named
  rw [index]
  simp only [coded', scales]
  rw [ok_bind numbered]
  rw [written] at reads
  by_cases zero : scaled = 0
  · rw [if_pos zero] at reads
    have unwritten : given.amount = none := reads
    rw [unwritten, zero]
    rfl
  · rw [if_neg zero] at reads
    obtain ⟨expression, same, denotes⟩ := reads
    obtain rfl : scaled = 1 := by omega
    have passed : require ((scale : Int) == 0 || (scale : Int) == scale) (.indexShift scale)
        given.span = .ok () := require_eq_ok.mpr (by simp)
    rw [same]
    simp only [value_of_denotes denotes]
    rw [ok_bind rfl, ok_bind passed, if_pos rfl]
    rfl

/-- An address with an index register is printed and read back. -/
theorem prints_registerIndexed (printable : form.Printable .registerIndexed role)
    (areFields : AreFields form fields)
    (admitted : InstructionForm.admitsOperand form.mnemonic fields (dataSize wide) .registerIndexed
      role = .ok true) :
    ∃ spelling, Prints form here .registerIndexed role fields wide fields spelling := by
  obtain ⟨slot, knownN, smallN⟩ :=
    exists_printed printable areFields (show ('n', 5) ∈ _ by simp [OperandKind.printedFields])
  obtain ⟨number, knownM, smallM⟩ :=
    exists_printed printable areFields (show ('m', 5) ∈ _ by simp [OperandKind.printedFields])
  obtain ⟨code, knownO, _⟩ :=
    exists_printed printable areFields (show ('o', 3) ∈ _ by simp [OperandKind.printedFields])
  obtain ⟨scaled, knownS, bit⟩ :=
    exists_printed printable areFields (show ('S', 1) ∈ _ by simp [OperandKind.printedFields])
  obtain ⟨size, positive, small, printedSize, encodedSize⟩ :=
    @accessSize_of_ready _ _ fields wide _ printable rfl
  have indexed : code ∈ [2, 3, 6, 7] := by
    rw [InstructionForm.admitsOperand, ok_bind (read_of_lookup knownO)] at admitted
    simpa using Except.ok.inj admitted
  have scales : (Bits.bitLength (size : Int).natAbs : Int) - 1 = size.log2 := by
    rw [Int.natAbs_natCast, Bits.bitLength, if_neg (by omega)]
    omega
  obtain ⟨modification, isIndexed, text⟩ :=
    exists_index knownO knownM knownS indexed (printedSize ▸ scales)
  have shaped := isIndexed.1
  have smallScale : size.log2 < 256 := Nat.lt_of_le_of_lt (Nat.log2_le_self size) small
  have isSmall : Spelling.isSmall modification = true := by
    have written := isIndexed.2
    cases modification with
    | none => rfl
    | some modification =>
      obtain ⟨keyword, amount⟩ := modification
      obtain rfl : amount = if scaled = 0 then none else some size.log2 := written
      by_cases zero : scaled = 0 <;> simp [Spelling.isSmall, zero, smallScale]
  refine ⟨.address ⟨slot, true⟩ (some (.register ⟨number, code % 4 == 3⟩ modification)) false,
    ?_, ?_, ⟨_, _, _, rfl, by rw [shaped]; rfl⟩, ?_, ?_⟩
  · rw [Disassembly.operand, Disassembly.address, ok_bind (read_of_lookup knownN)]
    simp only
    rw [ok_bind text]
    refine congrArg Except.ok ?_
    simp [Spelling.text, Disassembly.register, String.append_assoc]
  · refine ⟨smallN, fun spelling inside => ?_⟩
    obtain rfl := Option.some.inj inside
    exact ⟨smallM, isSmall⟩
  · intro operand reads draft ready
    obtain ⟨address, first, second, rfl, parts, named, _, named', modified, reads, _⟩ :=
      Spelling.reads_index reads
    refine ⟨((((draft.set 'n' slot).set 'S' scaled).set 'm' number).set 'o' code), ?_,
      .of_agree (by simp) rfl ?_⟩
    · rw [operand_address, Encode.address, parts]
      simp only
      rw [ok_bind (require_base named), named]
      exact index_of_reads isIndexed bit named' modified reads (by
        rw [Draft.wide_set, encodedSize draft ready, accessScale]
        exact scales)
    · simp [OperandKind.letters, OperandKind.fieldLetters, Agree, Draft.lookup_set, knownN, knownM,
        knownO, knownS]
  · intro _ other refused
    contradiction

end Encode

end A64Machine
