import A64Machine.Proofs.Executable

/-!
# Forms with an address

What an address says is read off as it is written: a base, and a distance or an index register that
is added to it. The forms of loads and stores place it into their fields, counted in accesses where
the form says so. The sizes that the encoding counts in and those that the execution reads from
other bits of the word are the same, namely the access width of the mnemonic.
-/

namespace A64Machine

/-! ### Addresses as they are written -/

/-- How an address is made out of its base: a distance is added to it, which may change the base
before or after the access, or an index register with a modifier and an amount. -/
inductive Addressing where
  | offset (distance : Int)
  | preIndexed (distance : Int)
  | postIndexed (distance : Int)
  | indexed (register : Register) (modifier : Option Modifier) (amount : Int)
  deriving DecidableEq, Repr

/-- The base of an address and what is made out of it. -/
def AddressOperand.addressing? (evaluate : Evaluator) (operand : AddressOperand) :
    Option (Register × Addressing) :=
  match operand.parts, operand.preIndexed, operand.postIndex with
  | [.register base], false, none => some (base.register, .offset 0)
  | [.register base], true, none => some (base.register, .preIndexed 0)
  | [.register base], false, some written =>
    (evaluate written).toOption.map fun distance => (base.register, .postIndexed distance)
  | [.register base, .immediate written], false, none =>
    (evaluate written.value).toOption.map fun distance => (base.register, .offset distance)
  | [.register base, .immediate written], true, none =>
    (evaluate written.value).toOption.map fun distance => (base.register, .preIndexed distance)
  | [.register base, .register index], false, none =>
    (index.amount.elim (some 0) fun written => (evaluate written).toOption).map fun amount =>
      (base.register, .indexed index.register index.modifier amount)
  | _, _, _ => none

/-- The mnemonics that store. -/
def storeMnemonics : List String := ["str", "stur", "strb", "sturb", "strh", "sturh", "stp"]

/-- The mnemonics that transfer two registers. -/
def pairMnemonics : List String := ["ldp", "stp"]

/-- Number of bytes of one access: what the mnemonic says, or the width of the register. -/
def accessWidth (mnemonic : String) (wide : Bool) : Nat :=
  if mnemonic ∈ ["ldrb", "strb", "ldurb", "sturb"] then 1
  else if mnemonic ∈ ["ldrh", "strh", "ldurh", "sturh"] then 2
  else if mnemonic ∈ ["ldrsw", "ldursw"] then 4
  else if wide then 8 else 4

/-- What an operand of a kind with a distance makes out of its base. -/
def OperandKind.addressing (kind : OperandKind) (distance : Int) : Addressing :=
  match kind with
  | .preIndexed => .preIndexed distance
  | .postIndexed => .postIndexed distance
  | _ => .offset distance

namespace Encode

variable {form : InstructionForm} {evaluate : Evaluator} {operand : AddressOperand}
  {before after : Draft}

/-- A value that was read is that of its expression. -/
theorem value_eq_ok {expression : Expression} {result : Int} :
    value evaluate expression = .ok result ↔ evaluate expression = .ok result :=
  mapError_eq_ok

/-- An encoded address with a distance is one of its kind, and its distance is encoded. -/
theorem address_of_distance {kind : OperandKind}
    (isDistance : kind ∈ [.scaledAddress, .unscaledAddress, .preIndexed, .postIndexed])
    (based : (OperandKind.base? operand).any OperandKind.isPlain = true)
    (fits : kind.fitsAddress operand = true)
    (encoded : address form kind operand evaluate before = .ok after) :
    ∃ base distance, operand.addressing? evaluate = some (base, kind.addressing distance) ∧
      base.wide = true ∧
      offset form operand.span (kind == .scaledAddress || form.pair) distance
        (before.set 'n' base.slot) = .ok after := by
  obtain ⟨base, rest, parts⟩ := exists_base based
  rw [address, parts] at encoded
  obtain ⟨wide, encoded⟩ := require_bind_eq_ok.mp encoded
  simp only [List.mem_cons, List.not_mem_nil, or_false] at isDistance
  refine ⟨base.register, ?_⟩
  rw [AddressOperand.addressing?, parts]
  rcases isDistance with rfl | rfl | rfl | rfl <;>
    simp only [OperandKind.fitsAddress, parts, List.tail_cons, Bool.and_eq_true, Bool.not_eq_true',
      Option.isNone_iff_eq_none, Option.isSome_iff_exists, decide_eq_true_eq,
      List.isEmpty_iff] at fits
  case inr.inr.inr =>
    obtain ⟨⟨plain, written, post⟩, rfl⟩ := fits
    simp only [post, amount] at encoded
    obtain ⟨distance, read, encoded⟩ := bind_eq_ok.mp encoded
    refine ⟨distance, ?_, wide, encoded⟩
    simp only [plain, post, toOption_eq_some.mpr (value_eq_ok.mp read)]
    rfl
  all_goals
    obtain ⟨⟨⟨pre, post⟩, short⟩, plain⟩ := fits
    rw [pre, post]
    rcases rest with _ | ⟨_ | written, _ | _⟩
    · exact ⟨0, rfl, wide, encoded⟩
    · simp [OperandKind.isPlainImmediate] at plain
    · simp at short
    · obtain ⟨distance, read, encoded⟩ := bind_eq_ok.mp encoded
      refine ⟨distance, ?_, wide, encoded⟩
      simp only [toOption_eq_some.mpr (value_eq_ok.mp read)]
      rfl
    · simp at short

/-- The code of an index register, which says how it is extended. -/
def indexCode (part : RegisterOperand) : Nat := (Modifier.indexCode? part.modifier).getD 3

/-- An encoded index register is shifted by its amount, which is zero or the power of two of the
access size. -/
theorem index_of_amount {part : RegisterOperand}
    (encoded : index form part evaluate before = .ok after) :
    ∃ amount shifted : Int,
      part.amount.elim (some 0) (fun written => (evaluate written).toOption) = some amount ∧
      part.register.wide = (indexCode part % 4 == 3) ∧
      (shifted = 0 ∧ amount = 0 ∨
        shifted = 1 ∧ amount = accessScale (accessSize form (before.wide != some false))) ∧
      after =
        ((before.set 'S' shifted).set 'm' part.register.slot).set 'o' (indexCode part) := by
  obtain ⟨number, named, encoded⟩ := bind_eq_ok.mp encoded
  obtain ⟨wide, rfl⟩ := registerNumber_eq_ok.mp named
  cases written : part.amount with
  | none =>
    simp only [written] at encoded
    obtain ⟨shifted, unshifted, encoded⟩ := bind_eq_ok.mp encoded
    obtain rfl := Except.ok.inj unshifted
    exact ⟨0, 0, rfl, wide, .inl ⟨rfl, rfl⟩, (Except.ok.inj encoded).symm⟩
  | some expression =>
    simp only [written] at encoded
    obtain ⟨amount, read, encoded⟩ := bind_eq_ok.mp encoded
    obtain ⟨known, encoded⟩ := require_bind_eq_ok.mp encoded
    obtain ⟨shifted, chosen, encoded⟩ := bind_eq_ok.mp encoded
    rw [Bool.or_eq_true, beq_iff_eq, beq_iff_eq] at known
    obtain rfl := Except.ok.inj chosen
    refine ⟨amount, _, toOption_eq_some.mpr (value_eq_ok.mp read), wide, ?_,
      (Except.ok.inj encoded).symm⟩
    split
    · rename_i same
      exact .inr ⟨rfl, same⟩
    · rename_i other
      exact .inl ⟨rfl, known.resolve_right other⟩

/-- An encoded address with an index register is one, and the index is encoded. -/
theorem address_of_index (based : (OperandKind.base? operand).any OperandKind.isPlain = true)
    (fits : OperandKind.registerIndexed.fitsAddress operand = true)
    (encoded : address form .registerIndexed operand evaluate before = .ok after) :
    ∃ base part amount shifted,
      operand.addressing? evaluate =
        some (base, .indexed part.register part.modifier amount) ∧
      base.wide = true ∧ (Modifier.indexCode? part.modifier).isSome = true ∧
      part.register.wide = (indexCode part % 4 == 3) ∧
      (shifted = 0 ∧ amount = 0 ∨
        shifted = 1 ∧ amount = accessScale (accessSize form (before.wide != some false))) ∧
      after = (((before.set 'n' base.slot).set 'S' shifted).set 'm' part.register.slot).set 'o'
        (indexCode part) := by
  obtain ⟨base, rest, parts⟩ := exists_base based
  rw [address, parts] at encoded
  obtain ⟨wide, encoded⟩ := require_bind_eq_ok.mp encoded
  simp only [OperandKind.fitsAddress, parts, List.tail_cons, Bool.and_eq_true, Bool.not_eq_true',
    Option.isNone_iff_eq_none, decide_eq_true_eq] at fits
  obtain ⟨⟨⟨plain, post⟩, single⟩, indices⟩ := fits
  obtain ⟨part, rfl⟩ := List.length_eq_one_iff.mp single
  cases part with
  | immediate part => simp [OperandKind.isIndex] at indices
  | register part =>
    obtain ⟨amount, shifted, read, named, choice, rfl⟩ := index_of_amount encoded
    refine ⟨base.register, part, amount, shifted, ?_, wide, by simpa [OperandKind.isIndex] using
      indices, named, choice, rfl⟩
    rw [AddressOperand.addressing?, parts, plain, post]
    simp only [read]
    rfl

/-- An encoded offset is a multiple of its unit and placed in its field. -/
theorem offset_eq_ok {span : Span} {scaled : Bool} {distance : Int} {width : Nat}
    (known : form.pattern.width? 'I' = some width) :
    offset form span scaled distance before = .ok after ↔
      let unit := if scaled then accessSize form (before.wide != some false) else 1
      distance % unit = 0 ∧
        (if form.pair || !scaled then isSigned (distance / unit) width
          else isBelow (distance / unit) (2 ^ width)) = true ∧
        after = before.set 'I' (Bits.wrap width (distance / unit)) := by
  have read : fieldWidth form ['I'] = .ok width := by rw [fieldWidth, known]
  simp only [offset, bind_eq_ok, read, require_eq_ok, Except.ok.injEq, exists_const,
    exists_eq_left', pure, Except.pure, beq_iff_eq, eq_comm (a := after)]

/-- What the draft of an encoded address with a distance holds. -/
theorem exists_address_distance {kind : OperandKind} {width : Nat}
    (isDistance : kind ∈ [.scaledAddress, .unscaledAddress, .preIndexed, .postIndexed])
    (known : form.pattern.width? 'I' = some width)
    (based : (OperandKind.base? operand).any OperandKind.isPlain = true)
    (fits : kind.fitsAddress operand = true)
    (encoded : address form kind operand evaluate before = .ok after) :
    ∃ base distance, operand.addressing? evaluate = some (base, kind.addressing distance) ∧
      base.wide = true ∧ after.wide = before.wide ∧
      (∀ letter, letter ≠ 'n' ∧ letter ≠ 'I' →
        after.values.lookup letter = before.values.lookup letter) ∧
      after.values.lookup 'n' = some (base.slot : Int) ∧
      let scaled := kind == .scaledAddress || form.pair
      let unit := if scaled then accessSize form (before.wide != some false) else 1
      distance % unit = 0 ∧
        (if form.pair || !scaled then isSigned (distance / unit) width
          else isBelow (distance / unit) (2 ^ width)) = true ∧
        after.values.lookup 'I' = some (Bits.wrap width (distance / unit) : Int) := by
  obtain ⟨base, distance, made, full, encoded⟩ := address_of_distance isDistance based fits encoded
  obtain ⟨multiple, range, rfl⟩ := (offset_eq_ok known).mp encoded
  refine ⟨base, distance, made, full, by simp only [Draft.wide_set], fun letter apart => ?_, ?_,
    multiple, range, ?_⟩
  · simp only [Draft.lookup_set, if_neg apart.1, if_neg apart.2]
  · simp [Draft.lookup_set]
  · simp only [Draft.lookup_set, if_true]
    rfl

end Encode

namespace InstructionSet

open BitPattern (positionsOf isLiteral knownValue)

/-! ### The forms of loads and stores -/

/-- The value of a field of a form that is known from the width flag. -/
def knownField (form : InstructionForm) (wide : Bool) (letter : Char) : Option Nat :=
  knownValue form.pattern.template wide (positionsOf letter (baseForm form.op))

/-- A form that transfers one register: the encoding and the execution agree on the access width,
and the code tells loads from stores. Where the first register does not tell the width, the access
width is fixed. -/
structure TransfersOne (form : InstructionForm) (kind : OperandKind) : Prop where
  alone : form.mnemonic ∉ pairMnemonics ∧ form.pair = false
  operands : ∃ first ∈ [OperandKind.register, .wideRegister, .halfRegister],
    form.operands = [(first, ['t']), (kind, own)] ∧
      (first = .register ∨ accessWidth form.mnemonic true = accessWidth form.mnemonic false)
  counted : ∀ wide, Encode.accessSize form wide = accessWidth form.mnemonic wide
  size : ∀ wide, ∃ x < 4, knownField form wide 'x' = some x ∧ 2 ^ x = accessWidth form.mnemonic wide
  code : ∀ wide, ∃ c < 4, knownField form wide 'c' = some c ∧
    (c = 0 ↔ form.mnemonic ∈ storeMnemonics)

/-- A form that transfers two registers: the encoding and the execution agree on the access width,
and a bit tells loads from stores. -/
structure TransfersTwo (form : InstructionForm) (kind : OperandKind) : Prop where
  together : form.mnemonic ∈ pairMnemonics ∧ form.pair = true
  operands : form.operands = [reg 't', reg 'u', (kind, own)]
  counted : ∀ wide, Encode.accessSize form wide = accessWidth form.mnemonic wide
  size : ∀ wide, knownField form wide 'c' = some (if wide then 2 else 0) ∧
    (if wide then 8 else 4) = accessWidth form.mnemonic wide
  code : ∀ wide, knownField form wide 'L' =
    some (if form.mnemonic ∈ storeMnemonics then 0 else 1)

instance (form : InstructionForm) (kind : OperandKind) : Decidable (TransfersOne form kind) :=
  decidable_of_iff (_ ∧ _ ∧ _ ∧ _ ∧ _)
    ⟨fun ⟨alone, operands, counted, size, code⟩ => ⟨alone, operands, counted, size, code⟩,
      fun ⟨alone, operands, counted, size, code⟩ => ⟨alone, operands, counted, size, code⟩⟩

instance (form : InstructionForm) (kind : OperandKind) : Decidable (TransfersTwo form kind) :=
  decidable_of_iff (_ ∧ _ ∧ _ ∧ _ ∧ _)
    ⟨fun ⟨together, operands, counted, size, code⟩ => ⟨together, operands, counted, size, code⟩,
      fun ⟨together, operands, counted, size, code⟩ => ⟨together, operands, counted, size, code⟩⟩

/-- The form has an offset of some width and, in an index mode, the code of the mode. -/
def HasOffset (form : InstructionForm) (width : Nat) (mode : Option Nat) : Prop :=
  form.pattern.width? 'I' = some width ∧
    ∀ wide, mode = none ∨ knownField form wide 'w' = mode

instance (form : InstructionForm) (width : Nat) (mode : Option Nat) :
    Decidable (HasOffset form width mode) :=
  inferInstanceAs (Decidable (_ ∧ _))

/-- The forms whose last operand is an address. -/
theorem forms_with_address : ∀ form ∈ forms,
    (form.operands.map Prod.fst).getLast?.any OperandKind.isAddress = true →
      (form.op = .transferScaled ∧ TransfersOne form .scaledAddress ∧ HasOffset form 12 none) ∨
      (form.op = .transferNear ∧ ∃ mode ∈ [(OperandKind.unscaledAddress, 0), (.preIndexed, 3),
        (.postIndexed, 1)], TransfersOne form mode.1 ∧ HasOffset form 9 (some mode.2)) ∨
      (form.op = .transferIndexed ∧ TransfersOne form .registerIndexed) ∨
      (form.op = .transferPair ∧ ∃ mode ∈ [(OperandKind.scaledAddress, 2), (.preIndexed, 3),
        (.postIndexed, 1)], TransfersTwo form mode.1 ∧ HasOffset form 7 (some mode.2)) := by
  decide +kernel

/-- An address is the last operand of its form. -/
theorem addresses_last : ∀ form ∈ forms, ∀ kind ∈ (form.operands.map Prod.fst).dropLast,
    kind.isAddress = false := by
  decide +kernel

section Encoded

variable {form : InstructionForm} {kind : OperandKind} {mnemonic : String} {front : List Operand}
  {given : AddressOperand} {here : Int} {evaluate : Evaluator} {word : Nat} {draft : Draft}

/-- An operand that fits a register is one without a modifier. -/
theorem exists_register {kind : OperandKind} {operand : Operand}
    (isRegister : kind ∈ [OperandKind.register, .wideRegister, .halfRegister])
    (fits : OperandKind.fits kind.code operand = .ok true) :
    ∃ register, operand = .register register := by
  simp only [List.mem_cons, List.not_mem_nil, or_false] at isRegister
  cases operand with
  | register register => exact ⟨register, rfl⟩
  | immediate given | address given =>
    simp only [OperandKind.fits, OperandKind.ofChar?_code] at fits
    rcases isRegister with rfl | rfl | rfl <;>
      simp [OperandKind.isImmediate, OperandKind.fitsAddress] at fits

/-- An operand among those that fit kinds fits one of them. -/
theorem exists_fits_of_mem {kinds : List OperandKind} (count : kinds.length = front.length)
    (fits : OperandKind.fitsEach ((kinds.map OperandKind.code).zip front) = .ok true)
    {operand : Operand} (inside : operand ∈ front) :
    ∃ kind ∈ kinds, OperandKind.fits kind.code operand = .ok true := by
  induction kinds generalizing front with
  | nil => rw [List.length_eq_zero_iff.mp count.symm] at inside; contradiction
  | cons kind kinds ih =>
    obtain ⟨first, rest, rfl⟩ := List.exists_cons_of_length_eq_add_one count.symm
    obtain ⟨here, later⟩ := OperandKind.fitsEach_cons.mp fits
    rcases List.mem_cons.mp inside with rfl | inside
    · exact ⟨kind, List.mem_cons_self, here⟩
    · obtain ⟨other, among, fit⟩ := ih (Nat.succ.inj count) later inside
      exact ⟨other, List.mem_cons_of_mem _ among, fit⟩

/-- Only an address fits a kind of address. -/
theorem isAddress_of_fits (fits : OperandKind.fits kind.code (.address given) = .ok true) :
    kind.isAddress = true ∧ (OperandKind.base? given).any OperandKind.isPlain = true ∧
      kind.fitsAddress given = true := by
  simp only [OperandKind.fits, OperandKind.ofChar?_code, Except.ok.injEq, Bool.and_eq_true] at fits
  refine ⟨?_, fits⟩
  cases kind <;> first | rfl | simp [OperandKind.fitsAddress] at fits

/-- The operands with an encoded address fit a form, whose last operand is one, and make its
draft. -/
theorem exists_form_of_encode {operands : List Operand} (inside : .address given ∈ operands)
    (encoded : Codec.a64.encode mnemonic operands here evaluate = .ok word) :
    ∃ form ∈ forms, form.mnemonic = mnemonic ∧ ∃ front kinds kind draft,
      operands = front ++ [.address given] ∧
      form.operands.map Prod.fst = kinds ++ [kind] ∧ kind.isAddress = true ∧
      kinds.length = front.length ∧
      OperandKind.fitsEach ((kinds.map OperandKind.code).zip front) = .ok true ∧
      (OperandKind.base? given).any OperandKind.isPlain = true ∧ kind.fitsAddress given = true ∧
      Encode.allOperands form here evaluate .empty
        (form.operands.map fun operand => (operand.1.code, operand.2))
        (front ++ [.address given]) = .ok draft ∧
      Encode.Drafted form draft word := by
  obtain ⟨form, member, named, taken⟩ := encode_eq_ok encoded
  obtain ⟨_, _, _, _, fits, made⟩ := taken
  have check := checked member
  obtain ⟨draft, gathered, drafted⟩ := Encode.drafted_of_formWord (sound form member)
    check.wellFormed check.bits check.roles fits made
  have codes : form.shape = (form.operands.map Prod.fst).map OperandKind.code := by
    rw [List.map_map]
    exact (sound form member).codes check.roles
  rw [codes] at fits
  rcases List.eq_nil_or_concat operands with rfl | ⟨front, final, rfl⟩
  · exact absurd inside List.not_mem_nil
  rw [List.concat_eq_append] at inside fits gathered ⊢
  obtain ⟨kinds, kind, split, count, fitsFront, last⟩ := OperandKind.fitsAll_concat.mp fits
  have isLast : final = .address given := by
    refine (List.mem_append.mp inside).elim (fun earlier => ?_) fun here =>
      (List.mem_singleton.mp here).symm
    obtain ⟨other, among, fit⟩ := exists_fits_of_mem count fitsFront earlier
    have apart := addresses_last form member
    rw [split, List.dropLast_concat] at apart
    exact absurd (isAddress_of_fits fit).1 (by rw [apart other among]; decide)
  subst isLast
  obtain ⟨isAddress, based, fitsAddress⟩ := isAddress_of_fits last
  exact ⟨form, member, named, front, kinds, kind, draft, rfl, split, isAddress, count, fitsFront,
    based, fitsAddress, (sound form member).shape ▸ gathered, drafted⟩

/-- What the register in front of an address tells: its number, and with it the access width. -/
theorem TransfersOne.exists_register {kinds : List OperandKind} {last : OperandKind}
    (one : TransfersOne form kind) (split : form.operands.map Prod.fst = kinds ++ [last])
    (count : kinds.length = front.length)
    (fits : OperandKind.fitsEach ((kinds.map OperandKind.code).zip front) = .ok true)
    (gathered : Encode.allOperands form here evaluate .empty
      (form.operands.map fun operand => (operand.1.code, operand.2))
      (front ++ [.address given]) = .ok draft) :
    last = kind ∧ ∃ (register : RegisterOperand) (middle : Draft),
      front = [.register register] ∧
      middle.values.lookup 't' = some (register.register.slot : Int) ∧
      accessWidth form.mnemonic (middle.wide != some false) =
        accessWidth form.mnemonic register.register.wide ∧
      Encode.address form kind given evaluate middle = .ok draft := by
  obtain ⟨first, isRegister, operands, told⟩ := one.operands
  rw [operands] at split gathered
  obtain ⟨rfl, rfl⟩ : kinds = [first] ∧ last = kind := by
    have same := List.append_inj' (show [first] ++ [kind] = kinds ++ [last] from split) rfl
    exact ⟨same.1.symm, (List.singleton_inj.mp same.2).symm⟩
  obtain ⟨operand, rfl⟩ := List.length_eq_one_iff.mp count.symm
  obtain ⟨fitsFirst, _⟩ := OperandKind.fitsEach_cons.mp fits
  obtain ⟨register, rfl⟩ := InstructionSet.exists_register isRegister fitsFirst
  obtain ⟨middle, taken, gathered⟩ := bind_eq_ok.mp gathered
  obtain ⟨after, addressed, gathered⟩ := bind_eq_ok.mp gathered
  obtain rfl := Except.ok.inj gathered
  simp only [Encode.operand, OperandKind.ofChar?_code] at addressed
  refine ⟨rfl, register, middle, rfl, ?_⟩
  simp only [List.mem_cons, List.not_mem_nil, or_false] at isRegister
  rcases isRegister with rfl | rfl | rfl
  · obtain ⟨_, rfl⟩ := Encode.operand_register_eq_ok.mp taken
    refine ⟨by simp [Draft.lookup_set], congrArg _ ?_, addressed⟩
    rw [Draft.wide_set]
    cases register.register.wide <;> rfl
  · obtain ⟨wide, rfl⟩ := Encode.operand_wideRegister_eq_ok.mp taken
    exact ⟨by simp [Draft.lookup_set], by rw [wide]; rfl, addressed⟩
  · obtain ⟨wide, rfl⟩ := Encode.operand_halfRegister_eq_ok.mp taken
    exact ⟨by simp [Draft.lookup_set], by rw [wide]; exact told.resolve_left (by simp), addressed⟩

/-- What the two registers in front of an address tell: their numbers, and with the first one the
access width. -/
theorem TransfersTwo.exists_registers {kinds : List OperandKind} {last : OperandKind}
    (two : TransfersTwo form kind) (split : form.operands.map Prod.fst = kinds ++ [last])
    (count : kinds.length = front.length)
    (fits : OperandKind.fitsEach ((kinds.map OperandKind.code).zip front) = .ok true)
    (gathered : Encode.allOperands form here evaluate .empty
      (form.operands.map fun operand => (operand.1.code, operand.2))
      (front ++ [.address given]) = .ok draft) :
    last = kind ∧ ∃ (first second : RegisterOperand) (middle : Draft),
      front = [.register first, .register second] ∧
      middle.values.lookup 't' = some (first.register.slot : Int) ∧
      middle.values.lookup 'u' = some (second.register.slot : Int) ∧
      second.register.wide = first.register.wide ∧ middle.wide = some first.register.wide ∧
      Encode.address form kind given evaluate middle = .ok draft := by
  rw [two.operands] at split gathered
  obtain ⟨rfl, rfl⟩ : kinds = [.register, .register] ∧ last = kind := by
    have same := List.append_inj'
      (show [OperandKind.register, .register] ++ [kind] = kinds ++ [last] from split) rfl
    exact ⟨same.1.symm, (List.singleton_inj.mp same.2).symm⟩
  obtain ⟨operand, rest, rfl⟩ := List.exists_cons_of_length_eq_add_one count.symm
  obtain ⟨operand', rfl⟩ := List.length_eq_one_iff.mp (Nat.succ.inj count.symm)
  obtain ⟨fitsFirst, fits⟩ := OperandKind.fitsEach_cons.mp fits
  obtain ⟨fitsSecond, _⟩ := OperandKind.fitsEach_cons.mp fits
  obtain ⟨first, rfl⟩ := InstructionSet.exists_register (by simp) fitsFirst
  obtain ⟨second, rfl⟩ := InstructionSet.exists_register (by simp) fitsSecond
  obtain ⟨middle, taken, gathered⟩ := bind_eq_ok.mp gathered
  obtain ⟨middle', taken', gathered⟩ := bind_eq_ok.mp gathered
  obtain ⟨after, addressed, gathered⟩ := bind_eq_ok.mp gathered
  obtain rfl := Except.ok.inj gathered
  simp only [Encode.operand, OperandKind.ofChar?_code] at addressed
  obtain ⟨_, rfl⟩ := Encode.operand_register_eq_ok.mp taken
  obtain ⟨wide, rfl⟩ := Encode.operand_register_eq_ok.mp taken'
  refine ⟨rfl, first, second, _, rfl, ?_, ?_, wide, ?_, addressed⟩
  · simp [Draft.lookup_set]
  · simp [Draft.lookup_set]
  · exact congrArg some wide

end Encoded

end InstructionSet

end A64Machine
