import A64Machine.Proofs.Refusals
import A64Machine.Proofs.SecondOperand
import Mathlib.Algebra.Group.Int.Defs

/-!
# Forms with an immediate

The last operand of many forms is an immediate that stands for a number. Four kinds of them are told
here: the immediate of a sum, a mask, a half-word in its place and the complement of one. Each kind
takes certain numbers and holds them in fields.

A mnemonic may have several forms that differ in the kind of the immediate alone. They are tried one
after the other, and a form that does not take the number complains. So an instruction is encoded
exactly when one of the kinds takes the number, and it does what the execution of this form ensures.
-/

namespace A64Machine

/-! ### Numbers -/

/-- A value is zero outside of one half-word in its place. -/
def WideImmediate.IsHalfWord (size value : Nat) : Prop :=
  ∃ place < size / 16, ∃ half < 2 ^ 16, value = half * 2 ^ (16 * place)

/-- A value is a logical immediate: some fields unpack to it. -/
def LogicalImmediate.IsMask (size value : Nat) : Prop :=
  ∃ n immr imms, Unpacks size n immr imms value

/-- The kinds of immediates that stand for a number of the size of the registers. -/
def numberKinds : List OperandKind := [.arithmeticImmediate, .bitmask, .wide, .invertedWide]

/-- The numbers that a kind of immediates takes at a data size. -/
def OperandKind.TakesNumber (kind : OperandKind) (size : Nat) (value : Int) : Prop :=
  match kind with
  | .arithmeticImmediate => 0 ≤ value ∧ (value < 4096 ∨ value % 4096 = 0 ∧ value < 2 ^ 24)
  | .bitmask =>
    (-(2 ^ (size - 1) : Nat) ≤ value ∧ value < (2 ^ size : Nat)) ∧
      LogicalImmediate.IsMask size (Bits.wrap size value)
  | .wide =>
    (0 ≤ value ∧ value < (2 ^ size : Nat)) ∧ WideImmediate.IsHalfWord size value.toNat
  | .invertedWide =>
    (-(2 ^ size : Nat) < value ∧ value < (2 ^ size : Nat)) ∧
      WideImmediate.IsHalfWord size (Bits.wrap size (-1 - value))
  | _ => False

/-- The fields that hold a number at a data size, by the kind of the immediate. -/
inductive HoldsNumber (size : Nat) (value : Int) : OperandKind → List (Char × Nat) → Prop
  /-- Twelve bits, which may be shifted by twelve. -/
  | sum {field shifted : Nat} (once : shifted ≤ 1)
    (same : value = (field <<< (12 * shifted) : Nat)) :
    HoldsNumber size value .arithmeticImmediate [('s', shifted), ('i', field)]
  /-- The packed form of a mask. -/
  | mask {n immr imms other : Nat}
    (unpacked : LogicalImmediate.decode n imms immr size true = some (Bits.wrap size value, other)) :
    HoldsNumber size value .bitmask [('N', n), ('r', immr), ('s', imms)]
  /-- A half-word and its place. -/
  | half {place half : Nat} (inside : place < size / 16) (small : half < 2 ^ 16)
    (same : value = (half * 2 ^ (16 * place) : Nat)) :
    HoldsNumber size value .wide [('h', place), ('j', half)]
  /-- A half-word and its place, complemented. -/
  | inverted {place half : Nat} (inside : place < size / 16) (small : half < 2 ^ 16)
    (same : Bits.wrap size (-1 - value) = half * 2 ^ (16 * place)) :
    HoldsNumber size value .invertedWide [('h', place), ('j', half)]

/-- The fields of a number are not those of a destination and a source, and they differ. -/
theorem HoldsNumber.distinct {size : Nat} {value : Int} {kind : OperandKind}
    {fields front : List (Char × Nat)} (holds : HoldsNumber size value kind fields)
    (ahead : front.map Prod.fst ∈ [['d'], ['n'], ['d', 'n']]) :
    ((front ++ fields).map Prod.fst).Nodup := by
  rw [List.map_append]
  generalize front.map Prod.fst = letters at ahead
  simp only [List.mem_cons, List.not_mem_nil, or_false] at ahead
  rcases ahead with rfl | rfl | rfl <;> cases holds <;> simp

namespace WideImmediate

/-- The place of a half-word is found. -/
theorem exists_position {size value : Nat} (isHalfWord : IsHalfWord size value) :
    ∃ position, position? value size = some position := by
  obtain ⟨place, inside, half, small, rfl⟩ := isHalfWord
  rw [← Nat.shiftLeft_eq]
  by_cases empty : half = 0
  · subst empty
    rw [Nat.zero_shiftLeft, ← Nat.zero_shiftLeft (16 * 0)]
    exact ⟨0, position?_shiftLeft (by decide) (fun _ => rfl) (by omega)⟩
  · exact ⟨place, position?_shiftLeft small (fun none => absurd none empty) inside⟩

/-- The place that is found is that of a half-word, which is taken out of the value there. -/
theorem halfWord_of_position {size value position : Nat}
    (found : position? value size = some position) :
    position < size / 16 ∧ value >>> (16 * position) < 2 ^ 16 ∧
      value = (value >>> (16 * position)) * 2 ^ (16 * position) := by
  obtain ⟨inside, fits, -⟩ := position?_eq_some found
  have same : value = ((value >>> (16 * position)) % 2 ^ 16) <<< (16 * position) := eq_of_beq fits
  have taken : value >>> (16 * position) = (value >>> (16 * position)) % 2 ^ 16 := by
    conv => lhs; rw [same]
    exact shiftRight_shiftLeft _ _
  refine ⟨inside, taken ▸ Nat.mod_lt _ (by decide), ?_⟩
  rw [← Nat.shiftLeft_eq, taken]
  exact same

end WideImmediate

/-- What is packed is a logical immediate. -/
theorem LogicalImmediate.isSome_encode_iff (wide : Bool) (value : Int) :
    (encode value (InstructionForm.dataSize wide)).isSome ↔
      IsMask (InstructionForm.dataSize wide) (Bits.wrap (InstructionForm.dataSize wide) value) := by
  obtain ⟨whole, long, short, size⟩ := InstructionSet.exists_dataSize wide
  rw [size]
  constructor
  · intro packs
    obtain ⟨⟨n, immr, imms⟩, packed⟩ := Option.isSome_iff_exists.mp packs
    obtain ⟨smallN, smallR, smallS, -, unpacked⟩ := decode_encode long short packed
    exact ⟨n, immr, imms, smallN, smallR, smallS, unpacked⟩
  · rintro ⟨n, immr, imms, smallN, -, smallS, other, unpacked⟩
    rw [← encode_wrap, encode_decode smallN smallS unpacked]
    rfl

/-! ### Operands -/

namespace Encode

variable {form : InstructionForm} {here value : Int} {evaluate : Evaluator} {draft : Draft}
  {kind : OperandKind} {given : ImmediateOperand} {tokens : List Token}

/-- An immediate without a shift is encoded with its number. -/
theorem operand_number (isNumber : given.Denotes evaluate value) (role : List Char) :
    operand form here evaluate draft kind.code role (.immediate given) =
      immediate form here kind role given value evaluate draft := by
  have read : Encode.value evaluate given.value = .ok value := by
    rw [Encode.value, isNumber.known]
    rfl
  simp only [operand, OperandKind.ofChar?_code, ok_bind read]

/-- A half-word and its place are set. -/
theorem wideImmediate_of_position {value position : Nat} (span : Span)
    (below : value < 2 ^ draft.size)
    (found : WideImmediate.position? value draft.size = some position) :
    wideImmediate span value draft =
      .ok (draft.setEach [('h', position), ('j', value >>> (16 * position))]) := by
  rw [wideImmediate, ok_bind (require_isBelow below), Int.toNat_natCast, found]
  rfl

/-- A half-word that is encoded is one. -/
theorem isHalfWord_of_wideImmediate {span : Span} {after : Draft}
    (encoded : wideImmediate span value draft = .ok after) :
    (0 ≤ value ∧ value < (2 ^ draft.size : Nat)) ∧
      WideImmediate.IsHalfWord draft.size value.toNat := by
  obtain ⟨range, encoded⟩ := require_bind_eq_ok.mp encoded
  refine ⟨isBelow_iff.mp range, ?_⟩
  split at encoded
  · contradiction
  · rename_i position found
    obtain ⟨inside, small, same⟩ := WideImmediate.halfWord_of_position found
    exact ⟨position, inside, _, small, same⟩

/-- An immediate is encoded for the numbers only that its kind takes. -/
theorem takesNumber_of_operand (numbers : kind ∈ numberKinds)
    (isNumber : given.Denotes evaluate value) (unshifted : given.amount = none) {wide : Bool}
    (flag : draft.wide = some wide) {role : List Char} {after : Draft}
    (encoded :
      operand form here evaluate draft kind.code role (.immediate given) = .ok after) :
    kind.TakesNumber (InstructionForm.dataSize wide) value := by
  rw [operand_number isNumber] at encoded
  have size := InstructionSet.size_of_wide flag
  simp only [numberKinds, List.mem_cons, List.not_mem_nil, or_false] at numbers
  -- the range that is required first and the form of the number that is looked for behind it
  rcases numbers with rfl | rfl | rfl | rfl
  · have zero : amount evaluate given.amount = .ok 0 := by rw [unshifted]; rfl
    simp only [immediate, arithmeticImmediate, ok_bind zero] at encoded
    obtain ⟨_, -, encoded⟩ := bind_eq_ok.mp encoded
    rw [if_neg (by decide)] at encoded
    split at encoded
    · rename_i below
      obtain ⟨nonneg, small⟩ := isBelow_iff.mp below
      exact ⟨nonneg, .inl small⟩
    · obtain ⟨multiple, -⟩ := require_bind_eq_ok.mp encoded
      obtain ⟨positive, whole, few⟩ := of_decide_eq_true multiple
      exact ⟨Int.le_of_lt positive, .inr ⟨whole, by omega⟩⟩
  · obtain ⟨range, encoded⟩ := require_bind_eq_ok.mp encoded
    have range := of_decide_eq_true range
    rw [size] at range encoded
    refine ⟨range, (LogicalImmediate.isSome_encode_iff wide value).mp ?_⟩
    split at encoded
    · contradiction
    · rename_i packed
      rw [packed]
      rfl
  · exact size ▸ isHalfWord_of_wideImmediate encoded
  · obtain ⟨range, encoded⟩ := require_bind_eq_ok.mp encoded
    have range := of_decide_eq_true range
    have halfWord := (isHalfWord_of_wideImmediate encoded).2
    rw [size] at range halfWord
    exact ⟨range, halfWord⟩

/-- An immediate without a shift that is not encoded is complained about. -/
theorem operand_number_refusesOnly (numbers : kind ∈ numberKinds)
    (isNumber : given.Denotes evaluate value) (unshifted : given.amount = none) (role : List Char) :
    RefusesOnly tokens
      (operand form here evaluate draft kind.code role (.immediate given)) := by
  have answers : Answers (EncodeFailure.Concerns tokens) evaluate (.immediate given) := by
    refine ⟨blamable_concerns _, ?_, fun expression same => ?_⟩
    · rw [isNumber.2]
      exact failsOnly_ok
    · rw [unshifted] at same
      contradiction
  rw [operand_number isNumber]
  simp only [numberKinds, List.mem_cons, List.not_mem_nil, or_false] at numbers
  rcases numbers with rfl | rfl | rfl | rfl
  · exact arithmeticImmediate_failsOnly answers value
  · exact bitmask_failsOnly answers.place value
  · exact wideImmediate_failsOnly answers.place value
  · exact require_failsOnly answers.place rfl (wideImmediate_failsOnly answers.place _)

end Encode

namespace InstructionSet

open InstructionForm (dataSize)

section Numbers

variable {evaluate : Evaluator} {wide : Bool} {kind : OperandKind} {given : ImmediateOperand}
  {value : Int}

/-- An immediate without a shift fits the kinds of numbers. -/
theorem fits_number (numbers : kind ∈ numberKinds) (unshifted : given.modifier = none) :
    OperandKind.fits kind.code (.immediate given) = .ok true := by
  simp only [numberKinds, List.mem_cons, List.not_mem_nil, or_false] at numbers
  simp only [OperandKind.fits, OperandKind.ofChar?_code, unshifted]
  rcases numbers with rfl | rfl | rfl | rfl <;> rfl

/-- A half-word sets itself and its place. -/
theorem sets_halfWord (isWide : kind ∈ [.wide, .invertedWide])
    (isNumber : given.Denotes evaluate value) {half position : Nat}
    (encoded : ∀ (form : InstructionForm) (here : Int) (draft : Draft), draft.wide = some wide →
      Encode.immediate form here kind own given value evaluate draft =
        .ok (draft.setEach [('h', position), ('j', half)])) :
    Sets evaluate (some wide) (some wide) (kind, own) (.immediate given)
      [('h', position), ('j', half)] where
  regular := trivial
  fits := fits_number (List.mem_of_mem_drop (i := 2) isWide) isNumber.plain
  letters := by
    simp only [List.mem_cons, List.not_mem_nil, or_false] at isWide
    rcases isWide with rfl | rfl <;> simp [OperandKind.letters, OperandKind.fieldLetters]
  gathered form here draft flag := by
    rw [Encode.operand_number isNumber, encoded form here draft flag, Draft.withWide_setEach flag]

/-- An immediate whose kind takes its number sets the fields that hold it. -/
theorem exists_sets_number (isNumber : given.Denotes evaluate value)
    (unshifted : given.amount = none) (takes : kind.TakesNumber (dataSize wide) value) :
    ∃ fields, Sets evaluate (some wide) (some wide) (kind, own) (.immediate given) fields ∧
      HoldsNumber (dataSize wide) value kind fields := by
  cases kind with
  | arithmeticImmediate =>
    obtain ⟨nonneg, small⟩ := takes
    obtain ⟨number, rfl⟩ := Int.eq_ofNat_of_zero_le nonneg
    have zero : Encode.amount evaluate given.amount = .ok (0 : Nat) := by rw [unshifted]; rfl
    obtain ⟨field, shifted, same, once, sets⟩ :=
      exists_sets_immediate isNumber.known zero (.inl rfl) (by omega)
    exact ⟨_, sets, .sum once (by rw [same, Nat.pow_zero, Nat.mul_one])⟩
  | bitmask =>
    obtain ⟨n, immr, imms, other, unpacked, sets⟩ := exists_sets_mask isNumber takes.1
      ((LogicalImmediate.isSome_encode_iff wide value).mpr takes.2)
    exact ⟨_, sets, .mask unpacked⟩
  | wide =>
    obtain ⟨⟨nonneg, below⟩, isHalfWord⟩ := takes
    obtain ⟨number, rfl⟩ := Int.eq_ofNat_of_zero_le nonneg
    obtain ⟨position, found⟩ := WideImmediate.exists_position isHalfWord
    obtain ⟨inside, small, same⟩ := WideImmediate.halfWord_of_position found
    refine ⟨_, sets_halfWord List.mem_cons_self isNumber fun form here draft flag => ?_,
      .half inside small (congrArg Int.ofNat same)⟩
    have size := size_of_wide flag
    exact Encode.wideImmediate_of_position _ (size ▸ Int.ofNat_lt.mp below) (size ▸ found)
  | invertedWide =>
    obtain ⟨range, isHalfWord⟩ := takes
    obtain ⟨position, found⟩ := WideImmediate.exists_position isHalfWord
    obtain ⟨inside, small, same⟩ := WideImmediate.halfWord_of_position found
    refine ⟨_, sets_halfWord (List.mem_cons_of_mem _ List.mem_cons_self) isNumber
      fun form here draft flag => ?_, .inverted inside small same⟩
    have size := size_of_wide flag
    have within : Encode.require (decide (-(2 ^ draft.size : Nat) < value ∧
        value < (2 ^ draft.size : Nat))) .immediateRange given.span = .ok () := by
      rw [size]
      exact Encode.require_eq_ok.mpr (decide_eq_true range)
    rw [← size] at found
    simp only [Encode.immediate, ok_bind within]
    rw [Encode.wideImmediate_of_position _ (Bits.wrap_lt _ _) found, size]
  | _ => exact takes.elim

end Numbers

/-! ### Forms that are tried -/

/-- A form with an immediate behind registers: the kind of the immediate, the operation, and the codes
of the fields that no operand sets. -/
structure ImmediateForm where
  kind : OperandKind
  op : Operation
  codes : Bool → List (Char × Nat)

/-- A form of the instruction set has an immediate of some kind behind registers. -/
def ImmediateForm.Describes (described : ImmediateForm) (front : List FormOperand)
    (form : InstructionForm) : Prop :=
  described.kind ∈ numberKinds ∧
    FixedForm form described.op (front ++ [(described.kind, own)]) described.codes

instance (described : ImmediateForm) (front : List FormOperand) (form : InstructionForm) :
    Decidable (described.Describes front form) :=
  inferInstanceAs (Decidable (_ ∧ _))

/-- The forms of a mnemonic whose last operand is an immediate are some that are described, and each
of these is there. -/
structure HasImmediates (mnemonic : String) (front : List FormOperand)
    (described : List ImmediateForm) : Prop where
  entries : ∀ entry ∈ entriesOf mnemonic, ∃ form ∈ formsOf mnemonic, entry = .implemented form ∧
    ((form.operands.getLast?.all fun operand => !operand.1.isImmediate) = true ∨
      ∃ one ∈ described, one.Describes front form)
  described : ∀ one ∈ described, ∃ form ∈ formsOf mnemonic, one.Describes front form

instance (mnemonic : String) (front : List FormOperand) (described : List ImmediateForm) :
    Decidable (HasImmediates mnemonic front described) :=
  decidable_of_iff (_ ∧ _)
    ⟨fun ⟨entries, described⟩ => ⟨entries, described⟩,
      fun ⟨entries, described⟩ => ⟨entries, described⟩⟩

section Tried

variable {mnemonic : String} {form : InstructionForm} {here : Int} {evaluate : Evaluator}
  {list : List Operand}

/-- When every entry passes the operands on or makes a word of them, and some entry makes a word,
then the first one that does takes them. -/
theorem exists_takes {entries : List OpcodeEntry}
    (tried : ∀ entry ∈ entries, Encode.Passes here evaluate list entry ∨
      ∃ form word, entry = .implemented form ∧ OperandKind.fitsAll form.shape list = .ok true ∧
        Encode.formWord form here evaluate list = .ok word)
    (makes : ∃ entry ∈ entries, ¬Encode.Passes here evaluate list entry) :
    ∃ form word, Encode.Takes here evaluate list entries form word := by
  -- the entries before the one that takes the operands are collected on the way to it
  induction entries with
  | nil => obtain ⟨_, absent, _⟩ := makes; contradiction
  | cons entry rest ih =>
    obtain ⟨first, others⟩ := List.forall_mem_cons.mp tried
    by_cases passes : Encode.Passes here evaluate list entry
    · have later : ∃ entry ∈ rest, ¬Encode.Passes here evaluate list entry := by
        obtain ⟨other, among, takes⟩ := makes
        rcases List.mem_cons.mp among with rfl | among
        · exact absurd passes takes
        · exact ⟨other, among, takes⟩
      obtain ⟨form, word, earlier, behind, rfl, before, taken⟩ := ih others later
      exact ⟨form, word, entry :: earlier, behind, rfl, List.forall_mem_cons.mpr ⟨passes, before⟩,
        taken⟩
    · obtain ⟨form, word, rfl, fits, made⟩ := first.resolve_left passes
      exact ⟨form, word, [], rest, rfl, List.forall_mem_nil _, fits, made⟩

/-- A form that makes a word does not pass the operands on. -/
theorem not_passes_of_formWord (fits : OperandKind.fitsAll form.shape list = .ok true) {word : Nat}
    (made : Encode.formWord form here evaluate list = .ok word) :
    ¬Encode.Passes here evaluate list (.implemented form) := by
  rintro (misfit | ⟨-, other, error, same, failed⟩)
  · rw [OpcodeEntry.head, fits] at misfit
    exact absurd (Except.ok.inj misfit) (by decide)
  · obtain rfl := OpcodeEntry.implemented.inj same
    rw [made] at failed
    contradiction

/-- A form that has only complaints about operands that fit makes a word of them or passes them on. -/
theorem passes_or_formWord (fits : OperandKind.fitsAll form.shape list = .ok true)
    (complains : Encode.RefusesOnly [] (Encode.formWord form here evaluate list)) :
    Encode.Passes here evaluate list (.implemented form) ∨
      ∃ word, Encode.formWord form here evaluate list = .ok word := by
  cases made : Encode.formWord form here evaluate list with
  | ok word => exact .inr ⟨word, rfl⟩
  | error failure =>
    have concerns := complains failure made
    cases failure with
    | defective defect => exact concerns.elim
    | refused refusal =>
      cases refusal with
      | numeral bad => obtain ⟨_, absent, _⟩ := concerns; contradiction
      | assembly error => exact .inl (.inr ⟨fits, form, error, rfl, made⟩)

end Tried

section Encoded

variable {mnemonic : String} {front : List FormOperand} {described : List ImmediateForm}
  {form : InstructionForm} {one : ImmediateForm} {here : Int} {evaluate : Evaluator} {wide : Bool}
  {before : List Operand} {fields : List (Char × Nat)} {given : ImmediateOperand} {value : Int}

/-- Registers and an immediate fit the form that is described. -/
theorem ImmediateForm.Describes.fits (describes : one.Describes front form) (member : form ∈ forms)
    (sets : SetsAll evaluate none (some wide) front before fields)
    (isNumber : given.Denotes evaluate value) :
    OperandKind.fitsAll form.shape (before ++ [.immediate given]) = .ok true := by
  obtain ⟨numbers, fixed⟩ := describes
  have shape : form.shape = (front.map Prod.fst ++ [one.kind]).map OperandKind.code := by
    rw [(sound form member).codes (checked member).roles, fixed.operands]
    simp
  obtain ⟨count, each⟩ := OperandKind.fitsAll_eq_true.mp sets.fits
  rw [shape, OperandKind.fitsAll_concat]
  refine ⟨_, _, rfl, by simpa using count, ?_, fits_number numbers isNumber.plain⟩
  rw [List.map_map]
  exact each

/-- Registers and an immediate gather what the immediate makes of the draft of the registers. -/
theorem ImmediateForm.Describes.allOperands (describes : one.Describes front form)
    (member : form ∈ forms) (sets : SetsAll evaluate none (some wide) front before fields) :
    Encode.allOperands form here evaluate .empty (form.shape.zip form.roles)
        (before ++ [.immediate given]) =
      Encode.operand form here evaluate { Draft.empty.setEach fields with wide := some wide }
        one.kind.code own (.immediate given) := by
  obtain ⟨count, -⟩ := OperandKind.fitsAll_eq_true.mp sets.fits
  rw [(sound form member).shape, describes.2.operands, List.map_append,
    Encode.allOperands_append _ (by simpa using count), ok_bind (sets.gathered form here .empty rfl)]
  simp only [List.map_cons, List.map_nil, Encode.allOperands]
  cases Encode.operand form here evaluate _ one.kind.code own (.immediate given) <;> rfl

/-- The form makes a word of the numbers that the kind of its immediate takes. -/
theorem ImmediateForm.Describes.formWord_iff (describes : one.Describes front form)
    (member : form ∈ forms) (sets : SetsAll evaluate none (some wide) front before fields)
    (isNumber : given.Denotes evaluate value) (unshifted : given.amount = none) :
    (∃ word, Encode.formWord form here evaluate (before ++ [.immediate given]) = .ok word) ↔
      one.kind.TakesNumber (dataSize wide) value := by
  have fits := describes.fits member sets isNumber
  have gathered := @ImmediateForm.Describes.allOperands front form one here evaluate wide before
    fields given describes member sets
  constructor
  · rintro ⟨word, made⟩
    obtain ⟨draft, taken, -⟩ := Encode.formWord_eq_ok.mp made
    rw [gathered] at taken
    exact Encode.takesNumber_of_operand describes.1 isNumber unshifted rfl taken
  · intro takes
    obtain ⟨fields', sets', -⟩ := exists_sets_number isNumber unshifted takes
    exact exists_formWord_of_allOperands member (sets.concat sets').regular fits
      (gathered.trans (sets'.gathered form here _ rfl))

/-- The form has only complaints about registers and an immediate. -/
theorem ImmediateForm.Describes.formWord_refusesOnly {tokens : List Token}
    (describes : one.Describes front form) (member : form ∈ forms)
    (sets : SetsAll evaluate none (some wide) front before fields)
    (isNumber : given.Denotes evaluate value) (unshifted : given.amount = none) :
    Encode.RefusesOnly tokens
      (Encode.formWord form here evaluate (before ++ [.immediate given])) := by
  refine Encode.formWord_refusesOnly_of_allOperands ?_
  rw [describes.allOperands member sets]
  exact Encode.operand_number_refusesOnly describes.1 isNumber unshifted own

/-- An entry whose last operand is no immediate does not fit. -/
theorem misfit_of_getLast? (member : form ∈ forms)
    (other : (form.operands.getLast?.all fun operand => !operand.1.isImmediate) = true) :
    OperandKind.fitsAll form.shape (before ++ [.immediate given]) = .ok false := by
  have shape : form.shape = (form.operands.map Prod.fst).map OperandKind.code := by
    rw [(sound form member).codes (checked member).roles, List.map_map]
    rfl
  obtain ⟨fit, decided⟩ :=
    OperandKind.exists_fitsAll (form.operands.map Prod.fst) (before ++ [.immediate given])
  rw [← shape] at decided
  cases fit with
  | false => exact decided
  | true =>
    rw [shape, OperandKind.fitsAll_concat] at decided
    obtain ⟨ahead, kind, split, -, -, last⟩ := decided
    have isLast : (form.operands.map Prod.fst).getLast? = some kind := by
      rw [split, List.getLast?_concat]
    rw [List.getLast?_map] at isLast
    obtain ⟨operand, found, rfl⟩ := Option.map_eq_some_iff.mp isLast
    rw [found, Option.all_some, Bool.not_eq_true'] at other
    simp [OperandKind.fits, OperandKind.ofChar?_code, other] at last

/-- What is encoded is the word of a form that is described. -/
theorem HasImmediates.exists_form {word : Nat} (has : HasImmediates mnemonic front described)
    (encoded :
      Codec.a64.encode mnemonic (before ++ [.immediate given]) here evaluate = .ok word) :
    ∃ one ∈ described, ∃ form ∈ forms, one.Describes front form ∧
      Encode.formWord form here evaluate (before ++ [.immediate given]) = .ok word := by
  obtain ⟨form, inside, fits, made⟩ := exists_fitting_of_encode encoded
  have member := mem_forms_of_mem_formsOf inside
  obtain ⟨other, -, same, known⟩ := has.entries _ (mem_formsOf.mp inside)
  obtain rfl := OpcodeEntry.implemented.inj same
  rcases known with other | ⟨one, among, describes⟩
  · have misfit := @misfit_of_getLast? form before given member other
    rw [fits] at misfit
    exact absurd (Except.ok.inj misfit) (by decide)
  · exact ⟨one, among, form, member, describes, made⟩

/-- Registers and an immediate are encoded exactly when one of the kinds takes the number. -/
theorem HasImmediates.encodes_iff (has : HasImmediates mnemonic front described)
    (sets : SetsAll evaluate none (some wide) front before fields)
    (isNumber : given.Denotes evaluate value) (unshifted : given.amount = none) :
    (∃ word, Codec.a64.encode mnemonic (before ++ [.immediate given]) here evaluate = .ok word) ↔
      ∃ one ∈ described, one.kind.TakesNumber (dataSize wide) value := by
  constructor
  · rintro ⟨word, encoded⟩
    obtain ⟨one, among, form, member, describes, made⟩ := has.exists_form encoded
    exact ⟨one, among,
      (describes.formWord_iff member sets isNumber unshifted).mp ⟨word, made⟩⟩
  · rintro ⟨one, among, takes⟩
    obtain ⟨form, inside, describes⟩ := has.described one among
    have member := mem_forms_of_mem_formsOf inside
    obtain ⟨word, made⟩ := (describes.formWord_iff member sets isNumber unshifted).mpr takes
    -- the forms with another kind of immediate complain, which leaves the number to the later ones
    have tried : ∀ entry ∈ entriesOf mnemonic,
        Encode.Passes here evaluate (before ++ [.immediate given]) entry ∨
          ∃ form word, entry = .implemented form ∧
            OperandKind.fitsAll form.shape (before ++ [.immediate given]) = .ok true ∧
            Encode.formWord form here evaluate (before ++ [.immediate given]) = .ok word := by
      intro entry listed
      obtain ⟨other, isForm, rfl, known⟩ := has.entries entry listed
      have member := mem_forms_of_mem_formsOf isForm
      rcases known with apart | ⟨one, -, describes⟩
      · exact .inl (.inl (misfit_of_getLast? member apart))
      · have fits := describes.fits member sets isNumber
        exact (passes_or_formWord fits
          (describes.formWord_refusesOnly member sets isNumber unshifted)).imp_right
            fun ⟨word, made⟩ => ⟨other, word, rfl, fits, made⟩
    obtain ⟨first, word', taken⟩ := exists_takes tried ⟨_, mem_formsOf.mp inside,
      not_passes_of_formWord (describes.fits member sets isNumber) made⟩
    rw [← entries_a64] at taken
    exact ⟨word', Codec.encode_eq_ok.mpr ⟨first, taken⟩⟩

/-- Registers and an immediate that are encoded take a state to the one that the execution ensures,
whichever form was chosen. -/
theorem HasImmediates.exists_step (has : HasImmediates mnemonic front described)
    (sets : SetsAll evaluate none (some wide) front before fields)
    (ahead : fields.map Prod.fst ∈ [['d'], ['n'], ['d', 'n']])
    (isNumber : given.Denotes evaluate value) (unshifted : given.amount = none)
    (encodes :
      ∃ word, Codec.a64.encode mnemonic (before ++ [.immediate given]) here evaluate = .ok word)
    {state : CoreState} {effect : CoreState → Prop}
    (ensured : ∀ one ∈ described, ∀ fields', HoldsNumber (dataSize wide) value one.kind fields' →
      ∀ instruction, Coded instruction one.op (fields ++ fields' ++ one.codes wide) →
        Execution.Ensures (fun _ => False) (Execution.perform instruction)
          (fun branched after => branched = none ∧ effect after) state) :
    ∃ after, AssembledStep here evaluate mnemonic (before ++ [.immediate given]) state after ∧
      effect after := by
  obtain ⟨word, encoded⟩ := encodes
  obtain ⟨one, among, form, member, describes, made⟩ := has.exists_form encoded
  have takes := (describes.formWord_iff member sets isNumber unshifted).mp ⟨word, made⟩
  obtain ⟨fields', sets', holds⟩ := exists_sets_number isNumber unshifted takes
  have all := sets.concat sets'
  have gathered := all.gathered form here .empty rfl
  rw [← describes.2.operands, ← (sound form member).shape] at gathered
  obtain ⟨instruction, decoded, coded⟩ := describes.2.exists_coded member
    (describes.fits member sets isNumber) gathered made
  have known := all.known (holds.distinct ahead) one.codes
  rw [flag_some] at known
  obtain ⟨after, done, effected⟩ := CoreState.exists_execute
    (ensured one among fields' holds instruction (coded _ known))
  exact ⟨after, ⟨word, instruction, encoded, decoded, done⟩, effected⟩

end Encoded

end InstructionSet

end A64Machine
