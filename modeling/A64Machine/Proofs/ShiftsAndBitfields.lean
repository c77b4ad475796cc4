import A64Machine.Proofs.BitfieldMove

/-!
# Shifts and bitfields

What shifts, extensions and bitfield instructions leave in their destination, told by arithmetic on
the values of their registers. Most of them are bitfield moves with computed positions; the shifts by
a register and the extraction from two registers are computed in their own ways and agree.
-/

namespace A64Machine

/-! ### Results -/

/-- The moves of a bitfield of some width that lies at some lowest bit. -/
inductive FieldMove where
  | ubfx | sbfx | bfxil
  | ubfiz | sbfiz | bfi
  deriving DecidableEq, Repr

namespace FieldMove

def all : List FieldMove := [.ubfx, .sbfx, .bfxil, .ubfiz, .sbfiz, .bfi]

def name : FieldMove → String
  | .ubfx => "ubfx"
  | .sbfx => "sbfx"
  | .bfxil => "bfxil"
  | .ubfiz => "ubfiz"
  | .sbfiz => "sbfiz"
  | .bfi => "bfi"

/-- The destination after a move, from what it held and from the source. -/
def result (move : FieldMove) (former source low width : Nat) : Int :=
  match move with
  | .ubfx => (source / 2 ^ low % 2 ^ width : Nat)
  | .sbfx => Bits.signExtend (source / 2 ^ low % 2 ^ width : Nat) width
  | .bfxil => Bits.withField former 0 width (source / 2 ^ low)
  | .ubfiz => (source % 2 ^ width * 2 ^ low : Nat)
  | .sbfiz => Bits.signExtend (source % 2 ^ width : Nat) width * (2 ^ low : Nat)
  | .bfi => Bits.withField former low width source

/-- Whether the bitfield lies in the source, or else in the destination. -/
def extracts : FieldMove → Bool
  | .ubfx | .sbfx | .bfxil => true
  | .ubfiz | .sbfiz | .bfi => false

/-- What stands around the bitfield in the destination. -/
def around : FieldMove → Surroundings
  | .sbfx | .sbfiz => .sign
  | .bfxil | .bfi => .kept
  | .ubfx | .ubfiz => .zeros

/-- The result is that of a bitfield move from the source or into the destination. -/
theorem result_eq (move : FieldMove) (former source low width : Nat) :
    move.result former source low width =
      if move.extracts then move.around.place former (source >>> low) 0 width
      else move.around.place former source low width := by
  cases move <;>
    simp only [result, extracts, around, Surroundings.place, Bits.signExtend_mod,
      Nat.shiftRight_eq_div_pow, Nat.shiftLeft_eq, Nat.pow_zero, Nat.mul_one, Int.natCast_one,
      Int.mul_one, if_true, if_false, Bool.false_eq_true]

end FieldMove

/-- The extensions of the lowest bits of a half register. -/
inductive Extension where
  | sxtb | sxth | sxtw
  | uxtb | uxth
  deriving DecidableEq, Repr

namespace Extension

def all : List Extension := [.sxtb, .sxth, .sxtw, .uxtb, .uxth]

def name : Extension → String
  | .sxtb => "sxtb"
  | .sxth => "sxth"
  | .sxtw => "sxtw"
  | .uxtb => "uxtb"
  | .uxth => "uxth"

/-- Number of bits that are extended. -/
def width : Extension → Nat
  | .sxtb | .uxtb => 8
  | .sxth | .uxth => 16
  | .sxtw => 32

/-- What the bits are extended with: their sign or zeros. -/
def around : Extension → Surroundings
  | .sxtb | .sxth | .sxtw => .sign
  | .uxtb | .uxth => .zeros

/-- The lowest bits as a signed or an unsigned number. -/
def result (extension : Extension) (source : Nat) : Int :=
  match extension with
  | .sxtb | .sxth | .sxtw => Bits.signExtend source extension.width
  | .uxtb | .uxth => (source % 2 ^ extension.width : Nat)

/-- The widths that the destination may have: a word is extended to full width, and zeros are only
written to a half register. -/
def widths : Extension → List Bool
  | .sxtb | .sxth => [false, true]
  | .sxtw => [true]
  | .uxtb | .uxth => [false]

/-- The kind of the destination. -/
def destination : Extension → OperandKind
  | .sxtb | .sxth => .register
  | .sxtw => .wideRegister
  | .uxtb | .uxth => .halfRegister

theorem result_eq (extension : Extension) (former source : Nat) :
    extension.result source = extension.around.place former source 0 extension.width := by
  cases extension <;> simp [result, around, Surroundings.place]

end Extension

/-- The shifts of a register. -/
inductive Shift where
  | lsl | lsr | asr | ror
  deriving DecidableEq, Repr

namespace Shift

def all : List Shift := [.lsl, .lsr, .asr, .ror]

def name : Shift → String
  | .lsl => "lsl"
  | .lsr => "lsr"
  | .asr => "asr"
  | .ror => "ror"

/-- A value of some size after a shift by an amount below it. -/
def result (shift : Shift) (value amount size : Nat) : Int :=
  match shift with
  | .lsl => (value * 2 ^ amount : Nat)
  | .lsr => (value / 2 ^ amount : Nat)
  | .asr => Bits.signExtend value size / (2 ^ amount : Nat)
  | .ror => (value / 2 ^ amount + value % 2 ^ amount * 2 ^ (size - amount) : Nat)

/-- The code of a shift. -/
def code : Shift → Nat
  | .lsl => 0
  | .lsr => 1
  | .asr => 2
  | .ror => 3

variable {value amount size : Nat}

/-- A shift to the left is an insertion of the bits that stay. -/
theorem wrap_place_lsl (former value : Nat) (inside : amount < size) :
    Bits.wrap size (Surroundings.zeros.place former value amount (size - amount)) =
      Bits.wrap size (lsl.result value amount size) := by
  have split : 2 ^ size = 2 ^ (size - amount) * 2 ^ amount := by
    rw [← Nat.pow_add, Nat.sub_add_cancel (Nat.le_of_lt inside)]
  rw [Surroundings.place, result, Bits.wrap_natCast, Bits.wrap_natCast, Nat.shiftLeft_eq, split,
    Nat.mul_mod_mul_right, Nat.mul_mod_mul_right, Nat.mod_mod]

/-- What is left of a value below the power of two of its size. -/
theorem div_lt (small : value < 2 ^ size) (inside : amount < size) :
    value / 2 ^ amount < 2 ^ (size - amount) := by
  rw [Nat.div_lt_iff_lt_mul (Nat.two_pow_pos amount), ← Nat.pow_add,
    Nat.sub_add_cancel (Nat.le_of_lt inside)]
  exact small

/-- The two's complement reading of the upper bits is a quotient toward minus infinity. -/
theorem signExtend_div (small : value < 2 ^ size) (inside : amount < size) :
    Bits.signExtend (value / 2 ^ amount : Nat) (size - amount) =
      Bits.signExtend value size / (2 ^ amount : Nat) := by
  have positive := Nat.two_pow_pos amount
  have half : 2 ^ (size - 1) = 2 ^ (size - amount - 1) * 2 ^ amount := by
    rw [← Nat.pow_add, show size - amount - 1 + amount = size - 1 by omega]
  have whole : 2 ^ size = 2 ^ (size - amount) * 2 ^ amount := by
    rw [← Nat.pow_add, Nat.sub_add_cancel (Nat.le_of_lt inside)]
  have below : value / 2 ^ amount < 2 ^ (size - amount - 1) ↔ value < 2 ^ (size - 1) := by
    rw [Nat.div_lt_iff_lt_mul positive, half]
  rw [Bits.signExtend_eq (by omega) (div_lt small inside), Bits.signExtend_eq (by omega) small]
  simp only [below]
  split
  · exact Int.natCast_ediv value (2 ^ amount)
  · rw [whole, Int.natCast_mul, Int.sub_mul_ediv_right _ _ (by omega), Int.natCast_ediv]

/-- A shift to the right is an extraction up to the top. -/
theorem place_lsr (former : Nat) (small : value < 2 ^ size) (inside : amount < size) :
    Surroundings.zeros.place former (value >>> amount) 0 (size - amount) =
      lsr.result value amount size := by
  rw [Surroundings.place, result, Nat.shiftRight_eq_div_pow, Nat.mod_eq_of_lt (div_lt small inside),
    Nat.shiftLeft_zero]

/-- A shift to the right keeps the sign when the field is read as a signed number. -/
theorem place_asr (former : Nat) (small : value < 2 ^ size) (inside : amount < size) :
    Surroundings.sign.place former (value >>> amount) 0 (size - amount) =
      asr.result value amount size := by
  rw [Surroundings.place, result, Nat.shiftRight_eq_div_pow, Nat.pow_zero, Int.natCast_one,
    Int.mul_one, signExtend_div small inside]

/-- The bits that are moved out at the top do not count. -/
theorem wrap_ror (value : Nat) (inside : amount < size) :
    Bits.wrap size (value / 2 ^ amount + value * 2 ^ (size - amount) : Nat) =
      Bits.wrap size (ror.result value amount size) := by
  have split : 2 ^ size = 2 ^ amount * 2 ^ (size - amount) := by
    rw [← Nat.pow_add, Nat.add_sub_cancel' (Nat.le_of_lt inside)]
  have around : value * 2 ^ (size - amount) % 2 ^ size =
      value % 2 ^ amount * 2 ^ (size - amount) % 2 ^ size := by
    rw [split, Nat.mul_mod_mul_right, Nat.mul_mod_mul_right, Nat.mod_mod]
  rw [result, Bits.wrap_natCast, Bits.wrap_natCast, Nat.add_mod, around, ← Nat.add_mod]

/-- A value behind itself, cut at an amount, is the value turned by the amount. -/
theorem wrap_joined (value : Nat) (inside : amount < size) :
    Bits.wrap size ((value * 2 ^ size + value) / 2 ^ amount : Nat) =
      Bits.wrap size (ror.result value amount size) := by
  have split : 2 ^ size = 2 ^ (size - amount) * 2 ^ amount := by
    rw [← Nat.pow_add, Nat.sub_add_cancel (Nat.le_of_lt inside)]
  have cut : (value * 2 ^ size + value) / 2 ^ amount =
      value / 2 ^ amount + value * 2 ^ (size - amount) := by
    rw [split, ← Nat.mul_assoc, Nat.add_comm, Nat.add_mul_div_right _ _ (Nat.two_pow_pos amount)]
  rw [cut, wrap_ror value inside]

/-- Turning a value is adding its parts in the other order. -/
theorem rotateRight_eq (small : value < 2 ^ size) (inside : amount < size) :
    Bits.rotateRight value amount size =
      Bits.wrap size (value / 2 ^ amount + value * 2 ^ (size - amount) : Nat) := by
  rw [Bits.wrap_natCast, Nat.add_comm, ← Nat.shiftLeft_eq,
    Nat.shiftLeft_add_eq_or_of_lt (div_lt small inside), Nat.or_comm]
  simp only [Bits.rotateRight, Nat.mod_eq_of_lt inside, Nat.mod_eq_of_lt small,
    Nat.shiftRight_eq_div_pow]

/-- The shift by a register is the one by an immediate. -/
theorem wrap_shiftValue (shift : Shift) (small : value < 2 ^ size) (inside : amount < size) :
    Bits.wrap size (shiftValue value shift.code amount size) =
      Bits.wrap size (shift.result value amount size) := by
  cases shift <;> simp only [shiftValue, code, result, Nat.mod_eq_of_lt small]
  case lsl =>
    rw [Bits.shiftLeft, if_neg (Nat.not_le.mpr inside), Bits.wrap_natCast, Bits.wrap_natCast,
      Nat.mod_mod, Nat.shiftLeft_eq]
  case lsr => rw [Nat.shiftRight_eq_div_pow]
  case asr => rw [Int.shiftRight_eq_div_pow, Bits.wrap_of_lt (Bits.wrap_lt _ _)]
  case ror =>
    rw [rotateRight_eq small inside, Bits.wrap_of_lt (Bits.wrap_lt _ _), wrap_ror value inside,
      result]

end Shift

/-! ### Execution -/

namespace Execution

variable {instruction : Instruction} {allowed : ExecutionFault → Prop} {before : CoreState}
  {wide : Bool}

open DataProcessing

/-- An extraction leaves the bits of both sources, one above the other, from its position on. -/
theorem ensures_extract (offers : instruction.Offers ['n', 'm', 's', 'd'])
    (op : instruction.form.op = .extract)
    (size : dataSize instruction = InstructionForm.dataSize wide) :
    Ensures allowed (perform instruction)
      (fun branched after => branched = none ∧ before.Receives after ⟨instruction.value 'd', wide⟩
        ((before.contents ⟨instruction.value 'n', wide⟩ * 2 ^ InstructionForm.dataSize wide +
          before.contents ⟨instruction.value 'm', wide⟩) / 2 ^ instruction.value 's' : Nat)
        before.status) before := by
  have joined := Nat.shiftLeft_add_eq_or_of_lt
    (before.contents_lt ⟨instruction.value 'm', wide⟩)
    (before.contents ⟨instruction.value 'n', wide⟩)
  rw [← Nat.shiftLeft_eq, joined, ← Nat.shiftRight_eq_div_pow]
  simpa [perform, op, extract, offers.present, offers.registers, size, CoreState.contents] using
    CoreState.receives_of_write wide (by simp) (offers.registers 'd' (by decide)) before.status _

/-- A shift by a register takes its amount modulo the data size. -/
theorem ensures_shift (shift : Shift) (offers : instruction.Offers ['n', 'm', 'c', 'd'])
    (op : instruction.form.op = .twoSource)
    (size : dataSize instruction = InstructionForm.dataSize wide)
    (code : instruction.value 'c' = 8 + shift.code) :
    Ensures allowed (perform instruction)
      (fun branched after => branched = none ∧ before.Receives after ⟨instruction.value 'd', wide⟩
        (shift.result (before.contents ⟨instruction.value 'n', wide⟩)
          (before.contents ⟨instruction.value 'm', wide⟩ % InstructionForm.dataSize wide)
          (InstructionForm.dataSize wide)) before.status) before := by
  have inside := Nat.mod_lt (before.contents ⟨instruction.value 'm', wide⟩)
    (InstructionSet.dataSize_range wide).1
  have written {registers : RegisterFile}
      (same : ∀ slot : Nat, registers.value slot = before.registers.value slot) :=
    (CoreState.receives_of_write wide same (offers.registers 'd' (by decide)) before.status _).congr
      (shift.wrap_shiftValue (before.contents_lt ⟨instruction.value 'n', wide⟩) inside)
  cases shift <;>
    simpa [perform, op, twoSource, offers.present, offers.registers, size, code, Shift.code,
      CoreState.contents] using written (by simp)

end Execution

/-! ### Forms -/

namespace InstructionSet

open InstructionForm (dataSize)

/-- The codes of a bitfield move: its surroundings, and its width flag in both places. -/
def moveCodes (around : Surroundings) (others : List (Char × Nat)) (wide : Bool) :
    List (Char × Nat) :=
  [('c', around.code), ('z', wide.toNat), ('N', wide.toNat)] ++ others

/-- The operands of a bitfield that is taken out of the source or put into the destination. -/
def fieldOperands (move : FieldMove) : List FormOperand :=
  [reg 'd', reg 'n'] ++ if move.extracts then extraction else insertion

/-- The forms of shifts and bitfields. -/
structure HasMoveForms : Prop where
  field : ∀ move ∈ FieldMove.all,
    HasForm move.name .bitfield (fieldOperands move) (moveCodes move.around [])
  clear : HasForm "bfc" .bitfield (reg 'd' :: insertion) (moveCodes .kept [('n', 31)])
  extend : ∀ extension ∈ Extension.all, ∀ wide ∈ extension.widths,
    HasForm extension.name .bitfield [(extension.destination, ['d']), wreg 'n'] fun flag =>
      moveCodes extension.around [('r', 0), ('s', extension.width - 1)]
        (if extension.destination = .register then flag else wide)
  shiftLeft : HasForm "lsl" .bitfield [reg 'd', reg 'n', (.leftShift, own)] (moveCodes .zeros [])
  shiftRight : ∀ shift ∈ [Shift.lsr, .asr], HasForm shift.name .bitfield
    [reg 'd', reg 'n', (.shiftAmount, ['r'])] fun wide =>
      moveCodes (if shift = .asr then .sign else .zeros) [('s', dataSize wide - 1)] wide
  rotate : HasForm "ror" .extract [reg 'd', (.register, ['n', 'm']), (.shiftAmount, ['s'])]
    fun wide => [('z', wide.toNat)]
  join : HasForm "extr" .extract [reg 'd', reg 'n', reg 'm', (.shiftAmount, ['s'])]
    fun wide => [('z', wide.toNat)]
  shift : ∀ shift ∈ Shift.all, HasForm shift.name .twoSource [reg 'd', reg 'n', reg 'm']
    fun wide => [('z', wide.toNat), ('c', 8 + shift.code)]

instance : Decidable HasMoveForms :=
  decidable_of_iff (_ ∧ _ ∧ _ ∧ _ ∧ _ ∧ _ ∧ _ ∧ _)
    ⟨fun ⟨field, clear, extend, shiftLeft, shiftRight, rotate, join, shift⟩ =>
      ⟨field, clear, extend, shiftLeft, shiftRight, rotate, join, shift⟩,
      fun ⟨field, clear, extend, shiftLeft, shiftRight, rotate, join, shift⟩ =>
        ⟨field, clear, extend, shiftLeft, shiftRight, rotate, join, shift⟩⟩

/-- The instruction set has these forms. -/
theorem hasMoveForms : HasMoveForms := by decide +kernel

/-! ### Steps -/

section Steps

variable {mnemonic : String} {operands : List FormOperand} {codes : Bool → List (Char × Nat)}
  {here : Int} {evaluate : Evaluator} {list : List Operand} {draft : Draft} {before : CoreState}
  {d n m : RegisterOperand}

/-- A form of a bitfield move takes a step that leaves the field in its place. -/
theorem HasForm.exists_move (has : HasForm mnemonic .bitfield operands codes)
    (regular : ∀ given ∈ list, given.Regular)
    (fits : OperandKind.fitsAll (operands.map fun operand => operand.1.code) list = .ok true)
    (gathered : ∀ form, Encode.allOperands form here evaluate .empty
      (operands.map fun operand => (operand.1.code, operand.2)) list = .ok draft)
    (around : Surroundings) (d n : Register) (same : n.wide = d.wide)
    {turn top start low width : Nat} (moves : Moves (dataSize d.wide) turn top start low width)
    (known : ∀ field ∈ [('d', d.slot), ('n', n.slot), ('r', turn), ('s', top)],
      Known operands codes draft field)
    (known' : ∀ field ∈ moveCodes around [] d.wide, Known operands codes draft field)
    {value : Int} (computed : Bits.wrap (dataSize d.wide)
        (around.place (before.contents d) (before.contents n >>> start) low width) =
      Bits.wrap (dataSize d.wide) value) :
    ∃ after, AssembledStep here evaluate mnemonic list before after ∧
      before.Receives after d value before.status := by
  refine has.exists_step regular fits gathered
    ([('d', d.slot), ('n', n.slot), ('r', turn), ('s', top)] ++ moveCodes around [] d.wide)
    (List.forall_mem_append.mpr ⟨known, known'⟩) fun instruction coded => ?_
  have values := coded.codes
  simp only [moveCodes, List.cons_append, List.nil_append, List.forall_mem_cons] at values
  obtain ⟨isTarget, isSource, rfl, rfl, code, _, element, _⟩ := values
  have size := coded.dataSize (List.mem_append_right _ (List.mem_cons_of_mem _ List.mem_cons_self))
    (by decide)
  obtain ⟨slot, wide⟩ := d
  obtain ⟨slot', wide'⟩ := n
  obtain rfl : instruction.value 'd' = slot := isTarget
  obtain rfl : instruction.value 'n' = slot' := isSource
  obtain rfl : wide' = wide := same
  exact (DataProcessing.ensures_bitfield around (coded.offers _ (by decide)) coded.op size element
    code moves).imp fun _ _ both => ⟨both.1, both.2.congr computed⟩

/-- The codes of a bitfield move are known when the first register tells the width flag. -/
theorem known_moveCodes {around : Surroundings} {others : List (Char × Nat)} {wide : Bool}
    (flag : draft.wide = some wide) :
    ∀ field ∈ moveCodes around [] wide, Known operands (moveCodes around others) draft field := by
  intro field inside
  refine .inr ?_
  rw [flag, flag_some]
  exact List.mem_append_left others inside

/-- A number taken from a multiple of a larger one. -/
theorem neg_emod_natCast {low size : Nat} (inside : low < size) :
    -(low : Int) % size = ((size - low) % size : Nat) := by
  rw [Int.natCast_emod, Int.natCast_sub (Nat.le_of_lt inside), Int.sub_eq_add_neg,
    Int.add_emod_left]

/-- Two plain registers before immediates are regular. -/
theorem regular_pair (plain : d.Plain) (plain' : n.Plain) (immediates : List ImmediateOperand) :
    ∀ given ∈ Operand.register d :: .register n :: immediates.map .immediate, given.Regular := by
  simp [Operand.Regular, plain.regular, plain'.regular]

/-- Two immediates without shifts fit the kinds of a place and a width. -/
theorem fitsAll_place {first second : OperandKind} (isFirst : first.isImmediate = true)
    (isSecond : second.isImmediate = true) (plain : first ≠ .arithmeticImmediate)
    (plain' : second ≠ .arithmeticImmediate) {low width : ImmediateOperand}
    (unshifted : low.modifier = none) (unshifted' : width.modifier = none) :
    OperandKind.fitsAll ([(first, own), (second, own)].map fun operand => operand.1.code)
      [.immediate low, .immediate width] = .ok true := by
  rw [List.map_cons, OperandKind.fitsAll_cons, fits_immediate_iff isFirst plain,
    fitsAll_immediate_iff isSecond plain']
  exact ⟨unshifted, unshifted'⟩

/-- The place and the width of an extraction set both positions. -/
theorem allOperands_extraction {form : InstructionForm} {before : Draft}
    {low width : ImmediateOperand} {l w : Nat} (isLow : low.Denotes evaluate l)
    (isWidth : width.Denotes evaluate w) (positive : 0 < w) (within : l + w ≤ before.size) :
    Encode.allOperands form here evaluate before
        (extraction.map fun operand => (operand.1.code, operand.2))
        [.immediate low, .immediate width] =
      .ok (({ before with lowest := (l : Int) }.set 'r' l).set 's' (l + w - 1 : Nat)) := by
  refine bind_eq_ok.mpr ⟨_, Encode.operand_extractLow_eq_ok.mpr ⟨l, isLow.known, by omega, rfl⟩,
    allOperands_single.mpr
      (Encode.operand_extractWidth_eq_ok.mpr ⟨w, isWidth.known, ⟨by omega, ?_⟩, ?_⟩)⟩
  · show (w : Int) ≤ before.size - l
    omega
  · rw [Int.natCast_sub (by omega), Int.natCast_add]
    rfl

/-- The place and the width of an insertion set both positions. -/
theorem allOperands_insertion {form : InstructionForm} {before : Draft}
    {low width : ImmediateOperand} {l w : Nat} (isLow : low.Denotes evaluate l)
    (isWidth : width.Denotes evaluate w) (positive : 0 < w) (within : l + w ≤ before.size) :
    Encode.allOperands form here evaluate before
        (insertion.map fun operand => (operand.1.code, operand.2))
        [.immediate low, .immediate width] =
      .ok (({ before with lowest := (l : Int) }.set 'r'
        ((before.size - l) % before.size : Nat)).set 's' (w - 1 : Nat)) := by
  refine bind_eq_ok.mpr ⟨_, Encode.operand_insertLow_eq_ok.mpr ⟨l, isLow.known, by omega, rfl⟩,
    allOperands_single.mpr
      (Encode.operand_insertWidth_eq_ok.mpr ⟨w, isWidth.known, ⟨by omega, ?_⟩, ?_⟩)⟩
  · show (w : Int) ≤ before.size - l
    omega
  · rw [Int.natCast_sub positive, neg_emod_natCast (by omega)]
    rfl

/-- A bitfield is moved. -/
theorem exists_field (move : FieldMove) (plain : d.Plain) (plain' : n.Plain)
    (same : n.register.wide = d.register.wide) {low width : ImmediateOperand} {l w : Nat}
    (isLow : low.Denotes evaluate l) (isWidth : width.Denotes evaluate w) (positive : 0 < w)
    (within : l + w ≤ dataSize d.register.wide) (before : CoreState) :
    ∃ after, AssembledStep here evaluate move.name
        [.register d, .register n, .immediate low, .immediate width] before after ∧
      before.Receives after d.register
        (move.result (before.contents d.register) (before.contents n.register) l w)
        before.status := by
  have has := hasMoveForms.field move (by cases move <;> decide)
  have regular := regular_pair plain plain' [low, width]
  rw [← size_pairDraft d n] at within
  rw [move.result_eq]
  cases extracts : move.extracts with
  | true =>
    rw [fieldOperands, extracts, if_pos rfl] at has
    have moves : Moves (dataSize d.register.wide) l (l + w - 1) l 0 w := by
      rw [size_pairDraft] at within
      exact ⟨positive, within, by omega, by omega, .inl ⟨rfl, rfl⟩⟩
    refine has.exists_move regular (fitsAll_pair_iff.mpr ⟨plain.plain, plain'.plain,
      fitsAll_place rfl rfl (by decide) (by decide) isLow.plain isWidth.plain⟩)
      (fun form => allOperands_pair_eq_ok.mpr
        ⟨same, allOperands_extraction isLow isWidth positive within⟩)
      _ _ _ same moves ?_ (known_moveCodes rfl) rfl
    simp only [List.forall_mem_cons]
    exact ⟨.inl ⟨rfl, rfl⟩, .inl ⟨rfl, rfl⟩, .inl ⟨rfl, rfl⟩, .inl ⟨rfl, rfl⟩, by simp⟩
  | false =>
    rw [fieldOperands, extracts, if_neg (by decide)] at has
    have moves : Moves (dataSize d.register.wide)
        ((dataSize d.register.wide - l) % dataSize d.register.wide) (w - 1) 0 l w := by
      rw [size_pairDraft] at within
      exact ⟨positive, by omega, within, by omega, .inr ⟨rfl, rfl⟩⟩
    refine has.exists_move regular (fitsAll_pair_iff.mpr ⟨plain.plain, plain'.plain,
      fitsAll_place rfl rfl (by decide) (by decide) isLow.plain isWidth.plain⟩)
      (fun form => allOperands_pair_eq_ok.mpr
        ⟨same, allOperands_insertion isLow isWidth positive within⟩)
      _ _ _ same moves ?_ (known_moveCodes rfl) rfl
    rw [size_pairDraft]
    simp only [List.forall_mem_cons]
    exact ⟨.inl ⟨rfl, rfl⟩, .inl ⟨rfl, rfl⟩, .inl ⟨rfl, rfl⟩, .inl ⟨rfl, rfl⟩, by simp⟩

/-- A bitfield is cleared. -/
theorem exists_clear (plain : d.Plain) {low width : ImmediateOperand} {l w : Nat}
    (isLow : low.Denotes evaluate l) (isWidth : width.Denotes evaluate w) (positive : 0 < w)
    (within : l + w ≤ dataSize d.register.wide) (inRange : before.InRange) :
    ∃ after, AssembledStep here evaluate "bfc"
        [.register d, .immediate low, .immediate width] before after ∧
      before.Receives after d.register (Bits.withField (before.contents d.register) l w 0)
        before.status := by
  have size := size_pairDraft d d
  have moves : Moves (dataSize d.register.wide)
      ((dataSize d.register.wide - l) % dataSize d.register.wide) (w - 1) 0 l w :=
    ⟨positive, by omega, within, by omega, .inr ⟨rfl, rfl⟩⟩
  have zero : before.contents ⟨Register.zeroSlot, d.register.wide⟩ >>> 0 = 0 :=
    inRange.contents_zero _
  refine hasMoveForms.clear.exists_move ?_ (OperandKind.fitsAll_cons.mpr
      ⟨fits_register_iff.mpr plain.plain,
        fitsAll_place rfl rfl (by decide) (by decide) isLow.plain isWidth.plain⟩)
    (fun form => bind_eq_ok.mpr ⟨_, Encode.operand_register_eq_ok.mpr ⟨rfl, rfl⟩,
      allOperands_insertion isLow isWidth positive (Nat.le_trans within (Nat.le_of_eq size.symm))⟩)
    .kept d.register ⟨Register.zeroSlot, d.register.wide⟩ rfl moves ?_ (known_moveCodes rfl) ?_
  · simp [Operand.Regular, plain.regular]
  · simp only [List.forall_mem_cons]
    refine ⟨.inl ⟨rfl, rfl⟩, .inr ?_, .inl ⟨rfl, ?_⟩, .inl ⟨rfl, rfl⟩, by simp⟩
    · simp [moveCodes]; rfl
    · rw [← size]; rfl
  · rw [zero]
    rfl

/-- The destination of an extension sets its field, and only a register of any width tells the width
flag. -/
theorem operand_destination (extension : Extension) (fits : d.register.wide ∈ extension.widths)
    (form : InstructionForm) :
    Encode.operand form here evaluate .empty extension.destination.code ['d'] (.register d) =
      .ok ⟨[('d', d.register.slot)],
        if extension.destination = .register then some d.register.wide else none, 0⟩ := by
  cases extension with
  | sxtb | sxth => exact Encode.operand_register_eq_ok.mpr ⟨rfl, rfl⟩
  | sxtw => exact Encode.operand_wideRegister_eq_ok.mpr ⟨List.mem_singleton.mp fits, rfl⟩
  | uxtb | uxth => exact Encode.operand_halfRegister_eq_ok.mpr ⟨List.mem_singleton.mp fits, rfl⟩

/-- A half register is extended. -/
theorem exists_extension (extension : Extension) (plain : d.Plain) (plain' : n.Plain)
    (fits : d.register.wide ∈ extension.widths) (narrow : n.register.wide = false)
    (before : CoreState) :
    ∃ after, AssembledStep here evaluate extension.name [.register d, .register n] before after ∧
      before.Receives after d.register (extension.result (before.contents n.register))
        before.status := by
  have has := hasMoveForms.extend extension (by cases extension <;> decide) _ fits
  have short : extension.width ≤ dataSize d.register.wide ∧ extension.width ≤ dataSize false := by
    cases extension <;> cases wide : d.register.wide <;> rw [wide] at fits <;> revert fits <;> decide
  have moves : Moves (dataSize d.register.wide) 0 (extension.width - 1) 0 0 extension.width := by
    have positive : 0 < extension.width := by cases extension <;> decide
    exact ⟨positive, by omega, by omega, by omega, .inl ⟨rfl, rfl⟩⟩
  have source : before.contents ⟨n.register.slot, d.register.wide⟩ >>> 0 % 2 ^ extension.width =
      before.contents n.register % 2 ^ extension.width := by
    rw [Nat.shiftRight_zero, CoreState.contents, CoreState.contents, narrow,
      Nat.mod_mod_of_dvd _ (Nat.pow_dvd_pow 2 short.1),
      Nat.mod_mod_of_dvd _ (Nat.pow_dvd_pow 2 short.2)]
  refine has.exists_move (regular_pair plain plain' [])
    (OperandKind.fitsAll_cons.mpr ⟨fits_plain (by cases extension <;> decide) plain,
      OperandKind.fitsAll_cons.mpr ⟨fits_plain (by decide) plain', rfl⟩⟩)
    (fun form => bind_eq_ok.mpr ⟨_, operand_destination extension fits form,
      allOperands_single.mpr (Encode.operand_halfRegister_eq_ok.mpr ⟨narrow, rfl⟩)⟩)
    extension.around d.register ⟨n.register.slot, d.register.wide⟩ rfl moves ?_ ?_ ?_
  · simp only [List.forall_mem_cons]
    refine ⟨.inl ⟨?_, rfl⟩, .inl ⟨?_, rfl⟩, .inr ?_, .inr ?_, by simp⟩
    · cases extension <;> rfl
    · cases extension <;> rfl
    · simp [moveCodes]
    · simp [moveCodes]
  · intro field inside
    refine .inr (List.mem_append_left _ ?_)
    have flag : (if extension.destination = .register then
        (if extension.destination = .register then some d.register.wide else none) != some false
        else d.register.wide) = d.register.wide := by
      split <;> simp
    simpa [moveCodes, flag, Draft.set] using inside
  · rw [extension.result_eq (before.contents d.register), extension.around.place_congr _ source]

/-- A register is shifted to the left by an immediate. -/
theorem exists_shiftLeft (plain : d.Plain) (plain' : n.Plain)
    (same : n.register.wide = d.register.wide) {amount : ImmediateOperand} {k : Nat}
    (isAmount : amount.Denotes evaluate k) (within : k < dataSize d.register.wide)
    (before : CoreState) :
    ∃ after, AssembledStep here evaluate "lsl" [.register d, .register n, .immediate amount] before
        after ∧
      before.Receives after d.register (Shift.lsl.result (before.contents n.register) k
        (dataSize d.register.wide)) before.status := by
  have size := size_pairDraft d n
  have moves : Moves (dataSize d.register.wide)
      ((dataSize d.register.wide - k) % dataSize d.register.wide)
      (dataSize d.register.wide - 1 - k) 0 k (dataSize d.register.wide - k) :=
    ⟨by omega, by omega, by omega, by omega, .inr ⟨rfl, rfl⟩⟩
  refine hasMoveForms.shiftLeft.exists_move (regular_pair plain plain' [amount])
    (fitsAll_pair_iff.mpr ⟨plain.plain, plain'.plain,
      (fitsAll_immediate_iff rfl (by decide)).mpr isAmount.plain⟩)
    (fun form => allOperands_pair_eq_ok.mpr ⟨same, allOperands_single.mpr
      (Encode.operand_leftShift_eq_ok.mpr ⟨k, isAmount.known, by omega, rfl⟩)⟩)
    _ _ _ same moves ?_ (known_moveCodes rfl) (Shift.wrap_place_lsl _ _ within)
  rw [size]
  simp only [List.forall_mem_cons]
  exact ⟨.inl ⟨rfl, rfl⟩, .inl ⟨rfl, rfl⟩, .inl ⟨rfl, congrArg some (neg_emod_natCast within)⟩,
    .inl ⟨rfl, congrArg some (by omega)⟩, by simp⟩

/-- A register is shifted to the right by an immediate, with or without its sign. -/
theorem exists_shiftRight (shift : Shift) (isRight : shift ∈ [Shift.lsr, .asr]) (plain : d.Plain)
    (plain' : n.Plain) (same : n.register.wide = d.register.wide) {amount : ImmediateOperand}
    {k : Nat} (isAmount : amount.Denotes evaluate k) (within : k < dataSize d.register.wide)
    (before : CoreState) :
    ∃ after, AssembledStep here evaluate shift.name
        [.register d, .register n, .immediate amount] before after ∧
      before.Receives after d.register (shift.result (before.contents n.register) k
        (dataSize d.register.wide)) before.status := by
  have size := size_pairDraft d n
  have moves : Moves (dataSize d.register.wide) k (dataSize d.register.wide - 1) k 0
      (dataSize d.register.wide - k) :=
    ⟨by omega, by omega, by omega, by omega, .inl ⟨rfl, rfl⟩⟩
  have small := before.contents_lt n.register
  rw [same] at small
  refine (hasMoveForms.shiftRight shift isRight).exists_move (regular_pair plain plain' [amount])
    (fitsAll_pair_iff.mpr ⟨plain.plain, plain'.plain,
      (fitsAll_immediate_iff rfl (by decide)).mpr isAmount.plain⟩)
    (fun form => allOperands_pair_eq_ok.mpr ⟨same, allOperands_single.mpr
      (Encode.operand_shiftAmount_eq_ok.mpr ⟨k, isAmount.known, by omega, rfl⟩)⟩)
    _ _ _ same moves ?_ (known_moveCodes rfl) ?_
  · simp only [List.forall_mem_cons]
    refine ⟨.inl ⟨rfl, rfl⟩, .inl ⟨rfl, rfl⟩, .inl ⟨rfl, rfl⟩, .inr ?_, by simp⟩
    rw [show ((pairDraft d n).set 'r' (k : Int)).wide = some d.register.wide from rfl, flag_some]
    simp [moveCodes]
  · simp only [List.mem_cons, List.not_mem_nil, or_false] at isRight
    rcases isRight with rfl | rfl
    · rw [if_neg (by decide), Shift.place_lsr _ small within]
    · rw [if_pos rfl, Shift.place_asr _ small within]

/-- A form of an extraction takes a step that leaves bits of both sources. -/
theorem HasForm.exists_join (has : HasForm mnemonic .extract operands codes)
    (regular : ∀ given ∈ list, given.Regular)
    (fits : OperandKind.fitsAll (operands.map fun operand => operand.1.code) list = .ok true)
    (gathered : ∀ form, Encode.allOperands form here evaluate .empty
      (operands.map fun operand => (operand.1.code, operand.2)) list = .ok draft)
    (d n m : Register) (same : n.wide = d.wide) (same' : m.wide = d.wide) {position : Nat}
    (known : ∀ field ∈ [('d', d.slot), ('n', n.slot), ('m', m.slot), ('s', position),
      ('z', d.wide.toNat)], Known operands codes draft field)
    {value : Int} (computed : Bits.wrap (dataSize d.wide)
        ((before.contents n * 2 ^ dataSize d.wide + before.contents m) / 2 ^ position : Nat) =
      Bits.wrap (dataSize d.wide) value) :
    ∃ after, AssembledStep here evaluate mnemonic list before after ∧
      before.Receives after d value before.status := by
  refine has.exists_step regular fits gathered _ known fun instruction coded => ?_
  have values := coded.codes
  simp only [List.forall_mem_cons] at values
  obtain ⟨isTarget, isHigh, isLow, rfl, _⟩ := values
  have size : Execution.dataSize instruction = dataSize d.wide :=
    coded.dataSize (by simp) (by decide)
  obtain ⟨slot, wide⟩ := d
  obtain ⟨slot', wide'⟩ := n
  obtain ⟨slot'', wide''⟩ := m
  obtain rfl : instruction.value 'd' = slot := isTarget
  obtain rfl : instruction.value 'n' = slot' := isHigh
  obtain rfl : instruction.value 'm' = slot'' := isLow
  obtain rfl : wide' = wide := same
  obtain rfl : wide'' = wide' := same'
  exact (Execution.ensures_extract (coded.offers _ (by decide)) coded.op size).imp
    fun _ _ both => ⟨both.1, both.2.congr computed⟩

/-- A register is rotated by an immediate. -/
theorem exists_rotate (plain : d.Plain) (plain' : n.Plain)
    (same : n.register.wide = d.register.wide) {amount : ImmediateOperand} {k : Nat}
    (isAmount : amount.Denotes evaluate k) (within : k < dataSize d.register.wide)
    (before : CoreState) :
    ∃ after, AssembledStep here evaluate "ror" [.register d, .register n, .immediate amount] before
        after ∧
      before.Receives after d.register (Shift.ror.result (before.contents n.register) k
        (dataSize d.register.wide)) before.status := by
  have size {draft : Draft} (known : draft.wide = some n.register.wide) : (k : Int) < draft.size := by
    rw [size_of_wide known, same]
    omega
  refine hasMoveForms.rotate.exists_join (regular_pair plain plain' [amount])
    (OperandKind.fitsAll_cons.mpr ⟨fits_plain (by decide) plain, OperandKind.fitsAll_cons.mpr
      ⟨fits_plain (by decide) plain', (fitsAll_immediate_iff rfl (by decide)).mpr isAmount.plain⟩⟩)
    (fun form => bind_eq_ok.mpr ⟨_, Encode.operand_register_eq_ok.mpr ⟨rfl, rfl⟩, bind_eq_ok.mpr ⟨_,
      Encode.operand_roles_eq_ok.mpr ⟨same, rfl⟩, allOperands_single.mpr
        (Encode.operand_shiftAmount_eq_ok.mpr ⟨k, isAmount.known, ⟨by omega, size rfl⟩, rfl⟩)⟩⟩)
    d.register n.register n.register same same ?_ (Shift.wrap_joined _ within)
  simp only [List.forall_mem_cons]
  refine ⟨.inl ⟨rfl, rfl⟩, .inl ⟨rfl, rfl⟩, .inl ⟨rfl, rfl⟩, .inl ⟨rfl, rfl⟩, .inr ?_, by simp⟩
  rw [show Draft.wide _ = some n.register.wide from rfl, flag_some, same]
  exact List.mem_singleton_self _

/-- Bits are extracted from two registers. -/
theorem exists_extract (plain : d.Plain) (plain' : n.Plain) (plain'' : m.Plain)
    (same : n.register.wide = d.register.wide) (same' : m.register.wide = d.register.wide)
    {position : ImmediateOperand} {k : Nat} (isPosition : position.Denotes evaluate k)
    (within : k < dataSize d.register.wide) (before : CoreState) :
    ∃ after, AssembledStep here evaluate "extr"
        [.register d, .register n, .register m, .immediate position] before after ∧
      before.Receives after d.register ((before.contents n.register * 2 ^ dataSize d.register.wide +
        before.contents m.register) / 2 ^ k : Nat) before.status := by
  have size : (k : Int) < ((pairDraft d n).set 'm' m.register.slot).size := by
    rw [size_of_wide rfl]
    omega
  refine hasMoveForms.join.exists_join ?_
    (OperandKind.fitsAll_cons.mpr ⟨fits_plain (by decide) plain, OperandKind.fitsAll_cons.mpr
      ⟨fits_plain (by decide) plain', OperandKind.fitsAll_cons.mpr ⟨fits_plain (by decide) plain'',
        (fitsAll_immediate_iff rfl (by decide)).mpr isPosition.plain⟩⟩⟩)
    (fun form => allOperands_triple same same' (allOperands_single.mpr
      (Encode.operand_shiftAmount_eq_ok.mpr ⟨k, isPosition.known, ⟨by omega, size⟩, rfl⟩)))
    d.register n.register m.register same same' ?_ rfl
  · simp [Operand.Regular, plain.regular, plain'.regular, plain''.regular]
  · simp only [List.forall_mem_cons]
    refine ⟨.inl ⟨rfl, rfl⟩, .inl ⟨rfl, rfl⟩, .inl ⟨rfl, rfl⟩, .inl ⟨rfl, rfl⟩, .inr ?_, by simp⟩
    rw [show Draft.wide _ = some d.register.wide from rfl, flag_some]
    exact List.mem_singleton_self _

/-- A register is shifted by another one. -/
theorem exists_shift (shift : Shift) (plain : d.Plain) (plain' : n.Plain) (plain'' : m.Plain)
    (same : n.register.wide = d.register.wide) (same' : m.register.wide = d.register.wide)
    (before : CoreState) :
    ∃ after, AssembledStep here evaluate shift.name [.register d, .register n, .register m] before
        after ∧
      before.Receives after d.register (shift.result (before.contents n.register)
        (before.contents m.register % dataSize d.register.wide) (dataSize d.register.wide))
        before.status := by
  have has := hasMoveForms.shift shift (by cases shift <;> decide)
  refine has.exists_triple plain plain' plain'' same same'
    (fun d n m after => before.Receives after d (shift.result (before.contents n)
      (before.contents m % dataSize d.wide) (dataSize d.wide)) before.status)
    fun instruction coded => ?_
  have size := coded.dataSize List.mem_cons_self (by decide)
  have code := coded.codes ('c', _) (List.mem_cons_of_mem _ List.mem_cons_self)
  exact Execution.ensures_shift shift (coded.offers _ (by decide)) coded.op size code

end Steps

/-! ### Instructions -/

/-- An instruction that moves bits, and what it leaves in its destination. -/
inductive MovesBits (evaluate : Evaluator) :
    (mnemonic : String) → List Operand → Register → (CoreState → Int) → Prop where
  /-- A bitfield is extracted from the source or inserted into the destination. -/
  | field (move : FieldMove) {d n : RegisterOperand} (plain : d.Plain) (plain' : n.Plain)
      (same : n.register.wide = d.register.wide) {low width : ImmediateOperand} {l w : Nat}
      (isLow : low.Denotes evaluate l) (isWidth : width.Denotes evaluate w) (positive : 0 < w)
      (within : l + w ≤ dataSize d.register.wide) :
      MovesBits evaluate move.name
        [.register d, .register n, .immediate low, .immediate width] d.register
        fun state => move.result (state.contents d.register) (state.contents n.register) l w
  /-- A bitfield of the destination is cleared. -/
  | clear {d : RegisterOperand} (plain : d.Plain) {low width : ImmediateOperand} {l w : Nat}
      (isLow : low.Denotes evaluate l) (isWidth : width.Denotes evaluate w) (positive : 0 < w)
      (within : l + w ≤ dataSize d.register.wide) :
      MovesBits evaluate "bfc" [.register d, .immediate low, .immediate width] d.register
        fun state => Bits.withField (state.contents d.register) l w 0
  /-- The lowest bits of a half register are extended. -/
  | extend (extension : Extension) {d n : RegisterOperand} (plain : d.Plain) (plain' : n.Plain)
      (fits : d.register.wide ∈ extension.widths) (narrow : n.register.wide = false) :
      MovesBits evaluate extension.name [.register d, .register n] d.register
        fun state => extension.result (state.contents n.register)
  /-- A register is shifted by an immediate. -/
  | shift (shift : Shift) {d n : RegisterOperand} (plain : d.Plain) (plain' : n.Plain)
      (same : n.register.wide = d.register.wide) {amount : ImmediateOperand} {k : Nat}
      (isAmount : amount.Denotes evaluate k) (within : k < dataSize d.register.wide) :
      MovesBits evaluate shift.name [.register d, .register n, .immediate amount] d.register
        fun state => shift.result (state.contents n.register) k (dataSize d.register.wide)
  /-- A register is shifted by another one, modulo the data size. -/
  | shiftBy (shift : Shift) {d n m : RegisterOperand} (plain : d.Plain) (plain' : n.Plain)
      (plain'' : m.Plain) (same : n.register.wide = d.register.wide)
      (same' : m.register.wide = d.register.wide) :
      MovesBits evaluate shift.name [.register d, .register n, .register m] d.register
        fun state => shift.result (state.contents n.register)
          (state.contents m.register % dataSize d.register.wide) (dataSize d.register.wide)
  /-- Bits are extracted from two registers. -/
  | extract {d n m : RegisterOperand} (plain : d.Plain) (plain' : n.Plain) (plain'' : m.Plain)
      (same : n.register.wide = d.register.wide) (same' : m.register.wide = d.register.wide)
      {position : ImmediateOperand} {k : Nat} (isPosition : position.Denotes evaluate k)
      (within : k < dataSize d.register.wide) :
      MovesBits evaluate "extr" [.register d, .register n, .register m, .immediate position]
        d.register
        fun state => ((state.contents n.register * 2 ^ dataSize d.register.wide +
          state.contents m.register) / 2 ^ k : Nat)

/-- An assembled instruction that moves bits leaves the result in its destination, and changes nothing
else. -/
theorem exists_step_of_movesBits {evaluate : Evaluator} {mnemonic : String} {list : List Operand}
    {register : Register} {value : CoreState → Int}
    (moves : MovesBits evaluate mnemonic list register value) (here : Int) {before : CoreState}
    (inRange : before.InRange) :
    ∃ after, AssembledStep here evaluate mnemonic list before after ∧
      before.Receives after register (value before) before.status := by
  cases moves with
  | field move plain plain' same isLow isWidth positive within =>
    exact exists_field move plain plain' same isLow isWidth positive within before
  | clear plain isLow isWidth positive within =>
    exact exists_clear plain isLow isWidth positive within inRange
  | extend extension plain plain' fits narrow =>
    exact exists_extension extension plain plain' fits narrow before
  | shift shift plain plain' same isAmount within =>
    cases shift with
    | lsl => exact exists_shiftLeft plain plain' same isAmount within before
    | lsr => exact exists_shiftRight .lsr (by decide) plain plain' same isAmount within before
    | asr => exact exists_shiftRight .asr (by decide) plain plain' same isAmount within before
    | ror => exact exists_rotate plain plain' same isAmount within before
  | shiftBy shift plain plain' plain'' same same' =>
    exact exists_shift shift plain plain' plain'' same same' before
  | extract plain plain' plain'' same same' isPosition within =>
    exact exists_extract plain plain' plain'' same same' isPosition within before

/-- The top four bits of a register are taken out with their sign. -/
theorem exists_step_sbfx :
    ∃ (list : List Operand) (before after : CoreState),
      Operand.parse "x0, x1, #60, #4" 0 = .ok list ∧ before.registers.value 1 = 2 ^ 63 ∧
      AssembledStep 0 (Codec.addressOnly 0) "sbfx" list before after ∧
      after.registers.value 0 = 2 ^ 64 - 8 := by
  let number (text : String) (start stop : Int) : ImmediateOperand :=
    ⟨⟨[⟨.number, text, ⟨start, stop⟩⟩], ⟨start, stop⟩⟩, none, none, ⟨start - 1, stop⟩⟩
  let d : RegisterOperand := ⟨"x0", ⟨0, true⟩, none, none, ⟨0, 2⟩⟩
  let n : RegisterOperand := ⟨"x1", ⟨1, true⟩, none, none, ⟨4, 6⟩⟩
  let before : CoreState :=
    ⟨⟨(Vector.replicate 32 0).set 1 (2 ^ 63), false, []⟩, .clear, .ofBytes .little #[]⟩
  have known (operand : ImmediateOperand) (value : Int)
      (read : (Codec.addressOnly 0 operand.value).toOption = some value) :
      Codec.addressOnly 0 operand.value = .ok value := toOption_eq_some.mp read
  have plain : d.Plain := ⟨⟨by decide, by decide⟩, rfl⟩
  have plain' : n.Plain := ⟨⟨by decide, by decide⟩, rfl⟩
  have moves := MovesBits.field .sbfx plain plain' rfl
    ⟨rfl, known (number "60" 9 11) (60 : Nat) (by decide +kernel)⟩
    ⟨rfl, known (number "4" 14 15) (4 : Nat) (by decide +kernel)⟩ (by decide) (by decide)
  have inRange : before.InRange := ⟨⟨by decide +kernel, by decide +kernel⟩, rfl⟩
  obtain ⟨after, step, receives⟩ := exists_step_of_movesBits moves 0 inRange
  exact ⟨_, before, after, toOption_eq_some.mp (by decide +kernel), by decide +kernel, step,
    (receives.result (by decide)).trans (by decide +kernel)⟩

end InstructionSet

end A64Machine
