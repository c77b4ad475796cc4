import A64Machine.Decode
import A64Machine.Operand

/-!
# Encoding

An instruction is encoded by the first form of its mnemonic whose shape fits the operands and
that takes their values. Where no form does, the first complaint of a fitting form is the answer.
-/

namespace A64Machine

/-- Why operands have no encoding: they were refused, or the table is defective. -/
inductive EncodeFailure where
  | refused (refusal : Refusal)
  | defective (defect : TableDefect)
  deriving DecidableEq, Repr

/-- The meaning of expressions during an encoding. -/
abbrev Evaluator := Expression → Except Refusal Int

namespace OperandKind

/-- Whether the operand is a register without a shift or an extension. -/
def isPlain (operand : RegisterOperand) : Bool := operand.modifier.isNone

/-- Whether the part is an immediate without a shift. -/
def isPlainImmediate : AddressPart → Bool
  | .register _ => false
  | .immediate operand => operand.modifier.isNone

/-- Whether the part is an index register with a modifier that an index may have. -/
def isIndex : AddressPart → Bool
  | .register operand => (Modifier.indexCode? operand.modifier).isSome
  | .immediate _ => false

/-- Whether a register operand fits the kind. -/
def fitsRegister (kind : OperandKind) (operand : RegisterOperand) : Bool :=
  match kind with
  | .register | .wideRegister | .halfRegister => isPlain operand
  | .extended => operand.modifier.any fun modifier => modifier.extendCode?.isSome
  | .shifted => operand.modifier.all fun modifier => modifier.shiftCode?.isSome
  | .arithmeticShifted =>
    operand.modifier.all fun modifier => modifier.shiftCode?.any fun code => decide (code < 3)
  | _ => false

/-- Whether the kind stands for an immediate. -/
def isImmediate : OperandKind → Bool
  | .immediate | .shiftAmount | .arithmeticImmediate | .bitmask | .wide | .invertedWide
  | .branchTarget | .byteTarget | .pageTarget | .leftShift | .insertLow | .insertWidth
  | .extractLow | .extractWidth | .bitNumber => true
  | _ => false

/-- Whether the base of an address and what follows it fit the kind. -/
def fitsAddress (kind : OperandKind) (operand : AddressOperand) : Bool :=
  let offset := operand.parts.tail
  match kind with
  | .scaledAddress | .unscaledAddress =>
    !operand.preIndexed && operand.postIndex.isNone && decide (offset.length ≤ 1) &&
      offset.all isPlainImmediate
  | .preIndexed =>
    operand.preIndexed && operand.postIndex.isNone && decide (offset.length ≤ 1) &&
      offset.all isPlainImmediate
  | .postIndexed => !operand.preIndexed && operand.postIndex.isSome && offset.isEmpty
  | .registerIndexed =>
    !operand.preIndexed && operand.postIndex.isNone && decide (offset.length = 1) &&
      offset.all isIndex
  | _ => false

/-- The register at the start of an address. -/
def base? (operand : AddressOperand) : Option RegisterOperand :=
  match operand.parts with
  | .register base :: _ => some base
  | _ => none

/-- Whether the operand fits a kind given by its character. Only an address with a plain base can
tell that the kind has no meaning. -/
def fits (code : Char) (operand : Operand) : Except TableDefect Bool :=
  match ofChar? code, operand with
  | some kind, .register given => .ok (kind.fitsRegister given)
  | some kind, .immediate given =>
    .ok (kind.isImmediate && (given.modifier.isNone || kind == .arithmeticImmediate))
  | some kind, .address given => .ok ((base? given).any isPlain && kind.fitsAddress given)
  | none, .address given =>
    if (base? given).any isPlain then .error (.unknownKind code) else .ok false
  | none, _ => .ok false

/-- Whether operands fit kinds, one by one. -/
def fitsEach : List (Char × Operand) → Except TableDefect Bool
  | [] => .ok true
  | (code, operand) :: rest => do
    if ← fits code operand then fitsEach rest else return false

/-- Whether the operands fit a shape, which has one kind for each of them. -/
def fitsAll (shape : List Char) (operands : List Operand) : Except TableDefect Bool :=
  if shape.length = operands.length then fitsEach (shape.zip operands) else .ok false

end OperandKind

/-- What an encoding has gathered from the operands so far: field values, the latest first, the
width that the first register set, and the lowest bit of a bitfield. -/
structure Draft where
  values : List (Char × Int)
  wide : Option Bool
  lowest : Int
  deriving DecidableEq, Repr

namespace Draft

/-- The draft before any operand. -/
def empty : Draft := ⟨[], none, 0⟩

/-- The data size in bits, which is 64 unless a register was narrow. -/
def size (draft : Draft) : Nat := if draft.wide = some false then 32 else 64

/-- Sets a field. -/
def set (draft : Draft) (letter : Char) (value : Int) : Draft :=
  { draft with values := (letter, value) :: draft.values }

/-- Sets every field of a role. -/
def setAll (draft : Draft) (role : List Char) (value : Int) : Draft :=
  role.foldl (fun draft letter => draft.set letter value) draft

/-- Sets the field of a role that names one. -/
def setRole (draft : Draft) (role : List Char) (value : Int) : Draft :=
  match role with
  | [letter] => draft.set letter value
  | _ => draft

end Draft

namespace Encode

/-- A failure that is a complaint about a place. -/
def complain (complaint : Complaint) (span : Span) : EncodeFailure :=
  .refused (.assembly ⟨complaint, span⟩)

/-- Complains unless the condition holds. -/
def require (condition : Bool) (complaint : Complaint) (span : Span) :
    Except EncodeFailure Unit :=
  if condition then .ok () else .error (complain complaint span)

/-- The value of an expression. -/
def value (evaluate : Evaluator) (expression : Expression) : Except EncodeFailure Int :=
  (evaluate expression).mapError .refused

/-- The value of an amount, which is zero when none was written. -/
def amount (evaluate : Evaluator) : Option Expression → Except EncodeFailure Int
  | none => .ok 0
  | some expression => value evaluate expression

/-- The width of a field that the pattern must have. -/
def fieldWidth (form : InstructionForm) (role : List Char) : Except EncodeFailure Nat :=
  match role with
  | [letter] =>
    match form.pattern.width? letter with
    | some width => .ok width
    | none => .error (.defective (.absentField role))
  | _ => .error (.defective (.absentField role))

/-- The number of a register that must have the given width. -/
def registerNumber (operand : RegisterOperand) (wide : Bool) : Except EncodeFailure Int := do
  require (operand.register.wide == wide) (.registerWidth wide) operand.span
  return operand.register.slot

/-- The number of bytes of one access: what the form fixes, or the width of the register. -/
def accessSize (form : InstructionForm) (wide : Bool) : Int :=
  match form.size with
  | some size => if size = 0 then if wide then 8 else 4 else size
  | none => if wide then 8 else 4

/-- The power of two of an access size. -/
def accessScale (size : Int) : Int := (Bits.bitLength size.natAbs : Int) - 1

/-- Whether the value is a signed number of the given width. -/
def isSigned (value : Int) (width : Nat) : Bool :=
  decide (-(2 ^ (width - 1) : Nat) ≤ value ∧ value < (2 ^ (width - 1) : Nat))

/-- Whether the value is an unsigned number below the limit. -/
def isBelow (value : Int) (limit : Nat) : Bool := decide (0 ≤ value ∧ value < limit)

/-- Encodes a register. -/
def register (kind : OperandKind) (role : List Char) (operand : RegisterOperand)
    (evaluate : Evaluator) (draft : Draft) : Except EncodeFailure Draft := do
  match kind with
  | .register =>
    let wide := draft.wide.getD operand.register.wide
    let number ← registerNumber operand wide
    return { draft with wide := some wide }.setAll role number
  | .wideRegister => return draft.setAll role (← registerNumber operand true)
  | .halfRegister => return draft.setAll role (← registerNumber operand false)
  | .extended =>
    let code := (operand.modifier.bind Modifier.extendCode?).getD 0
    let number ← registerNumber operand (code % 4 == 3)
    let amount ← amount evaluate operand.amount
    require (decide (0 ≤ amount ∧ amount ≤ 4)) .extendAmount operand.span
    return ((draft.set 'm' number).set 'o' code).set 'i' amount
  | _ =>
    let number ← registerNumber operand (draft.wide.getD operand.register.wide)
    let code := (operand.modifier.bind Modifier.shiftCode?).getD 0
    let amount ← amount evaluate operand.amount
    require (isBelow amount draft.size) .shiftAmountRange operand.span
    return ((draft.set 'm' number).set 's' code).set 'i' amount

/-- Encodes an immediate of an addition, which is shifted by twelve if that was written or if it
does not fit otherwise. -/
def arithmeticImmediate (operand : ImmediateOperand) (value : Int) (evaluate : Evaluator)
    (draft : Draft) : Except EncodeFailure Draft := do
  let amount ← amount evaluate operand.amount
  require (operand.modifier.isNone || amount == 0 || amount == 12) .shiftAmountZeroOrTwelve
    operand.span
  if amount = 12 then
    require (isBelow value 4096) .immediateRange operand.span
    return (draft.set 's' 1).set 'i' value
  else if isBelow value 4096 then return (draft.set 's' 0).set 'i' value
  else
    require (decide (0 < value ∧ value % 4096 = 0 ∧ value / 4096 < 4096)) .immediateRange
      operand.span
    return (draft.set 's' 1).set 'i' (value / 4096)

/-- Encodes a logical immediate. -/
def bitmask (span : Span) (value : Int) (draft : Draft) : Except EncodeFailure Draft := do
  require (decide (-(2 ^ (draft.size - 1) : Nat) ≤ value ∧ value < (2 ^ draft.size : Nat)))
    .immediateRange span
  match LogicalImmediate.encode value draft.size with
  | none => throw (complain .notBitmask span)
  | some (n, immr, imms) => return ((draft.set 'N' n).set 'r' immr).set 's' imms

/-- Encodes a half-word and its position. -/
def wideImmediate (span : Span) (value : Int) (draft : Draft) : Except EncodeFailure Draft := do
  require (isBelow value (2 ^ draft.size)) .immediateRange span
  match WideImmediate.position? value.toNat draft.size with
  | none => throw (complain .notWide span)
  | some position =>
    return (draft.set 'h' position).set 'j' (value.toNat >>> (16 * position) : Nat)

/-- Encodes a distance of 21 bits that is split into its words and its remaining bytes. -/
def splitOffset (span : Span) (offset : Int) (draft : Draft) : Except EncodeFailure Draft := do
  require (isSigned offset 21) .addressRange span
  let offset := Bits.wrap 21 offset
  return (draft.set 'I' (offset / 4 : Nat)).set 'i' (offset % 4 : Nat)

/-- Encodes an immediate whose value is known. -/
def immediate (form : InstructionForm) (address : Int) (kind : OperandKind) (role : List Char)
    (operand : ImmediateOperand) (value : Int) (evaluate : Evaluator) (draft : Draft) :
    Except EncodeFailure Draft := do
  let size := draft.size
  let span := operand.span
  match kind with
  | .immediate =>
    require (isBelow value (2 ^ (← fieldWidth form role))) .immediateRange span
    return draft.setRole role value
  | .shiftAmount =>
    require (isBelow value size) .shiftAmountRange span
    return draft.setRole role value
  | .arithmeticImmediate => arithmeticImmediate operand value evaluate draft
  | .bitmask => bitmask span value draft
  | .wide => wideImmediate span value draft
  | .invertedWide =>
    require (decide (-(2 ^ size : Nat) < value ∧ value < (2 ^ size : Nat))) .immediateRange span
    wideImmediate span (Bits.wrap size (-1 - value)) draft
  | .branchTarget =>
    let offset := value - address
    require (offset % 4 == 0) .targetUnaligned span
    let width ← fieldWidth form ['I']
    require (isSigned (offset / 4) width) .targetRange span
    return draft.set 'I' (Bits.wrap width (offset / 4))
  | .byteTarget => splitOffset span (value - address) draft
  | .pageTarget => splitOffset span (value / 4096 - address / 4096) draft
  | .leftShift =>
    require (isBelow value size) .shiftAmountRange span
    return (draft.set 'r' (-value % size)).set 's' (size - 1 - value)
  | .insertLow =>
    require (isBelow value size) .lsbRange span
    return { draft with lowest := value }.set 'r' (-value % size)
  | .extractLow =>
    require (isBelow value size) .lsbRange span
    return { draft with lowest := value }.set 'r' value
  | .insertWidth =>
    require (decide (1 ≤ value ∧ value ≤ size - draft.lowest)) .bitfieldWidthRange span
    return draft.set 's' (value - 1)
  | .extractWidth =>
    require (decide (1 ≤ value ∧ value ≤ size - draft.lowest)) .bitfieldWidthRange span
    return draft.set 's' (draft.lowest + value - 1)
  | .bitNumber =>
    require (isBelow value size) .bitNumberRange span
    return draft.set 'b' value
  | _ => return draft

/-- Encodes the offset of an address, counted in accesses or in bytes. -/
def offset (form : InstructionForm) (span : Span) (scaled : Bool) (offset : Int) (draft : Draft) :
    Except EncodeFailure Draft := do
  let width ← fieldWidth form ['I']
  let size := if scaled then accessSize form (draft.wide != some false) else 1
  require (offset % size == 0) (.offsetMultiple size) span
  let offset := offset / size
  require (if form.pair || !scaled then isSigned offset width else isBelow offset (2 ^ width))
    .offsetRange span
  return draft.set 'I' (Bits.wrap width offset)

/-- Encodes an index register and its shift. -/
def index (form : InstructionForm) (operand : RegisterOperand) (evaluate : Evaluator)
    (draft : Draft) : Except EncodeFailure Draft := do
  let code := (Modifier.indexCode? operand.modifier).getD 3
  let number ← registerNumber operand (code % 4 == 3)
  let scale := accessScale (accessSize form (draft.wide != some false))
  let shifted : Int ←
    match operand.amount with
    | none => pure 0
    | some expression => do
      let amount ← value evaluate expression
      require (amount == 0 || amount == scale) (.indexShift scale) operand.span
      pure (if amount = scale then 1 else 0)
  return ((draft.set 'S' shifted).set 'm' number).set 'o' code

/-- Encodes an address. -/
def address (form : InstructionForm) (kind : OperandKind) (operand : AddressOperand)
    (evaluate : Evaluator) (draft : Draft) : Except EncodeFailure Draft := do
  match operand.parts with
  | .register base :: rest =>
    require base.register.wide .baseRegister base.span
    let draft := draft.set 'n' base.register.slot
    match kind, rest with
    | .postIndexed, _ =>
      offset form operand.span form.pair (← amount evaluate operand.postIndex) draft
    | .registerIndexed, .register part :: _ => index form part evaluate draft
    | kind, .immediate part :: _ =>
      offset form operand.span (kind == .scaledAddress || form.pair)
        (← value evaluate part.value) draft
    | kind, _ => offset form operand.span (kind == .scaledAddress || form.pair) 0 draft
  | _ => return draft

/-- Encodes an operand that fits the kind of the given character. -/
def operand (form : InstructionForm) (here : Int) (evaluate : Evaluator) (draft : Draft)
    (code : Char) (role : List Char) (operand : Operand) : Except EncodeFailure Draft := do
  match OperandKind.ofChar? code, operand with
  | none, _ => throw (.defective (.unknownKind code))
  | some kind, .register operand => register kind role operand evaluate draft
  | some kind, .immediate operand =>
    immediate form here kind role operand (← value evaluate operand.value) evaluate draft
  | some kind, .address operand => address form kind operand evaluate draft

/-- Encodes all operands in order. -/
def allOperands (form : InstructionForm) (here : Int) (evaluate : Evaluator) (draft : Draft) :
    List (Char × List Char) → List Operand → Except EncodeFailure Draft
  | (code, role) :: kinds, next :: rest => do
    allOperands form here evaluate (← operand form here evaluate draft code role next) kinds rest
  | _, _ => .ok draft

/-- The word of a form for operands that fit its shape. Unless an operand has set the width flag,
the first register sets it. -/
def formWord (form : InstructionForm) (here : Int) (evaluate : Evaluator) (list : List Operand) :
    Except EncodeFailure Nat := do
  let draft ← allOperands form here evaluate .empty (form.shape.zip form.roles) list
  let draft :=
    match form.pattern.width? 'z', draft.values.lookup 'z' with
    | some width, none => draft.set 'z' (if draft.wide = some false then 0 else Bits.mask width)
    | _, _ => draft
  match form.pattern.encode fun letter => draft.values.lookup letter with
  | .ok word => return word
  | .error error => throw (complain (.field error) (Operand.spanOf list))

/-- The word of the first entry that takes the operands, after the first complaint so far. An
entry that is not implemented ends the search if the operands fit it. -/
def firstEntry (mnemonic : String) (here : Int) (evaluate : Evaluator) (list : List Operand) :
    (complaint : Option AssemblyError) → List OpcodeEntry → Except EncodeFailure Nat
  | complaint, [] =>
    .error (.refused (.assembly (complaint.getD ⟨.noMatchingForm mnemonic, Operand.spanOf list⟩)))
  | complaint, entry :: rest => do
    if ← (OperandKind.fitsAll entry.head.shape list).mapError .defective then
      match entry with
      | .declared _ => throw (complain (.notImplemented mnemonic) (Operand.spanOf list))
      | .implemented candidate =>
        match formWord candidate here evaluate list with
        | .error (.refused (.assembly error)) =>
          firstEntry mnemonic here evaluate list (complaint.or (some error)) rest
        | result => result
    else firstEntry mnemonic here evaluate list complaint rest

end Encode

namespace Codec

/-- The word of an instruction with the given operands at an address. -/
def encode (codec : Codec) (mnemonic : String) (operands : List Operand) (address : Int)
    (evaluate : Evaluator) : Except EncodeFailure Nat :=
  match codec.table.entries mnemonic with
  | [] => .error (Encode.complain (.unknownMnemonic mnemonic) (Operand.spanOf operands))
  | entries => Encode.firstEntry mnemonic address evaluate operands none entries

/-- The evaluator that knows no symbols and reads `.` as the address of the instruction. -/
def addressOnly (address : Int) : Evaluator := Expression.evaluate (fun _ => none) address

end Codec

end A64Machine
