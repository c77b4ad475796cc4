import A64Machine.Decode
import A64Machine.Register

/-!
# Disassembly

The text of an instruction: its mnemonic and its operands as they would be written for the form
that the word belongs to.
-/

namespace A64Machine

namespace Disassembly

/-- An immediate with its number sign: in decimal notation below 256, otherwise in hexadecimal
notation. -/
def immediate (value : Int) : String :=
  if -256 < value ∧ value < 256 then "#" ++ Text.decimal value else "#" ++ Text.hex value

/-- A register by its number. -/
def register (number : Nat) (wide : Bool) : String := Register.name ⟨number, wide⟩

/-- The keyword of a code in a list of shifts or extensions. -/
def modifier (modifiers : List Modifier) (code : Nat) : Except TableDefect String :=
  match modifiers[code]? with
  | some modifier => .ok modifier.name
  | none => .error (.unknownCode code)

/-- The width of a field that the pattern must have. -/
def fieldWidth (form : InstructionForm) (letter : Char) : Except TableDefect Nat :=
  match form.pattern.width? letter with
  | some width => .ok width
  | none => .error (.absentField [letter])

/-- The signed distance that is split into its words and its remaining bytes. -/
def splitOffset (fields : Fields) : Except TableDefect Int := do
  return Bits.signExtend ((← fields.read 'I') <<< 2 ||| (← fields.read 'i') : Nat) 21

/-- The number of bytes of one access. -/
def accessSize (form : InstructionForm) (wide : Bool) : Int :=
  match form.size with
  | some size => if size = 0 then if wide then 8 else 4 else size
  | none => if wide then 8 else 4

/-- The text of an index register behind its base. -/
def index (form : InstructionForm) (fields : Fields) (wide : Bool) :
    Except TableDefect String := do
  let code ← fields.read 'o'
  let scale : Int := (Bits.bitLength (accessSize form wide).natAbs : Int) - 1
  let number := register (← fields.read 'm') (code % 4 == 3)
  if code ≠ 3 then
    let keyword ← modifier Modifier.extensions code
    let shift := if (← fields.read 'S') ≠ 0 then " #" ++ Text.decimal scale else ""
    return number ++ ", " ++ keyword ++ shift
  else
    let shift := if (← fields.read 'S') ≠ 0 then ", lsl #" ++ Text.decimal scale else ""
    return number ++ shift

/-- The offset of an address in bytes. -/
def offset (form : InstructionForm) (kind : OperandKind) (fields : Fields) (wide : Bool) :
    Except TableDefect Int := do
  let width ← fieldWidth form 'I'
  let field ← fields.read 'I'
  if form.pair then return Bits.signExtend field width * accessSize form wide
  else if kind = .scaledAddress then return field * accessSize form wide
  else return Bits.signExtend field width

/-- The text of an address. -/
def address (form : InstructionForm) (kind : OperandKind) (fields : Fields) (wide : Bool) :
    Except TableDefect String := do
  let base := "[" ++ register (← fields.read 'n') true
  match kind with
  | .registerIndexed => return base ++ ", " ++ (← index form fields wide) ++ "]"
  | .postIndexed => return base ++ "], " ++ immediate (← offset form kind fields wide)
  | .preIndexed => return base ++ ", " ++ immediate (← offset form kind fields wide) ++ "]!"
  | _ =>
    let offset ← offset form kind fields wide
    return if offset = 0 then base ++ "]" else base ++ ", " ++ immediate offset ++ "]"

/-- The text of an operand of the given kind and role. -/
def operand (form : InstructionForm) (kind : OperandKind) (role : List Char) (fields : Fields)
    (wide : Bool) (here : Int) : Except TableDefect String := do
  let size := InstructionForm.dataSize wide
  match kind with
  | .register => return register (← fields.readRole (role.take 1)) wide
  | .wideRegister => return register (← fields.readRole (role.take 1)) true
  | .halfRegister => return register (← fields.readRole (role.take 1)) false
  | .extended =>
    let code ← fields.read 'o'
    let number := register (← fields.read 'm') (code % 4 == 3)
    let keyword ← modifier Modifier.extensions code
    let amount ← fields.read 'i'
    let shift := if amount ≠ 0 then " #" ++ Text.decimal amount else ""
    return number ++ ", " ++ keyword ++ shift
  | .shifted | .arithmeticShifted =>
    let number := register (← fields.read 'm') wide
    let code ← fields.read 's'
    let amount ← fields.read 'i'
    if code = 0 ∧ amount = 0 then return number
    return number ++ ", " ++ (← modifier Modifier.shifts code) ++ " #" ++ Text.decimal amount
  | .immediate | .shiftAmount => return immediate (← fields.readRole role)
  | .bitNumber => return immediate (← fields.read 'b')
  | .arithmeticImmediate =>
    let shifted ← fields.read 's'
    let field ← fields.read 'i'
    if shifted ≠ 0 ∧ field = 0 then return "#0, lsl #12"
    return immediate (field <<< (12 * shifted) : Nat)
  | .bitmask =>
    let decoded :=
      LogicalImmediate.decode (← fields.read 'N') (← fields.read 's') (← fields.read 'r') size true
    return "#" ++ Text.hex ((decoded.map Prod.fst).getD 0)
  | .wide => return immediate ((← fields.read 'j') <<< (16 * (← fields.read 'h')) : Nat)
  | .invertedWide =>
    let value : Nat := (← fields.read 'j') <<< (16 * (← fields.read 'h'))
    return immediate (Bits.signExtend (Bits.wrap size (-1 - value)) size)
  | .branchTarget =>
    let offset := Bits.signExtend (← fields.read 'I') (← fieldWidth form 'I')
    return Text.hex (here + offset * 4)
  | .byteTarget => return Text.hex (here + (← splitOffset fields))
  | .pageTarget => return Text.hex (here - here % 4096 + (← splitOffset fields) * 4096)
  | .leftShift => return immediate (size - 1 - (← fields.read 's'))
  | .insertLow => return immediate (-((← fields.read 'r') : Int) % size)
  | .insertWidth => return immediate ((← fields.read 's') + 1)
  | .extractLow => return immediate (← fields.read 'r')
  | .extractWidth => return immediate ((← fields.read 's') - (← fields.read 'r') + 1)
  | .scaledAddress | .unscaledAddress | .preIndexed | .postIndexed | .registerIndexed =>
    address form kind fields wide

/-- The texts of all operands of a form. -/
def allOperands (form : InstructionForm) (fields : Fields) (wide : Bool) (here : Int) :
    List (Char × List Char) → Except TableDefect (List String)
  | [] => .ok []
  | (code, role) :: rest => do
    match OperandKind.ofChar? code with
    | none => throw (.unknownKind code)
    | some kind =>
      let text ← operand form kind role fields wide here
      return text :: (← allOperands form fields wide here rest)

end Disassembly

namespace Instruction

/-- The mnemonic and the operands of an instruction. -/
def text (instruction : Instruction) : Except TableDefect String := do
  let form := instruction.form
  let fields := form.pattern.decode (Instruction.wordBits instruction.word)
  let operands ←
    Disassembly.allOperands form fields (form.isWide fields) instruction.address
      (form.shape.zip form.roles)
  return if operands.isEmpty then form.mnemonic
    else form.mnemonic ++ " " ++ ", ".intercalate operands

end Instruction

namespace Codec

/-- The text of a word: its instruction, or the word itself where it has none. -/
def wordText (codec : Codec) (word : Int) (address : Int) : Except TableDefect String := do
  match ← codec.decode word address with
  | none => return ".word " ++ Text.wordHex word
  | some instruction => instruction.text

end Codec

/-- The text of the fault of a word that has no instruction. -/
def undecodableMessage (address : Int) (word : Int) : String :=
  "Cannot decode instruction " ++ Text.wordHex word ++ " at " ++ Text.hex address

end A64Machine
