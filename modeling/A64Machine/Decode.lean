import A64Machine.InstructionSet
import A64Machine.LogicalImmediate
import A64Machine.Modifier

/-!
# Decoding

A word is decoded by the first form of the table whose literal bits agree with it and whose
fields are admissible. The mnemonic and the operands come from that form, while the fields that
are executed come from the base form of its operation.
-/

namespace A64Machine

/-- A defect of a table that shows only when an instruction is read or written: an operand kind
without a meaning, a field that a kind needs and the pattern lacks, or a code beyond the known
shifts and extensions. -/
inductive TableDefect where
  | unknownKind (kind : Char)
  | absentField (letters : List Char)
  | unknownCode (code : Nat)
  deriving DecidableEq, Repr

/-- The text of a table defect. -/
def TableDefect.message : TableDefect → String
  | .unknownKind kind => "Unknown operand kind '" ++ kind.toString ++ "'"
  | .absentField letters => "No field '" ++ String.ofList letters ++ "'"
  | .unknownCode code => "No keyword has the code " ++ Text.decimal code

/-- The values of the fields of a word, in the order of the pattern. -/
abbrev Fields := List (Char × Nat)

namespace Fields

/-- The value of a field, which a sound table has. -/
def read (fields : Fields) (letter : Char) : Except TableDefect Nat :=
  match fields.lookup letter with
  | some value => .ok value
  | none => .error (.absentField [letter])

/-- The value of the field that a role names. -/
def readRole (fields : Fields) : (role : List Char) → Except TableDefect Nat
  | [letter] => fields.read letter
  | letters => .error (.absentField letters)

end Fields

namespace InstructionForm

/-- Whether the instruction works at full width: by its width flag, by the bit number it tests,
or by the registers it names. -/
def isWide (form : InstructionForm) (fields : Fields) : Bool :=
  match fields.lookup 'z', fields.lookup 'b' with
  | some z, _ => z != 0
  | none, some b => decide (32 ≤ b)
  | none, none => form.shape.contains 'x' || !form.shape.contains 'w'

/-- The data size in bits at full or at half width. -/
def dataSize (wide : Bool) : Nat := if wide then 64 else 32

/-- Whether all bits of the width flag agree. -/
def widthAgrees (form : InstructionForm) (fields : Fields) : Bool :=
  match form.pattern.width? 'z' with
  | none => true
  | some width =>
    let z := (fields.lookup 'z').getD 0
    z == 0 || z == Bits.mask width

/-- Whether the positions of a bitfield move or an extraction lie within the data size. -/
def positionsFit (form : InstructionForm) (fields : Fields) (size : Nat) : Bool :=
  !(form.op == .bitfield || form.op == .extract) ||
    ['r', 's'].all fun letter => decide ((fields.lookup letter).getD 0 < size)

/-- Whether a masked immediate has a mask, and for a move one that a wide move cannot load. -/
def admitsBitmask (mnemonic : String) (fields : Fields) (size : Nat) : Except TableDefect Bool := do
  let n ← fields.read 'N'
  if size = 32 ∧ n ≠ 0 then return false
  let s ← fields.read 's'
  let r ← fields.read 'r'
  match LogicalImmediate.decode n s r size true with
  | none => return false
  | some (mask, _) => return !(mnemonic == "mov" && WideImmediate.encodable mask size)

/-- Whether a half-word and its position are the ones that an assembler chooses. -/
def admitsWide (inverted : Bool) (fields : Fields) (size : Nat) : Except TableDefect Bool := do
  let j ← fields.read 'j'
  let h ← fields.read 'h'
  return !(j == 0 && h != 0) && decide (h < size / 16) &&
    !(inverted && size == 32 && j == 0xffff)

/-- Whether the fields of an operand of the given kind and role are admissible. -/
def admitsOperand (mnemonic : String) (fields : Fields) (size : Nat) (kind : OperandKind)
    (role : List Char) : Except TableDefect Bool := do
  match kind with
  | .register | .wideRegister | .halfRegister =>
    let values ← role.mapM fields.read
    return values.all fun value => values.head? == some value
  | .extended => return decide ((← fields.read 'i') ≤ 4)
  | .shifted => return decide ((← fields.read 'i') < size)
  | .arithmeticShifted =>
    if (← fields.read 's') = 3 then return false
    return decide ((← fields.read 'i') < size)
  | .bitmask => admitsBitmask mnemonic fields size
  | .wide => admitsWide false fields size
  | .invertedWide => admitsWide true fields size
  | .leftShift =>
    let s ← fields.read 's'
    if s + 1 = size then return false
    return s + 1 == (← fields.read 'r')
  | .insertLow => return decide ((← fields.read 's') < (← fields.read 'r'))
  | .extractLow => return decide ((← fields.read 'r') ≤ (← fields.read 's'))
  | .registerIndexed => return [2, 3, 6, 7].contains (← fields.read 'o')
  | _ => return true

/-- Whether the fields of every operand are admissible. Kinds without a meaning admit all. -/
def admitsOperands (mnemonic : String) (fields : Fields) (size : Nat) :
    List (Char × List Char) → Except TableDefect Bool
  | [] => .ok true
  | (code, role) :: rest => do
    match OperandKind.ofChar? code with
    | none => admitsOperands mnemonic fields size rest
    | some kind =>
      if ← admitsOperand mnemonic fields size kind role then
        admitsOperands mnemonic fields size rest
      else return false

/-- Whether the form admits the fields that its pattern takes from a word: the conditions that
literal bits cannot express. -/
def admits (form : InstructionForm) (fields : Fields) : Except TableDefect Bool :=
  let size := dataSize (form.isWide fields)
  if form.widthAgrees fields && form.positionsFit fields size then
    admitsOperands form.mnemonic fields size (form.shape.zip form.roles)
  else .ok false

end InstructionForm

/-- A decoded word: its address, the integer whose lowest bits it was read from, the form that it
belongs to, the fields of the base form, and whether the operation is bound to its execution. -/
structure Instruction where
  address : Int
  word : Int
  form : InstructionForm
  fields : Fields
  bound : Bool
  deriving DecidableEq, Repr

namespace Instruction

/-- Number of bytes of every instruction. -/
def byteLength : Nat := 4

/-- The bits of an integer that are read as a word. -/
def wordBits (word : Int) : Nat := Bits.wrap 32 word

/-- The register numbers of the instruction under the names of their roles. -/
def registers (instruction : Instruction) : List (String × Nat) :=
  instruction.fields.filterMap fun (letter, value) =>
    (InstructionSet.registerRoles.lookup letter).map fun role => (role, value)

end Instruction

/-- An operation of a table that cannot be executed. -/
structure UnboundOperation where
  op : Operation
  deriving DecidableEq, Repr

/-- The text of the failure to bind an operation. -/
def UnboundOperation.message (failure : UnboundOperation) : String :=
  "No handler bound for operation '" ++ failure.op.name ++ "'"

/-- A table together with the operations that are bound to their execution. -/
structure Codec where
  table : OpcodeTable
  bound : List Operation

namespace Codec

/-- A codec that only reads and writes instructions. -/
def unbound (table : OpcodeTable) : Codec := ⟨table, []⟩

/-- A codec in which every operation of the table must be among those that can be executed; the
first other one is the failure. -/
def bind (table : OpcodeTable) (operations : List Operation) : Except UnboundOperation Codec :=
  match table.decodeOrder.find? fun form => !operations.contains form.op with
  | none => .ok ⟨table, operations⟩
  | some form => .error ⟨form.op⟩

/-- The codec of the machine. -/
def a64 : Codec := ⟨InstructionSet.table, Operation.executable⟩

/-- Decodes the word in the lowest bits of an integer at an address. A word that no form admits has
no instruction. -/
def decode (codec : Codec) (word : Int) (address : Int) :
    Except TableDefect (Option Instruction) := do
  let bits := Instruction.wordBits word
  match ← codec.table.resolve InstructionForm.admits bits with
  | none => return none
  | some (form, _) =>
    let fields := ((codec.table.baseForm? form.op).map fun base => base.decode bits).getD []
    return some ⟨address, word, form, fields, codec.bound.contains form.op⟩

end Codec

end A64Machine
