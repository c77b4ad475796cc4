import A64Machine.Encode
import A64Machine.Memory
import A64Machine.SourceLine
import A64Machine.SymbolMap

/-!
# Assembly of source

A source is assembled in two passes. The first lays out the lines: it gives every line its
address and defines the labels. The second encodes each line with all symbols known and yields
the bytes to write. An error concerns its own line only; the other lines are assembled as if it
were not there. A number that cannot be read, in contrast, ends the assembly.
-/

namespace A64Machine

/-- A value to be stored at an address of the image. -/
structure ImageWrite where
  address : Nat
  width : Nat
  value : Nat
  deriving DecidableEq, Repr

/-- What a line contributes: its writes up to the point where it failed, if it did. -/
structure Emission where
  writes : List ImageWrite
  failure : Option EncodeFailure
  deriving DecidableEq, Repr

/-- An assembler: the size and the byte order of its image, the image and the symbols of the
latest source. -/
structure Assembler where
  size : Nat
  endianness : Endianness
  image : Array UInt8
  symbols : SymbolMap

/-- The result of an assembly: the errors with the numbers of their lines, in the order of the
lines. -/
abbrev LineErrors := List (Nat × AssemblyError)

namespace Directive

/-- The number of bytes of each value of a data directive. -/
def elementWidth? (mnemonic : String) : Option Nat :=
  [(".byte", 1), (".hword", 2), (".word", 4), (".dword", 8)].lookup mnemonic

/-- Whether the directive changes the address. -/
def isLayout (mnemonic : String) : Bool := mnemonic == ".org" || mnemonic == ".align"

/-- Whether the mnemonic belongs to a directive. -/
def isDirective (mnemonic : String) : Bool := mnemonic.toList.head? == some '.'

/-- The largest alignment, as a power of two. -/
def maxAlignment : Nat := 16

/-- The place of a line's operand text. -/
def operandSpan (line : SourceLine) : Span :=
  ⟨line.column, line.column + line.operands.length⟩

end Directive

namespace Assembler

open Directive

/-- An assembler with an image of zeros. -/
def create (size : Int) (endianness : String) : Except SetupError Assembler := do
  let (size, order) ← checkSetup size endianness
  return ⟨size, order, ← blankImage size, []⟩

/-- A complaint as a refusal. -/
def complain (complaint : Complaint) (span : Span) : Refusal := .assembly ⟨complaint, span⟩

/-- What the symbols of a map stand for. -/
def valuesOf (symbols : SymbolMap) : SymbolValues := fun name => symbols.lookup name

/-- The value of the only operand of a layout directive. -/
def directiveValue (symbols : SymbolMap) (address : Nat) (line : SourceLine) :
    Except Refusal Int := do
  match ← (Operand.parse line.operands line.column).mapError .assembly with
  | [.immediate operand] => operand.value.evaluate (valuesOf symbols) address
  | _ => throw (complain .immediateExpected (operandSpan line))

/-- The address of a line, which layout directives change. -/
def lineAddress (size : Nat) (symbols : SymbolMap) (address : Nat) (line : SourceLine) :
    Except Refusal Nat :=
  match line.mnemonic with
  | none => .ok address
  | some mnemonic =>
    if isLayout mnemonic then do
      let value ← directiveValue symbols address line
      if mnemonic = ".org" then
        if 0 ≤ value ∧ value ≤ size then return value.toNat
        else throw (complain (.originOutsideImage value) (operandSpan line))
      else if 0 ≤ value ∧ value ≤ maxAlignment then
        let boundary := 2 ^ value.toNat
        return (address + boundary - 1) / boundary * boundary
      else throw (complain .alignmentRange (operandSpan line))
    else if isDirective mnemonic ∧ (elementWidth? mnemonic).isNone then
      .error (complain (.unknownDirective mnemonic) (operandSpan line))
    else .ok address

/-- The address of a line and the symbols after it. -/
def layoutLine (size : Nat) (symbols : SymbolMap) (address : Nat) (line : SourceLine) :
    Except Refusal (Nat × SymbolMap) := do
  let address ← lineAddress size symbols address line
  match line.label with
  | none => return (address, symbols)
  | some name =>
    if (symbols.lookup name).isSome then
      throw (complain (.duplicateLabel name) ⟨0, name.length⟩)
    else return (address, symbols ++ [(name, (address : Int))])

/-- The number of bytes that a line occupies. -/
def lineSize (line : SourceLine) : Nat :=
  match line.mnemonic with
  | none => 0
  | some mnemonic =>
    match elementWidth? mnemonic with
    | some width =>
      match Token.groups line.operands line.column with
      | .ok groups => groups.length * width
      | .error _ => 0
    | none => if isDirective mnemonic then 0 else Instruction.byteLength

/-- A line that was read and laid out, or the error of either. -/
structure PlacedLine where
  line : Except AssemblyError SourceLine
  address : Nat
  error : Option AssemblyError

/-- The lines with their addresses, and the symbols that they define. A number that cannot be
read ends the layout with the symbols defined so far. -/
def layout (size : Nat) : (symbols : SymbolMap) → (address : Nat) →
    List (Except AssemblyError SourceLine) →
    Except Text.BadNumeral (List PlacedLine) × SymbolMap
  | symbols, _, [] => (.ok [], symbols)
  | symbols, address, .error error :: rest =>
    let (placed, symbols) := layout size symbols address rest
    (placed.map (⟨.error error, address, some error⟩ :: ·), symbols)
  | symbols, address, .ok line :: rest =>
    match layoutLine size symbols address line with
    | .ok (address, symbols) =>
      let (placed, symbols) := layout size symbols (address + lineSize line) rest
      (placed.map (⟨.ok line, address, none⟩ :: ·), symbols)
    | .error (.assembly error) =>
      let (placed, symbols) := layout size symbols (address + lineSize line) rest
      (placed.map (⟨.ok line, address, some error⟩ :: ·), symbols)
    | .error (.numeral bad) => (.error bad, symbols)

/-- The write of a value, which must lie within the image. -/
def write? (size : Nat) (address : Int) (width value : Nat) (span : Span) :
    Except Refusal ImageWrite :=
  if 0 ≤ address ∧ address + width ≤ size then .ok ⟨address.toNat, width, value⟩
  else .error (complain (.outsideImage address) span)

/-- The place of all tokens of an operand text. -/
def spanOfGroups (groups : List (List Token)) : Span :=
  match groups.flatten with
  | [] => ⟨0, 0⟩
  | first :: rest => Token.spanOf first rest

/-- The write of one instruction. -/
def instruction (size : Nat) (symbols : SymbolMap) (mnemonic : String)
    (groups : List (List Token)) (address : Int) : Except EncodeFailure ImageWrite := do
  let span := spanOfGroups groups
  if address % Instruction.byteLength ≠ 0 then
    throw (.refused (complain .instructionUnaligned span))
  let operands ← (Operand.ofGroups groups).mapError fun error => .refused (.assembly error)
  let word ←
    Codec.a64.encode (Text.lower mnemonic) operands address
      (Expression.evaluate (valuesOf symbols) address)
  (write? size address Instruction.byteLength word span).mapError .refused

/-- The write of one value of a data directive, which may be signed or unsigned. -/
def dataValue (size : Nat) (symbols : SymbolMap) (width : Nat) (address : Nat)
    (operand : Operand) : Except Refusal ImageWrite := do
  match operand with
  | .immediate given =>
    let value ← given.value.evaluate (valuesOf symbols) address
    if -(2 ^ (8 * width - 1) : Nat) ≤ value ∧ value < (2 ^ (8 * width) : Nat) then
      write? size address width (Bits.wrap (8 * width) value) given.span
    else throw (complain .valueRange given.span)
  | other => throw (complain .immediateExpected other.span)

/-- The writes of the values of a data directive, one behind the other. -/
def dataValues (size : Nat) (symbols : SymbolMap) (width : Nat) :
    (address : Nat) → List Operand → Emission
  | _, [] => ⟨[], none⟩
  | address, operand :: rest =>
    match dataValue size symbols width address operand with
    | .error refusal => ⟨[], some (.refused refusal)⟩
    | .ok write =>
      let emission := dataValues size symbols width (address + width) rest
      { emission with writes := write :: emission.writes }

/-- An emission that fails before it writes. -/
def failed (failure : EncodeFailure) : Emission := ⟨[], some failure⟩

/-- What a line that was laid out contributes to the image. -/
def emitLine (size : Nat) (symbols : SymbolMap) (address : Nat) (line : SourceLine) : Emission :=
  match line.mnemonic with
  | none => ⟨[], none⟩
  | some mnemonic =>
    if isLayout mnemonic then ⟨[], none⟩
    else
      match Token.groups line.operands line.column with
      | .error error => failed (.refused (.assembly error))
      | .ok groups =>
        match elementWidth? mnemonic with
        | some width =>
          if groups.isEmpty then
            failed (.refused (complain .immediateExpected ⟨line.column, line.column⟩))
          else
            match Operand.ofGroups groups with
            | .error error => failed (.refused (.assembly error))
            | .ok operands => dataValues size symbols width address operands
        | none =>
          if isDirective mnemonic then ⟨[], none⟩
          else
            match instruction size symbols mnemonic groups address with
            | .ok write => ⟨[write], none⟩
            | .error failure => failed failure

/-- What a placed line contributes; a line that could not be read contributes nothing. -/
def PlacedLine.emit (size : Nat) (symbols : SymbolMap) (placed : PlacedLine) : Emission :=
  match placed.line with
  | .ok line => emitLine size symbols placed.address line
  | .error _ => ⟨[], none⟩

/-- The image after a write. -/
def applyWrite (endianness : Endianness) (image : Array UInt8) (write : ImageWrite) :
    Array UInt8 :=
  Memory.overwrite image write.address (endianness.bytesOf write.width write.value)

/-- Writes the lines into an image and collects their errors, numbering the lines from
`number`. A failure that is no error of the line ends the work with what was written so far. -/
def emitLines (size : Nat) (endianness : Endianness) (symbols : SymbolMap) :
    (image : Array UInt8) → (number : Nat) → List PlacedLine →
    Except EncodeFailure LineErrors × Array UInt8
  | image, _, [] => (.ok [], image)
  | image, number, placed :: rest =>
    let emission := placed.emit size symbols
    let image := emission.writes.foldl (applyWrite endianness) image
    let own : Except EncodeFailure LineErrors :=
      match emission.failure with
      | none => .ok (placed.error.toList.map fun error => (number, error))
      | some (.refused (.assembly error)) =>
        .ok ((placed.error.toList ++ [error]).map fun error => (number, error))
      | some failure => .error failure
    match own with
    | .error failure => (.error failure, image)
    | .ok own =>
      let (errors, image) := emitLines size endianness symbols image (number + 1) rest
      (errors.map (own ++ ·), image)

/-- Assembles a source: its errors, or what ended the assembly, and the assembler that holds the
image and the symbols. -/
def assemble (assembler : Assembler) (lines : List String) :
    Except EncodeFailure LineErrors × Assembler :=
  let size := assembler.size
  let blank : Array UInt8 := Array.replicate size 0
  match layout size [] 0 (lines.map SourceLine.parse) with
  | (.error bad, symbols) =>
    (.error (.refused (.numeral bad)), { assembler with image := blank, symbols := symbols })
  | (.ok placed, symbols) =>
    let (errors, image) := emitLines size assembler.endianness symbols blank 1 placed
    (errors, { assembler with image := image, symbols := symbols })

/-- Assembles one instruction at an address with the symbols of the latest source, and answers
the number of bytes that it takes. -/
def assembleOne (assembler : Assembler) (mnemonic : String) (groups : List (List Token))
    (address : Int) : Except EncodeFailure Nat × Assembler :=
  match instruction assembler.size assembler.symbols mnemonic groups address with
  | .error failure => (.error failure, assembler)
  | .ok write =>
    (.ok Instruction.byteLength,
      { assembler with image := applyWrite assembler.endianness assembler.image write })

end Assembler

end A64Machine
