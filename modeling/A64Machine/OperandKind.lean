/-!
# Operand kinds

The shape of an instruction form is a word over one-character kinds, one for each operand. This
file lists the kinds that have a meaning.
-/

namespace A64Machine

/-- What an operand of an instruction form may be. -/
inductive OperandKind where
  /-- A register; the first one sets the width of the instruction. -/
  | register
  /-- A register at full width. -/
  | wideRegister
  /-- A register at half width. -/
  | halfRegister
  /-- A register with an extension and an amount. -/
  | extended
  /-- A register with any shift. -/
  | shifted
  /-- A register with a shift that is not a rotation. -/
  | arithmeticShifted
  /-- An unsigned immediate of the field's width. -/
  | immediate
  /-- A shift amount below the data size. -/
  | shiftAmount
  /-- A twelve-bit immediate, shifted left by twelve where needed. -/
  | arithmeticImmediate
  /-- A logical immediate in packed form. -/
  | bitmask
  /-- A half-word at one of its positions. -/
  | wide
  /-- The complement of a half-word at one of its positions. -/
  | invertedWide
  /-- A target that is a number of words away. -/
  | branchTarget
  /-- An address that is a number of bytes away. -/
  | byteTarget
  /-- An address that is a number of pages away. -/
  | pageTarget
  /-- A left shift written as a bitfield move. -/
  | leftShift
  /-- The lowest bit of an inserted bitfield. -/
  | insertLow
  /-- The width of an inserted bitfield. -/
  | insertWidth
  /-- The lowest bit of an extracted bitfield. -/
  | extractLow
  /-- The width of an extracted bitfield. -/
  | extractWidth
  /-- The number of a tested bit. -/
  | bitNumber
  /-- A base with an offset counted in accesses. -/
  | scaledAddress
  /-- A base with an offset counted in bytes. -/
  | unscaledAddress
  /-- A base that is changed before the access. -/
  | preIndexed
  /-- A base that is changed after the access. -/
  | postIndexed
  /-- A base with an index register. -/
  | registerIndexed
  deriving DecidableEq, Repr

namespace OperandKind

/-- All kinds. -/
def all : List OperandKind :=
  [.register, .wideRegister, .halfRegister, .extended, .shifted, .arithmeticShifted, .immediate,
    .shiftAmount, .arithmeticImmediate, .bitmask, .wide, .invertedWide, .branchTarget,
    .byteTarget, .pageTarget, .leftShift, .insertLow, .insertWidth, .extractLow, .extractWidth,
    .bitNumber, .scaledAddress, .unscaledAddress, .preIndexed, .postIndexed, .registerIndexed]

/-- The character that stands for the kind in a shape. -/
def code : OperandKind → Char
  | .register => 'r'
  | .wideRegister => 'x'
  | .halfRegister => 'w'
  | .extended => 'e'
  | .shifted => 's'
  | .arithmeticShifted => 'S'
  | .immediate => 'i'
  | .shiftAmount => 'h'
  | .arithmeticImmediate => 't'
  | .bitmask => 'm'
  | .wide => 'J'
  | .invertedWide => 'K'
  | .branchTarget => 'P'
  | .byteTarget => 'Q'
  | .pageTarget => 'Y'
  | .leftShift => '-'
  | .insertLow => 'F'
  | .insertWidth => 'G'
  | .extractLow => 'l'
  | .extractWidth => 'H'
  | .bitNumber => 'b'
  | .scaledAddress => 'a'
  | .unscaledAddress => 'o'
  | .preIndexed => '!'
  | .postIndexed => '+'
  | .registerIndexed => 'R'

/-- The kind that a character of a shape stands for. -/
def ofChar? (c : Char) : Option OperandKind := all.find? fun kind => kind.code == c

/-- The field letters that an operand of the kind sets, which its role names for plain registers
and for immediates of one field. -/
def fieldLetters : OperandKind → Option (List Char)
  | .register | .wideRegister | .halfRegister | .immediate | .shiftAmount => none
  | .extended => some ['m', 'o', 'i']
  | .shifted | .arithmeticShifted => some ['m', 's', 'i']
  | .arithmeticImmediate => some ['s', 'i']
  | .bitmask => some ['N', 'r', 's']
  | .wide | .invertedWide => some ['h', 'j']
  | .branchTarget => some ['I']
  | .byteTarget | .pageTarget => some ['I', 'i']
  | .leftShift => some ['r', 's']
  | .insertLow | .extractLow => some ['r']
  | .insertWidth | .extractWidth => some ['s']
  | .bitNumber => some ['b']
  | .scaledAddress | .unscaledAddress | .preIndexed | .postIndexed => some ['n', 'I']
  | .registerIndexed => some ['n', 'm', 'o', 'S']

end OperandKind

end A64Machine
