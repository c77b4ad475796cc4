import A64Machine.OpcodeTable
import A64Machine.OperandKind

/-!
# The A64 instruction set

The forms of the supported A64 instructions. Every form specialises the base form of its
operation: some fields are fixed to literal bits or renamed, and the others are set by its
operands. An alias is declared before the general form whose special case it is, so that it wins
when words are read.

In the patterns `d` is the destination, `n`, `m` and `a` are the sources, `t` and `u` the
transferred registers, `z` is the width flag (all of its bits agree) and `I` an immediate or an
offset.
-/

namespace A64Machine.InstructionSet

/-- The given bits of a template, most significant first. -/
def bits : (width : Nat) → (value : Nat) → List Char
  | 0, _ => []
  | width + 1, value => (if value.testBit width then '1' else '0') :: bits width value

/-- A field of the given width. -/
def field (letter : Char) (width : Nat) : List Char := List.replicate width letter

/-- The width flag. -/
def flag : List Char := ['z']

/-- The general pattern of every operation that has operands or not. -/
def baseForm : Operation → List Char
  | .addSubExtended =>
    ['z', 'p', 'f'] ++ bits 8 0b01011001 ++ field 'm' 5 ++ field 'o' 3 ++ field 'i' 3 ++
      field 'n' 5 ++ field 'd' 5
  | .addSubShifted =>
    ['z', 'p', 'f'] ++ bits 5 0b01011 ++ field 's' 2 ++ bits 1 0 ++ field 'm' 5 ++ field 'i' 6 ++
      field 'n' 5 ++ field 'd' 5
  | .addSubImmediate =>
    ['z', 'p', 'f'] ++ bits 6 0b100010 ++ field 's' 1 ++ field 'i' 12 ++ field 'n' 5 ++ field 'd' 5
  | .addSubCarry =>
    ['z', 'p', 'f'] ++ bits 8 0b11010000 ++ field 'm' 5 ++ bits 6 0 ++ field 'n' 5 ++ field 'd' 5
  | .logicShifted =>
    ['z', 'c', 'c'] ++ bits 5 0b01010 ++ field 's' 2 ++ field 'N' 1 ++ field 'm' 5 ++
      field 'i' 6 ++ field 'n' 5 ++ field 'd' 5
  | .logicImmediate =>
    ['z', 'c', 'c'] ++ bits 6 0b100100 ++ field 'N' 1 ++ field 'r' 6 ++ field 's' 6 ++
      field 'n' 5 ++ field 'd' 5
  | .moveWide => ['z', 'c', 'c'] ++ bits 6 0b100101 ++ field 'h' 2 ++ field 'j' 16 ++ field 'd' 5
  | .bitfield =>
    ['z', 'c', 'c'] ++ bits 6 0b100110 ++ field 'N' 1 ++ field 'r' 6 ++ field 's' 6 ++
      field 'n' 5 ++ field 'd' 5
  | .extract =>
    flag ++ bits 8 0b00100111 ++ field 'N' 1 ++ bits 1 0 ++ field 'm' 5 ++ field 's' 6 ++
      field 'n' 5 ++ field 'd' 5
  | .twoSource =>
    flag ++ bits 10 0b0011010110 ++ field 'm' 5 ++ field 'c' 6 ++ field 'n' 5 ++ field 'd' 5
  | .oneSource =>
    flag ++ bits 15 0b101101011000000 ++ field 'c' 6 ++ field 'n' 5 ++ field 'd' 5
  | .threeSource =>
    flag ++ bits 7 0b0011011 ++ field 'c' 3 ++ field 'm' 5 ++ field 'p' 1 ++ field 'a' 5 ++
      field 'n' 5 ++ field 'd' 5
  | .pcRelative => ['p', 'i', 'i'] ++ bits 5 0b10000 ++ field 'I' 19 ++ field 'd' 5
  | .branchImmediate => field 'p' 1 ++ bits 5 0b00101 ++ field 'I' 26
  | .branchConditional => bits 8 0b01010100 ++ field 'I' 19 ++ bits 1 0 ++ field 'c' 4
  | .compareBranch => flag ++ bits 6 0b011010 ++ field 'p' 1 ++ field 'I' 19 ++ field 't' 5
  | .testBranch =>
    field 'b' 1 ++ bits 6 0b011011 ++ field 'p' 1 ++ field 'b' 5 ++ field 'I' 14 ++ field 't' 5
  | .branchRegister =>
    bits 9 0b110101100 ++ field 'c' 2 ++ bits 11 0b11111000000 ++ field 'n' 5 ++ bits 5 0
  | .transferScaled =>
    field 'x' 2 ++ bits 6 0b111001 ++ field 'c' 2 ++ field 'I' 12 ++ field 'n' 5 ++ field 't' 5
  | .transferNear =>
    field 'x' 2 ++ bits 6 0b111000 ++ field 'c' 2 ++ bits 1 0 ++ field 'I' 9 ++ field 'w' 2 ++
      field 'n' 5 ++ field 't' 5
  | .transferIndexed =>
    field 'x' 2 ++ bits 6 0b111000 ++ field 'c' 2 ++ bits 1 1 ++ field 'm' 5 ++ field 'o' 3 ++
      field 'S' 1 ++ bits 2 0b10 ++ field 'n' 5 ++ field 't' 5
  | .transferLiteral => field 'c' 2 ++ bits 6 0b011000 ++ field 'I' 19 ++ field 't' 5
  | .transferPair =>
    field 'c' 2 ++ bits 5 0b10100 ++ field 'w' 2 ++ field 'L' 1 ++ field 'I' 7 ++ field 'u' 5 ++
      field 'n' 5 ++ field 't' 5
  | .hint => bits 32 0b11010101000000110010000000011111
  | .exception => bits 11 0b11010100010 ++ field 'i' 16 ++ bits 5 0
  | .other _ => []

/-- What the register fields are called in a decoded instruction. -/
def registerRoles : List (Char × String) :=
  [('d', "destination"), ('n', "source1"), ('m', "source2"), ('a', "source3"),
    ('t', "transfer"), ('u', "transfer2")]

/-- What the table is built from besides its lines. Register fields are five bits wide. -/
def basis : TableBasis :=
  { baseForms := Operation.executable.map fun op => (op, baseForm op)
    kindLetters := OperandKind.all.map fun kind => (kind.code, kind.fieldLetters)
    widths := registerRoles.map fun (letter, _) => (letter, 5) }

/-- The template in which every letter that has a replacement gives way to it, position by
position. -/
def specialise (fixed : List (Char × List Char)) : List Char → List Char
  | [] => []
  | c :: rest =>
    match fixed.lookup c with
    | some (bit :: bits) =>
      bit :: specialise (fixed.map fun (letter, replacement) =>
        if letter = c then (letter, bits) else (letter, replacement)) rest
    | _ => c :: specialise fixed rest

/-- An operand of a form: its kind and the field letters of its role. -/
abbrev FormOperand := OperandKind × List Char

/-- The role of operands whose kind fixes their fields. -/
def own : List Char := ['*']

/-- A register that sets the field of the given letter. -/
def reg (letter : Char) : FormOperand := (.register, [letter])

/-- A register at full width that sets the field of the given letter. -/
def xreg (letter : Char) : FormOperand := (.wideRegister, [letter])

/-- A register at half width that sets the field of the given letter. -/
def wreg (letter : Char) : FormOperand := (.halfRegister, [letter])

/-- A form of an operation with some fields fixed. -/
def form (op : Operation) (operands : List FormOperand) (fixed : List (Char × List Char)) :
    FormLine :=
  { shape := operands.map fun operand => operand.1.code
    roles := operands.map Prod.snd
    pattern := some (specialise fixed (baseForm op))
    op := some op }

/-- The field that fixes register 31. -/
def zeroField (letter : Char) : Char × List Char := (letter, bits 5 31)

/-- Addition or subtraction: `p` subtracts, `f` sets the flags. -/
def addSub (p f : Nat) : List FormLine :=
  let fixed := [('p', bits 1 p), ('f', bits 1 f)]
  [form .addSubExtended [reg 'd', reg 'n', (.extended, own)] fixed,
    form .addSubShifted [reg 'd', reg 'n', (.arithmeticShifted, own)] fixed,
    form .addSubImmediate [reg 'd', reg 'n', (.arithmeticImmediate, own)] fixed]

/-- Addition or subtraction for its flags alone. -/
def compare (p : Nat) : List FormLine :=
  let fixed := [('p', bits 1 p), ('f', bits 1 1), zeroField 'd']
  [form .addSubExtended [reg 'n', (.extended, own)] fixed,
    form .addSubShifted [reg 'n', (.arithmeticShifted, own)] fixed,
    form .addSubImmediate [reg 'n', (.arithmeticImmediate, own)] fixed]

/-- Subtraction from zero. -/
def negate (f : Nat) : List FormLine :=
  [form .addSubShifted [reg 'd', (.arithmeticShifted, own)]
    [('p', bits 1 1), ('f', bits 1 f), zeroField 'n']]

/-- Addition or subtraction with the carry. -/
def carry (p f : Nat) : List FormLine :=
  [form .addSubCarry [reg 'd', reg 'n', reg 'm'] [('p', bits 1 p), ('f', bits 1 f)]]

/-- Subtraction from zero with the carry. -/
def negateCarry (f : Nat) : List FormLine :=
  [form .addSubCarry [reg 'd', reg 'm'] [('p', bits 1 1), ('f', bits 1 f), zeroField 'n']]

/-- An address relative to the instruction. -/
def relativeAddress (kind : OperandKind) (p : Nat) : List FormLine :=
  [form .pcRelative [xreg 'd', (kind, own)] [('p', bits 1 p)]]

/-- Multiplication, with an addend or without one, at the width of the registers. -/
def multiply (p : Nat) : List FormLine :=
  [form .threeSource [reg 'd', reg 'n', reg 'm'] [('c', bits 3 0), ('p', bits 1 p), zeroField 'a']]

/-- Multiplication with an addend at the width of the registers. -/
def multiplyAdd (p : Nat) : List FormLine :=
  [form .threeSource [reg 'd', reg 'n', reg 'm', reg 'a'] [('c', bits 3 0), ('p', bits 1 p)]]

/-- Multiplication of half registers into a full one. -/
def multiplyLong (code p : Nat) : List FormLine :=
  [form .threeSource [xreg 'd', wreg 'n', wreg 'm']
    [('z', bits 1 1), ('c', bits 3 code), ('p', bits 1 p), zeroField 'a']]

/-- Multiplication of half registers with a full addend. -/
def multiplyAddLong (code p : Nat) : List FormLine :=
  [form .threeSource [xreg 'd', wreg 'n', wreg 'm', xreg 'a']
    [('z', bits 1 1), ('c', bits 3 code), ('p', bits 1 p)]]

/-- The upper half of a product. -/
def multiplyHigh (code : Nat) : List FormLine :=
  [form .threeSource [xreg 'd', xreg 'n', xreg 'm']
    [('z', bits 1 1), ('c', bits 3 code), ('p', bits 1 0), zeroField 'a']]

/-- An operation on two registers. -/
def twoSource (code : Nat) : FormLine :=
  form .twoSource [reg 'd', reg 'n', reg 'm'] [('c', bits 6 code)]

/-- A bitfield move in which both width flags agree. -/
def bitfield (code : Nat) (operands : List FormOperand) : List FormLine :=
  [form .bitfield operands [('c', bits 2 code), ('N', flag)]]

/-- A shift by an immediate that moves the bits from there to the top. -/
def shiftDown (code : Nat) : FormLine :=
  form .bitfield [reg 'd', reg 'n', (.shiftAmount, ['r'])]
    [('c', bits 2 code), ('N', flag), ('s', flag ++ bits 5 31)]

/-- A widening of the lowest bits, at the given settings of the width flags. -/
def extension (code top : Nat) (width : List Char) (d n : FormOperand) : List FormLine :=
  [form .bitfield [d, n]
    [('z', width), ('c', bits 2 code), ('N', width), ('r', bits 6 0), ('s', bits 6 top)]]

/-- A logical operation on a shifted register. -/
def logicalRegister (code invert : Nat) : List FormLine :=
  [form .logicShifted [reg 'd', reg 'n', (.shifted, own)]
    [('c', bits 2 code), ('N', bits 1 invert)]]

/-- A logical operation on a shifted register or on an immediate. -/
def logical (code : Nat) : List FormLine :=
  logicalRegister code 0 ++
    [form .logicImmediate [reg 'd', reg 'n', (.bitmask, own)] [('c', bits 2 code)]]

/-- A wide move of the given kind of immediate. -/
def wideMove (code : Nat) (kind : OperandKind) : FormLine :=
  form .moveWide [reg 'd', (kind, own)] [('c', bits 2 code)]

/-- An operation on one register. -/
def oneSource (code : List Char) : List FormLine :=
  [form .oneSource [reg 'd', reg 'n'] [('c', code)]]

/-- The conditions in the order of their codes. -/
def conditions : List String :=
  ["eq", "ne", "cs", "cc", "mi", "pl", "vs", "vc", "hi", "ls", "ge", "lt", "gt", "le", "al", "nv"]

/-- A branch under the condition of a code. -/
def conditionalBranch (code : Nat) : List FormLine :=
  [form .branchConditional [(.branchTarget, own)] [('c', bits 4 code)]]

/-- The conditional branches whose mnemonics begin with the given letters: one for each
condition, and the two further names of the carry conditions. -/
def conditionalBranches (stem : String) : List (String × List FormLine) :=
  conditions.mapIdx (fun code name => (stem ++ name, conditionalBranch code)) ++
    [(stem ++ "hs", conditionalBranch 2), (stem ++ "lo", conditionalBranch 3)]

/-- A load or store with the given size bits, code and address kind. -/
def transfer (op : Operation) (size : List Char) (code : Nat) (register : FormOperand)
    (kind : OperandKind) (fixed : List (Char × List Char)) (bytes : Option Int) : FormLine :=
  { form op [register, (kind, own)] ([('x', size), ('c', bits 2 code)] ++ fixed) with
    size := bytes }

/-- Loads and stores with an offset, pre-indexed, post-indexed and with an index register. -/
def loadStore (size : List Char) (code : Nat) (register : FormOperand) (bytes : Option Int) :
    List FormLine :=
  [transfer .transferScaled size code register .scaledAddress [] bytes,
    transfer .transferNear size code register .preIndexed [('w', bits 2 0b11)] bytes,
    transfer .transferNear size code register .postIndexed [('w', bits 2 0b01)] bytes,
    transfer .transferIndexed size code register .registerIndexed [] bytes]

/-- Loads and stores with an offset in bytes. -/
def unscaled (size : List Char) (code : Nat) (register : FormOperand) (bytes : Option Int) :
    List FormLine :=
  [transfer .transferNear size code register .unscaledAddress [('w', bits 2 0b00)] bytes]

/-- A load from an address relative to the instruction. -/
def loadLiteral (code : List Char) (register : FormOperand) (bytes : Option Int) :
    List FormLine :=
  [{ form .transferLiteral [register, (.branchTarget, own)] [('c', code)] with size := bytes }]

/-- Loads and stores of two registers. -/
def loadStorePair (load : Nat) : List FormLine :=
  [(OperandKind.scaledAddress, 0b10), (.preIndexed, 0b11), (.postIndexed, 0b01)].map
    fun (kind, mode) =>
      { form .transferPair [reg 't', reg 'u', (kind, own)]
          [('c', ['z', '0']), ('w', bits 2 mode), ('L', bits 1 load)] with
        pair := true }

/-- A form that is reserved but not implemented. -/
def reserved (operands : List FormOperand) (bytes : Option Int) : List FormLine :=
  [{ shape := operands.map fun operand => operand.1.code
     roles := operands.map Prod.snd
     size := bytes }]

/-- Addition, subtraction, comparison and addresses relative to the instruction. -/
def arithmetic : List (String × List FormLine) :=
  [("add", addSub 0 0), ("cmn", compare 0), ("adds", addSub 0 1),
    ("neg", negate 0), ("sub", addSub 1 0), ("cmp", compare 1),
    ("negs", negate 1), ("subs", addSub 1 1),
    ("adc", carry 0 0), ("adcs", carry 0 1), ("ngc", negateCarry 0),
    ("sbc", carry 1 0), ("ngcs", negateCarry 1), ("sbcs", carry 1 1),
    ("adr", relativeAddress .byteTarget 0), ("adrp", relativeAddress .pageTarget 1)]

/-- Multiplication and division. -/
def multiplication : List (String × List FormLine) :=
  [("mul", multiply 0), ("mneg", multiply 1),
    ("madd", multiplyAdd 0), ("msub", multiplyAdd 1),
    ("smull", multiplyLong 0b001 0), ("umull", multiplyLong 0b101 0),
    ("smnegl", multiplyLong 0b001 1), ("umnegl", multiplyLong 0b101 1),
    ("smaddl", multiplyAddLong 0b001 0), ("umaddl", multiplyAddLong 0b101 0),
    ("smsubl", multiplyAddLong 0b001 1), ("umsubl", multiplyAddLong 0b101 1),
    ("smulh", multiplyHigh 0b010), ("umulh", multiplyHigh 0b110),
    ("sdiv", [twoSource 0b000011]), ("udiv", [twoSource 0b000010])]

/-- Shifts by a register and by an immediate. -/
def shifts : List (String × List FormLine) :=
  [("asr", [twoSource 0b001010, shiftDown 0b00]),
    ("lsl", twoSource 0b001000 :: bitfield 0b10 [reg 'd', reg 'n', (.leftShift, own)]),
    ("lsr", [twoSource 0b001001, shiftDown 0b10]),
    ("ror",
      [twoSource 0b001011,
        form .extract [reg 'd', (.register, ['n', 'm']), (.shiftAmount, ['s'])] [('N', flag)]])]

/-- The operands of a bitfield insertion behind its registers. -/
def insertion : List FormOperand := [(.insertLow, own), (.insertWidth, own)]

/-- The operands of a bitfield extraction behind its registers. -/
def extraction : List FormOperand := [(.extractLow, own), (.extractWidth, own)]

/-- The operands of a general bitfield move behind its registers. -/
def rawBitfield : List FormOperand := [(.immediate, ['r']), (.immediate, ['s'])]

/-- Extensions, bitfield moves and extraction. -/
def bitfields : List (String × List FormLine) :=
  [("sxtb", extension 0b00 7 flag (reg 'd') (wreg 'n')),
    ("sxth", extension 0b00 15 flag (reg 'd') (wreg 'n')),
    ("sxtw", extension 0b00 31 (bits 1 1) (xreg 'd') (wreg 'n')),
    ("sbfiz", bitfield 0b00 ([reg 'd', reg 'n'] ++ insertion)),
    ("sbfx", bitfield 0b00 ([reg 'd', reg 'n'] ++ extraction)),
    ("sbfm", bitfield 0b00 ([reg 'd', reg 'n'] ++ rawBitfield)),
    ("uxtb", extension 0b10 7 (bits 1 0) (wreg 'd') (wreg 'n')),
    ("uxth", extension 0b10 15 (bits 1 0) (wreg 'd') (wreg 'n')),
    ("ubfiz", bitfield 0b10 ([reg 'd', reg 'n'] ++ insertion)),
    ("ubfx", bitfield 0b10 ([reg 'd', reg 'n'] ++ extraction)),
    ("ubfm", bitfield 0b10 ([reg 'd', reg 'n'] ++ rawBitfield)),
    ("bfc",
      [form .bitfield ([reg 'd'] ++ insertion) [('c', bits 2 0b01), ('N', flag), zeroField 'n']]),
    ("bfi", bitfield 0b01 ([reg 'd', reg 'n'] ++ insertion)),
    ("bfxil", bitfield 0b01 ([reg 'd', reg 'n'] ++ extraction)),
    ("bfm", bitfield 0b01 ([reg 'd', reg 'n'] ++ rawBitfield)),
    ("extr",
      [form .extract [reg 'd', reg 'n', reg 'm', (.shiftAmount, ['s'])] [('N', flag)]])]

/-- Logical operations and moves. -/
def logicals : List (String × List FormLine) :=
  [("mov",
      [form .logicShifted [reg 'd', reg 'm']
          [('c', bits 2 0b01), ('s', bits 2 0), ('N', bits 1 0), ('i', bits 6 0), zeroField 'n'],
        wideMove 0b10 .wide, wideMove 0b00 .invertedWide,
        form .logicImmediate [reg 'd', (.bitmask, own)] [('c', bits 2 0b01), zeroField 'n']]),
    ("and", logical 0b00),
    ("tst",
      [form .logicShifted [reg 'n', (.shifted, own)]
          [('c', bits 2 0b11), ('N', bits 1 0), zeroField 'd'],
        form .logicImmediate [reg 'n', (.bitmask, own)] [('c', bits 2 0b11), zeroField 'd']]),
    ("ands", logical 0b11), ("orr", logical 0b01), ("eor", logical 0b10),
    ("mvn",
      [form .logicShifted [reg 'd', (.shifted, own)]
        [('c', bits 2 0b01), ('N', bits 1 1), zeroField 'n']]),
    ("orn", logicalRegister 0b01 1), ("bic", logicalRegister 0b00 1),
    ("bics", logicalRegister 0b11 1), ("eon", logicalRegister 0b10 1),
    ("movn", [wideMove 0b00 .wide]), ("movz", [wideMove 0b10 .wide]),
    ("movk", [wideMove 0b11 .wide])]

/-- Operations on the bits and bytes of one register. -/
def oneSources : List (String × List FormLine) :=
  [("cls", oneSource (bits 6 0b000101)), ("clz", oneSource (bits 6 0b000100)),
    ("rbit", oneSource (bits 6 0b000000)), ("rev16", oneSource (bits 6 0b000001)),
    ("rev32",
      [form .oneSource [xreg 'd', xreg 'n'] [('z', bits 1 1), ('c', bits 6 0b000010)]]),
    ("rev", oneSource (bits 5 0b00001 ++ flag))]

/-- A branch to the address in a register. -/
def registerBranch (code : Nat) : FormLine := form .branchRegister [xreg 'n'] [('c', bits 2 code)]

/-- A branch that compares a register with zero. -/
def compareBranch (p : Nat) : List FormLine :=
  [form .compareBranch [reg 't', (.branchTarget, own)] [('p', bits 1 p)]]

/-- A branch that tests one bit of a register. -/
def testBranch (p : Nat) : List FormLine :=
  [form .testBranch [reg 't', (.bitNumber, own), (.branchTarget, own)] [('p', bits 1 p)]]

/-- Branches. -/
def branches : List (String × List FormLine) :=
  conditionalBranches "b." ++ conditionalBranches "b" ++
    [("b", [form .branchImmediate [(.branchTarget, own)] [('p', bits 1 0)]]),
      ("bl", [form .branchImmediate [(.branchTarget, own)] [('p', bits 1 1)]]),
      ("br", [registerBranch 0b00]), ("blr", [registerBranch 0b01]),
      ("ret",
        [form .branchRegister [] [('c', bits 2 0b10), ('n', bits 5 30)], registerBranch 0b10]),
      ("cbz", compareBranch 0), ("cbnz", compareBranch 1),
      ("tbz", testBranch 0), ("tbnz", testBranch 1)]

/-- Loads and stores. -/
def loadsAndStores : List (String × List FormLine) :=
  let word := ['1', 'z']
  [("ldr", loadStore word 0b01 (reg 't') none ++ loadLiteral ['0', 'z'] (reg 't') none),
    ("ldur", unscaled word 0b01 (reg 't') none),
    ("str", loadStore word 0b00 (reg 't') none), ("stur", unscaled word 0b00 (reg 't') none),
    ("ldrb", loadStore (bits 2 0) 0b01 (wreg 't') (some 1)),
    ("strb", loadStore (bits 2 0) 0b00 (wreg 't') (some 1)),
    ("ldrh", loadStore (bits 2 1) 0b01 (wreg 't') (some 2)),
    ("strh", loadStore (bits 2 1) 0b00 (wreg 't') (some 2)),
    ("ldurb", unscaled (bits 2 0) 0b01 (wreg 't') (some 1)),
    ("sturb", unscaled (bits 2 0) 0b00 (wreg 't') (some 1)),
    ("ldurh", unscaled (bits 2 1) 0b01 (wreg 't') (some 2)),
    ("sturh", unscaled (bits 2 1) 0b00 (wreg 't') (some 2)),
    ("ldrsw",
      loadStore (bits 2 2) 0b10 (xreg 't') (some 4) ++
        loadLiteral (bits 2 0b10) (xreg 't') (some 4)),
    ("ldursw", unscaled (bits 2 2) 0b10 (xreg 't') (some 4)),
    ("ldrsb", reserved [wreg 't', (.scaledAddress, own)] (some 1)),
    ("ldrsh", reserved [wreg 't', (.scaledAddress, own)] (some 2)),
    ("ldursb", reserved [wreg 't', (.scaledAddress, own)] (some 1)),
    ("ldursh", reserved [wreg 't', (.scaledAddress, own)] (some 2)),
    ("ldp", loadStorePair 1), ("stp", loadStorePair 0),
    ("ldpsw", reserved [xreg 't', xreg 'u', (.scaledAddress, own)] none)]

/-- The instructions without registers. -/
def system : List (String × List FormLine) :=
  [("nop", [form .hint [] []]), ("hlt", [form .exception [(.immediate, ['i'])] []])]

/-- All instruction forms, by mnemonic and in the order of their priority. -/
def definitions : List (String × List FormLine) :=
  arithmetic ++ multiplication ++ shifts ++ bitfields ++ logicals ++ oneSources ++ branches ++
    loadsAndStores ++ system

/-- The A64 table. Its definition passes all checks, so the empty table is never taken. -/
def table : OpcodeTable := (OpcodeTable.build basis definitions).toOption.getD .empty

end A64Machine.InstructionSet
