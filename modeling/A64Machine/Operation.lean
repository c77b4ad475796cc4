/-!
# Operations

An operation is what a family of instruction forms executes. The forms of one operation share a
base form, from which the execution takes its fields.
-/

namespace A64Machine

/-- The operations of the instruction set. A table may also name an operation outside of it,
which can be encoded and decoded but not executed. -/
inductive Operation where
  | addSubExtended | addSubShifted | addSubImmediate | addSubCarry
  | logicShifted | logicImmediate | moveWide | bitfield | extract
  | oneSource | twoSource | threeSource | pcRelative
  | branchImmediate | branchConditional | compareBranch | testBranch | branchRegister
  | hint | exception
  | transferScaled | transferNear | transferIndexed | transferLiteral | transferPair
  | other (name : String)
  deriving DecidableEq, Repr

namespace Operation

/-- The name of an operation in a table. -/
def name : Operation → String
  | .addSubExtended => "addsub_ext"
  | .addSubShifted => "addsub_sreg"
  | .addSubImmediate => "addsub_imm"
  | .addSubCarry => "addsub_carry"
  | .logicShifted => "logic_sreg"
  | .logicImmediate => "logic_imm"
  | .moveWide => "movewide"
  | .bitfield => "bitfield"
  | .extract => "extract"
  | .oneSource => "dp1"
  | .twoSource => "dp2"
  | .threeSource => "dp3"
  | .pcRelative => "pcrel"
  | .branchImmediate => "branch_imm"
  | .branchConditional => "branch_cond"
  | .compareBranch => "compare_branch"
  | .testBranch => "test_branch"
  | .branchRegister => "branch_reg"
  | .hint => "hint"
  | .exception => "exception"
  | .transferScaled => "ldst_uimm"
  | .transferNear => "ldst_imm9"
  | .transferIndexed => "ldst_reg"
  | .transferLiteral => "ldr_literal"
  | .transferPair => "ldstp"
  | .other name => name

/-- The operations that can be executed. -/
def executable : List Operation :=
  [.addSubExtended, .addSubShifted, .addSubImmediate, .addSubCarry, .logicShifted,
    .logicImmediate, .moveWide, .bitfield, .extract, .oneSource, .twoSource, .threeSource,
    .pcRelative, .branchImmediate, .branchConditional, .compareBranch, .testBranch,
    .branchRegister, .hint, .exception, .transferScaled, .transferNear, .transferIndexed,
    .transferLiteral, .transferPair]

/-- The operation of a name. -/
def ofName (name : String) : Operation :=
  (executable.find? fun operation => operation.name == name).getD (.other name)

end Operation

end A64Machine
