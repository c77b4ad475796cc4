import A64Machine.Pattern

/-!
# Complaints about source text

Every way in which a line of source can be wrong, its wording, and the place in the text that it
is about. A complaint concerns one line and never keeps the others from being read.
-/

namespace A64Machine

/-- A stretch of text from one position up to another, which it leaves out. -/
structure Span where
  start : Int
  stop : Int
  deriving DecidableEq, Repr, Inhabited

/-- What is wrong with a piece of source text. -/
inductive Complaint where
  | unexpectedCharacter (character : Char)
  | operatorExpected
  | unbalancedParentheses
  | undefinedSymbol (name : String)
  | unexpectedInExpression (text : String)
  | incompleteExpression
  | operandExpected
  | registerNameExpected
  | badModifiedRegister
  | addressFormat
  | immediateExpected
  | unknownMnemonic (mnemonic : String)
  | notImplemented (mnemonic : String)
  | noMatchingForm (mnemonic : String)
  | registerWidth (wide : Bool)
  | extendAmount
  | shiftAmountRange
  | shiftAmountZeroOrTwelve
  | immediateRange
  | notBitmask
  | notWide
  | targetUnaligned
  | targetRange
  | addressRange
  | lsbRange
  | bitfieldWidthRange
  | bitNumberRange
  | offsetMultiple (size : Int)
  | offsetRange
  | baseRegister
  | indexShift (scale : Int)
  | field (error : FieldError)
  | instructionUnaligned
  | outsideImage (address : Int)
  | originOutsideImage (address : Int)
  | alignmentRange
  | unknownDirective (name : String)
  | duplicateLabel (name : String)
  | valueRange
  | unterminatedComment
  deriving DecidableEq, Repr

open Text (decimal hex) in
/-- The wording of a complaint. -/
def Complaint.message : Complaint → String
  | .unexpectedCharacter character => "unexpected character '" ++ character.toString ++ "'"
  | .operatorExpected => "operator expected"
  | .unbalancedParentheses => "unbalanced parentheses"
  | .undefinedSymbol name => "undefined symbol '" ++ name ++ "'"
  | .unexpectedInExpression text => "unexpected '" ++ text ++ "' in expression"
  | .incompleteExpression => "incomplete expression"
  | .operandExpected => "operand expected"
  | .registerNameExpected => "register name expected"
  | .badModifiedRegister => "bad register for shift or extension"
  | .addressFormat => "unrecognized address operand format"
  | .immediateExpected => "immediate expected"
  | .unknownMnemonic mnemonic => "unknown mnemonic '" ++ mnemonic ++ "'"
  | .notImplemented mnemonic => mnemonic ++ " is not implemented"
  | .noMatchingForm mnemonic => "no matching form for " ++ mnemonic
  | .registerWidth wide => (if wide then "x" else "w") ++ " register expected"
  | .extendAmount => "extend amount must be 0-4"
  | .shiftAmountRange => "shift amount out of range"
  | .shiftAmountZeroOrTwelve => "shift amount must be 0 or 12"
  | .immediateRange => "immediate out of range"
  | .notBitmask => "immediate cannot be encoded as a bitmask"
  | .notWide => "immediate cannot be encoded as a wide immediate"
  | .targetUnaligned => "branch target not word aligned"
  | .targetRange => "branch target out of range"
  | .addressRange => "address out of range"
  | .lsbRange => "lsb out of range"
  | .bitfieldWidthRange => "bitfield width out of range"
  | .bitNumberRange => "bit number out of range"
  | .offsetMultiple size => "offset must be a multiple of " ++ decimal size
  | .offsetRange => "offset out of range"
  | .baseRegister => "base register must be an x register"
  | .indexShift scale => "shift amount must be 0 or " ++ decimal scale
  | .field error => error.message
  | .instructionUnaligned => "instruction address not word aligned"
  | .outsideImage address => "address " ++ hex address ++ " outside memory image"
  | .originOutsideImage address => "origin " ++ hex address ++ " outside memory image"
  | .alignmentRange => "alignment out of range"
  | .unknownDirective name => "unknown directive '" ++ name ++ "'"
  | .duplicateLabel name => "duplicate label '" ++ name ++ "'"
  | .valueRange => "value out of range"
  | .unterminatedComment => "unterminated comment"

/-- A complaint and the place it is about. -/
structure AssemblyError where
  complaint : Complaint
  span : Span
  deriving DecidableEq, Repr

/-- The wording of an error followed by its place. -/
def AssemblyError.describe (error : AssemblyError) : String :=
  error.complaint.message ++ " (at " ++ Text.decimal error.span.start ++ "-" ++
    Text.decimal error.span.stop ++ ")"

end A64Machine
