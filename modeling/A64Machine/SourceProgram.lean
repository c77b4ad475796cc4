import A64Machine.Assembler

/-!
# Programs in source form

A program is assembled as a whole: either all of its lines are free of errors or all errors are
reported together.
-/

namespace A64Machine

/-- A program ready to run: its symbols and its image. -/
structure Program where
  symbols : SymbolMap
  image : Array UInt8

/-- Why a source is not a program. -/
inductive SourceError where
  | architecture (name : String)
  | setup (error : SetupError)
  | lines (errors : LineErrors)
  | aborted (failure : EncodeFailure)

/-- The text of errors in lines. -/
def LineErrors.message (errors : LineErrors) : String :=
  "Assembly failed with " ++ Text.decimal errors.length ++ " error(s): " ++
    "; ".intercalate (errors.map fun (number, error) =>
      "line " ++ Text.decimal number ++ ": " ++ error.describe)

/-- The text of an architecture that is not supported. -/
def unsupportedArchitectureMessage (name : String) : String :=
  "Unsupported architecture for assembly loading: " ++ name

/-- Assembles a source for an image of some size and byte order. -/
def Program.ofSource (lines : List String) (size : Int) (endianness architecture : String) :
    Except SourceError Program := do
  if architecture ≠ "A64" then throw (.architecture architecture)
  let assembler ← (Assembler.create size endianness).mapError .setup
  match assembler.assemble lines with
  | (.ok [], assembler) => return ⟨assembler.symbols, assembler.image⟩
  | (.ok errors, _) => throw (.lines errors)
  | (.error failure, _) => throw (.aborted failure)

end A64Machine
