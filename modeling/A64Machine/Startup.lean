import A64Machine.FileTree
import A64Machine.IntelHex
import A64Machine.NamedRegister
import A64Machine.RawImage
import A64Machine.Settings.Basic
import A64Machine.SourceProgram
import A64Machine.Text.Lines

/-!
# Starting a system

From settings to a machine that is ready to run: the settings are checked, the program is loaded
from its file, and the initial state is applied.
-/

namespace A64Machine

/-- A setting that no system can have. -/
inductive UnsupportedSetting where
  | architecture (name : String)
  | wordSize (bits : Int)
  | instructionWidth (bytes : Int)
  | endianness (name : String)
  | memorySize (bytes : Int)
  | format (name : String)
  deriving DecidableEq, Repr

/-- The text about an unsupported setting. -/
def UnsupportedSetting.message : UnsupportedSetting → String
  | .architecture name => "Unsupported architecture: " ++ name
  | .wordSize bits => Text.aroundDecimal bits ("Unsupported word size: " ++ ·)
  | .instructionWidth bytes => Text.aroundDecimal bytes ("Unsupported instruction width: " ++ ·)
  | .endianness name => "Unsupported endianness: " ++ name
  | .memorySize bytes => Text.aroundDecimal bytes ("Invalid memory size: " ++ ·)
  | .format name => "Unsupported program format: " ++ name

/-- Why a system cannot be started. -/
inductive StartupError where
  | unsupported (setting : UnsupportedSetting)
  | architectureNotText (value : Settings.Value)
  | pathNotText (value : Settings.Value)
  | file (path : String) (error : FileError)
  | undecodableFile (path : String)
  | source (error : SourceError)
  | hex (error : IntelHex.RecordError)
  | raw (error : RawImage.DoesNotFit)
  | setup (error : SetupError)

namespace FileTree

/-- The bytes of a file that a program is loaded from. -/
def bytes (files : FileTree) (path : String) : Except StartupError ByteArray :=
  (files.read path).mapError (.file path)

/-- The lines of a text file that a program is loaded from. -/
def lines (files : FileTree) (path : String) : Except StartupError (List String) := do
  match String.fromUTF8? (← files.bytes path) with
  | some text => return Text.lines text
  | none => throw (.undecodableFile path)

end FileTree

namespace Machine

/-- The machine after a reset with some registers set in order, and the names among them that
stand for no register. -/
def applyRegisters (machine : Machine) : List (String × Int) → Machine × List String
  | [] => (machine, [])
  | (name, value) :: rest =>
    match machine.writeRegister? name value with
    | some machine => machine.applyRegisters rest
    | none =>
      let (machine, unknown) := machine.applyRegisters rest
      (machine, name :: unknown)

/-- The machine at its start with an initial program counter and initial registers, and the
names that stand for no register. -/
def applyInitialState (machine : Machine) (pc : Int) (registers : List (String × Int)) :
    Machine × List String :=
  (machine.reset.assign pc .pc).applyRegisters registers

end Machine

/-- A system ready to run: its machine, and the names of initial registers that were ignored. -/
structure System where
  machine : Machine
  ignored : List String

/-- The line that is printed about an initial register that was ignored. -/
def ignoredRegisterWarning (name : String) : String :=
  "Warning: Unknown register '" ++ name ++ "' in initial state, ignored"

namespace Settings

/-- Whether a name stands for the supported architecture, in either case. -/
def isSupportedArchitecture (name : String) : Bool := name.toUpper == "A64"

/-- Checks that the settings of the machine are supported. -/
def check (settings : Settings) : Except StartupError Unit := do
  match settings.architecture with
  | .scalar (.text name) =>
    if !isSupportedArchitecture name then throw (.unsupported (.architecture name))
  | other => throw (.architectureNotText other)
  if settings.wordSize ≠ 64 then throw (.unsupported (.wordSize settings.wordSize))
  if settings.instructionWidth ≠ Instruction.byteLength then
    throw (.unsupported (.instructionWidth settings.instructionWidth))
  if (Endianness.ofName? settings.endianness).isNone then
    throw (.unsupported (.endianness settings.endianness))
  if settings.memorySize ≤ 0 then throw (.unsupported (.memorySize settings.memorySize))

/-- The program in the file at a path, for a memory of some size. -/
def loadProgram (settings : Settings) (files : FileTree) (path : String) (size : Nat) :
    Except StartupError Program := do
  let blank : Array UInt8 := Array.replicate size 0
  match settings.format with
  | "asm" =>
    (Program.ofSource (← files.lines path) size settings.endianness "A64").mapError .source
  | "hex" =>
    match IntelHex.load (← files.lines path) blank with
    | (.ok (), image) => return ⟨[], image⟩
    | (.error error, _) => throw (.hex error)
  | "bin" =>
    let content ← files.bytes path
    let image ← (RawImage.load content.toList blank settings.loadAddress).mapError .raw
    return ⟨[], image⟩
  | name => throw (.unsupported (.format name))

/-- The machine with the program of the settings, if they name one. -/
def withProgram (settings : Settings) (files : FileTree) (machine : Machine) :
    Except StartupError Machine := do
  if settings.program.isBlank then return machine
  match settings.program with
  | .scalar (.text path) =>
    let program ← settings.loadProgram files path machine.core.memory.size
    let machine ← (machine.loadOrigin program.image).mapError .setup
    return { machine with symbols := program.symbols }
  | other => throw (.pathNotText other)

/-- The system that settings describe. -/
def start (settings : Settings) (files : FileTree) : Except StartupError System := do
  settings.check
  let memory ← (Memory.create settings.memorySize settings.endianness).mapError .setup
  let machine ← settings.withProgram files (.ofMemory memory)
  let (machine, ignored) := machine.applyInitialState settings.pc settings.registers
  return ⟨machine, ignored⟩

end Settings

end A64Machine
