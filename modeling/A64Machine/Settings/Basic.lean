import A64Machine.Settings.Value
import A64Machine.SymbolMap
import A64Machine.Text.LowerCase
import A64Machine.Text.Numeral

/-!
# Settings

The settings of a system: its architecture, memory and processor, the program to load and the
state to start in. Every setting has a default. Numbers may be given as texts, in base sixteen
where they are led by `0x` and in base ten otherwise. Settings are read in a fixed order, and the
first one that cannot be read is reported.
-/

namespace A64Machine

open Settings (Scalar Value Entries)

/-- The settings of a system. The architecture and the path of the program are kept as they are
given. -/
structure Settings where
  architecture : Value
  memorySize : Int
  wordSize : Int
  instructionWidth : Int
  endianness : String
  program : Value
  format : String
  loadAddress : Int
  pc : Int
  registers : List (String × Int)

/-- Why settings cannot be read. -/
inductive SettingsError where
  | rootNotMapping
  | notInteger (value : Value)
  | numeral (bad : Text.BadNumeral)
  | notMapping (value : Value)
  | pathNotText (value : Value)
  | unwritable

/-- The text of an error in settings. -/
def SettingsError.message : SettingsError → String
  | .rootNotMapping => "Configuration root must be a mapping."
  | .notInteger value => "Invalid integer format: " ++ value.asText
  | .numeral bad => bad.message
  | .notMapping value => "Configuration value must be a mapping: " ++ value.asText
  | .pathNotText value => "Program path must be a text: " ++ value.asText
  | .unwritable => Text.unwritableMessage

namespace Settings

/-- The entries of a value that must be a map where it is given. -/
def entriesOf (value : Value) : Except SettingsError Entries :=
  if value.isBlank then .ok []
  else
    match value with
    | .map entries => .ok entries
    | other => .error (.notMapping other)

/-- The value under a name, which is null where there is none. -/
def valueAt (entries : Entries) (name : String) : Value :=
  (entries.get? name).getD (.scalar .null)

/-- The text of a value on its own. -/
def textOf (value : Value) : Except SettingsError String :=
  if value.isWritable then .ok value.asText else .error .unwritable

/-- The integer that a value stands for. -/
def integer (value : Value) : Except SettingsError Int :=
  match value with
  | .scalar (.int number) => .ok number
  | .scalar (.text text) =>
    let trimmed := Text.trimBlanks text.toList
    let base := if [['0', 'x'], ['0', 'X']].contains (trimmed.take 2) then 16 else 10
    (Text.readNumeral base (String.ofList trimmed)).mapError .numeral
  | other => if other.isWritable then .error (.notInteger other) else .error .unwritable

/-- The integer under a name, or a default where there is none. -/
def integerAt (entries : Entries) (name : String) (default : Int) : Except SettingsError Int :=
  match entries.get? name with
  | some value => integer value
  | none => .ok default

/-- The lower-case text of the value under a name, or a default where there is none. -/
def wordAt (entries : Entries) (name default : String) : Except SettingsError String :=
  match entries.get? name with
  | some value => (textOf value).map Text.lower
  | none => .ok default

/-- The entries about the program, which may be given by its path alone. -/
def programEntries (value : Value) : Except SettingsError Entries :=
  match value with
  | .scalar (.text path) =>
    .ok (if path.isEmpty then [] else [(.text "path", .scalar (.text path))])
  | other => entriesOf other

/-- The initial values of registers by their names in lower case. Of names that differ in case
only, the last one counts. -/
def registersOf (entries : Entries) : Except SettingsError (List (String × Int)) := do
  let registers ← entries.mapM fun (entry : Scalar × Value) => do
    let name ← textOf (.scalar entry.1)
    return (Text.lower name, ← integer entry.2)
  return SymbolMap.ofList registers

/-- The settings that a value stands for. -/
def ofValue (value : Value) : Except SettingsError Settings := do
  let root ← (entriesOf value).mapError fun _ => .rootNotMapping
  let cpu ← entriesOf (valueAt root "cpu")
  let wordSize ← integerAt cpu "word_size" 64
  let instructionWidth ← integerAt cpu "instruction_width" 4
  let endianness ← wordAt cpu "endianness" "little"
  let initial ← entriesOf (valueAt root "initial_state")
  let registers ← registersOf (← entriesOf (valueAt initial "registers"))
  let pc ← integerAt initial "pc" 0
  let memorySize ← integerAt root "memory_size" 0x10000
  let program ← programEntries (valueAt root "program")
  let format ← wordAt program "format" "asm"
  let loadAddress ← integerAt program "load_address" 0
  return {
    architecture := (root.get? "architecture").getD (.scalar (.text "A64"))
    memorySize := memorySize
    wordSize := wordSize
    instructionWidth := instructionWidth
    endianness := endianness
    program := valueAt program "path"
    format := format
    loadAddress := loadAddress
    pc := pc
    registers := registers }

/-- The path of a file that is named from within a directory. -/
def pathFrom (directory path : String) : String :=
  if path.toList.head? == some '/' then path else directory ++ "/" ++ path

/-- Settings that were read from a file in a directory, with the path of the program seen from
outside the directory. -/
def locate (settings : Settings) (directory : String) : Except SettingsError Settings :=
  if settings.program.isBlank then .ok settings
  else
    match settings.program with
    | .scalar (.text path) =>
      .ok { settings with program := .scalar (.text (pathFrom directory path)) }
    | other => .error (.pathNotText other)

end Settings

end A64Machine
