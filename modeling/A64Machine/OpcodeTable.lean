import A64Machine.Operation
import A64Machine.Pattern
import A64Machine.Text.Blank
import A64Machine.Text.Quoted

/-!
# Opcode tables

A table lists for every mnemonic its instruction forms. The forms overlap where one mnemonic is
a special case of another, so their order is their priority: a word belongs to the first form
that accepts it. Each form names the operation that executes it, and the general pattern of that
operation, its base form, supplies the fields of the execution. A table is checked when it is
built; in particular every word of a form is a word of its base form.
-/

namespace A64Machine

/-- One line of a table definition. Without a pattern it only reserves the mnemonic for a form
that is not implemented. -/
structure FormLine where
  shape : List Char
  roles : List (List Char)
  pattern : Option (List Char) := none
  op : Option Operation := none
  size : Option Int := none
  pair : Bool := false
  deriving DecidableEq, Repr

/-- What all entries have: the operand kinds, the field letters that each operand sets, the
access size where the form fixes one, and whether two registers are transferred. -/
structure EntryHead where
  mnemonic : String
  shape : List Char
  roles : List (List Char)
  size : Option Int
  pair : Bool
  index : Nat
  deriving DecidableEq, Repr

/-- An entry with its pattern and its operation. -/
structure InstructionForm extends EntryHead where
  pattern : BitPattern
  op : Operation
  deriving DecidableEq, Repr

/-- An entry of a table. -/
inductive OpcodeEntry where
  | declared (head : EntryHead)
  | implemented (form : InstructionForm)
  deriving DecidableEq, Repr

namespace OpcodeEntry

/-- What the entry shares with all others. -/
def head : OpcodeEntry → EntryHead
  | .declared head => head
  | .implemented form => form.toEntryHead

/-- The instruction form, if there is one. -/
def form? : OpcodeEntry → Option InstructionForm
  | .declared _ => none
  | .implemented form => some form

/-- The entry as it is shown. -/
def describe (entry : OpcodeEntry) : String :=
  let op :=
    match entry.form? with
    | some form => Text.quoted form.op.name
    | none => "None"
  "OpcodeEntry(" ++ Text.quoted entry.head.mnemonic ++ ", " ++
    Text.quoted (String.ofList entry.head.shape) ++ ", op=" ++ op ++ ")"

end OpcodeEntry

/-- Why a definition is not a table. -/
inductive TableError where
  | pattern (error : PatternError)
  | declaredTwice (mnemonic : String)
  | roleCount (mnemonic : String) (shape : List Char) (roles : Nat)
  | unknownKind (mnemonic : String) (kind : Char)
  | unknownOperation (mnemonic : String) (op : Option Operation)
  | conflict (mnemonic : String) (template base : List Char)
  | fixedRole (mnemonic : String) (kind : Char)
  | missingField (mnemonic : String) (letter : Char) (template : List Char)
  deriving DecidableEq, Repr

open Text (decimal) in
/-- The text of a table error. -/
def TableError.message : TableError → String
  | .pattern error => error.message
  | .declaredTwice mnemonic => "Mnemonic '" ++ mnemonic ++ "' declared twice"
  | .roleCount mnemonic shape roles =>
    mnemonic ++ ": shape '" ++ String.ofList shape ++ "' has " ++ decimal shape.length ++
      " operands but " ++ decimal roles ++ " roles"
  | .unknownKind mnemonic kind =>
    mnemonic ++ ": unknown operand kind '" ++ kind.toString ++ "'"
  | .unknownOperation mnemonic op =>
    mnemonic ++ ": unknown operation '" ++ (op.map Operation.name).getD "None" ++ "'"
  | .conflict mnemonic template base =>
    mnemonic ++ ": pattern '" ++ String.ofList template ++ "' conflicts with base form '" ++
      String.ofList base ++ "'"
  | .fixedRole mnemonic kind =>
    mnemonic ++ ": operand kind '" ++ kind.toString ++ "' takes '*' as its role"
  | .missingField mnemonic letter template =>
    mnemonic ++ ": field '" ++ letter.toString ++ "' missing from pattern '" ++
      String.ofList template ++ "'"

/-- What a table is built from besides its lines: the base form of every operation, the field
letters of every operand kind, or none where the roles name them, and the declared widths of
fields. -/
structure TableBasis where
  baseForms : List (Operation × List Char)
  kindLetters : List (Char × Option (List Char))
  widths : List (Char × Int)

/-- A checked table: the entries of every mnemonic and the base form of every operation, both in
the order of their declaration. -/
structure OpcodeTable where
  groups : List (String × List OpcodeEntry)
  baseForms : List (Operation × BitPattern)
  deriving DecidableEq, Repr

namespace OpcodeTable

/-- Refuses with the error unless the condition holds. -/
def require (condition : Bool) (error : TableError) : Except TableError Unit :=
  if condition then .ok () else .error error

/-- Compiles a template of the table. -/
def compilePattern (widths : List (Char × Int)) (template : List Char) :
    Except TableError BitPattern :=
  (BitPattern.compile template widths 32).mapError .pattern

/-- Compiles the base form of every operation. -/
def compileBaseForms (widths : List (Char × Int)) :
    List (Operation × List Char) → Except TableError (List (Operation × BitPattern))
  | [] => .ok []
  | (op, template) :: rest => do
    let pattern ← compilePattern widths template
    return (op, pattern) :: (← compileBaseForms widths rest)

/-- Checks that the pattern has every field that the operand kinds and roles set. -/
def checkOperands (mnemonic : String) (kindLetters : List (Char × Option (List Char)))
    (pattern : BitPattern) : List (Char × List Char) → Except TableError Unit
  | [] => .ok ()
  | (kind, role) :: rest => do
    let fixed := (kindLetters.lookup kind).join
    require (fixed.isNone || role == ['*']) (.fixedRole mnemonic kind)
    if let some letter := (fixed.getD role).find? fun letter => !pattern.hasField letter then
      throw (.missingField mnemonic letter pattern.template)
    checkOperands mnemonic kindLetters pattern rest

/-- Builds one entry from its line. -/
def buildEntry (basis : TableBasis) (baseForms : List (Operation × BitPattern))
    (mnemonic : String) (line : FormLine) (index : Nat) : Except TableError OpcodeEntry := do
  require (line.roles.length == line.shape.length)
    (.roleCount mnemonic line.shape line.roles.length)
  if let some kind := line.shape.find? fun kind => (basis.kindLetters.lookup kind).isNone then
    throw (.unknownKind mnemonic kind)
  let head : EntryHead := ⟨mnemonic, line.shape, line.roles, line.size, line.pair, index⟩
  match line.pattern with
  | none => return .declared head
  | some template =>
    let pattern ← compilePattern basis.widths template
    match line.op.bind fun op => (baseForms.lookup op).map fun base => (op, base) with
    | none => throw (.unknownOperation mnemonic line.op)
    | some (op, base) =>
      require
        (base.literalMask &&& pattern.literalMask == base.literalMask &&
          pattern.literalValue &&& base.literalMask == base.literalValue)
        (.conflict mnemonic pattern.template base.template)
      checkOperands mnemonic basis.kindLetters pattern (line.shape.zip line.roles)
      return .implemented ⟨head, pattern, op⟩

/-- Builds the entries of one mnemonic, numbered from `index`. -/
def buildEntries (basis : TableBasis) (baseForms : List (Operation × BitPattern))
    (mnemonic : String) : (index : Nat) → List FormLine → Except TableError (List OpcodeEntry)
  | _, [] => .ok []
  | index, line :: rest => do
    let entry ← buildEntry basis baseForms mnemonic line index
    return entry :: (← buildEntries basis baseForms mnemonic (index + 1) rest)

/-- Builds the groups of all mnemonics, numbering the entries from `index`, after the mnemonics
already seen. -/
def buildGroups (basis : TableBasis) (baseForms : List (Operation × BitPattern)) :
    (seen : List String) → (index : Nat) → List (String × List FormLine) →
    Except TableError (List (String × List OpcodeEntry))
  | _, _, [] => .ok []
  | seen, index, (mnemonic, lines) :: rest => do
    require (!seen.contains mnemonic) (.declaredTwice mnemonic)
    let entries ← buildEntries basis baseForms mnemonic index lines
    return (mnemonic, entries) ::
      (← buildGroups basis baseForms (mnemonic :: seen) (index + lines.length) rest)

/-- Builds and checks a table. -/
def build (basis : TableBasis) (definitions : List (String × List FormLine)) :
    Except TableError OpcodeTable := do
  let baseForms ← compileBaseForms basis.widths basis.baseForms
  return ⟨← buildGroups basis baseForms [] 0 definitions, baseForms⟩

/-- The table without entries. -/
def empty : OpcodeTable := ⟨[], []⟩

/-- The mnemonics in the order of their declaration. -/
def mnemonics (table : OpcodeTable) : List String := table.groups.map Prod.fst

/-- Whether the table declares the mnemonic. -/
def contains (table : OpcodeTable) (mnemonic : String) : Bool :=
  (table.groups.lookup mnemonic).isSome

/-- The entries of a mnemonic, of which an undeclared one has none. -/
def entries (table : OpcodeTable) (mnemonic : String) : List OpcodeEntry :=
  (table.groups.lookup mnemonic).getD []

/-- All instruction forms in the order in which a word is compared with them. -/
def decodeOrder (table : OpcodeTable) : List InstructionForm :=
  (table.groups.flatMap Prod.snd).filterMap OpcodeEntry.form?

/-- The general pattern of an operation. -/
def baseForm? (table : OpcodeTable) (op : Operation) : Option BitPattern :=
  table.baseForms.lookup op

/-- The first of some forms whose literal bits agree with the word and that is admitted with its
field values. -/
def firstForm (admits : InstructionForm → List (Char × Nat) → Except ε Bool) (word : Nat) :
    List InstructionForm → Except ε (Option (InstructionForm × List (Char × Nat)))
  | [] => .ok none
  | form :: rest =>
    if form.pattern.accepts word then do
      let fields := form.pattern.decode word
      if ← admits form fields then return some (form, fields)
      firstForm admits word rest
    else firstForm admits word rest

/-- The first admitted form of a word in the order of declaration, with its field values. -/
def resolve (table : OpcodeTable)
    (admits : InstructionForm → List (Char × Nat) → Except ε Bool) (word : Nat) :
    Except ε (Option (InstructionForm × List (Char × Nat))) :=
  firstForm admits word table.decodeOrder

end OpcodeTable

end A64Machine
