import A64Machine.Proofs.Admission
import A64Machine.Proofs.PrintedShape

/-!
# Printed operands encode their fields again

For every kind of operand the disassembly prints a spelling of the fields that the kind sets, and
encoding the operand that is read from that text sets those fields to what they were. The width of
the instruction and the lowest bit of a bitfield are known by then, since the operands that tell
them come first. This file says what that means and shows it for registers.
-/

namespace A64Machine

open InstructionForm (Agree dataSize)
open Encode (value amount)

namespace OperandKind

/-- Whether what an operand of the kind is printed or encoded as depends on the width of the
instruction. -/
def needsWidth (form : InstructionForm) (kind : OperandKind) : Bool :=
  kind.dependsOnSize || (kind.isAddress && form.size.isNone)

/-- The kind of operand that tells the lowest bit of a bitfield whose width the kind is. -/
def companion? : OperandKind → Option OperandKind
  | .insertWidth => some .insertLow
  | .extractWidth => some .extractLow
  | _ => none

/-- The lowest bit of a bitfield whose rotation is `r`, at the width of the instruction. -/
def lowestBit (kind : OperandKind) (wide : Bool) (r : Nat) : Int :=
  match kind with
  | .insertLow | .insertWidth => -(r : Int) % dataSize wide
  | _ => r

/-- The fields that an operand of the kind prints, with their widths. -/
def printedFields (kind : OperandKind) (role : List Char) : List (Char × Nat) :=
  match kind with
  | .register | .wideRegister | .halfRegister => role.map fun letter => (letter, 5)
  | .extended => [('m', 5), ('o', 3), ('i', 3)]
  | .shifted | .arithmeticShifted => [('m', 5), ('s', 2), ('i', 6)]
  | .arithmeticImmediate => [('s', 1), ('i', 12)]
  | .bitmask => [('N', 1), ('r', 6), ('s', 6)]
  | .wide | .invertedWide => [('h', 2), ('j', 16)]
  | .byteTarget | .pageTarget => [('I', 19), ('i', 2)]
  | .leftShift | .insertLow | .insertWidth | .extractLow | .extractWidth => [('r', 6), ('s', 6)]
  | .bitNumber => [('b', 6)]
  | .scaledAddress | .unscaledAddress | .preIndexed | .postIndexed => [('n', 5)]
  | .registerIndexed => [('n', 5), ('m', 5), ('o', 3), ('S', 1)]
  | .immediate | .shiftAmount | .branchTarget => []

/-- Whether an operand of the kind prints a signed field of any width. -/
def printsDistance : OperandKind → Bool
  | .branchTarget | .scaledAddress | .unscaledAddress | .preIndexed | .postIndexed => true
  | _ => false

/-- Whether an operand of the kind prints positions of a bitfield move or an extraction. -/
def printsPosition : OperandKind → Bool
  | .shiftAmount | .leftShift | .insertLow | .insertWidth | .extractLow | .extractWidth => true
  | _ => false

end OperandKind

namespace InstructionForm

/-- What printing an operand of a form and reading it back rely on. -/
structure Printable (form : InstructionForm) (kind : OperandKind) (role : List Char) : Prop where
  /-- The printed fields have the widths of their kind. -/
  fields : ∀ field ∈ kind.printedFields role, form.pattern.width? field.1 = some field.2
  /-- A signed field has a sign bit. -/
  distance : kind.printsDistance = true → (form.pattern.width? 'I').any (0 < ·) = true
  /-- A register or an immediate has a field. -/
  named : kind.fieldLetters = none → role ≠ []
  /-- The role of an immediate names one field. -/
  single : kind = .immediate ∨ kind = .shiftAmount →
    role.length = 1 ∧ ∀ letter ∈ role, form.pattern.hasField letter = true
  /-- Positions are those of a bitfield move or an extraction. -/
  moves : kind.printsPosition = true → form.op = .bitfield ∨ form.op = .extract
  /-- A shift amount is one of the positions. -/
  position : kind = .shiftAmount → role = ['r'] ∨ role = ['s']
  /-- The size of an access is a small number of bytes. -/
  access : kind.isAddress = true → form.size.all (fun size => 0 < size && size < 256) = true

end InstructionForm

namespace Encode

/-- What the operands in front of one have told about the instruction. -/
structure Ready (form : InstructionForm) (kind : OperandKind) (fields : Fields) (wide : Bool)
    (draft : Draft) : Prop where
  /-- The width is not another one. -/
  compatible : ∀ known, draft.wide = some known → known = wide
  /-- The width is known where it matters. -/
  width : kind.needsWidth form = true → draft.wide = some wide
  /-- The lowest bit is known where it matters. -/
  lowest : kind.companion?.isSome = true → ∀ r, fields.lookup 'r' = some r →
    draft.lowest = kind.lowestBit wide r

/-- What an encoded operand tells about the instruction. -/
structure Holds (kind : OperandKind) (role : List Char) (fields : Fields) (wide : Bool)
    (draft : Draft) : Prop where
  /-- The fields of the operand have their values. -/
  agree : ∀ letter ∈ kind.letters role, Agree fields draft letter
  /-- The first register tells the width. -/
  width : kind = .register → draft.wide = some wide
  /-- The lowest bit of a bitfield is known. -/
  lowest : kind.setsLowest = true → ∀ r, fields.lookup 'r' = some r →
    draft.lowest = kind.lowestBit wide r

/-- The fields of a word that is assembled again: the rotation of a masked immediate is less than
the element size, and all other fields that the operand sets are as they were. -/
structure Restored (kind : OperandKind) (role : List Char) (fields target : Fields) : Prop where
  /-- Other fields are as they were. -/
  same : ∀ letter ∈ kind.letters role, kind ≠ .bitmask ∨ letter ≠ 'r' →
    target.lookup letter = fields.lookup letter
  /-- The rotation is reduced. -/
  rotation : kind = .bitmask → ∀ n r s, fields.lookup 'N' = some n → fields.lookup 'r' = some r →
    fields.lookup 's' = some s →
      target.lookup 'r' = some (r % LogicalImmediate.ringSize n s)

/-- Whether a move of the kind refuses what is printed for another move. -/
def refuses (kind printed : OperandKind) : Bool :=
  match printed with
  | .invertedWide => kind == .wide
  | .bitmask => kind == .wide || kind == .invertedWide
  | _ => false

/-- An operand of a form is printed as a spelling, and what is read from the spelling is encoded
with the printed fields. -/
structure Prints (form : InstructionForm) (here : Int) (kind : OperandKind) (role : List Char)
    (fields : Fields) (wide : Bool) (target : Fields) (spelling : Spelling) : Prop where
  /-- The spelling is what the disassembly prints. -/
  text : Disassembly.operand form kind role fields wide here = .ok spelling.text
  /-- The registers of the spelling exist and its amounts are small. -/
  valid : spelling.Valid
  /-- The spelling is one of the kind. -/
  shapes : kind.Shapes spelling
  /-- Encoding sets the printed fields. -/
  encodes : ∀ operand, spelling.Reads operand → ∀ draft, Ready form kind fields wide draft →
    ∃ after, Encode.operand form here (Codec.addressOnly here) draft kind.code role operand =
      .ok after ∧ Holds kind role target wide after
  /-- The moves of other kinds refuse what a move prints. -/
  refused : form.mnemonic = "mov" → ∀ other, refuses other kind = true →
    ∀ operand, spelling.Reads operand → ∀ draft : Draft, draft.wide = some wide →
      ∀ form' : InstructionForm, ∃ error,
        Encode.operand form' here (Codec.addressOnly here) draft other.code role operand =
          .error (.refused (.assembly error))

variable {form : InstructionForm} {here : Int} {role : List Char} {fields target : Fields}
  {wide : Bool}

/-! ### Reading fields -/

/-- The fields of a word of a form. -/
def AreFields (form : InstructionForm) (fields : Fields) : Prop :=
  ∀ letter width, form.pattern.width? letter = some width →
    ∃ value, fields.lookup letter = some value ∧ value < 2 ^ width

/-- A printed field has a value of its width. -/
theorem exists_printed {kind : OperandKind} (printable : form.Printable kind role)
    (areFields : AreFields form fields) {letter : Char} {width : Nat}
    (printed : (letter, width) ∈ kind.printedFields role) :
    ∃ value, fields.lookup letter = some value ∧ value < 2 ^ width :=
  areFields letter width (printable.fields _ printed)

/-- A field with a value is read. -/
theorem read_of_lookup {letter : Char} {given : Nat} (known : fields.lookup letter = some given) :
    fields.read letter = .ok given := by
  rw [Fields.read, known]

/-- What an expression denotes is its value. -/
theorem value_of_denotes {expression : Expression} {given : Int}
    (denotes : expression.Denotes given) : value (Codec.addressOnly here) expression = .ok given := by
  rw [value, Codec.addressOnly, denotes]
  rfl

/-- A printed amount is the value of the amount that is read. -/
theorem amount_of_reads {printed : Option Nat} {given : Option Expression}
    (reads : PlainSpelling.ReadsAmount printed given) :
    amount (Codec.addressOnly here) given = .ok (printed.getD 0 : Nat) := by
  cases printed with
  | none =>
    obtain rfl := reads
    rfl
  | some printed =>
    obtain ⟨expression, rfl, denotes⟩ := reads
    exact value_of_denotes denotes

/-- A register operand is encoded as a register. -/
theorem operand_register (kind : OperandKind) (given : RegisterOperand) (draft : Draft) :
    Encode.operand form here (Codec.addressOnly here) draft kind.code role (.register given) =
      register kind role given (Codec.addressOnly here) draft := by
  simp only [Encode.operand, OperandKind.ofChar?_code]

/-- An immediate operand is encoded as an immediate of its value. -/
theorem operand_immediate (kind : OperandKind) {given : ImmediateOperand} {denoted : Int}
    (denotes : given.value.Denotes denoted) (draft : Draft) :
    Encode.operand form here (Codec.addressOnly here) draft kind.code role (.immediate given) =
      immediate form here kind role given denoted (Codec.addressOnly here) draft := by
  simp only [Encode.operand, OperandKind.ofChar?_code, value_of_denotes denotes, ok_bind rfl]

/-- An address operand is encoded as an address. -/
theorem operand_address (kind : OperandKind) (given : AddressOperand) (draft : Draft) :
    Encode.operand form here (Codec.addressOnly here) draft kind.code role (.address given) =
      address form kind given (Codec.addressOnly here) draft := by
  simp only [Encode.operand, OperandKind.ofChar?_code]

/-- The data size of a draft whose width is known. -/
theorem size_of_width {draft : Draft} (width : draft.wide = some wide) :
    draft.size = dataSize wide := by
  rw [Draft.size, width, dataSize]
  cases wide <;> rfl

/-- A register of the width that was asked for is encoded by its number. -/
theorem registerNumber_of_wide {given : RegisterOperand} {slot : Nat}
    (named : given.register = ⟨slot, wide⟩) : registerNumber given wide = .ok (slot : Int) := by
  rw [registerNumber_eq_ok, named]
  exact ⟨rfl, rfl⟩

/-- An operand that is no register and tells no lowest bit only has to set its fields. -/
theorem Holds.of_agree {kind : OperandKind} {draft : Draft} (other : kind ≠ .register)
    (plain : kind.setsLowest = false) (agree : ∀ letter ∈ kind.letters role, Agree target draft letter) :
    Holds kind role target wide draft :=
  ⟨agree, fun same => absurd same other, fun sets => by rw [plain] at sets; contradiction⟩

/-- A two's complement reading is a signed number of its width. -/
theorem isSigned_signExtend {width : Nat} (positive : 0 < width) (given : Int) :
    isSigned (Bits.signExtend given width) width = true := by
  obtain ⟨below, rfl⟩ : ∃ below, width = below + 1 := ⟨width - 1, by omega⟩
  rw [isSigned, decide_eq_true_eq]
  exact Bits.signExtend_bounds below given

/-- The field of a distance. -/
theorem exists_distance {kind : OperandKind} (printable : form.Printable kind role)
    (areFields : AreFields form fields) (distance : kind.printsDistance = true) :
    ∃ width given, form.pattern.width? 'I' = some width ∧ 0 < width ∧
      fields.lookup 'I' = some given ∧ given < 2 ^ width := by
  obtain ⟨width, known, positive⟩ := (Option.any_eq_true _ _).mp (printable.distance distance)
  obtain ⟨given, found, small⟩ := areFields 'I' width known
  exact ⟨width, given, known, by simpa using positive, found, small⟩

/-! ### Registers -/

/-- Fields that are read have values. -/
theorem lookup_of_mapM_read {values : List Nat} (read : role.mapM fields.read = .ok values) :
    role.map (fun letter => fields.lookup letter) = values.map some := by
  induction role generalizing values with
  | nil =>
    obtain rfl := Except.ok.inj read
    rfl
  | cons letter rest ih =>
    rw [List.mapM_cons] at read
    obtain ⟨first, here, read⟩ := bind_eq_ok.mp read
    obtain ⟨later, there, read⟩ := bind_eq_ok.mp read
    obtain rfl := Except.ok.inj read
    rw [List.map_cons, List.map_cons, ih there]
    rw [Fields.read] at here
    split at here
    · rename_i found
      rw [found, Except.ok.inj here]
    · contradiction

/-- The fields of a register have one value. -/
theorem exists_number {kind : OperandKind} (printable : form.Printable kind role)
    (areFields : AreFields form fields)
    (registers : kind = .register ∨ kind = .wideRegister ∨ kind = .halfRegister)
    (admitted : InstructionForm.admitsOperand form.mnemonic fields (dataSize wide) kind role =
      .ok true) :
    ∃ number < 32, fields.readRole (role.take 1) = .ok number ∧
      ∀ letter ∈ role, fields.lookup letter = some number := by
  have printed : kind.printedFields role = role.map fun letter => (letter, 5) := by
    rcases registers with rfl | rfl | rfl <;> rfl
  have decided : (do
      let values ← role.mapM fields.read
      return values.all fun value => values.head? == some value) = .ok true := by
    rcases registers with rfl | rfl | rfl <;> exact admitted
  obtain ⟨first, rest, rfl⟩ : ∃ first rest, role = first :: rest :=
    List.exists_cons_of_ne_nil (printable.named (by rcases registers with rfl | rfl | rfl <;> rfl))
  obtain ⟨values, read, same⟩ := bind_eq_ok.mp decided
  have known := lookup_of_mapM_read read
  cases values with
  | nil => contradiction
  | cons number others =>
    obtain ⟨here, later⟩ := List.cons_eq_cons.mp known
    have agree : ∀ other ∈ others, other = number := by
      have all := Except.ok.inj same
      simp only [List.head?_cons, List.all_cons, Bool.and_eq_true, List.all_eq_true,
        beq_iff_eq, Option.some.injEq] at all
      exact fun other inside => (all.2 other inside).symm
    obtain ⟨number', here', small⟩ :=
      exists_printed printable areFields (by rw [printed]; exact List.mem_cons_self)
    obtain rfl : number = number' := Option.some.inj (here.symm.trans here')
    refine ⟨number, small, read_of_lookup here, List.forall_mem_cons.mpr ⟨here, ?_⟩⟩
    intro letter inside
    have mapped : fields.lookup letter ∈ others.map some :=
      later ▸ List.mem_map_of_mem (f := fun letter => fields.lookup letter) inside
    obtain ⟨other, among, found⟩ := List.mem_map.mp mapped
    rw [← found, agree other among]

/-- The width of a register of a kind. -/
def widthOf (kind : OperandKind) (wide : Bool) : Bool :=
  match kind with
  | .wideRegister => true
  | .halfRegister => false
  | _ => wide

/-- A register is printed and read back. -/
theorem prints_register {kind : OperandKind} (printable : form.Printable kind role)
    (areFields : AreFields form fields)
    (registers : kind = .register ∨ kind = .wideRegister ∨ kind = .halfRegister)
    (admitted : InstructionForm.admitsOperand form.mnemonic fields (dataSize wide) kind role =
      .ok true) : ∃ spelling, Prints form here kind role fields wide fields spelling := by
  obtain ⟨number, small, read, same⟩ := exists_number printable areFields registers admitted
  have agrees (draft : Draft) (letter : Char) (inside : letter ∈ kind.letters role) :
      Agree fields (draft.setAll role number) letter := by
    have own : kind.letters role = role := by rcases registers with rfl | rfl | rfl <;> rfl
    refine ⟨number, same letter (own ▸ inside), ?_⟩
    · rw [Draft.lookup_setAll, if_pos (own ▸ inside)]
  have printed : ∀ named, (Spelling.plain (.register named none)).text = named.name := fun named => by
    simp [Spelling.text, PlainSpelling.text, Spelling.modificationText]
  refine ⟨.plain (.register ⟨number, widthOf kind wide⟩ none), ?_, ⟨small, rfl⟩, ?_, ?_, ?_⟩
  · rw [printed]
    rcases registers with rfl | rfl | rfl <;>
      · rw [Disassembly.operand, ok_bind read]
        rfl
  · rcases registers with rfl | rfl | rfl <;> exact ⟨_, rfl⟩
  · rintro operand ⟨given, rfl, named, _, _⟩ draft ready
    rw [operand_register]
    rcases registers with rfl | rfl | rfl
    · have known : draft.wide.getD given.register.wide = wide := by
        cases set : draft.wide with
        | none => rw [named]; rfl
        | some other => exact ready.compatible other set
      refine ⟨_, ?_, agrees { draft with wide := some wide }, fun _ => ?_, fun impossible => by contradiction⟩
      · have coded : registerNumber given wide = .ok (number : Int) := registerNumber_of_wide named
        simp only [register, known]
        rw [ok_bind coded]
        rfl
      · exact (Draft.setAll_rest _ _ _).1
    · refine ⟨_, ?_, agrees draft, fun impossible => by contradiction,
        fun impossible => by contradiction⟩
      have coded : registerNumber given true = .ok (number : Int) := registerNumber_of_wide named
      rw [register, ok_bind coded]
      rfl
    · refine ⟨_, ?_, agrees draft, fun impossible => by contradiction,
        fun impossible => by contradiction⟩
      have coded : registerNumber given false = .ok (number : Int) := registerNumber_of_wide named
      rw [register, ok_bind coded]
      rfl
  · intro _ other refused
    rcases registers with rfl | rfl | rfl <;> contradiction

/-- The keyword of an extension is printed, and it has the code again. -/
theorem exists_extension : ∀ code < 8, ∃ keyword, Modifier.extensions[code]? = some keyword ∧
    keyword.extendCode? = some code := by
  decide

/-- The keyword of a shift is printed, and it has the code again. -/
theorem exists_shift : ∀ code < 4, ∃ keyword, Modifier.shifts[code]? = some keyword ∧
    keyword.shiftCode? = some code := by
  decide

/-- The keyword of a code is found. -/
theorem modifier_of_getElem? {modifiers : List Modifier} {code : Nat} {keyword : Modifier}
    (found : modifiers[code]? = some keyword) :
    Disassembly.modifier modifiers code = .ok keyword.name := by
  rw [Disassembly.modifier, found]

/-- An extended register is printed and read back. -/
theorem prints_extended (printable : form.Printable .extended role)
    (areFields : AreFields form fields)
    (admitted : InstructionForm.admitsOperand form.mnemonic fields (dataSize wide) .extended role =
      .ok true) : ∃ spelling, Prints form here .extended role fields wide fields spelling := by
  obtain ⟨number, knownM, smallM⟩ :=
    exists_printed printable areFields (show ('m', 5) ∈ _ by simp [OperandKind.printedFields])
  obtain ⟨code, knownO, smallO⟩ :=
    exists_printed printable areFields (show ('o', 3) ∈ _ by simp [OperandKind.printedFields])
  obtain ⟨shift, knownI, smallI⟩ :=
    exists_printed printable areFields (show ('i', 3) ∈ _ by simp [OperandKind.printedFields])
  obtain ⟨keyword, found, coded⟩ := exists_extension code smallO
  have bound : shift ≤ 4 := by
    rw [InstructionForm.admitsOperand, ok_bind (read_of_lookup knownI)] at admitted
    simpa using Except.ok.inj admitted
  refine ⟨.plain (.register ⟨number, code % 4 == 3⟩
    (some (keyword, if shift = 0 then none else some shift))), ?_, ?_, ?_, ?_, ?_⟩
  · rw [Disassembly.operand, ok_bind (read_of_lookup knownO), ok_bind (read_of_lookup knownM),
      ok_bind (modifier_of_getElem? found), ok_bind (read_of_lookup knownI)]
    refine congrArg Except.ok ?_
    by_cases none : shift = 0
    · simp [none, Spelling.text, PlainSpelling.text, Spelling.modificationText, Spelling.amountText,
        Disassembly.register, String.append_assoc]
    · simp [none, Spelling.text, PlainSpelling.text, Spelling.modificationText, Spelling.amountText,
        Disassembly.register, String.append_assoc]
  · refine ⟨smallM, ?_⟩
    by_cases none : shift = 0
    · simp [none, Spelling.isSmall]
    · simp [none, Spelling.isSmall, show shift < 256 by omega]
  · exact ⟨_, _, _, rfl, by rw [coded]; rfl⟩
  · rintro operand ⟨given, rfl, named, modified, reads⟩ draft ready
    have written : amount (Codec.addressOnly here) given.amount = .ok (shift : Int) := by
      rw [amount_of_reads reads]
      by_cases none : shift = 0 <;> simp [none]
    have extends_ : (given.modifier.bind Modifier.extendCode?).getD 0 = code := by
      simp [modified, coded]
    have numbered : registerNumber given (code % 4 == 3) = .ok (number : Int) :=
      registerNumber_of_wide named
    have small : require (decide (0 ≤ (shift : Int) ∧ (shift : Int) ≤ 4)) .extendAmount given.span =
        .ok () := require_eq_ok.mpr (by simp; omega)
    refine ⟨((draft.set 'm' number).set 'o' code).set 'i' shift, ?_,
      .of_agree (by simp) rfl ?_⟩
    · rw [operand_register]
      simp only [register, extends_]
      rw [ok_bind numbered, ok_bind written, ok_bind small]
      rfl
    · simp [OperandKind.letters, OperandKind.fieldLetters, Agree, Draft.lookup_set, knownM, knownO,
        knownI]
  · intro _ other refused
    contradiction

/-- The amount of an admitted shift is below the data size, and an arithmetic one is no rotation. -/
theorem shift_of_admitted {kind : OperandKind} {code shift : Nat}
    (knownS : fields.lookup 's' = some code) (knownI : fields.lookup 'i' = some shift)
    (shifts : kind = .shifted ∨ kind = .arithmeticShifted)
    (admitted : InstructionForm.admitsOperand form.mnemonic fields (dataSize wide) kind role =
      .ok true) : shift < dataSize wide ∧ (kind = .arithmeticShifted → code ≠ 3) := by
  rcases shifts with rfl | rfl
  · rw [InstructionForm.admitsOperand, ok_bind (read_of_lookup knownI)] at admitted
    exact ⟨by simpa using Except.ok.inj admitted, fun impossible => by contradiction⟩
  · rw [InstructionForm.admitsOperand, ok_bind (read_of_lookup knownS)] at admitted
    split at admitted
    · exact absurd (Except.ok.inj admitted) (by simp)
    · rename_i notRotation
      rw [ok_bind (read_of_lookup knownI)] at admitted
      exact ⟨by simpa using Except.ok.inj admitted, fun _ => notRotation⟩

/-- The modification that a shift is printed as, which is none where nothing is shifted. -/
def shiftModification (keyword : Modifier) (code shift : Nat) : Modification :=
  if code = 0 ∧ shift = 0 then none else some (keyword, some shift)

section Shift

variable {kind : OperandKind} {keyword : Modifier} {number code shift : Nat}

/-- The modification of a shift has its code and its amount. -/
theorem shiftModification_spec (coded : keyword.shiftCode? = some code) (shift : Nat) :
    (((shiftModification keyword code shift).map Prod.fst).bind Modifier.shiftCode?).getD 0 = code ∧
      ((shiftModification keyword code shift).bind Prod.snd).getD 0 = shift := by
  unfold shiftModification
  by_cases plain : code = 0 ∧ shift = 0 <;> simp [plain, coded]

/-- A small amount makes the modification of a shift small. -/
theorem isSmall_shiftModification (small : shift < 256) :
    Spelling.isSmall (shiftModification keyword code shift) = true := by
  unfold shiftModification
  by_cases plain : code = 0 ∧ shift = 0 <;> simp [plain, Spelling.isSmall, small]

/-- The modification of a shift is one that its kind takes. -/
theorem shapes_shiftModification (shifts : kind = .shifted ∨ kind = .arithmeticShifted)
    (coded : keyword.shiftCode? = some code) (proper : kind = .arithmeticShifted → code < 3) :
    kind.Shapes (.plain (.register ⟨number, wide⟩ (shiftModification keyword code shift))) := by
  unfold shiftModification
  rcases shifts with rfl | rfl
  · refine ⟨_, _, rfl, ?_⟩
    by_cases plain : code = 0 ∧ shift = 0 <;> simp [plain, coded]
  · refine ⟨_, _, rfl, ?_⟩
    by_cases plain : code = 0 ∧ shift = 0 <;> simp [plain, coded, proper]

/-- A shifted register is printed with the modification of its shift. -/
theorem text_of_shift (shifts : kind = .shifted ∨ kind = .arithmeticShifted)
    (found : Modifier.shifts[code]? = some keyword) (knownM : fields.lookup 'm' = some number)
    (knownS : fields.lookup 's' = some code) (knownI : fields.lookup 'i' = some shift) :
    Disassembly.operand form kind role fields wide here =
      .ok (Spelling.plain
        (.register ⟨number, wide⟩ (shiftModification keyword code shift))).text := by
  have spelled : (do
      let number := Disassembly.register (← fields.read 'm') wide
      let code ← fields.read 's'
      let amount ← fields.read 'i'
      if code = 0 ∧ amount = 0 then return number
      return number ++ ", " ++ (← Disassembly.modifier Modifier.shifts code) ++ " #" ++
        Text.decimal amount) =
      .ok (Spelling.plain
        (.register ⟨number, wide⟩ (shiftModification keyword code shift))).text := by
    rw [ok_bind (read_of_lookup knownM), ok_bind (read_of_lookup knownS),
      ok_bind (read_of_lookup knownI), shiftModification]
    by_cases plain : code = 0 ∧ shift = 0
    · rw [if_pos plain, if_pos plain]
      refine congrArg Except.ok ?_
      simp [Spelling.text, PlainSpelling.text, Spelling.modificationText, Disassembly.register]
    · rw [if_neg plain, if_neg plain, ok_bind (modifier_of_getElem? found)]
      refine congrArg Except.ok ?_
      simp [Spelling.text, PlainSpelling.text, Spelling.modificationText, Spelling.amountText,
        Disassembly.register, String.append_assoc]
  rcases shifts with rfl | rfl <;> exact spelled

/-- A register that is read with the modification of a shift is encoded with its code and amount. -/
theorem register_of_shift (shifts : kind = .shifted ∨ kind = .arithmeticShifted)
    (coded : keyword.shiftCode? = some code) (below : shift < dataSize wide)
    {given : RegisterOperand} (named : given.register = ⟨number, wide⟩)
    (modified : given.modifier = (shiftModification keyword code shift).map Prod.fst)
    (reads : PlainSpelling.ReadsAmount ((shiftModification keyword code shift).bind Prod.snd)
      given.amount) {draft : Draft} (width : draft.wide = some wide) :
    register kind role given (Codec.addressOnly here) draft =
      .ok (((draft.set 'm' number).set 's' code).set 'i' shift) := by
  obtain ⟨sameCode, sameAmount⟩ := shiftModification_spec coded shift
  have written : amount (Codec.addressOnly here) given.amount = .ok (shift : Int) := by
    rw [amount_of_reads reads, sameAmount]
  have numbered : registerNumber given (draft.wide.getD given.register.wide) =
      .ok (number : Int) := by
    rw [width]
    exact registerNumber_of_wide named
  have small : require (isBelow shift draft.size) .shiftAmountRange given.span = .ok () :=
    require_isBelow (size_of_width width ▸ below)
  rcases shifts with rfl | rfl <;>
    · simp only [register, modified, sameCode]
      rw [ok_bind numbered, ok_bind written, ok_bind small]
      rfl

/-- A shifted register is printed and read back. -/
theorem prints_shifted (printable : form.Printable kind role) (areFields : AreFields form fields)
    (shifts : kind = .shifted ∨ kind = .arithmeticShifted)
    (admitted : InstructionForm.admitsOperand form.mnemonic fields (dataSize wide) kind role =
      .ok true) : ∃ spelling, Prints form here kind role fields wide fields spelling := by
  have printed : kind.printedFields role = [('m', 5), ('s', 2), ('i', 6)] := by
    rcases shifts with rfl | rfl <;> rfl
  obtain ⟨number, knownM, smallM⟩ :=
    exists_printed printable areFields (show ('m', 5) ∈ _ by simp [printed])
  obtain ⟨code, knownS, smallS⟩ :=
    exists_printed printable areFields (show ('s', 2) ∈ _ by simp [printed])
  obtain ⟨shift, knownI, smallI⟩ :=
    exists_printed printable areFields (show ('i', 6) ∈ _ by simp [printed])
  obtain ⟨keyword, found, coded⟩ := exists_shift code smallS
  obtain ⟨below, noRotation⟩ := shift_of_admitted knownS knownI shifts admitted
  refine ⟨.plain (.register ⟨number, wide⟩ (shiftModification keyword code shift)),
    text_of_shift shifts found knownM knownS knownI,
    ⟨smallM, isSmall_shiftModification (by omega)⟩,
    shapes_shiftModification shifts coded fun arithmetic => ?_, ?_, ?_⟩
  · have := noRotation arithmetic
    omega
  · rintro operand ⟨given, rfl, named, modified, reads⟩ draft ready
    have width : draft.wide = some wide := ready.width (by rcases shifts with rfl | rfl <;> rfl)
    refine ⟨_, (operand_register _ _ _).trans
      (register_of_shift shifts coded below named modified reads width), ?_⟩
    rcases shifts with rfl | rfl <;>
      · refine .of_agree (by simp) rfl ?_
        simp [OperandKind.letters, OperandKind.fieldLetters, Agree, Draft.lookup_set, knownM, knownS,
          knownI]
  · intro _ other refused
    rcases shifts with rfl | rfl <;> contradiction

end Shift

end Encode

end A64Machine
