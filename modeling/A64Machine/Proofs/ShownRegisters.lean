import A64Machine.Proofs.AddressForms

/-!
# The registers that a text shows

The text of an instruction is read back as operands, and these name registers at one of their
widths. Every register field of the displayed entry is among them, with the number that the
execution takes from the word. The width follows from the kind of the operand: it is fixed, or it is
the width of the instruction, or an extension tells it.
-/

namespace A64Machine

/-- The registers that an operand names, those of an address included. -/
def Operand.registers : Operand → List Register
  | .register given => [given.register]
  | .immediate _ => []
  | .address given =>
    given.parts.filterMap fun
      | .register part => some part.register
      | .immediate _ => none

namespace OperandKind

/-- The fields of the registers that an operand of a kind names. -/
def registerLetters (kind : OperandKind) (role : List Char) : List Char :=
  match kind with
  | .register | .wideRegister | .halfRegister => role
  | .extended | .shifted | .arithmeticShifted => ['m']
  | .scaledAddress | .unscaledAddress | .preIndexed | .postIndexed => ['n']
  | .registerIndexed => ['n', 'm']
  | _ => []

/-- Whether an operand of a kind names the register of a field at full width, for the width of the
instruction and the code of the extension. -/
def showsWide (kind : OperandKind) (wide : Bool) (code : Nat) (letter : Char) : Bool :=
  match kind with
  | .wideRegister | .scaledAddress | .unscaledAddress | .preIndexed | .postIndexed => true
  | .halfRegister => false
  | .extended => code % 4 == 3
  | .registerIndexed => letter == 'n' || code % 4 == 3
  | _ => wide

/-- The fields of registers are among the fields that a kind sets. -/
theorem mem_letters_of_registerLetters {kind : OperandKind} {role : List Char} {letter : Char}
    (names : letter ∈ kind.registerLetters role) :
    letter ∈ kind.letters role ∧ kind ≠ .bitmask := by
  cases kind <;> simp only [registerLetters, List.not_mem_nil] at names <;>
    refine ⟨?_, by simp⟩ <;> simp only [letters, fieldLetters, Option.getD_none, Option.getD_some]
  case registerIndexed =>
    simp only [List.mem_cons, List.not_mem_nil, or_false] at names ⊢
    exact names.imp_right .inl
  case register | wideRegister | halfRegister => exact names
  all_goals exact List.mem_singleton.mp names ▸ List.mem_cons_self

end OperandKind

namespace Encode

variable {form : InstructionForm} {here : Int} {evaluate : Evaluator} {before after : Draft}
  {kind : OperandKind} {role : List Char} {wide : Bool} {letter : Char}

/-- A register of a draft: the field of a letter has its number, and it has the width that the kind
shows. -/
def ShowsRegister (kind : OperandKind) (wide : Bool) (letter : Char) (draft : Draft)
    (register : Register) : Prop :=
  draft.values.lookup letter = some (register.slot : Int) ∧
    ∃ code : Nat, (kind = .extended ∨ kind = .registerIndexed →
        draft.values.lookup 'o' = some (code : Int)) ∧
      register.wide = kind.showsWide wide code letter

/-- An encoded register is shown. -/
theorem showsRegister_of_register {given : RegisterOperand} (fits : kind.fitsRegister given = true)
    (known : before.wide = some wide)
    (encoded : register kind role given evaluate before = .ok after)
    (names : letter ∈ kind.registerLetters role) :
    ShowsRegister kind wide letter after given.register := by
  cases kind with
  | register | wideRegister | halfRegister =>
    obtain ⟨number, named, encoded⟩ := bind_eq_ok.mp encoded
    obtain ⟨width, rfl⟩ := registerNumber_eq_ok.mp named
    obtain rfl := Except.ok.inj encoded
    refine ⟨?_, 0, by simp, ?_⟩
    · rw [Draft.lookup_setAll]
      exact if_pos names
    · simpa [known, OperandKind.showsWide] using width
  | extended =>
    obtain ⟨number, named, encoded⟩ := bind_eq_ok.mp encoded
    obtain ⟨width, rfl⟩ := registerNumber_eq_ok.mp named
    obtain ⟨amount, _, encoded⟩ := bind_eq_ok.mp encoded
    obtain ⟨_, _, encoded⟩ := bind_eq_ok.mp encoded
    obtain rfl := Except.ok.inj encoded
    obtain rfl := List.mem_singleton.mp names
    refine ⟨by simp [Draft.lookup_set], _, fun _ => ?_, width⟩
    simp [Draft.lookup_set]
  | shifted | arithmeticShifted =>
    obtain ⟨number, named, encoded⟩ := bind_eq_ok.mp encoded
    obtain ⟨width, rfl⟩ := registerNumber_eq_ok.mp named
    obtain ⟨amount, _, encoded⟩ := bind_eq_ok.mp encoded
    obtain ⟨_, _, encoded⟩ := bind_eq_ok.mp encoded
    obtain rfl := Except.ok.inj encoded
    obtain rfl := List.mem_singleton.mp names
    refine ⟨by simp [Draft.lookup_set], 0, by simp, ?_⟩
    simpa [known, OperandKind.showsWide] using width
  | _ => contradiction

/-- The registers of an encoded address are shown. -/
theorem exists_showsRegister_of_address {given : AddressOperand}
    (based : (OperandKind.base? given).any OperandKind.isPlain = true)
    (fits : kind.fitsAddress given = true)
    (encoded : address form kind given evaluate before = .ok after)
    (names : letter ∈ kind.registerLetters role) :
    ∃ register ∈ (Operand.address given).registers,
      ShowsRegister kind wide letter after register := by
  obtain ⟨base, rest, parts⟩ := exists_base based
  have based : base.register ∈ (Operand.address given).registers := by
    rw [Operand.registers, parts]
    exact List.mem_cons_self
  rw [address, parts] at encoded
  obtain ⟨full, encoded⟩ := require_bind_eq_ok.mp encoded
  have offset {value : Int} {scaled : Bool} (isOffset : kind.registerLetters role = ['n'])
      (width : kind.showsWide wide 0 'n' = true)
      (plain : ¬(kind = .extended ∨ kind = .registerIndexed))
      (encoded : offset form given.span scaled value (before.set 'n' base.register.slot) =
        .ok after) :
      ∃ register ∈ (Operand.address given).registers,
        ShowsRegister kind wide letter after register := by
    obtain ⟨field, rfl⟩ := offset_spec encoded
    rw [isOffset, List.mem_singleton] at names
    subst names
    refine ⟨base.register, based, by simp [Draft.lookup_set], 0, fun uses => absurd uses plain, ?_⟩
    rw [full, width]
  cases kind with
  | postIndexed =>
    obtain ⟨_, _, encoded⟩ := bind_eq_ok.mp encoded
    exact offset rfl rfl (by simp) encoded
  | registerIndexed =>
    obtain ⟨part, rfl⟩ := exists_indexRegister parts fits
    obtain ⟨amount, shifted, _, width, _, rfl⟩ := index_of_amount encoded
    have second : part.register ∈ (Operand.address given).registers := by
      rw [Operand.registers, parts]
      exact List.mem_cons_of_mem _ List.mem_cons_self
    simp only [OperandKind.registerLetters, List.mem_cons, List.not_mem_nil, or_false] at names
    rcases names with rfl | rfl
    · refine ⟨base.register, based, by simp [Draft.lookup_set], indexCode part, fun _ => ?_, ?_⟩
      · simp [Draft.lookup_set]
      · rw [full, OperandKind.showsWide]
        rfl
    · refine ⟨part.register, second, by simp [Draft.lookup_set], indexCode part, fun _ => ?_, ?_⟩
      · simp [Draft.lookup_set]
      · rw [width, OperandKind.showsWide]
        rfl
  | scaledAddress | unscaledAddress | preIndexed =>
    cases rest with
    | nil => exact offset rfl rfl (by simp) encoded
    | cons part later =>
      cases part with
      | register part => exact offset rfl rfl (by simp) encoded
      | immediate part =>
        obtain ⟨_, _, encoded⟩ := bind_eq_ok.mp encoded
        exact offset rfl rfl (by simp) encoded
  | _ => contradiction

/-- The registers of an encoded operand are shown. -/
theorem exists_showsRegister {operand : Operand}
    (fits : OperandKind.fits kind.code operand = .ok true) (known : before.wide = some wide)
    (encoded : Encode.operand form here evaluate before kind.code role operand = .ok after)
    (names : letter ∈ kind.registerLetters role) :
    ∃ register ∈ operand.registers, ShowsRegister kind wide letter after register := by
  cases operand with
  | register given =>
    simp only [OperandKind.fits, OperandKind.ofChar?_code, Encode.operand] at fits encoded
    exact ⟨_, List.mem_singleton_self _,
      showsRegister_of_register (Except.ok.inj fits) known encoded names⟩
  | immediate given =>
    simp only [OperandKind.fits, OperandKind.ofChar?_code, Except.ok.injEq,
      Bool.and_eq_true] at fits
    obtain ⟨isImmediate, _⟩ := fits
    cases kind <;> contradiction
  | address given =>
    simp only [OperandKind.fits, OperandKind.ofChar?_code, Encode.operand, Except.ok.injEq,
      Bool.and_eq_true] at fits encoded
    exact exists_showsRegister_of_address fits.1 fits.2 encoded names

end Encode

/-- Spellings and the operands that are read from them stand at the same places. -/
theorem Spelling.ReadsAll.getElem? {spellings : List Spelling} {operands : List Operand}
    (reads : Spelling.ReadsAll spellings operands) {place : Nat} {spelling : Spelling}
    (here : spellings[place]? = some spelling) :
    ∃ operand, operands[place]? = some operand ∧ spelling.Reads operand := by
  induction spellings generalizing operands place with
  | nil => simp at here
  | cons first rest ih =>
    obtain ⟨operand, behind, rfl, readsFirst, readsRest⟩ := reads
    cases place with
    | zero => exact ⟨operand, rfl, Option.some.inj here ▸ readsFirst⟩
    | succ place => exact ih readsRest here

namespace Instruction

/-- Whether an instruction works at full width, as its displayed entry has it. -/
def isWide (instruction : Instruction) : Bool :=
  instruction.form.isWide
    (instruction.form.pattern.decode (Instruction.wordBits instruction.word))

/-- An operand that was read from the text names the registers of an operand of the entry, at the
widths that its kind shows. -/
def Shows (instruction : Instruction) (kind : OperandKind) (role : List Char) (operand : Operand) :
    Prop :=
  ∀ letter ∈ kind.registerLetters role, ∃ register ∈ operand.registers,
    register.slot = instruction.value letter ∧
      register.wide = kind.showsWide instruction.isWide (instruction.value 'o') letter

/-- Each operand of the entry is shown by the one that was read from the text at its place. -/
def ShowsAll (instruction : Instruction) (operands : List Operand) : Prop :=
  ∀ (place : Nat) (kind : OperandKind) (role : List Char),
    instruction.form.operands[place]? = some (kind, role) →
    ∃ operand, operands[place]? = some operand ∧ instruction.Shows kind role operand

end Instruction

namespace InstructionSet

/-- An operand that is read from what an instruction prints names its registers. -/
theorem shows_of_prints {instruction : Instruction} {word : Nat} {wide : Bool}
    (executes : Executes instruction instruction.form word wide) {here : Int} {kind : OperandKind}
    {role : List Char} (member : (kind, role) ∈ instruction.form.operands) {spelling : Spelling}
    (prints : Encode.Prints instruction.form here kind role (instruction.form.pattern.decode word)
      instruction.isWide (instruction.form.pattern.decode (instruction.form.reassembled word))
      spelling)
    {operand : Operand} (reads : spelling.Reads operand) : instruction.Shows kind role operand := by
  intro letter names
  -- The operand is encoded behind others that have told the width.
  let before : Draft := ⟨[], some instruction.isWide,
    kind.lowestBit instruction.isWide (((instruction.form.pattern.decode word).lookup 'r').getD 0)⟩
  have ready : Encode.Ready instruction.form kind (instruction.form.pattern.decode word)
      instruction.isWide before :=
    ⟨fun known same => (Option.some.inj same).symm, fun _ => rfl, fun _ r known => by
      simp only [before, known, Option.getD_some]⟩
  obtain ⟨after, encoded, holds⟩ := prints.encodes operand reads before ready
  obtain ⟨register, inside, slot, code, coded, width⟩ :=
    Encode.exists_showsRegister (prints.shapes.fits reads) rfl encoded names
  have check := checked executes.member
  -- What was set for a field is what the instruction executes.
  have value {letter : Char} (sets : letter ∈ kind.letters role) (plain : kind ≠ .bitmask)
      {given : Nat} (set : after.values.lookup letter = some (given : Int)) :
      given = instruction.value letter := by
    obtain ⟨read, known, held⟩ := holds.agree letter sets
    have restored : Encode.Restored kind role (instruction.form.pattern.decode word) _ :=
      InstructionForm.restored_reassembled check.wellFormed (masked _ executes.member) member
    rw [restored.same letter sets (.inl plain)] at known
    obtain ⟨field, notFlag⟩ := (sound _ executes.member).letters _ member letter sets
    rw [Instruction.value, executes.lookup_form notFlag field, known]
    exact Int.ofNat.inj (Option.some.inj (set.symm.trans held))
  obtain ⟨sets, plain⟩ := OperandKind.mem_letters_of_registerLetters names
  refine ⟨register, inside, value sets plain slot, ?_⟩
  rw [width]
  by_cases uses : kind = .extended ∨ kind = .registerIndexed
  · have setsCode : 'o' ∈ kind.letters role := by
      rcases uses with rfl | rfl <;> simp [OperandKind.letters, OperandKind.fieldLetters]
    rw [value setsCode plain (coded uses)]
  · cases kind <;> first | rfl | exact absurd (by simp) uses

/-- A decoded instruction executes its word at the width of its displayed entry. -/
theorem executes_isWide {word address : Int} {instruction : Instruction}
    (decoded : Codec.a64.decode word address = .ok (some instruction)) :
    Executes instruction instruction.form (Instruction.wordBits instruction.word)
      instruction.isWide := by
  obtain ⟨executes, _⟩ := executes_of_decode decoded
  obtain ⟨_, _, sameWord, _⟩ := decode_eq_some decoded
  rw [← sameWord] at executes
  exact executes

/-- The text of a decoded instruction is read back as operands, and they show those of the entry. -/
theorem exists_showsAll {word address : Int} {instruction : Instruction}
    (decoded : Codec.a64.decode word address = .ok (some instruction)) :
    ∃ text operands, instruction.text = .ok text ∧
      Operand.parse (Text.behindBlank text) 0 = .ok operands ∧ instruction.ShowsAll operands := by
  have executes := executes_isWide decoded
  have member := executes.member
  obtain ⟨printed, same, prints⟩ := exists_arePrinted_of_decode decoded
  obtain ⟨operands, parsed, reads⟩ := parse_of_arePrinted member same prints 0
  have text := text_of_arePrinted (sound _ member) same prints
  obtain ⟨_, rest⟩ := split_text (unbroken _ member) printed rfl
  refine ⟨_, operands, text, rest.symm ▸ parsed, fun place kind role here => ?_⟩
  rw [← same, List.getElem?_map] at here
  obtain ⟨⟨_, spelling⟩, found, rfl⟩ := Option.map_eq_some_iff.mp here
  have spelled : (printed.map Prod.snd)[place]? = some spelling := by
    rw [List.getElem?_map, found]
    rfl
  obtain ⟨operand, there, readsHere⟩ := reads.getElem? spelled
  have inside := List.mem_of_getElem? found
  refine ⟨operand, there, shows_of_prints executes ?_ (prints _ inside) readsHere⟩
  rw [← same]
  exact List.mem_map_of_mem inside

end InstructionSet

end A64Machine
