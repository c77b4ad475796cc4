import A64Machine.Proofs.Encode
import A64Machine.Proofs.Operand

/-!
# The shapes of printed operands

Every kind of operand is printed in one of a few spellings. The operand that is read from such a
spelling fits the kind, and it does not fit the kinds of those entries that come before in the
table and would otherwise take the text over.
-/

namespace A64Machine

namespace OperandKind

/-- Whether the kind stands for an address. -/
def isAddress : OperandKind → Bool
  | .scaledAddress | .unscaledAddress | .preIndexed | .postIndexed | .registerIndexed => true
  | _ => false

/-- The spellings in which an operand of a kind is printed. -/
def Shapes (kind : OperandKind) (spelling : Spelling) : Prop :=
  match kind with
  | .register | .wideRegister | .halfRegister =>
    ∃ named, spelling = .plain (.register named none)
  | .extended =>
    ∃ named modifier amount, spelling = .plain (.register named (some (modifier, amount))) ∧
      modifier.extendCode?.isSome = true
  | .shifted =>
    ∃ named modification, spelling = .plain (.register named modification) ∧
      (modification.map Prod.fst).all (fun modifier => modifier.shiftCode?.isSome) = true
  | .arithmeticShifted =>
    ∃ named modification, spelling = .plain (.register named modification) ∧
      (modification.map Prod.fst).all (fun modifier =>
        modifier.shiftCode?.any fun code => decide (code < 3)) = true
  | .arithmeticImmediate => ∃ value shift, spelling = .plain (.immediate value shift)
  | .bitmask => ∃ value, spelling = .plain (.number value true)
  | .branchTarget | .byteTarget | .pageTarget => ∃ value, spelling = .plain (.number value false)
  | .scaledAddress | .unscaledAddress =>
    ∃ base, spelling = .address base none false ∨
      ∃ value, spelling = .address base (some (.immediate value none)) false
  | .preIndexed => ∃ base value, spelling = .address base (some (.immediate value none)) true
  | .postIndexed => ∃ base value, spelling = .postIndexed base value
  | .registerIndexed =>
    ∃ base index modification, spelling = .address base (some (.register index modification)) false ∧
      (Modifier.indexCode? (modification.map Prod.fst)).isSome = true
  | _ => ∃ value, spelling = .plain (.immediate value none)

/-- Only addresses have brackets. -/
theorem Shapes.exists_plain {kind : OperandKind} {spelling : Spelling} (shapes : kind.Shapes spelling)
    (isPlain : kind.isAddress = false) : ∃ inner, spelling = .plain inner := by
  cases kind with
  | scaledAddress | unscaledAddress | preIndexed | postIndexed | registerIndexed => contradiction
  | extended =>
    obtain ⟨named, modifier, amount, rfl, _⟩ := shapes
    exact ⟨_, rfl⟩
  | shifted | arithmeticShifted =>
    obtain ⟨named, modification, rfl, _⟩ := shapes
    exact ⟨_, rfl⟩
  | arithmeticImmediate =>
    obtain ⟨value, shift, rfl⟩ := shapes
    exact ⟨_, rfl⟩
  | _ =>
    obtain ⟨value, rfl⟩ := shapes
    exact ⟨_, rfl⟩

/-- An operand that is read from a spelling of a kind fits the kind. -/
theorem Shapes.fits {kind : OperandKind} {spelling : Spelling} (shapes : kind.Shapes spelling)
    {operand : Operand} (reads : spelling.Reads operand) :
    OperandKind.fits kind.code operand = .ok true := by
  cases kind with
  | register | wideRegister | halfRegister =>
    obtain ⟨named, rfl⟩ := shapes
    obtain ⟨given, rfl, _, plain, _⟩ := reads
    simp [OperandKind.fits, ofChar?_code, fitsRegister, isPlain, plain]
  | extended =>
    obtain ⟨named, modifier, amount, rfl, extends_⟩ := shapes
    obtain ⟨given, rfl, _, modified, _⟩ := reads
    simp [OperandKind.fits, ofChar?_code, fitsRegister, modified, extends_]
  | shifted =>
    obtain ⟨named, modification, rfl, shifts⟩ := shapes
    obtain ⟨given, rfl, _, modified, _⟩ := reads
    rw [← modified] at shifts
    simp only [OperandKind.fits, ofChar?_code, fitsRegister, shifts]
  | arithmeticShifted =>
    obtain ⟨named, modification, rfl, shifts⟩ := shapes
    obtain ⟨given, rfl, _, modified, _⟩ := reads
    rw [← modified] at shifts
    simp only [OperandKind.fits, ofChar?_code, fitsRegister, shifts]
  | arithmeticImmediate =>
    obtain ⟨value, shift, rfl⟩ := shapes
    obtain ⟨given, rfl, _⟩ := reads
    simp [OperandKind.fits, ofChar?_code, isImmediate]
  | bitmask | branchTarget | byteTarget | pageTarget =>
    obtain ⟨value, rfl⟩ := shapes
    obtain ⟨given, rfl, _, plain, _⟩ := reads
    simp [OperandKind.fits, ofChar?_code, isImmediate, plain]
  | immediate | shiftAmount | wide | invertedWide | leftShift | insertLow | insertWidth
  | extractLow | extractWidth | bitNumber =>
    obtain ⟨value, rfl⟩ := shapes
    obtain ⟨given, rfl, _, plain, _⟩ := reads
    simp [OperandKind.fits, ofChar?_code, isImmediate, plain]
  | scaledAddress | unscaledAddress =>
    obtain ⟨base, rfl | ⟨value, rfl⟩⟩ := shapes
    · obtain ⟨given, first, rfl, parts, _, plain, marked, none⟩ := Spelling.reads_base reads
      simp [OperandKind.fits, ofChar?_code, fitsAddress, base?, isPlain, parts, plain, marked, none]
    · obtain ⟨given, first, second, rfl, parts, _, plain, _, unshifted, marked, none⟩ :=
        Spelling.reads_offset reads
      simp [OperandKind.fits, ofChar?_code, fitsAddress, base?, isPlain, isPlainImmediate, parts,
        plain, unshifted, marked, none]
  | preIndexed =>
    obtain ⟨base, value, rfl⟩ := shapes
    obtain ⟨given, first, second, rfl, parts, _, plain, _, unshifted, marked, none⟩ :=
      Spelling.reads_offset reads
    simp [OperandKind.fits, ofChar?_code, fitsAddress, base?, isPlain, isPlainImmediate, parts,
      plain, unshifted, marked, none]
  | postIndexed =>
    obtain ⟨base, value, rfl⟩ := shapes
    obtain ⟨given, first, expression, rfl, parts, _, plain, marked, waits, _⟩ :=
      Spelling.reads_postIndexed reads
    simp [OperandKind.fits, ofChar?_code, fitsAddress, base?, isPlain, parts, plain, marked, waits]
  | registerIndexed =>
    obtain ⟨base, index, modification, rfl, indexes⟩ := shapes
    obtain ⟨given, first, second, rfl, parts, _, plain, _, modified, _, marked, none⟩ :=
      Spelling.reads_index reads
    rw [← modified] at indexes
    simp [OperandKind.fits, ofChar?_code, fitsAddress, base?, isPlain, isIndex, parts, plain,
      indexes, marked, none]

/-- Whether no operand that is printed for the second kind fits the first. -/
def excludes (kind printed : OperandKind) : Bool :=
  match printed with
  | .register | .wideRegister | .halfRegister | .extended => false
  | .shifted | .arithmeticShifted => kind == .extended
  | .scaledAddress | .unscaledAddress => false
  | .preIndexed => kind == .scaledAddress
  | .postIndexed => kind == .scaledAddress || kind == .preIndexed
  | .registerIndexed => kind == .scaledAddress || kind == .preIndexed || kind == .postIndexed
  | _ => !kind.isImmediate

/-- What shifts does not extend. -/
theorem any_extendCode?_of_shiftCode? {modifier : Option Modifier}
    (shifts : modifier.all (fun modifier => modifier.shiftCode?.isSome) = true) :
    (modifier.any fun modifier => modifier.extendCode?.isSome) = false := by
  cases modifier with
  | none => rfl
  | some modifier => cases modifier <;> first | rfl | contradiction

/-- An operand that is printed for a kind does not fit a kind that excludes it. -/
theorem Shapes.misfits {kind printed : OperandKind} {spelling : Spelling}
    (shapes : printed.Shapes spelling) (excluded : excludes kind printed = true)
    {operand : Operand} (reads : spelling.Reads operand) :
    OperandKind.fits kind.code operand = .ok false := by
  cases printed with
  | register | wideRegister | halfRegister | extended | scaledAddress | unscaledAddress =>
    contradiction
  | shifted =>
    obtain rfl := eq_of_beq excluded
    obtain ⟨named, modification, rfl, shifts⟩ := shapes
    obtain ⟨given, rfl, _, modified, _⟩ := reads
    rw [← modified] at shifts
    simp only [OperandKind.fits, ofChar?_code, fitsRegister, any_extendCode?_of_shiftCode? shifts]
  | arithmeticShifted =>
    obtain rfl := eq_of_beq excluded
    obtain ⟨named, modification, rfl, shifts⟩ := shapes
    obtain ⟨given, rfl, _, modified, _⟩ := reads
    rw [← modified] at shifts
    simp only [OperandKind.fits, ofChar?_code, fitsRegister]
    rw [any_extendCode?_of_shiftCode?]
    cases written : given.modifier with
    | none => rfl
    | some modifier =>
      rw [written] at shifts
      obtain ⟨code, known, _⟩ := (Option.any_eq_true _ _).mp shifts
      simp [known]
  | arithmeticImmediate =>
    obtain ⟨value, shift, rfl⟩ := shapes
    obtain ⟨given, rfl, _⟩ := reads
    have apart : kind.isImmediate = false := by simpa [excludes] using excluded
    simp [OperandKind.fits, ofChar?_code, apart]
  | branchTarget | byteTarget | pageTarget | immediate | shiftAmount | bitmask | wide
  | invertedWide | leftShift | insertLow | insertWidth | extractLow | extractWidth | bitNumber =>
    obtain ⟨value, rfl⟩ := shapes
    obtain ⟨given, rfl, _⟩ := reads
    have apart : kind.isImmediate = false := by simpa [excludes] using excluded
    simp [OperandKind.fits, ofChar?_code, apart]
  | preIndexed =>
    obtain rfl := eq_of_beq excluded
    obtain ⟨base, value, rfl⟩ := shapes
    obtain ⟨given, first, second, rfl, parts, _, plain, _, unshifted, marked, none⟩ :=
      Spelling.reads_offset reads
    simp [OperandKind.fits, ofChar?_code, fitsAddress, marked]
  | postIndexed =>
    obtain ⟨base, value, rfl⟩ := shapes
    obtain ⟨given, first, expression, rfl, parts, _, plain, marked, waits, _⟩ :=
      Spelling.reads_postIndexed reads
    simp only [excludes, Bool.or_eq_true, beq_iff_eq] at excluded
    rcases excluded with rfl | rfl <;> simp [OperandKind.fits, ofChar?_code, fitsAddress, waits]
  | registerIndexed =>
    obtain ⟨base, index, modification, rfl, indexes⟩ := shapes
    obtain ⟨given, first, second, rfl, parts, _, plain, _, modified, _, marked, none⟩ :=
      Spelling.reads_index reads
    simp only [excludes, Bool.or_eq_true, beq_iff_eq] at excluded
    rcases excluded with (rfl | rfl) | rfl <;>
      simp [OperandKind.fits, ofChar?_code, fitsAddress, isPlainImmediate, parts, marked, none]

end OperandKind

end A64Machine
