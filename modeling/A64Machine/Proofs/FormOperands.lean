import A64Machine.Proofs.Encode
import A64Machine.Proofs.InstructionSet

/-!
# The operands of the forms

Reading and writing instructions rely on more of a form than the checks of a table ask for: that
its operands set different fields, that the first register tells the width before an operand
depends on it, and that the conditions on its fields only speak of fields that it has.
-/

namespace A64Machine

namespace OperandKind

/-- The field letters that the conditions on an operand of a kind speak of. -/
def conditionLetters (kind : OperandKind) (role : List Char) : List Char :=
  match kind with
  | .register | .wideRegister | .halfRegister => role
  | .extended | .shifted => ['i']
  | .arithmeticShifted => ['s', 'i']
  | .bitmask => ['N', 's', 'r']
  | .wide | .invertedWide => ['j', 'h']
  | .leftShift | .insertLow | .extractLow => ['s', 'r']
  | .registerIndexed => ['o']
  | _ => []

/-- Whether two operands set different fields and the second does not move the lowest bit of the
first. -/
def areApart (first second : OperandKind × List Char) : Bool :=
  (first.1.letters first.2).all (fun letter => !(second.1.letters second.2).contains letter) &&
    (!first.1.usesLowest || !second.1.setsLowest)

theorem areApart_iff {first second : OperandKind × List Char} :
    areApart first second = true ↔ Apart first second := by
  rw [areApart, Bool.and_eq_true, List.all_eq_true]
  constructor
  · rintro ⟨letters, lowest⟩
    refine ⟨fun letter inside again => ?_, fun uses => by simpa [uses] using lowest⟩
    have := letters letter inside
    simp [again] at this
  · rintro ⟨letters, lowest⟩
    refine ⟨fun letter inside => by simpa using letters letter inside, ?_⟩
    cases uses : first.1.usesLowest with
    | true => simp [lowest uses]
    | false => rfl

instance (first second : OperandKind × List Char) : Decidable (Apart first second) :=
  decidable_of_iff _ areApart_iff

instance (operands : List (OperandKind × List Char)) : Decidable (SizeKnown operands) :=
  inferInstanceAs (Decidable (_ ∨ _))

end OperandKind

namespace InstructionForm

/-- The operands of a form, with their kinds. -/
def operands (form : InstructionForm) : List (OperandKind × List Char) :=
  (form.shape.zip form.roles).filterMap fun (code, role) =>
    (OperandKind.ofChar? code).map fun kind => (kind, role)

/-- What reading and writing rely on. -/
structure Sound (form : InstructionForm) : Prop where
  /-- All kinds have a meaning. -/
  shape : form.shape.zip form.roles =
    form.operands.map fun operand => (operand.1.code, operand.2)
  /-- Different operands set different fields. -/
  apart : form.operands.Pairwise OperandKind.Apart
  /-- The width is known before an operand depends on it. -/
  sizeKnown : OperandKind.SizeKnown form.operands
  /-- Operands set fields of the pattern other than the width flag. -/
  letters : ∀ operand ∈ form.operands, ∀ letter ∈ operand.1.letters operand.2,
    form.pattern.hasField letter = true ∧ letter ≠ 'z'
  /-- Conditions speak of fields of the pattern other than the width flag. -/
  conditions : ∀ operand ∈ form.operands, ∀ letter ∈ operand.1.conditionLetters operand.2,
    form.pattern.hasField letter = true ∧ letter ≠ 'z'
  /-- A form with an operand that depends on the width has the width flag. -/
  flag : ∀ operand ∈ form.operands, operand.1.dependsOnSize = true → 'z' ∈ form.pattern.template

/-- The shape of a sound form lists the kinds of its operands. -/
theorem Sound.codes {form : InstructionForm} (sound : form.Sound)
    (roles : form.roles.length = form.shape.length) :
    form.shape = form.operands.map fun operand => operand.1.code := by
  have zipped := congrArg (List.map Prod.fst) sound.shape
  rwa [List.map_fst_zip (Nat.le_of_eq roles.symm), List.map_map] at zipped

instance (form : InstructionForm) : Decidable form.Sound :=
  decidable_of_iff (_ ∧ _ ∧ _ ∧ _ ∧ _ ∧ _)
    ⟨fun ⟨shape, apart, sizeKnown, letters, conditions, flag⟩ =>
      ⟨shape, apart, sizeKnown, letters, conditions, flag⟩,
      fun ⟨shape, apart, sizeKnown, letters, conditions, flag⟩ =>
        ⟨shape, apart, sizeKnown, letters, conditions, flag⟩⟩

end InstructionForm

namespace InstructionSet

/-- Every form of the instruction set is sound. -/
theorem sound : ∀ form ∈ forms, form.Sound := by decide +kernel

end InstructionSet

end A64Machine
