import A64Machine.Proofs.Addressing
import A64Machine.Proofs.InstructionEffects

/-!
# The effects of forms

The fields that tell the effects of an instruction are fixed by its form and by its width flag: the
code of the operation, whether it sets the flags, the size of an access and the index mode. So what
an instruction writes is known from its form, and can be compared form by form with what the form
displays. What it depends on is also told by a few fields that the operands set.
-/

namespace A64Machine

namespace Operation

/-- The fields that tell what an operation changes. -/
def controls : Operation → List Char
  | .addSubExtended | .addSubShifted | .addSubImmediate | .addSubCarry => ['f']
  | .logicShifted | .logicImmediate | .moveWide | .threeSource | .branchRegister
  | .transferLiteral => ['c']
  | .bitfield => ['c', 'N']
  | .branchImmediate => ['p']
  | .transferScaled | .transferIndexed => ['c', 'x']
  | .transferNear => ['c', 'x', 'w']
  | .transferPair => ['c', 'L', 'w']
  | _ => []

variable {op : Operation} {size : Nat} {value other : Char → Nat}

/-- Operations with the same controls change the same. -/
theorem effects_congr (same : ∀ letter ∈ op.controls, value letter = other letter) :
    op.targets size value = op.targets size other ∧ op.links value = op.links other ∧
      op.setsFlags value = op.setsFlags other ∧ op.stores value = op.stores other := by
  cases op <;> simp [controls] at same <;> simp [targets, links, setsFlags, stores, same]

/-- A bitfield move depends on no more bits than there are. -/
theorem fieldBits_le (size n r s : Nat) : fieldBits size n r s ≤ size := by
  unfold fieldBits
  split <;> omega

/-- Operations with the same controls depend on the same registers, if neither the place of a bit
nor that of a bitfield tells how many bits count. -/
theorem sources_congr (same : ∀ letter ∈ op.controls, value letter = other letter)
    (extended : value 'o' = other 'o') (tests : op ≠ .testBranch) (moves : op ≠ .bitfield) :
    op.sources size value = op.sources size other := by
  cases op <;> simp [controls] at same tests moves <;> simp [sources, same, extended]

/-- Operations with the same controls depend on the same registers, and on as many bits if the other
fields ask for as many. -/
theorem exists_source_of_le (same : ∀ letter ∈ op.controls, value letter = other letter)
    (extended : value 'o' = other 'o') (tested : op = .testBranch → value 'b' ≤ other 'b')
    (moved : op = .bitfield → fieldBits size (value 'N') (value 'r') (value 's') ≤
      fieldBits size (other 'N') (other 'r') (other 's'))
    {letter : Char} {bits : Nat} (source : (letter, bits) ∈ op.sources size value) :
    ∃ most, (letter, most) ∈ op.sources size other ∧ bits ≤ most := by
  by_cases moves : op = .bitfield
  · subst moves
    have code : value 'c' = other 'c' := same 'c' (by decide)
    rcases List.mem_cons.mp source with first | rest
    · obtain ⟨rfl, rfl⟩ := Prod.mk.inj first
      exact ⟨_, List.mem_cons_self, moved rfl⟩
    · exact ⟨bits, List.mem_cons_of_mem _ (code ▸ rest), Nat.le_refl bits⟩
  by_cases tests : op = .testBranch
  · subst tests
    obtain ⟨rfl, rfl⟩ := Prod.mk.inj (List.mem_singleton.mp source)
    exact ⟨_, List.mem_singleton_self _, Nat.succ_le_succ (tested rfl)⟩
  · exact ⟨bits, sources_congr same extended tests moves ▸ source, Nat.le_refl bits⟩

end Operation

namespace InstructionSet

open BitPattern (positionsOf isLiteral)

/-! ### Known fields -/

/-- The values of the fields of a form: those that are known from the width flag, and given ones. -/
def knownValues (form : InstructionForm) (wide : Bool) (rest : Char → Nat) (letter : Char) : Nat :=
  (knownField form wide letter).getD (rest letter)

/-- The data size that is known from the width flag. An operation without the flag has the full
size. -/
def knownSize (form : InstructionForm) (wide : Bool) : Nat :=
  InstructionForm.dataSize
    (!decide ('z' ∈ baseForm form.op) || knownField form wide 'z' != some 0)

/-- The form and its width flag fix the fields that tell what an instruction changes. -/
theorem known_controls : ∀ form ∈ forms, ∀ wide, ∀ letter ∈ form.op.controls,
    (knownField form wide letter).isSome = true := by
  decide +kernel

/-- The width flag of the base form follows from that of the form. -/
theorem exists_knownFlag : ∀ form ∈ forms, 'z' ∈ baseForm form.op → ∀ wide, ∃ flag : Bool,
    knownField form wide 'z' = some flag.toNat := by
  decide +kernel

/-- Controls are fields. -/
theorem symbolic_controls : ∀ form ∈ forms, ∀ letter ∈ form.op.controls,
    isLiteral letter = false := by
  decide +kernel

namespace Executes

variable {instruction : Instruction} {form : InstructionForm} {word : Nat} {wide : Bool}

/-- A known field has its value, whether the base form has the field or not. -/
theorem value_of_known (executes : Executes instruction form word wide) {letter : Char}
    (symbolic : isLiteral letter = false) {value : Nat}
    (known : knownField form wide letter = some value) : instruction.value letter = value := by
  by_cases present : letter ∈ baseForm form.op
  · exact value_of_knownField executes present symbolic known
  · have nowhere : positionsOf letter (baseForm form.op) = [] := by
      rw [List.eq_nil_iff_forall_not_mem]
      intro position inside
      have here := BitPattern.mem_positionsOf.mp inside
      exact present (List.mem_reverse.mp (List.mem_of_getElem? here))
    rw [knownField, nowhere] at known
    rw [Instruction.value, executes.fields, BitPattern.lookup_decode,
      BitPattern.positions?_ofTemplate, if_neg fun both => present both.1]
    exact Option.some.inj known

/-- The values of known fields are those of the instruction. -/
theorem knownValues_eq (executes : Executes instruction form word wide) {letter : Char}
    (symbolic : isLiteral letter = false) {rest : Char → Nat}
    (same : rest letter = instruction.value letter) :
    knownValues form wide rest letter = instruction.value letter := by
  unfold knownValues
  cases known : knownField form wide letter with
  | none => exact same
  | some value => exact (executes.value_of_known symbolic known).symm

/-- The controls of an instruction are known from its form. -/
theorem value_of_controls (executes : Executes instruction form word wide) (rest : Char → Nat) :
    ∀ letter ∈ form.op.controls,
      instruction.value letter = knownValues form wide rest letter := by
  intro letter inside
  have fixed := known_controls form executes.member wide letter inside
  obtain ⟨value, known⟩ := Option.isSome_iff_exists.mp fixed
  have symbolic := symbolic_controls form executes.member letter inside
  rw [knownValues, known]
  exact executes.value_of_known symbolic known

/-- The data size of an instruction is known from its form. -/
theorem dataSize_eq (executes : Executes instruction form word wide) :
    Execution.dataSize instruction = knownSize form wide := by
  unfold knownSize
  by_cases present : 'z' ∈ baseForm form.op
  · obtain ⟨flag, known⟩ := exists_knownFlag form executes.member present wide
    rw [dataSize_of_flag (executes.lookup_of_known present (by decide) known), known]
    cases flag <;> simp [present, InstructionForm.dataSize]
  · have absent : instruction.fields.lookup 'z' = none := by
      rw [executes.fields, BitPattern.lookup_decode, BitPattern.positions?_ofTemplate,
        if_neg fun both => present both.1]
      rfl
    rw [Execution.dataSize, absent]
    simp [present]

end Executes

/-! ### Known effects -/

/-- The registers that the instructions of a form write, with how many bits. -/
def knownTargets (form : InstructionForm) (wide : Bool) : List (Char × Nat) :=
  form.op.targets (knownSize form wide) (knownValues form wide fun _ => 0)

/-- Whether the instructions of a form write the link register. -/
def knownLinks (form : InstructionForm) (wide : Bool) : Bool :=
  form.op.links (knownValues form wide fun _ => 0)

/-- Whether the instructions of a form set the flags. -/
def knownSetsFlags (form : InstructionForm) (wide : Bool) : Bool :=
  form.op.setsFlags (knownValues form wide fun _ => 0)

/-- Whether the instructions of a form write to memory. -/
def knownStores (form : InstructionForm) (wide : Bool) : Bool :=
  form.op.stores (knownValues form wide fun _ => 0)

/-- What an instruction changes is known from its form. -/
theorem Executes.effects_eq {instruction : Instruction} {form : InstructionForm} {word : Nat}
    {wide : Bool} (executes : Executes instruction form word wide) :
    instruction.targets = knownTargets form wide ∧ instruction.links = knownLinks form wide ∧
      instruction.setsFlags = knownSetsFlags form wide ∧
      instruction.stores = knownStores form wide := by
  rw [Instruction.targets, Instruction.links, Instruction.setsFlags, Instruction.stores,
    executes.op, executes.dataSize_eq]
  exact Operation.effects_congr (executes.value_of_controls fun _ => 0)

end InstructionSet

end A64Machine
