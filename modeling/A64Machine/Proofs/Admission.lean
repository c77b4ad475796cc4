import A64Machine.Proofs.FormOperands
import A64Machine.Proofs.LogicalImmediate
import A64Machine.Proofs.WideImmediate

/-!
# Which words a form admits

A form that accepts a word may still refuse its fields: the bits of the width flag must agree,
positions must lie within the data size, and every operand has its own condition. Those
conditions only speak of fields that the form has, so admission is always decided; and the fields
that an operand has set meet its condition, except where an alias leaves the word to another
form.
-/

namespace A64Machine

namespace InstructionForm

variable {form : InstructionForm} {word : Nat}

/-- The positions of the width flag. -/
def flagBits (form : InstructionForm) : List Nat :=
  BitPattern.positionsOf 'z' form.pattern.template

/-- The value of a field that a word has under the pattern of a form. -/
theorem lookup_decode (compiled : form.pattern.WellFormed) (letter : Char) :
    (form.pattern.decode word).lookup letter =
      if letter ∈ form.pattern.template ∧ BitPattern.isLiteral letter = false then
        some (BitPattern.gather word (BitPattern.positionsOf letter form.pattern.template))
      else none := by
  rw [BitPattern.lookup_decode, compiled.positions?_eq]
  split <;> rfl

/-- The bits of the width flag agree when all are clear or all are set. -/
theorem widthAgrees_decode (compiled : form.pattern.WellFormed) :
    form.widthAgrees (form.pattern.decode word) = true ↔
      (∀ bit ∈ form.flagBits, word.testBit bit = false) ∨
        ∀ bit ∈ form.flagBits, word.testBit bit = true := by
  have width : form.pattern.width? 'z' =
      if 'z' ∈ form.pattern.template then some form.flagBits.length else none := by
    rw [BitPattern.width?, compiled.positions?_eq]
    by_cases flag : 'z' ∈ form.pattern.template
    · rw [if_pos flag, if_pos ⟨flag, by decide⟩]
      rfl
    · rw [if_neg flag, if_neg fun both => flag both.1]
      rfl
  rw [widthAgrees, width, lookup_decode compiled]
  by_cases flag : 'z' ∈ form.pattern.template
  · rw [if_pos flag, if_pos ⟨flag, by decide⟩]
    simp only [Option.getD_some, Bool.or_eq_true, beq_iff_eq]
    rw [← BitPattern.gather_eq_zero_iff, ← BitPattern.gather_eq_max_iff]
    rfl
  · rw [if_neg flag]
    simp only [true_iff]
    refine .inl fun bit inside => ?_
    have here := BitPattern.mem_positionsOf.mp inside
    exact absurd (List.mem_reverse.mp (List.mem_of_getElem? here)) flag

/-- A form with a width flag is wide when a bit of it is set. -/
theorem isWide_decode (compiled : form.pattern.WellFormed) (flag : 'z' ∈ form.pattern.template) :
    form.isWide (form.pattern.decode word) = false ↔
      ∀ bit ∈ form.flagBits, word.testBit bit = false := by
  rw [isWide, lookup_decode compiled, if_pos ⟨flag, by decide⟩, ← BitPattern.gather_eq_zero_iff]
  simp only [bne_eq_false_iff_eq]
  rfl

/-! ### Conditions on operands -/

/-- The conditions on all operands are met when each of them is. -/
theorem admitsOperands_eq_true {mnemonic : String} {fields : Fields} {size : Nat}
    {operands : List (OperandKind × List Char)} :
    admitsOperands mnemonic fields size
        (operands.map fun operand => (operand.1.code, operand.2)) = .ok true ↔
      ∀ operand ∈ operands, admitsOperand mnemonic fields size operand.1 operand.2 = .ok true := by
  induction operands with
  | nil => exact iff_of_true rfl (by simp)
  | cons operand rest ih =>
    rw [List.map_cons, admitsOperands, List.forall_mem_cons, ← ih]
    simp only [OperandKind.ofChar?_code]
    constructor
    · intro admitted
      obtain ⟨here, decided, admitted⟩ := bind_eq_ok.mp admitted
      cases here with
      | true => exact ⟨decided, admitted⟩
      | false => exact absurd (Except.ok.inj admitted) (by simp)
    · rintro ⟨here, later⟩
      rw [ok_bind here]
      exact later

/-- The conditions on all operands are decided when each of them is. -/
theorem admitsOperands_eq_ok {mnemonic : String} {fields : Fields} {size : Nat}
    {operands : List (OperandKind × List Char)}
    (decided : ∀ operand ∈ operands,
      ∃ admitted, admitsOperand mnemonic fields size operand.1 operand.2 = .ok admitted) :
    ∃ admitted, admitsOperands mnemonic fields size
      (operands.map fun operand => (operand.1.code, operand.2)) = .ok admitted := by
  induction operands with
  | nil => exact ⟨true, rfl⟩
  | cons operand rest ih =>
    obtain ⟨⟨here, decision⟩, later⟩ := List.forall_mem_cons.mp decided
    rw [List.map_cons, admitsOperands]
    simp only [OperandKind.ofChar?_code, decision]
    cases here with
    | true => exact ih later
    | false => exact ⟨false, rfl⟩

/-- A form admits fields whose width flag agrees, whose positions fit and whose operands meet their
conditions. -/
theorem admits_eq_true (sound : form.Sound) {fields : Fields} :
    form.admits fields = .ok true ↔
      form.widthAgrees fields = true ∧
        form.positionsFit fields (dataSize (form.isWide fields)) = true ∧
          ∀ operand ∈ form.operands,
            admitsOperand form.mnemonic fields (dataSize (form.isWide fields)) operand.1 operand.2 =
              .ok true := by
  rw [admits, ← admitsOperands_eq_true, ← sound.shape, ← and_assoc]
  simp only [← Bool.and_eq_true]
  split
  · rename_i both
    exact ⟨fun admitted => ⟨both, admitted⟩, fun all => all.2⟩
  · rename_i neither
    exact iff_of_false (by simp) fun all => neither all.1

/-- A field of the pattern has a value in every word. -/
theorem exists_lookup_decode {letter : Char} (field : form.pattern.hasField letter = true)
    (word : Nat) : ∃ value, (form.pattern.decode word).lookup letter = some value := by
  obtain ⟨positions, known⟩ := Option.isSome_iff_exists.mp field
  exact ⟨BitPattern.gather word positions, by rw [BitPattern.lookup_decode, known]; rfl⟩

/-- The condition on the immediate of a wide move. -/
theorem admitsWide_of_read {fields : Fields} {half place : Nat}
    (readHalf : fields.read 'j' = .ok half) (readPlace : fields.read 'h' = .ok place)
    (inverted : Bool) (size : Nat) :
    admitsWide inverted fields size =
      .ok (!(half == 0 && place != 0) && decide (place < size / 16) &&
        !(inverted && size == 32 && half == 0xffff)) := by
  rw [admitsWide, ok_bind readHalf, ok_bind readPlace]
  rfl

/-- The immediate of a wide move is admitted when its place lies within the data size, a half-word
of zeros is in the lowest place, and no logical move writes the complement. -/
theorem admitsWide_eq_true {fields : Fields} {half place size : Nat} {inverted : Bool}
    (readHalf : fields.read 'j' = .ok half) (readPlace : fields.read 'h' = .ok place) :
    admitsWide inverted fields size = .ok true ↔
      place < size / 16 ∧ (half = 0 → place = 0) ∧
        (inverted = true → size = 32 → half ≠ 0xffff) := by
  rw [admitsWide_of_read readHalf readPlace, Except.ok.injEq]
  simp only [Bool.and_eq_true, Bool.not_eq_true', Bool.and_eq_false_imp, beq_iff_eq,
    bne_eq_false_iff_eq, decide_eq_true_eq, beq_eq_false_iff_ne, and_imp]
  rw [← and_assoc, and_comm (b := _ < _)]

/-- The condition on an operand is decided when the fields that it speaks of can be read. -/
theorem admitsOperand_eq_ok {mnemonic : String} {fields : Fields} {size : Nat} {kind : OperandKind}
    {role : List Char}
    (readable : ∀ letter ∈ kind.conditionLetters role, ∃ value, fields.read letter = .ok value) :
    ∃ admitted, admitsOperand mnemonic fields size kind role = .ok admitted := by
  cases kind with
  | register | wideRegister | halfRegister =>
    obtain ⟨values, read⟩ : ∃ values, role.mapM fields.read = .ok values := by
      change ∀ letter ∈ role, _ at readable
      induction role with
      | nil => exact ⟨[], rfl⟩
      | cons letter rest ih =>
        obtain ⟨⟨value, here⟩, later⟩ := List.forall_mem_cons.mp readable
        obtain ⟨values, there⟩ := ih later
        refine ⟨value :: values, ?_⟩
        rw [List.mapM_cons, here, there]
        rfl
    exact ⟨_, by rw [admitsOperand, read]; rfl⟩
  | bitmask =>
    obtain ⟨n, readN⟩ := readable 'N' (.head _)
    obtain ⟨s, readS⟩ := readable 's' (.tail _ (.head _))
    obtain ⟨r, readR⟩ := readable 'r' (.tail _ (.tail _ (.head _)))
    simp only [admitsOperand, admitsBitmask, readN, readS, readR, bind, Except.bind]
    split
    · exact ⟨false, rfl⟩
    · split <;> exact ⟨_, rfl⟩
  | wide | invertedWide =>
    obtain ⟨j, readJ⟩ := readable 'j' (.head _)
    obtain ⟨h, readH⟩ := readable 'h' (.tail _ (.head _))
    exact ⟨_, admitsWide_of_read readJ readH _ size⟩
  | arithmeticShifted =>
    obtain ⟨s, readS⟩ := readable 's' (.head _)
    obtain ⟨i, readI⟩ := readable 'i' (.tail _ (.head _))
    simp only [admitsOperand, readS, readI, bind, Except.bind]
    split <;> exact ⟨_, rfl⟩
  | leftShift =>
    obtain ⟨s, readS⟩ := readable 's' (.head _)
    obtain ⟨r, readR⟩ := readable 'r' (.tail _ (.head _))
    simp only [admitsOperand, readS, readR, bind, Except.bind]
    split <;> exact ⟨_, rfl⟩
  | insertLow | extractLow =>
    obtain ⟨s, readS⟩ := readable 's' (.head _)
    obtain ⟨r, readR⟩ := readable 'r' (.tail _ (.head _))
    simp only [admitsOperand, readS, readR, bind, Except.bind]
    exact ⟨_, rfl⟩
  | extended | shifted | registerIndexed =>
    obtain ⟨value, read⟩ := readable _ (.head _)
    simp only [admitsOperand, read, bind, Except.bind]
    exact ⟨_, rfl⟩
  | immediate | shiftAmount | arithmeticImmediate | branchTarget | byteTarget | pageTarget
  | insertWidth | extractWidth | bitNumber | scaledAddress | unscaledAddress | preIndexed
  | postIndexed => exact ⟨true, rfl⟩

/-- What is no field of the pattern has no value. -/
theorem lookup_decode_of_absent {letter : Char} (absent : form.pattern.hasField letter = false) :
    (form.pattern.decode word).lookup letter = none := by
  have missing : form.pattern.positions? letter = none := by
    simpa [BitPattern.hasField] using absent
  rw [BitPattern.lookup_decode, missing, Option.map_none]

/-- Whether a sound form admits the fields of a word is decided. -/
theorem admits_eq_ok (sound : form.Sound) :
    ∃ admitted, form.admits (form.pattern.decode word) = .ok admitted := by
  rw [admits]
  simp only [sound.shape]
  split
  · refine admitsOperands_eq_ok fun operand member => admitsOperand_eq_ok fun letter inside => ?_
    obtain ⟨value, known⟩ :=
      exists_lookup_decode (sound.conditions operand member letter inside).1 word
    exact ⟨value, by rw [Fields.read, known]⟩
  · exact ⟨false, rfl⟩

/-- Reading the fields of a role that all have one value gives that value for each of them. -/
theorem mapM_read_eq_ok {fields : Fields} {role : List Char} {value : Nat}
    (same : ∀ letter ∈ role, fields.lookup letter = some value) :
    role.mapM fields.read = .ok (role.map fun _ => value) := by
  induction role with
  | nil => rfl
  | cons letter rest ih =>
    obtain ⟨here, later⟩ := List.forall_mem_cons.mp same
    rw [List.mapM_cons, ih later, Fields.read, here]
    rfl

/-- Whether a form with an operand of the kind leaves some of its words to another form: an alias
that a more general form writes otherwise. -/
def yields (mnemonic : String) : OperandKind → Bool
  | .leftShift | .insertLow | .invertedWide => true
  | .bitmask => mnemonic == "mov"
  | _ => false

section Settled

variable {mnemonic : String} {fields : Fields} {size : Nat} {draft : Draft}

/-- The fields of a word and the values of a draft agree on a letter. -/
def Agree (fields : Fields) (draft : Draft) (letter : Char) : Prop :=
  ∃ value : Nat, fields.lookup letter = some value ∧
    draft.values.lookup letter = some (value : Int)

/-- A field that agrees can be read, and its value is that of the draft. -/
theorem Agree.read {letter : Char} {given : Int} (agree : Agree fields draft letter)
    (set : draft.values.lookup letter = some given) :
    ∃ value : Nat, fields.read letter = .ok value ∧ given = value := by
  obtain ⟨value, known, same⟩ := agree
  rw [set] at same
  exact ⟨value, by rw [Fields.read, known], Option.some.inj same⟩

/-- A field that agrees is read as the number that the draft has set. -/
theorem Agree.read_natCast {letter : Char} {given : Nat} (agree : Agree fields draft letter)
    (set : draft.values.lookup letter = some (given : Int)) : fields.read letter = .ok given := by
  obtain ⟨value, read, same⟩ := agree.read set
  rw [read, Int.ofNat.inj same]

/-- A data size is that of a narrow or of a wide draft. -/
theorem size_draft (draft : Draft) : draft.size = 32 ∨ draft.size = 64 := by
  unfold Draft.size
  split
  · exact .inl rfl
  · exact .inr rfl

/-- The fields that a bitmask is packed into meet its condition, unless the form yields. -/
theorem admitsBitmask_of_encode {value : Int} {n immr imms : Nat}
    (packed : LogicalImmediate.encode value draft.size = some (n, immr, imms))
    (readN : fields.read 'N' = .ok n) (readR : fields.read 'r' = .ok immr)
    (readS : fields.read 's' = .ok imms) (firm : (mnemonic == "mov") = false) :
    admitsBitmask mnemonic fields draft.size = .ok true := by
  have unpacked : (draft.size = 32 → n = 0) ∧
      ∃ mask other, LogicalImmediate.decode n imms immr draft.size true = some (mask, other) := by
    rcases size_draft draft with narrow | wide
    · rw [narrow] at packed ⊢
      obtain ⟨_, _, _, zero, other, decoded⟩ :=
        @LogicalImmediate.decode_encode _ 5 _ _ _ (by decide) (by decide) packed
      exact ⟨fun _ => zero (by decide), _, other, decoded⟩
    · rw [wide] at packed ⊢
      obtain ⟨_, _, _, _, other, decoded⟩ :=
        @LogicalImmediate.decode_encode _ 6 _ _ _ (by decide) (by decide) packed
      exact ⟨fun impossible => absurd impossible (by decide), _, other, decoded⟩
  obtain ⟨zero, mask, other, decoded⟩ := unpacked
  simp only [admitsBitmask, readN, readR, readS, bind, Except.bind, pure, Except.pure]
  rw [if_neg fun both => both.2 (zero both.1), decoded]
  simp [firm]

/-- A half-word at the place that an assembler chooses meets the condition on a wide move. -/
theorem admitsWide_of_position? {value position : Nat}
    (found : WideImmediate.position? value size = some position)
    (readHalf : fields.read 'j' = .ok (value >>> (16 * position)))
    (readPlace : fields.read 'h' = .ok position) : admitsWide false fields size = .ok true := by
  obtain ⟨below, fits, lowest⟩ := WideImmediate.position?_eq_some found
  refine (admitsWide_eq_true readHalf readPlace).mpr
    ⟨below, fun zero => ?_, fun inverts => absurd inverts Bool.false_ne_true⟩
  -- A value without bits fits at the lowest place already.
  refine Decidable.byContradiction fun later => ?_
  rw [WideImmediate.fitsAt, beq_iff_eq, zero] at fits
  have atZero := lowest 0 (Nat.pos_of_ne_zero later)
  simp [WideImmediate.fitsAt, fits] at atZero

/-- The fields that an operand has set meet its condition, unless its form yields. -/
theorem admitsOperand_of_settled {kind : OperandKind} {role : List Char}
    (settled : Encode.Settled kind role draft)
    (agree : ∀ letter, letter ∈ kind.letters role ∨ letter ∈ kind.conditionLetters role →
      Agree fields draft letter)
    (sizes : kind.dependsOnSize = true → size = draft.size)
    (firm : yields mnemonic kind = false)
    (companion : kind = .extractLow → Encode.Settled .extractWidth [] draft) :
    admitsOperand mnemonic fields size kind role = .ok true := by
  have spoken (letter : Char) (inside : letter ∈ kind.conditionLetters role) :
      Agree fields draft letter := agree letter (.inr inside)
  cases kind with
  | register | wideRegister | halfRegister =>
    obtain ⟨number, same⟩ := settled
    have values : ∀ letter ∈ role, fields.lookup letter = some number.toNat := by
      intro letter inside
      obtain ⟨value, known, set⟩ := spoken letter inside
      rw [same letter inside] at set
      rw [known, Option.some.inj set, Int.toNat_natCast]
    rw [admitsOperand, mapM_read_eq_ok values]
    cases role <;> simp [bind, Except.bind, pure, Except.pure]
  | extended =>
    obtain ⟨amount, set, least, most⟩ := settled
    obtain ⟨value, read, rfl⟩ := (spoken 'i' (.head _)).read set
    rw [admitsOperand, ok_bind read]
    exact congrArg Except.ok (decide_eq_true (by omega))
  | shifted =>
    obtain ⟨amount, set, least, most⟩ := settled
    obtain ⟨value, read, rfl⟩ := (spoken 'i' (.head _)).read set
    rw [admitsOperand, ok_bind read, sizes rfl]
    exact congrArg Except.ok (decide_eq_true (by omega))
  | arithmeticShifted =>
    obtain ⟨⟨code, setCode, small⟩, amount, set, least, most⟩ := settled
    obtain ⟨value, read, rfl⟩ := (spoken 'i' (.tail _ (.head _))).read set
    have readCode := (spoken 's' (.head _)).read_natCast setCode
    rw [admitsOperand, ok_bind readCode, if_neg (by omega), ok_bind read, sizes rfl]
    exact congrArg Except.ok (decide_eq_true (by omega))
  | bitmask =>
    obtain ⟨value, n, immr, imms, packed, setN, setR, setS⟩ := settled
    rw [admitsOperand, sizes rfl]
    exact admitsBitmask_of_encode packed ((spoken 'N' (.head _)).read_natCast setN)
      ((spoken 'r' (.tail _ (.tail _ (.head _)))).read_natCast setR)
      ((spoken 's' (.tail _ (.head _))).read_natCast setS) firm
  | wide =>
    obtain ⟨value, position, found, setH, setJ⟩ := settled
    rw [← sizes rfl] at found
    exact admitsWide_of_position? found ((spoken 'j' (.head _)).read_natCast setJ)
      ((spoken 'h' (.tail _ (.head _))).read_natCast setH)
  | extractLow =>
    obtain ⟨setR, _, _⟩ := settled
    obtain ⟨width, setS, least, _⟩ := companion rfl
    obtain ⟨r, readR, sameR⟩ := (spoken 'r' (.tail _ (.head _))).read setR
    obtain ⟨s, readS, sameS⟩ := (spoken 's' (.head _)).read setS
    rw [admitsOperand, ok_bind readR, ok_bind readS]
    exact congrArg Except.ok (decide_eq_true (by omega))
  | registerIndexed =>
    obtain ⟨code, set, known⟩ := settled
    rw [admitsOperand, ok_bind ((spoken 'o' (.head _)).read_natCast set)]
    exact congrArg Except.ok (List.contains_iff_mem.mpr known)
  | leftShift | insertLow | invertedWide => contradiction
  | immediate | shiftAmount | arithmeticImmediate | branchTarget | byteTarget | pageTarget
  | insertWidth | extractWidth | bitNumber | scaledAddress | unscaledAddress | preIndexed
  | postIndexed => rfl

end Settled

end InstructionForm

end A64Machine
