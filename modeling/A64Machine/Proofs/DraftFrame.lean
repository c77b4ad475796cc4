import A64Machine.Proofs.FormWord

/-!
# What operands add to a draft

Operands set fields on top of those that were set before, which they never look at: of the draft
they read the width and the lowest bit only. So an operand that is put between others leaves the
fields that these set as they are. And most kinds of operands set the same fields in whichever form
they stand; only plain immediates, branch targets and addresses depend on the form.
-/

namespace A64Machine

namespace Draft

/-- The draft on top of fields that were set earlier. -/
def onto (draft : Draft) (earlier : List (Char × Int)) : Draft :=
  { draft with values := draft.values ++ earlier }

section Onto

variable (draft : Draft) (earlier : List (Char × Int))

@[simp] theorem wide_onto : (draft.onto earlier).wide = draft.wide := rfl

@[simp] theorem lowest_onto : (draft.onto earlier).lowest = draft.lowest := rfl

@[simp] theorem size_onto : (draft.onto earlier).size = draft.size := rfl

theorem onto_set (letter : Char) (value : Int) :
    (draft.set letter value).onto earlier = (draft.onto earlier).set letter value := rfl

theorem onto_setAll (role : List Char) (value : Int) :
    (draft.setAll role value).onto earlier = (draft.onto earlier).setAll role value := by
  induction role generalizing draft with
  | nil => rfl
  | cons letter rest ih => exact ih (draft.set letter value)

theorem onto_setRole (role : List Char) (value : Int) :
    (draft.setRole role value).onto earlier = (draft.onto earlier).setRole role value := by
  unfold setRole
  split <;> rfl

/-- A field is looked up among the later ones first. -/
theorem lookup_onto (letter : Char) :
    (draft.onto earlier).values.lookup letter =
      (draft.values.lookup letter).or (earlier.lookup letter) :=
  List.lookup_append

end Onto

end Draft

/-- A change of the result may be made after each of two steps. -/
theorem map_bind_eq {ε α β γ : Type} (first : Except ε α) (next : α → Except ε β) (change : β → γ) :
    (first >>= next).map change = first >>= fun value => (next value).map change := by
  cases first <;> rfl

namespace OperandKind

/-- Whether what an operand of the kind sets depends on the form. -/
def readsForm : OperandKind → Bool
  | .immediate | .branchTarget | .scaledAddress | .unscaledAddress | .preIndexed | .postIndexed
  | .registerIndexed => true
  | _ => false

/-- Operands fit kinds when one of them fits its kind and the others, before and behind it, fit
theirs. -/
theorem fitsAll_insert {front back : List Char} {ahead behind : List Operand}
    (count : front.length = ahead.length) {code : Char} {given : Operand} :
    fitsAll (front ++ code :: back) (ahead ++ given :: behind) = .ok true ↔
      fits code given = .ok true ∧ fitsAll (front ++ back) (ahead ++ behind) = .ok true := by
  induction front generalizing ahead with
  | nil =>
    obtain rfl := List.length_eq_zero_iff.mp count.symm
    exact fitsAll_cons
  | cons first front ih =>
    cases ahead with
    | nil => contradiction
    | cons next ahead =>
      rw [List.cons_append, List.cons_append, List.cons_append, List.cons_append, fitsAll_cons,
        fitsAll_cons, ih (Nat.succ.inj count)]
      exact and_left_comm

end OperandKind

namespace Encode

section Onto

variable (form : InstructionForm) (here : Int) (evaluate : Evaluator) (draft : Draft)
  (earlier : List (Char × Int))

/-- A register is encoded on top of any fields. -/
theorem register_onto (kind : OperandKind) (role : List Char) (given : RegisterOperand) :
    register kind role given evaluate (draft.onto earlier) =
      (register kind role given evaluate draft).map (·.onto earlier) := by
  have roleSet (draft : Draft) (number : Int) :
      (.ok ((draft.onto earlier).setAll role number) : Except EncodeFailure Draft) =
        .ok ((draft.setAll role number).onto earlier) :=
    congrArg Except.ok (Draft.onto_setAll ..).symm
  cases kind <;> simp only [register, map_bind_eq] <;> try rfl
  case register =>
    exact congrArg _ (funext fun number =>
      roleSet { draft with wide := some (draft.wide.getD given.register.wide) } number)
  all_goals exact congrArg _ (funext fun number => roleSet draft number)

/-- The immediate of an addition is encoded on top of any fields. -/
theorem arithmeticImmediate_onto (given : ImmediateOperand) (value : Int) :
    arithmeticImmediate given value evaluate (draft.onto earlier) =
      (arithmeticImmediate given value evaluate draft).map (·.onto earlier) := by
  simp only [arithmeticImmediate, map_bind_eq]
  refine congrArg _ (funext fun amount => congrArg _ (funext fun _ => ?_))
  by_cases shifted : amount = 12
  · simp only [if_pos shifted, map_bind_eq]
    rfl
  · by_cases below : isBelow value 4096 = true
    · simp only [if_neg shifted, if_pos below]
      rfl
    · simp only [if_neg shifted, if_neg below, map_bind_eq]
      rfl

/-- A logical immediate is encoded on top of any fields. -/
theorem bitmask_onto (span : Span) (value : Int) :
    bitmask span value (draft.onto earlier) =
      (bitmask span value draft).map (·.onto earlier) := by
  simp only [bitmask, map_bind_eq, Draft.size_onto]
  cases LogicalImmediate.encode value draft.size <;> rfl

/-- A half-word is encoded on top of any fields. -/
theorem wideImmediate_onto (span : Span) (value : Int) :
    wideImmediate span value (draft.onto earlier) =
      (wideImmediate span value draft).map (·.onto earlier) := by
  simp only [wideImmediate, map_bind_eq, Draft.size_onto]
  cases WideImmediate.position? value.toNat draft.size <;> rfl

/-- An immediate is encoded on top of any fields. -/
theorem immediate_onto (kind : OperandKind) (role : List Char) (given : ImmediateOperand)
    (value : Int) :
    immediate form here kind role given value evaluate (draft.onto earlier) =
      (immediate form here kind role given value evaluate draft).map (·.onto earlier) := by
  cases kind <;>
    simp only [immediate, map_bind_eq, splitOffset, arithmeticImmediate_onto, bitmask_onto,
      wideImmediate_onto] <;> try rfl
  case immediate =>
    refine congrArg _ (funext fun width => congrArg _ (funext fun _ => congrArg Except.ok ?_))
    exact (Draft.onto_setRole ..).symm
  case shiftAmount =>
    refine congrArg _ (funext fun _ => congrArg Except.ok ?_)
    exact (Draft.onto_setRole ..).symm

/-- The offset of an address is encoded on top of any fields. -/
theorem offset_onto (span : Span) (scaled : Bool) (value : Int) :
    offset form span scaled value (draft.onto earlier) =
      (offset form span scaled value draft).map (·.onto earlier) := by
  simp only [offset, map_bind_eq]
  rfl

/-- An index register is encoded on top of any fields. -/
theorem index_onto (given : RegisterOperand) :
    index form given evaluate (draft.onto earlier) =
      (index form given evaluate draft).map (·.onto earlier) := by
  simp only [index, map_bind_eq]
  cases given.amount with
  | none => rfl
  | some expression =>
    simp only [map_bind_eq]
    rfl

/-- An address is encoded on top of any fields. -/
theorem address_onto (kind : OperandKind) (given : AddressOperand) :
    address form kind given evaluate (draft.onto earlier) =
      (address form kind given evaluate draft).map (·.onto earlier) := by
  unfold address
  split
  · rename_i base rest _
    simp only [map_bind_eq]
    refine congrArg _ (funext fun _ => ?_)
    rw [← Draft.onto_set]
    split
    · rw [map_bind_eq]
      exact congrArg _ (funext fun amount => offset_onto ..)
    · exact index_onto ..
    · rw [map_bind_eq]
      exact congrArg _ (funext fun value => offset_onto ..)
    · exact offset_onto ..
  · rfl

/-- An operand is encoded on top of any fields. -/
theorem operand_onto (code : Char) (role : List Char) (given : Operand) :
    operand form here evaluate (draft.onto earlier) code role given =
      (operand form here evaluate draft code role given).map (·.onto earlier) := by
  unfold operand
  split
  · rfl
  · exact register_onto ..
  · rw [map_bind_eq]
    exact congrArg _ (funext fun value => immediate_onto ..)
  · exact address_onto ..

/-- Operands are encoded on top of any fields. -/
theorem allOperands_onto (kinds : List (Char × List Char)) (list : List Operand) :
    allOperands form here evaluate (draft.onto earlier) kinds list =
      (allOperands form here evaluate draft kinds list).map (·.onto earlier) := by
  induction kinds generalizing draft list with
  | nil => rfl
  | cons kind kinds ih =>
    cases list with
    | nil => rfl
    | cons given list =>
      rw [allOperands, allOperands, operand_onto, map_bind_eq]
      cases operand form here evaluate draft kind.1 kind.2 given with
      | error failure => rfl
      | ok middle => exact ih middle list

end Onto

section Forms

variable {form other : InstructionForm} {here : Int} {evaluate : Evaluator}

/-- An operand of a kind that does not look at the form is encoded alike by all forms. -/
theorem operand_of_blind {kind : OperandKind} (blind : kind.readsForm = false) {given : Operand}
    (fits : OperandKind.fits kind.code given = .ok true) (draft : Draft) (role : List Char) :
    operand form here evaluate draft kind.code role given =
      operand other here evaluate draft kind.code role given := by
  cases given with
  | register given => simp only [operand, OperandKind.ofChar?_code]
  | immediate given =>
    simp only [operand, OperandKind.ofChar?_code]
    refine congrArg _ (funext fun value => ?_)
    cases kind <;> first | rfl | contradiction
  | address given =>
    simp only [OperandKind.fits, OperandKind.ofChar?_code, Except.ok.injEq, Bool.and_eq_true] at fits
    cases kind <;> first | contradiction | exact absurd fits.2 (by simp [OperandKind.fitsAddress])

/-- Operands of kinds that do not look at the form are encoded alike by all forms. -/
theorem allOperands_of_blind {operands : List (OperandKind × List Char)}
    (blind : ∀ operand ∈ operands, operand.1.readsForm = false) {list : List Operand}
    (fits : OperandKind.fitsEach ((operands.map fun operand => operand.1.code).zip list) = .ok true)
    (draft : Draft) :
    allOperands form here evaluate draft
        (operands.map fun operand => (operand.1.code, operand.2)) list =
      allOperands other here evaluate draft
        (operands.map fun operand => (operand.1.code, operand.2)) list := by
  induction operands generalizing draft list with
  | nil => rfl
  | cons operand operands ih =>
    obtain ⟨blindHere, blind⟩ := List.forall_mem_cons.mp blind
    cases list with
    | nil => rfl
    | cons given list =>
      obtain ⟨fitsHere, fits⟩ := OperandKind.fitsEach_cons.mp fits
      rw [List.map_cons, allOperands, allOperands,
        @operand_of_blind form other here evaluate _ blindHere _ fitsHere]
      exact congrArg _ (funext fun middle => ih blind fits middle)

/-- Forms with one pattern, one access size and one number of transferred registers encode an operand
alike. -/
theorem operand_congr (pattern : form.pattern = other.pattern) (size : form.size = other.size)
    (pair : form.pair = other.pair) (draft : Draft) (code : Char) (role : List Char)
    (given : Operand) :
    operand form here evaluate draft code role given =
      operand other here evaluate draft code role given := by
  obtain ⟨⟨mnemonic, shape, roles, size, pair, index⟩, pattern, op⟩ := form
  obtain ⟨⟨mnemonic', shape', roles', size', pair', index'⟩, pattern', op'⟩ := other
  dsimp only at pattern size pair
  subst pattern size pair
  rfl

/-- Forms that differ in their names alone make one word of the operands. -/
theorem formWord_congr (shape : form.shape = other.shape) (roles : form.roles = other.roles)
    (pattern : form.pattern = other.pattern) (size : form.size = other.size)
    (pair : form.pair = other.pair) (list : List Operand) :
    formWord form here evaluate list = formWord other here evaluate list := by
  have gathered (draft : Draft) (kinds : List (Char × List Char)) (list : List Operand) :
      allOperands form here evaluate draft kinds list =
        allOperands other here evaluate draft kinds list := by
    induction kinds generalizing draft list with
    | nil => rfl
    | cons kind kinds ih =>
      cases list with
      | nil => rfl
      | cons given list =>
        rw [allOperands, allOperands, operand_congr pattern size pair]
        exact congrArg _ (funext fun middle => ih middle list)
  rw [formWord, formWord, gathered, shape, roles, pattern]

end Forms

section Frame

variable {form : InstructionForm} {here : Int} {evaluate : Evaluator}
  {operands : List (OperandKind × List Char)} {list : List Operand} {before after : Draft}

/-- Operands keep the fields that none of them sets, and a width that is set. -/
theorem allOperands_frame
    (fits : OperandKind.fitsEach ((operands.map fun operand => operand.1.code).zip list) = .ok true)
    (encoded : allOperands form here evaluate before
      (operands.map fun operand => (operand.1.code, operand.2)) list = .ok after) :
    (∀ letter, (∀ operand ∈ operands, letter ∉ operand.1.letters operand.2) →
      after.values.lookup letter = before.values.lookup letter) ∧
    (before.wide.isSome = true → after.wide = before.wide) := by
  induction operands generalizing before list with
  | nil =>
    obtain rfl := Except.ok.inj encoded
    exact ⟨fun _ _ => rfl, fun _ => rfl⟩
  | cons operand operands ih =>
    cases list with
    | nil =>
      obtain rfl := Except.ok.inj encoded
      exact ⟨fun _ _ => rfl, fun _ => rfl⟩
    | cons given list =>
      obtain ⟨fitsHere, fits⟩ := OperandKind.fitsEach_cons.mp fits
      rw [List.map_cons, allOperands] at encoded
      obtain ⟨middle, first, encoded⟩ := bind_eq_ok.mp encoded
      obtain ⟨extended, _⟩ := operand_spec (OperandKind.ofChar?_code _) fitsHere first
      obtain ⟨frame, kept⟩ := ih fits encoded
      refine ⟨fun letter outside => ?_, fun set => ?_⟩
      · obtain ⟨here, there⟩ := List.forall_mem_cons.mp outside
        rw [frame letter there, extended.frame letter here]
      · rw [kept (extended.kept set ▸ set), extended.kept set]

/-- Operands behind a draft set their fields on top of those that are set. -/
theorem allOperands_eq_onto (kinds : List (Char × List Char)) :
    allOperands form here evaluate before kinds list =
      (allOperands form here evaluate { before with values := [] } kinds list).map
        (·.onto before.values) :=
  allOperands_onto form here evaluate { before with values := [] } before.values kinds list

end Frame

section Registers

variable {form : InstructionForm} {here : Int} {evaluate : Evaluator} {before after : Draft}
  {role : List Char} {given : RegisterOperand}

/-- A register sets all fields of its role. -/
theorem operand_roles_eq_ok :
    operand form here evaluate before OperandKind.register.code role (.register given) =
        .ok after ↔
      given.register.wide = before.wide.getD given.register.wide ∧
        after =
          { before with wide := some given.register.wide }.setAll role given.register.slot := by
  simp only [operand, OperandKind.ofChar?_code, register, bind_eq_ok, registerNumber_eq_ok, pure,
    Except.pure, Except.ok.injEq]
  constructor
  · rintro ⟨_, ⟨same, rfl⟩, rfl⟩
    exact ⟨same, by rw [← same]⟩
  · rintro ⟨same, rfl⟩
    exact ⟨_, ⟨same, rfl⟩, by rw [← same]⟩

/-- A register that may be shifted is taken at the width of the first one with an amount below the
data size; without a shift it has the code and the amount zero. -/
theorem operand_modified_eq_ok {kind : OperandKind} (shifts : kind ∈ [.shifted, .arithmeticShifted])
    {code : Nat} (coded : (given.modifier.bind Modifier.shiftCode?).getD 0 = code) :
    operand form here evaluate before kind.code role (.register given) = .ok after ↔
      given.register.wide = before.wide.getD given.register.wide ∧
        ∃ number, amount evaluate given.amount = .ok number ∧
          (0 ≤ number ∧ number < before.size) ∧
          after = ((before.set 'm' given.register.slot).set 's' code).set 'i' number := by
  have taken : operand form here evaluate before kind.code role (.register given) =
      register .shifted role given evaluate before := by
    simp only [operand, OperandKind.ofChar?_code]
    simp only [List.mem_cons, List.not_mem_nil, or_false] at shifts
    rcases shifts with rfl | rfl <;> rfl
  rw [taken]
  simp only [register, bind_eq_ok, registerNumber_eq_ok, require_eq_ok, isBelow_iff, coded, pure,
    Except.pure, Except.ok.injEq]
  constructor
  · rintro ⟨_, ⟨same, rfl⟩, number, known, _, inside, rfl⟩
    exact ⟨same, number, known, inside, rfl⟩
  · rintro ⟨same, number, known, inside, rfl⟩
    exact ⟨_, ⟨same, rfl⟩, number, known, (), inside, rfl⟩

/-- A register that is not shifted, though it may be, is shifted by zero. -/
theorem operand_shifted_eq_ok (plain : given.modifier = none) (unshifted : given.amount = none) :
    operand form here evaluate before OperandKind.shifted.code role (.register given) =
        .ok after ↔
      given.register.wide = before.wide.getD given.register.wide ∧
        after = ((before.set 'm' given.register.slot).set 's' 0).set 'i' 0 := by
  have positive : 0 < before.size := by
    unfold Draft.size
    split <;> decide
  rw [operand_modified_eq_ok (by simp) (show _ = 0 by rw [plain]; rfl), unshifted]
  refine and_congr_right fun _ => ⟨?_, fun changed => ⟨0, rfl, ⟨Int.le_refl 0, by omega⟩, changed⟩⟩
  rintro ⟨number, zero, _, rfl⟩
  obtain rfl := Except.ok.inj zero
  rfl

/-- An extended register is taken at the width of its extension with an amount up to four. -/
theorem operand_extended_eq_ok {code : Nat}
    (coded : (given.modifier.bind Modifier.extendCode?).getD 0 = code) :
    operand form here evaluate before OperandKind.extended.code role (.register given) =
        .ok after ↔
      given.register.wide = (code % 4 == 3) ∧
        ∃ number, amount evaluate given.amount = .ok number ∧ (0 ≤ number ∧ number ≤ 4) ∧
          after = ((before.set 'm' given.register.slot).set 'o' code).set 'i' number := by
  simp only [operand, OperandKind.ofChar?_code, register, bind_eq_ok, registerNumber_eq_ok,
    require_eq_ok, decide_eq_true_eq, coded, pure, Except.pure, Except.ok.injEq]
  constructor
  · rintro ⟨_, ⟨same, rfl⟩, number, known, _, inside, rfl⟩
    exact ⟨same, number, known, inside, rfl⟩
  · rintro ⟨same, number, known, inside, rfl⟩
    exact ⟨_, ⟨same, rfl⟩, number, known, (), inside, rfl⟩

end Registers

section Immediate

variable {form : InstructionForm} {here : Int} {evaluate : Evaluator} {before after : Draft}
  {role : List Char} {letter : Char} {given : ImmediateOperand}

/-- An unsigned immediate is taken if it has no more bits than its field. -/
theorem operand_immediate_eq_ok {width : Nat} (known : form.pattern.width? letter = some width) :
    operand form here evaluate before OperandKind.immediate.code [letter] (.immediate given) =
        .ok after ↔
      ∃ number, evaluate given.value = .ok number ∧ (0 ≤ number ∧ number < (2 ^ width : Nat)) ∧
        after = before.set letter number := by
  have width : fieldWidth form [letter] = .ok width := by rw [fieldWidth, known]
  simp only [operand, OperandKind.ofChar?_code, immediate, bind_eq_ok, value, mapError_eq_ok, width,
    Except.ok.injEq, exists_eq_left', require_eq_ok, isBelow_iff, exists_const, pure, Except.pure,
    Draft.setRole, eq_comm (a := after)]

/-- A shift amount is taken if it is below the data size. -/
theorem operand_shiftAmount_eq_ok :
    operand form here evaluate before OperandKind.shiftAmount.code [letter] (.immediate given) =
        .ok after ↔
      ∃ number, evaluate given.value = .ok number ∧ (0 ≤ number ∧ number < before.size) ∧
        after = before.set letter number := by
  simp only [operand, OperandKind.ofChar?_code, immediate, bind_eq_ok, value, mapError_eq_ok,
    Except.ok.injEq, require_eq_ok, isBelow_iff, exists_const, pure, Except.pure, Draft.setRole,
    eq_comm (a := after)]

/-- A left shift is taken if it is below the data size. -/
theorem operand_leftShift_eq_ok :
    operand form here evaluate before OperandKind.leftShift.code role (.immediate given) =
        .ok after ↔
      ∃ number, evaluate given.value = .ok number ∧ (0 ≤ number ∧ number < before.size) ∧
        after = (before.set 'r' (-number % before.size)).set 's' (before.size - 1 - number) := by
  simp only [operand, OperandKind.ofChar?_code, immediate, bind_eq_ok, value, mapError_eq_ok,
    Except.ok.injEq, require_eq_ok, isBelow_iff, exists_const, pure, Except.pure,
    eq_comm (a := after)]

/-- The lowest bit of an inserted bitfield is taken if it is below the data size. -/
theorem operand_insertLow_eq_ok :
    operand form here evaluate before OperandKind.insertLow.code role (.immediate given) =
        .ok after ↔
      ∃ number, evaluate given.value = .ok number ∧ (0 ≤ number ∧ number < before.size) ∧
        after = { before with lowest := number }.set 'r' (-number % before.size) := by
  simp only [operand, OperandKind.ofChar?_code, immediate, bind_eq_ok, value, mapError_eq_ok,
    Except.ok.injEq, require_eq_ok, isBelow_iff, exists_const, pure, Except.pure,
    eq_comm (a := after)]

/-- The lowest bit of an extracted bitfield is taken if it is below the data size. -/
theorem operand_extractLow_eq_ok :
    operand form here evaluate before OperandKind.extractLow.code role (.immediate given) =
        .ok after ↔
      ∃ number, evaluate given.value = .ok number ∧ (0 ≤ number ∧ number < before.size) ∧
        after = { before with lowest := number }.set 'r' number := by
  simp only [operand, OperandKind.ofChar?_code, immediate, bind_eq_ok, value, mapError_eq_ok,
    Except.ok.injEq, require_eq_ok, isBelow_iff, exists_const, pure, Except.pure,
    eq_comm (a := after)]

/-- The width of an inserted bitfield is taken if the bitfield lies within the register. -/
theorem operand_insertWidth_eq_ok :
    operand form here evaluate before OperandKind.insertWidth.code role (.immediate given) =
        .ok after ↔
      ∃ number, evaluate given.value = .ok number ∧
        (1 ≤ number ∧ number ≤ before.size - before.lowest) ∧
        after = before.set 's' (number - 1) := by
  simp only [operand, OperandKind.ofChar?_code, immediate, bind_eq_ok, value, mapError_eq_ok,
    Except.ok.injEq, require_eq_ok, decide_eq_true_eq, exists_const, pure, Except.pure,
    eq_comm (a := after)]

/-- The width of an extracted bitfield is taken if the bitfield lies within the register. -/
theorem operand_extractWidth_eq_ok :
    operand form here evaluate before OperandKind.extractWidth.code role (.immediate given) =
        .ok after ↔
      ∃ number, evaluate given.value = .ok number ∧
        (1 ≤ number ∧ number ≤ before.size - before.lowest) ∧
        after = before.set 's' (before.lowest + number - 1) := by
  simp only [operand, OperandKind.ofChar?_code, immediate, bind_eq_ok, value, mapError_eq_ok,
    Except.ok.injEq, require_eq_ok, decide_eq_true_eq, exists_const, pure, Except.pure,
    eq_comm (a := after)]

end Immediate

end Encode

end A64Machine
