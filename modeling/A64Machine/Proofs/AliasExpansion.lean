import A64Machine.Proofs.TargetForms
import A64Machine.Proofs.ZeroAlias

/-!
# Aliases expand to general instructions

Many mnemonics are aliases: they stand for another instruction with some of its operands fixed, as a
comparison stands for a subtraction into the zero register, or computed, as a shift stands for a
bitfield move. The forms of an alias are written apart from those of the general instruction, with
their own templates, kinds and ranges. Nevertheless the expansion of an alias has the same word
whenever the alias has one.
-/

namespace A64Machine

/-- The operand is a plain immediate with the given value. -/
structure ImmediateOperand.Denotes (operand : ImmediateOperand) (evaluate : Evaluator)
    (value : Int) : Prop where
  plain : operand.modifier = none
  known : evaluate operand.value = .ok value

namespace InstructionSet

open InstructionForm (dataSize)

/-! ### Forms with an expansion -/

/-- The general form that the operands of an alias are expanded to. The form of the alias has some of
its fields and fixes the others to codes, at the given settings of the width flags of both. -/
structure ExpandedForm (special general : InstructionForm) (mnemonic : String)
    (operands operands' : List FormOperand) (flags : List (Bool × Bool)) (shared : List Char)
    (codes : Bool → List (Char × Nat)) : Prop where
  specialOperands : special.operands = operands
  generalOperands : general.operands = operands'
  unrivalled : Unrivalled general mnemonic
  widths : ∀ operand ∈ general.operands, operand.1 = .immediate →
    ∀ letter ∈ operand.2, general.pattern.width? letter = some 6
  specialises : ∀ flag ∈ flags, Specialises special general flag.1 flag.2 shared (codes flag.2)

/-- Whether a property holds of some pairs of width flags is decided pair by pair. -/
instance (priority := high) decidableForallFlags (flags : List (Bool × Bool))
    (holds : Bool × Bool → Prop) [DecidablePred holds] : Decidable (∀ flag ∈ flags, holds flag) :=
  List.decidableBAll holds flags

instance (special general : InstructionForm) (mnemonic : String)
    (operands operands' : List FormOperand) (flags : List (Bool × Bool)) (shared : List Char)
    (codes : Bool → List (Char × Nat)) :
    Decidable (ExpandedForm special general mnemonic operands operands' flags shared codes) :=
  decidable_of_iff (_ ∧ _ ∧ _ ∧ _ ∧ _)
    ⟨fun ⟨isSpecial, isGeneral, unrivalled, widths, specialises⟩ =>
      ⟨isSpecial, isGeneral, unrivalled, widths, specialises⟩,
      fun ⟨isSpecial, isGeneral, unrivalled, widths, specialises⟩ =>
        ⟨isSpecial, isGeneral, unrivalled, widths, specialises⟩⟩

/-- All forms of an alias whose operands look like the given ones are expanded to a form of the
general mnemonic. -/
def HasExpansion (aliased mnemonic : String) (operands operands' : List FormOperand)
    (flags : List (Bool × Bool)) (shared : List Char) (codes : Bool → List (Char × Nat)) : Prop :=
  ∀ special ∈ formsOf aliased,
    (special.operands.map fun operand => operand.1.sort) =
        operands.map (fun operand => operand.1.sort) →
      ∃ general ∈ formsOf mnemonic,
        ExpandedForm special general mnemonic operands operands' flags shared codes

instance (aliased mnemonic : String) (operands operands' : List FormOperand)
    (flags : List (Bool × Bool)) (shared : List Char) (codes : Bool → List (Char × Nat)) :
    Decidable (HasExpansion aliased mnemonic operands operands' flags shared codes) :=
  inferInstanceAs (Decidable (∀ special ∈ formsOf aliased, _ → _))

/-- Both width flags agree. -/
def agreeing : List (Bool × Bool) := [(false, false), (true, true)]

/-- The operands of a general bitfield move. -/
def bitfieldMove : List FormOperand := [reg 'd', reg 'n'] ++ rawBitfield

/-- The aliases for an extraction to the top of a register. -/
def shiftsRight : List (String × String) := [("asr", "sbfm"), ("lsr", "ubfm")]

/-- The aliases for an insertion of a bitfield. -/
def insertions : List (String × String) := [("sbfiz", "sbfm"), ("ubfiz", "ubfm"), ("bfi", "bfm")]

/-- The aliases for an extraction of a bitfield. -/
def extractions : List (String × String) := [("sbfx", "sbfm"), ("ubfx", "ubfm"), ("bfxil", "bfm")]

/-- The aliases for an extension of a half register, with the highest bit that they take. -/
def widenings : List (String × String × Nat) :=
  [("sxtb", "sbfm", 7), ("sxth", "sbfm", 15), ("sxtw", "sbfm", 31), ("uxtb", "ubfm", 7),
    ("uxth", "ubfm", 15)]

/-- The kinds of the destination of an extension, with the settings of the width flags of the alias
and of the bitfield move. -/
def destinations : List (OperandKind × List (Bool × Bool)) :=
  [(.register, agreeing), (.wideRegister, [(true, true)]), (.halfRegister, [(true, false)])]

/-- The expansions of the instruction set, other than those with a zero register alone. -/
structure HasExpansions : Prop where
  move : HasExpansion "mov" "orr" [reg 'd', reg 'm'] [reg 'd', reg 'n', (.shifted, own)] agreeing
    ['d', 'm'] fun _ => [('n', 31), ('s', 0), ('i', 0)]
  rotate : HasExpansion "ror" "extr" [reg 'd', (.register, ['n', 'm']), (.shiftAmount, ['s'])]
    [reg 'd', reg 'n', reg 'm', (.shiftAmount, ['s'])] agreeing ['d', 'n', 'm', 's'] fun _ => []
  shiftRight : ∀ names ∈ shiftsRight, HasExpansion names.1 names.2
    [reg 'd', reg 'n', (.shiftAmount, ['r'])] bitfieldMove agreeing ['d', 'n', 'r']
    fun wide => [('s', dataSize wide - 1)]
  shiftLeft : HasExpansion "lsl" "ubfm" [reg 'd', reg 'n', (.leftShift, own)] bitfieldMove agreeing
    ['d', 'n', 'r', 's'] fun _ => []
  insertField : ∀ names ∈ insertions, HasExpansion names.1 names.2
    ([reg 'd', reg 'n'] ++ insertion) bitfieldMove agreeing ['d', 'n', 'r', 's'] fun _ => []
  extractField : ∀ names ∈ extractions, HasExpansion names.1 names.2
    ([reg 'd', reg 'n'] ++ extraction) bitfieldMove agreeing ['d', 'n', 'r', 's'] fun _ => []
  widen : ∀ names ∈ widenings, ∃ destination ∈ destinations, HasExpansion names.1 names.2.1
    [(destination.1, ['d']), wreg 'n'] bitfieldMove destination.2 ['d', 'n']
    fun _ => [('r', 0), ('s', names.2.2)]
  branch : ∀ condition ∈ conditionCodes, ∀ special ∈ formsOf ("b" ++ condition.1),
    ∃ general ∈ formsOf ("b." ++ condition.1), Unrivalled general ("b." ++ condition.1) ∧
      general.shape = special.shape ∧ general.roles = special.roles ∧
      general.pattern = special.pattern ∧ general.size = special.size ∧ general.pair = special.pair
  ret : HasExpansion "ret" "ret" [] [xreg 'n'] [(true, true)] [] fun _ => [('n', 30)]

instance : Decidable HasExpansions :=
  decidable_of_iff (_ ∧ _ ∧ _ ∧ _ ∧ _ ∧ _ ∧ _ ∧ _ ∧ _)
    ⟨fun ⟨move, rotate, shiftRight, shiftLeft, insertField, extractField, widen, branch, ret⟩ =>
      ⟨move, rotate, shiftRight, shiftLeft, insertField, extractField, widen, branch, ret⟩,
      fun ⟨move, rotate, shiftRight, shiftLeft, insertField, extractField, widen, branch, ret⟩ =>
        ⟨move, rotate, shiftRight, shiftLeft, insertField, extractField, widen, branch, ret⟩⟩

/-- The instruction set has these expansions. -/
theorem hasExpansions : HasExpansions := by decide +kernel

/-! ### What the operands gather -/

section Gather

variable {form special general : InstructionForm} {aliased mnemonic : String}
  {operands operands' : List FormOperand} {flags : List (Bool × Bool)} {shared : List Char}
  {codes : Bool → List (Char × Nat)} {here : Int} {evaluate : Evaluator}
  {list list' : List Operand} {d n : RegisterOperand} {draft : Draft} {word : Nat}

/-- What the operands of an expansion gather when those of the alias have gathered a draft: the
shared fields are the same, and the others are the codes. -/
structure Follows (general : InstructionForm) (here : Int) (evaluate : Evaluator)
    (operands' : List FormOperand) (list' : List Operand) (flags : List (Bool × Bool))
    (shared : List Char) (codes : Bool → List (Char × Nat)) (draft draft' : Draft) : Prop where
  fits : OperandKind.fitsAll (operands'.map fun operand => operand.1.code) list' = .ok true
  gathered : Encode.allOperands general here evaluate .empty
    (operands'.map fun operand => (operand.1.code, operand.2)) list' = .ok draft'
  flags : (draft.wide != some false, draft'.wide != some false) ∈ flags
  shared : ∀ letter ∈ shared, draft'.values.lookup letter = draft.values.lookup letter
  codes : ∀ code ∈ codes (draft'.wide != some false),
    draft'.values.lookup code.1 = some (code.2 : Int)

/-- What an alias encodes, its expansion encodes to the same word, if its operands follow those of
the alias. -/
theorem HasExpansion.encode
    (expansion : HasExpansion aliased mnemonic operands operands' flags shared codes)
    (sorts : list.map Operand.sort = operands.map fun operand => operand.1.sort)
    (follows : ∀ special general draft,
      ExpandedForm special general mnemonic operands operands' flags shared codes →
      OperandKind.fitsAll (operands.map fun operand => operand.1.code) list = .ok true →
      Encode.allOperands special here evaluate .empty
        (operands.map fun operand => (operand.1.code, operand.2)) list = .ok draft →
      ∃ draft', Follows general here evaluate operands' list' flags shared codes draft draft')
    (encoded : Codec.a64.encode aliased list here evaluate = .ok word) :
    Codec.a64.encode mnemonic list' here evaluate = .ok word := by
  obtain ⟨special, inside, fits, made⟩ := exists_fitting_of_encode encoded
  have member := mem_forms_of_mem_formsOf inside
  have check := checked member
  have shape := (sound special member).codes check.roles
  obtain ⟨general, inside', expanded⟩ := expansion special inside (by
    rw [← sorts, OperandKind.sorts_of_fitsAll
      (show OperandKind.fitsAll ((special.operands.map Prod.fst).map OperandKind.code) list =
        .ok true by rw [List.map_map]; exact shape ▸ fits), List.map_map]
    rfl)
  have member' := mem_forms_of_mem_formsOf inside'
  have shape' := (sound general member').codes (checked member').roles
  obtain ⟨draft, gathered, drafted⟩ := Encode.drafted_of_formWord (sound special member)
    check.wellFormed check.bits check.roles fits made
  rw [(sound special member).shape, expanded.specialOperands] at gathered
  rw [shape, expanded.specialOperands] at fits
  obtain ⟨draft', following⟩ := follows special general draft expanded fits gathered
  have fits' : OperandKind.fitsAll general.shape list' = .ok true := by
    rw [shape', expanded.generalOperands]
    exact following.fits
  refine (expanded.unrivalled.encode_iff fits').mpr
    ((expanded.specialises _ following.flags).formWord_eq_ok member member' drafted rfl rfl fits' ?_
      following.shared following.codes)
  rw [(sound general member').shape, expanded.generalOperands]
  exact following.gathered

/-- The draft of two registers of one width. -/
def pairDraft (d n : RegisterOperand) : Draft :=
  ⟨[('n', n.register.slot), ('d', d.register.slot)], some d.register.wide, 0⟩

/-- The data size behind two registers is that of the first. -/
theorem size_pairDraft (d n : RegisterOperand) :
    (pairDraft d n).size = dataSize d.register.wide := by
  rw [Draft.size, dataSize, pairDraft]
  cases d.register.wide <;> rfl

/-- Two registers at the beginning are taken if they have one width. -/
theorem allOperands_pair_eq_ok :
    Encode.allOperands form here evaluate .empty
        (([reg 'd', reg 'n'] ++ operands).map fun operand => (operand.1.code, operand.2))
        (.register d :: .register n :: list) = .ok draft ↔
      n.register.wide = d.register.wide ∧
        Encode.allOperands form here evaluate (pairDraft d n)
          (operands.map fun operand => (operand.1.code, operand.2)) list = .ok draft := by
  rw [List.map_append]
  simp only [reg, List.map_cons, List.map_nil, List.cons_append, List.nil_append,
    Encode.allOperands, bind_eq_ok, Encode.operand_register_eq_ok]
  constructor
  · rintro ⟨_, ⟨_, rfl⟩, _, ⟨same, rfl⟩, gathered⟩
    refine ⟨same, ?_⟩
    rw [pairDraft, ← show n.register.wide = d.register.wide from same]
    exact gathered
  · rintro ⟨same, gathered⟩
    refine ⟨_, ⟨rfl, rfl⟩, _, ⟨same, rfl⟩, ?_⟩
    rw [same]
    exact gathered

/-- A plain register fits the kind of one. -/
theorem fits_register_iff {given : RegisterOperand} :
    OperandKind.fits OperandKind.register.code (.register given) = .ok true ↔
      given.modifier = none := by
  simp [OperandKind.fits, OperandKind.ofChar?_code, OperandKind.fitsRegister, OperandKind.isPlain]

/-- An immediate without a shift fits the kinds of one. -/
theorem fits_immediate_iff {kind : OperandKind} (isImmediate : kind.isImmediate = true)
    (plain : kind ≠ .arithmeticImmediate) {given : ImmediateOperand} :
    OperandKind.fits kind.code (.immediate given) = .ok true ↔ given.modifier = none := by
  simp [OperandKind.fits, OperandKind.ofChar?_code, isImmediate, plain]

/-- Two plain registers fit at the beginning. -/
theorem fitsAll_pair_iff :
    OperandKind.fitsAll (([reg 'd', reg 'n'] ++ operands).map fun operand => operand.1.code)
        (.register d :: .register n :: list) = .ok true ↔
      d.modifier = none ∧ n.modifier = none ∧
        OperandKind.fitsAll (operands.map fun operand => operand.1.code) list = .ok true := by
  rw [List.map_append]
  simp only [reg, List.map_cons, List.map_nil, List.cons_append, List.nil_append,
    OperandKind.fitsAll_cons, fits_register_iff]

/-- One immediate without a shift fits one kind of an immediate. -/
theorem fitsAll_immediate_iff {kind : OperandKind} (isImmediate : kind.isImmediate = true)
    (plain : kind ≠ .arithmeticImmediate) {role : List Char} {given : ImmediateOperand} :
    OperandKind.fitsAll ([(kind, role)].map fun operand => operand.1.code) [.immediate given] =
        .ok true ↔ given.modifier = none := by
  rw [List.map_cons, OperandKind.fitsAll_cons, fits_immediate_iff isImmediate plain]
  exact and_iff_left rfl

/-- One operand is all operands. -/
theorem allOperands_single {kind : OperandKind} {role : List Char} {given : Operand}
    {before : Draft} :
    Encode.allOperands form here evaluate before
        ([(kind, role)].map fun operand => (operand.1.code, operand.2)) [given] = .ok draft ↔
      Encode.operand form here evaluate before kind.code role given = .ok draft := by
  simp only [List.map_cons, List.map_nil, Encode.allOperands, bind_eq_ok, Except.ok.injEq,
    exists_eq_right]

/-- A bitfield move gathers its registers and its positions. -/
theorem follows_of_bitfieldMove
    (expanded :
      ExpandedForm special general mnemonic operands bitfieldMove flags shared codes)
    (plain : d.modifier = none) (plain' : n.modifier = none)
    (same : n.register.wide = d.register.wide) {first last : ImmediateOperand} {x y : Int}
    (isFirst : first.Denotes evaluate x) (isLast : last.Denotes evaluate y)
    (boundX : 0 ≤ x ∧ x < 64) (boundY : 0 ≤ y ∧ y < 64)
    (flag : (draft.wide != some false, d.register.wide) ∈ flags)
    (fields : ∀ letter ∈ shared, (((pairDraft d n).set 'r' x).set 's' y).values.lookup letter =
      draft.values.lookup letter)
    (fixed : ∀ code ∈ codes d.register.wide,
      (((pairDraft d n).set 'r' x).set 's' y).values.lookup code.1 = some (code.2 : Int)) :
    ∃ draft', Follows general here evaluate bitfieldMove
      [.register d, .register n, .immediate first, .immediate last] flags shared codes draft
      draft' := by
  have width (letter : Char) (inside : letter = 'r' ∨ letter = 's') :
      general.pattern.width? letter = some 6 := by
    refine expanded.widths (.immediate, [letter]) ?_ rfl letter List.mem_cons_self
    rw [expanded.generalOperands]
    rcases inside with rfl | rfl <;> decide
  have wide : (((pairDraft d n).set 'r' x).set 's' y).wide = some d.register.wide := rfl
  have flag' : ((((pairDraft d n).set 'r' x).set 's' y).wide != some false) = d.register.wide := by
    rw [wide]
    cases d.register.wide <;> rfl
  refine ⟨((pairDraft d n).set 'r' x).set 's' y, ?_, ?_, flag'.symm ▸ flag, fields,
    flag'.symm ▸ fixed⟩
  · rw [bitfieldMove, fitsAll_pair_iff]
    refine ⟨plain, plain', ?_⟩
    rw [rawBitfield, List.map_cons, OperandKind.fitsAll_cons, fits_immediate_iff rfl (by decide),
      fitsAll_immediate_iff rfl (by decide)]
    exact ⟨isFirst.plain, isLast.plain⟩
  · rw [bitfieldMove, allOperands_pair_eq_ok]
    refine ⟨same, ?_⟩
    rw [rawBitfield, List.map_cons, Encode.allOperands, ok_bind
      ((Encode.operand_immediate_eq_ok (width 'r' (.inl rfl))).mpr
        ⟨x, isFirst.known, boundX, rfl⟩), List.map_cons, Encode.allOperands, ok_bind
      ((Encode.operand_immediate_eq_ok (width 's' (.inr rfl))).mpr ⟨y, isLast.known, boundY, rfl⟩)]
    rfl

end Gather

section Families

variable {here : Int} {evaluate : Evaluator} {d n : RegisterOperand} {word : Nat}

/-- The width flag of a draft with two registers. -/
theorem flag_agrees (wide : Bool) : ((some wide != some false), wide) ∈ agreeing := by
  cases wide <;> decide

/-- Drafts of one width have one width flag. -/
theorem flags_agree {draft draft' : Draft} (same : draft'.wide = draft.wide) :
    (draft.wide != some false, draft'.wide != some false) ∈ agreeing := by
  rw [same]
  cases draft.wide != some false <;> decide

/-- Positions below the data size have six bits. -/
theorem dataSize_range (wide : Bool) : 0 < dataSize wide ∧ dataSize wide ≤ 64 := by
  cases wide <;> decide

/-- A shift to the right has the word of a bitfield move that ends at the top. -/
theorem encode_shiftRight {names : String × String} (listed : names ∈ shiftsRight)
    {amount top : ImmediateOperand}
    (isTop : top.Denotes evaluate (dataSize d.register.wide - 1 : Int))
    (encoded : Codec.a64.encode names.1 [.register d, .register n, .immediate amount] here evaluate =
      .ok word) :
    Codec.a64.encode names.2 [.register d, .register n, .immediate amount, .immediate top] here
      evaluate = .ok word := by
  refine (hasExpansions.shiftRight names listed).encode rfl ?_ encoded
  intro special general draft expanded fits gathered
  obtain ⟨plain, plain', fits⟩ := fitsAll_pair_iff.mp fits
  obtain ⟨same, gathered⟩ := allOperands_pair_eq_ok.mp gathered
  obtain ⟨k, known, bound, rfl⟩ :=
    Encode.operand_shiftAmount_eq_ok.mp (allOperands_single.mp gathered)
  have size := dataSize_range d.register.wide
  rw [size_pairDraft] at bound
  refine follows_of_bitfieldMove expanded plain plain' same
    ⟨(fitsAll_immediate_iff rfl (by decide)).mp fits, known⟩ isTop (by omega) (by omega)
    (flag_agrees _) ?_ ?_
  · simp [Draft.lookup_set]
  · simp only [List.forall_mem_cons, List.not_mem_nil, false_implies, implies_true, and_true,
      Draft.lookup_set, if_true, Option.some.injEq]
    omega

/-- A shift to the left has the word of a bitfield move. -/
theorem encode_shiftLeft {amount first last : ImmediateOperand} {k : Int}
    (known : evaluate amount.value = .ok k)
    (isFirst : first.Denotes evaluate (-k % dataSize d.register.wide))
    (isLast : last.Denotes evaluate (dataSize d.register.wide - 1 - k))
    (encoded : Codec.a64.encode "lsl" [.register d, .register n, .immediate amount] here evaluate =
      .ok word) :
    Codec.a64.encode "ubfm" [.register d, .register n, .immediate first, .immediate last] here
      evaluate = .ok word := by
  refine hasExpansions.shiftLeft.encode rfl ?_ encoded
  intro special general draft expanded fits gathered
  obtain ⟨plain, plain', fits⟩ := fitsAll_pair_iff.mp fits
  obtain ⟨same, gathered⟩ := allOperands_pair_eq_ok.mp gathered
  obtain ⟨_, known', bound, rfl⟩ :=
    Encode.operand_leftShift_eq_ok.mp (allOperands_single.mp gathered)
  obtain rfl := Except.ok.inj (known.symm.trans known')
  have size := dataSize_range d.register.wide
  rw [size_pairDraft] at bound ⊢
  have below := Int.emod_lt_of_pos (-k) (b := dataSize d.register.wide) (by omega)
  have least := Int.emod_nonneg (-k) (b := dataSize d.register.wide) (by omega)
  refine follows_of_bitfieldMove expanded plain plain' same isFirst isLast (by omega) (by omega)
    (flag_agrees _) ?_ (by simp)
  simp [Draft.lookup_set]

/-- An insertion has the word of a bitfield move from a negative position. -/
theorem encode_insertField {names : String × String} (listed : names ∈ insertions)
    {low width first last : ImmediateOperand} {l w : Int} (known : evaluate low.value = .ok l)
    (known' : evaluate width.value = .ok w)
    (isFirst : first.Denotes evaluate (-l % dataSize d.register.wide))
    (isLast : last.Denotes evaluate (w - 1))
    (encoded : Codec.a64.encode names.1
      [.register d, .register n, .immediate low, .immediate width] here evaluate = .ok word) :
    Codec.a64.encode names.2 [.register d, .register n, .immediate first, .immediate last] here
      evaluate = .ok word := by
  refine (hasExpansions.insertField names listed).encode rfl ?_ encoded
  intro special general draft expanded fits gathered
  obtain ⟨plain, plain', fits⟩ := fitsAll_pair_iff.mp fits
  obtain ⟨same, gathered⟩ := allOperands_pair_eq_ok.mp gathered
  obtain ⟨middle, taken, gathered⟩ := bind_eq_ok.mp gathered
  obtain ⟨_, knownLow, bound, rfl⟩ := Encode.operand_insertLow_eq_ok.mp taken
  obtain ⟨_, knownWidth, bound', rfl⟩ :=
    Encode.operand_insertWidth_eq_ok.mp (allOperands_single.mp gathered)
  obtain rfl := Except.ok.inj (known.symm.trans knownLow)
  obtain rfl := Except.ok.inj (known'.symm.trans knownWidth)
  have size := dataSize_range d.register.wide
  change 1 ≤ w ∧ w ≤ ((pairDraft d n).size : Int) - l at bound'
  rw [size_pairDraft] at bound bound' ⊢
  have below := Int.emod_lt_of_pos (-l) (b := dataSize d.register.wide) (by omega)
  have least := Int.emod_nonneg (-l) (b := dataSize d.register.wide) (by omega)
  refine follows_of_bitfieldMove expanded plain plain' same isFirst isLast (by omega) (by omega)
    (flag_agrees _) ?_ (by simp)
  simp [Draft.lookup_set, pairDraft]

/-- An extraction has the word of a bitfield move that ends at its highest bit. -/
theorem encode_extractField {names : String × String} (listed : names ∈ extractions)
    {low width last : ImmediateOperand} {l w : Int} (known : evaluate low.value = .ok l)
    (known' : evaluate width.value = .ok w) (isLast : last.Denotes evaluate (l + w - 1))
    (encoded : Codec.a64.encode names.1
      [.register d, .register n, .immediate low, .immediate width] here evaluate = .ok word) :
    Codec.a64.encode names.2 [.register d, .register n, .immediate low, .immediate last] here
      evaluate = .ok word := by
  refine (hasExpansions.extractField names listed).encode rfl ?_ encoded
  intro special general draft expanded fits gathered
  obtain ⟨plain, plain', fits⟩ := fitsAll_pair_iff.mp fits
  obtain ⟨same, gathered⟩ := allOperands_pair_eq_ok.mp gathered
  obtain ⟨middle, taken, gathered⟩ := bind_eq_ok.mp gathered
  obtain ⟨_, knownLow, bound, rfl⟩ := Encode.operand_extractLow_eq_ok.mp taken
  obtain ⟨_, knownWidth, bound', rfl⟩ :=
    Encode.operand_extractWidth_eq_ok.mp (allOperands_single.mp gathered)
  obtain rfl := Except.ok.inj (known.symm.trans knownLow)
  obtain rfl := Except.ok.inj (known'.symm.trans knownWidth)
  have size := dataSize_range d.register.wide
  change 1 ≤ w ∧ w ≤ ((pairDraft d n).size : Int) - l at bound'
  rw [size_pairDraft] at bound bound'
  refine follows_of_bitfieldMove expanded plain plain' same
    ⟨(fits_immediate_iff rfl (by decide)).mp (OperandKind.fitsAll_cons.mp fits).1, known⟩ isLast
    (by omega) (by omega) (flag_agrees _) ?_ (by simp)
  simp [Draft.lookup_set, pairDraft]

/-- The destination of an extension is a plain register; it sets its field and fits the flags. -/
theorem destination_spec {destination : OperandKind × List (Bool × Bool)}
    (listed : destination ∈ destinations) {form : InstructionForm} {middle : Draft}
    (fits : OperandKind.fits destination.1.code (.register d) = .ok true)
    (taken : Encode.operand form here evaluate .empty destination.1.code ['d'] (.register d) =
      .ok middle) :
    d.modifier = none ∧ middle.values = [('d', (d.register.slot : Int))] ∧
      (middle.wide != some false, d.register.wide) ∈ destination.2 := by
  simp only [destinations, List.mem_cons, List.not_mem_nil, or_false] at listed
  simp only [OperandKind.fits, OperandKind.ofChar?_code, Except.ok.injEq] at fits
  rcases listed with rfl | rfl | rfl
  · obtain ⟨_, rfl⟩ := Encode.operand_register_eq_ok.mp taken
    exact ⟨Option.isNone_iff_eq_none.mp fits, rfl, flag_agrees _⟩
  · obtain ⟨wide, rfl⟩ := Encode.operand_wideRegister_eq_ok.mp taken
    rw [wide]
    exact ⟨Option.isNone_iff_eq_none.mp fits, rfl, List.mem_singleton_self _⟩
  · obtain ⟨narrow, rfl⟩ := Encode.operand_halfRegister_eq_ok.mp taken
    rw [narrow]
    exact ⟨Option.isNone_iff_eq_none.mp fits, rfl, List.mem_singleton_self _⟩

/-- An extension has the word of a bitfield move from the bottom, on the source register at the width
of the destination. -/
theorem encode_widen {names : String × String × Nat} (listed : names ∈ widenings)
    {source : RegisterOperand} {first last : ImmediateOperand}
    (isSource : source.register = ⟨n.register.slot, d.register.wide⟩)
    (plain' : source.modifier = none) (isFirst : first.Denotes evaluate 0)
    (isLast : last.Denotes evaluate names.2.2)
    (encoded : Codec.a64.encode names.1 [.register d, .register n] here evaluate = .ok word) :
    Codec.a64.encode names.2.1 [.register d, .register source, .immediate first, .immediate last]
      here evaluate = .ok word := by
  obtain ⟨destination, among, expansion⟩ := hasExpansions.widen names listed
  have sort : ∀ destination ∈ destinations, destination.1.sort = .register := by decide
  have top : ∀ names ∈ widenings, names.2.2 < 64 := by decide
  refine expansion.encode (by simp [sort destination among, Operand.sort, wreg]; rfl) ?_ encoded
  intro special general draft expanded fits gathered
  obtain ⟨middle, taken, gathered⟩ := bind_eq_ok.mp gathered
  obtain ⟨plain, values, flag⟩ := destination_spec among (OperandKind.fitsAll_cons.mp fits).1 taken
  obtain ⟨_, rfl⟩ := Encode.operand_halfRegister_eq_ok.mp (allOperands_single.mp gathered)
  have below := top names listed
  refine follows_of_bitfieldMove expanded plain plain' (by rw [isSource]) isFirst isLast (by decide)
    (by omega) flag ?_ ?_
  · simp [pairDraft, isSource, Draft.set, values, List.lookup_cons]
  · simp [Draft.lookup_set]

/-- A move has the word of a disjunction with the zero register. -/
theorem encode_move {m zero : RegisterOperand} (written : m.modifier = none → m.amount = none)
    (isZero : zero.IsZero d.register.wide)
    (encoded : Codec.a64.encode "mov" [.register d, .register m] here evaluate = .ok word) :
    Codec.a64.encode "orr" [.register d, .register zero, .register m] here evaluate = .ok word := by
  refine hasExpansions.move.encode rfl ?_ encoded
  intro special general draft expanded fits gathered
  obtain ⟨fitsFirst, fits⟩ := OperandKind.fitsAll_cons.mp fits
  have plain := fits_register_iff.mp fitsFirst
  have plain' := fits_register_iff.mp (OperandKind.fitsAll_cons.mp fits).1
  obtain ⟨_, taken, gathered⟩ := bind_eq_ok.mp gathered
  obtain ⟨_, rfl⟩ := Encode.operand_register_eq_ok.mp taken
  obtain ⟨same, rfl⟩ := Encode.operand_register_eq_ok.mp (allOperands_single.mp gathered)
  have width : zero.register.wide = d.register.wide := by rw [isZero.register]
  have fitsLast : OperandKind.fits OperandKind.shifted.code (.register m) = .ok true := by
    simp [OperandKind.fits, OperandKind.ofChar?_code, OperandKind.fitsRegister, plain']
  refine ⟨(((pairDraft d zero).set 'm' m.register.slot).set 's' 0).set 'i' 0,
    fitsAll_pair_iff.mpr ⟨plain, isZero.plain, OperandKind.fitsAll_cons.mpr ⟨fitsLast, rfl⟩⟩,
    allOperands_pair_eq_ok.mpr ⟨width, allOperands_single.mpr
      ((Encode.operand_shifted_eq_ok plain' (written plain')).mpr ⟨same, rfl⟩)⟩, flags_agree (congrArg some same.symm),
    ?_, ?_⟩
  · simp [Draft.lookup_set, pairDraft, List.lookup_cons]
  · simp [Draft.lookup_set, pairDraft, isZero.register, Register.zeroSlot]

/-- A rotation has the word of an extraction from one register twice. -/
theorem encode_rotate {amount : ImmediateOperand}
    (encoded : Codec.a64.encode "ror" [.register d, .register n, .immediate amount] here evaluate =
      .ok word) :
    Codec.a64.encode "extr" [.register d, .register n, .register n, .immediate amount] here
      evaluate = .ok word := by
  refine hasExpansions.rotate.encode rfl ?_ encoded
  intro special general draft expanded fits gathered
  obtain ⟨fitsFirst, fits⟩ := OperandKind.fitsAll_cons.mp fits
  obtain ⟨fitsNext, fits⟩ := OperandKind.fitsAll_cons.mp fits
  obtain ⟨_, taken, gathered⟩ := bind_eq_ok.mp gathered
  obtain ⟨_, rfl⟩ := Encode.operand_register_eq_ok.mp taken
  obtain ⟨_, taken, gathered⟩ := bind_eq_ok.mp gathered
  obtain ⟨same, rfl⟩ := Encode.operand_roles_eq_ok.mp taken
  obtain ⟨k, known, bound, rfl⟩ :=
    Encode.operand_shiftAmount_eq_ok.mp (allOperands_single.mp gathered)
  refine ⟨({ pairDraft d n with wide := some n.register.wide }.set 'm' n.register.slot).set 's' k,
    fitsAll_pair_iff.mpr ⟨fits_register_iff.mp fitsFirst, fits_register_iff.mp fitsNext,
      OperandKind.fitsAll_cons.mpr ⟨fitsNext, fits⟩⟩,
    allOperands_pair_eq_ok.mpr ⟨same, ?_⟩, flags_agree rfl, ?_, by simp⟩
  · refine bind_eq_ok.mpr ⟨_, Encode.operand_register_eq_ok.mpr ⟨same, rfl⟩, ?_⟩
    exact allOperands_single.mpr (Encode.operand_shiftAmount_eq_ok.mpr ⟨k, known, bound, rfl⟩)
  · simp [Draft.lookup_set, Draft.lookup_setAll, pairDraft, List.lookup_cons]

/-- A branch under a condition has one word under both of its mnemonics. -/
theorem encode_branch {condition : String × Nat} (listed : condition ∈ conditionCodes)
    {list : List Operand}
    (encoded : Codec.a64.encode ("b" ++ condition.1) list here evaluate = .ok word) :
    Codec.a64.encode ("b." ++ condition.1) list here evaluate = .ok word := by
  obtain ⟨special, inside, fits, made⟩ := exists_fitting_of_encode encoded
  obtain ⟨general, _, unrivalled, shape, roles, pattern, size, pair⟩ :=
    hasExpansions.branch condition listed special inside
  refine (unrivalled.encode_iff (shape ▸ fits)).mpr ?_
  rw [← made]
  exact Encode.formWord_congr shape roles pattern size pair list

/-- A return has the word of a return to the address in the link register. -/
theorem encode_ret {link : RegisterOperand}
    (isLink : link.register = ⟨Register.linkSlot, true⟩) (plain : link.modifier = none)
    (encoded : Codec.a64.encode "ret" [] here evaluate = .ok word) :
    Codec.a64.encode "ret" [.register link] here evaluate = .ok word := by
  refine hasExpansions.ret.encode rfl ?_ encoded
  intro special general draft expanded fits gathered
  obtain rfl := Except.ok.inj gathered
  refine ⟨Draft.empty.set 'n' link.register.slot, ?_, ?_, List.mem_singleton_self _, by simp, ?_⟩
  · simp [xreg, OperandKind.fitsAll_cons, OperandKind.fits, OperandKind.ofChar?_code,
      OperandKind.fitsRegister, OperandKind.isPlain, plain]
    rfl
  · refine allOperands_single.mpr (Encode.operand_wideRegister_eq_ok.mpr ⟨?_, rfl⟩)
    rw [isLink]
  · simp [Draft.lookup_set, isLink, Register.linkSlot]

end Families

/-! ### Expansions -/

/-- An instruction with an alias expands to one with a general mnemonic. Operands that the expansion
computes are any operands that denote their values. -/
inductive Expands (evaluate : Evaluator) :
    (aliased : String) → List Operand → (mnemonic : String) → List Operand → Prop where
  /-- A zero register of the width of the first register is added. -/
  | zero {aliased : ZeroAlias} {front back : List Operand} {first zero : RegisterOperand}
      (listed : aliased ∈ zeroAliases) (place : front.length = aliased.place)
      (leads : (front ++ back).head? = some (.register first))
      (isZero : zero.IsZero first.register.wide) :
      Expands evaluate aliased.name (front ++ back) aliased.general (front ++ .register zero :: back)
  /-- A move from a register is a disjunction with the zero register. An amount stands behind a shift
  or an extension, as in every operand that is read from a text. -/
  | move {d m zero : RegisterOperand} (written : m.modifier = none → m.amount = none)
      (isZero : zero.IsZero d.register.wide) :
      Expands evaluate "mov" [.register d, .register m] "orr"
        [.register d, .register zero, .register m]
  /-- A rotation is an extraction from one register twice. -/
  | rotate {d n : RegisterOperand} {amount : ImmediateOperand} :
      Expands evaluate "ror" [.register d, .register n, .immediate amount] "extr"
        [.register d, .register n, .register n, .immediate amount]
  /-- A shift to the right is a bitfield move that ends at the top. -/
  | shiftRight {names : String × String} (listed : names ∈ shiftsRight) {d n : RegisterOperand}
      {amount top : ImmediateOperand}
      (isTop : top.Denotes evaluate (dataSize d.register.wide - 1 : Int)) :
      Expands evaluate names.1 [.register d, .register n, .immediate amount] names.2
        [.register d, .register n, .immediate amount, .immediate top]
  /-- A shift to the left is a bitfield move from a negative position. -/
  | shiftLeft {d n : RegisterOperand} {amount first last : ImmediateOperand} {k : Int}
      (known : evaluate amount.value = .ok k)
      (isFirst : first.Denotes evaluate (-k % dataSize d.register.wide))
      (isLast : last.Denotes evaluate (dataSize d.register.wide - 1 - k)) :
      Expands evaluate "lsl" [.register d, .register n, .immediate amount] "ubfm"
        [.register d, .register n, .immediate first, .immediate last]
  /-- An insertion is a bitfield move from a negative position. -/
  | insertField {names : String × String} (listed : names ∈ insertions) {d n : RegisterOperand}
      {low width first last : ImmediateOperand} {l w : Int}
      (knownLow : evaluate low.value = .ok l) (knownWidth : evaluate width.value = .ok w)
      (isFirst : first.Denotes evaluate (-l % dataSize d.register.wide))
      (isLast : last.Denotes evaluate (w - 1)) :
      Expands evaluate names.1 [.register d, .register n, .immediate low, .immediate width] names.2
        [.register d, .register n, .immediate first, .immediate last]
  /-- An extraction is a bitfield move that ends at its highest bit. -/
  | extractField {names : String × String} (listed : names ∈ extractions) {d n : RegisterOperand}
      {low width last : ImmediateOperand} {l w : Int}
      (knownLow : evaluate low.value = .ok l) (knownWidth : evaluate width.value = .ok w)
      (isLast : last.Denotes evaluate (l + w - 1)) :
      Expands evaluate names.1 [.register d, .register n, .immediate low, .immediate width] names.2
        [.register d, .register n, .immediate low, .immediate last]
  /-- An extension is a bitfield move of the source register at the width of the destination. -/
  | widen {names : String × String × Nat} (listed : names ∈ widenings)
      {d n source : RegisterOperand} {first last : ImmediateOperand}
      (isSource : source.register = ⟨n.register.slot, d.register.wide⟩)
      (plain : source.modifier = none) (isFirst : first.Denotes evaluate 0)
      (isLast : last.Denotes evaluate names.2.2) :
      Expands evaluate names.1 [.register d, .register n] names.2.1
        [.register d, .register source, .immediate first, .immediate last]
  /-- A branch under a condition may be written without a point. -/
  | branch {condition : String × Nat} (listed : condition ∈ conditionCodes) {list : List Operand} :
      Expands evaluate ("b" ++ condition.1) list ("b." ++ condition.1) list
  /-- A return goes to the address in the link register. -/
  | ret {link : RegisterOperand} (isLink : link.register = ⟨Register.linkSlot, true⟩)
      (plain : link.modifier = none) :
      Expands evaluate "ret" [] "ret" [.register link]

/-- The expansion of the alias just adds a zero register, and the alias takes what the general
instruction takes. -/
def Reverses (aliased : String) (list : List Operand) : Prop :=
  aliased ∈ zeroAliases.map ZeroAlias.name ∧ TakesAll aliased list

/-- The other expansions do not just add a zero register. -/
theorem not_reverses :
    (∀ name ∈ ["mov", "ror", "lsl", "ret"], name ∉ zeroAliases.map ZeroAlias.name) ∧
    (∀ names ∈ shiftsRight ++ insertions ++ extractions,
      names.1 ∉ zeroAliases.map ZeroAlias.name) ∧
    (∀ names ∈ widenings, names.1 ∉ zeroAliases.map ZeroAlias.name) ∧
    ∀ condition ∈ conditionCodes, "b" ++ condition.1 ∉ zeroAliases.map ZeroAlias.name := by
  decide +kernel

/-- Whatever an alias encodes, its expansion encodes to the same word. Where the expansion just adds a
zero register, the alias also encodes whatever the expansion encodes; for a negation this is so if its
last operand is a register that is not extended. -/
theorem encode_of_expands {evaluate : Evaluator} {aliased mnemonic : String}
    {list list' : List Operand} (expands : Expands evaluate aliased list mnemonic list') (here : Int)
    (word : Nat) :
    (Codec.a64.encode aliased list here evaluate = .ok word →
      Codec.a64.encode mnemonic list' here evaluate = .ok word) ∧
    (Reverses aliased list → Codec.a64.encode mnemonic list' here evaluate = .ok word →
      Codec.a64.encode aliased list here evaluate = .ok word) := by
  obtain ⟨single, pairs, triples, branches⟩ := not_reverses
  cases expands with
  | zero listed place leads isZero =>
    exact ⟨encode_general_of_zero listed place leads isZero,
      fun reverses => encode_zero_of_general listed place leads isZero reverses.2⟩
  | move written isZero =>
    exact ⟨encode_move written isZero, fun reverses => absurd reverses.1 (single _ (by simp))⟩
  | rotate => exact ⟨encode_rotate, fun reverses => absurd reverses.1 (single _ (by simp))⟩
  | shiftRight listed isTop =>
    exact ⟨encode_shiftRight listed isTop,
      fun reverses => absurd reverses.1 (pairs _ (by simp [listed]))⟩
  | shiftLeft known isFirst isLast =>
    exact ⟨encode_shiftLeft known isFirst isLast,
      fun reverses => absurd reverses.1 (single _ (by simp))⟩
  | insertField listed knownLow knownWidth isFirst isLast =>
    exact ⟨encode_insertField listed knownLow knownWidth isFirst isLast,
      fun reverses => absurd reverses.1 (pairs _ (by simp [listed]))⟩
  | extractField listed knownLow knownWidth isLast =>
    exact ⟨encode_extractField listed knownLow knownWidth isLast,
      fun reverses => absurd reverses.1 (pairs _ (by simp [listed]))⟩
  | widen listed isSource plain isFirst isLast =>
    exact ⟨encode_widen listed isSource plain isFirst isLast,
      fun reverses => absurd reverses.1 (triples _ listed)⟩
  | branch listed =>
    exact ⟨encode_branch listed, fun reverses => absurd reverses.1 (branches _ listed)⟩
  | ret isLink plain =>
    exact ⟨encode_ret isLink plain, fun reverses => absurd reverses.1 (single _ (by simp))⟩

/-- A shift to the left by four has the word of a bitfield move from 60 to 59. And as a negation of
a shifted register is reversed, it has the word of the difference from zero. -/
theorem encode_of_expands_leftShift_negation :
    (∃ list list', Operand.parse "x0, x1, #4" 0 = .ok list ∧
      Operand.parse "x0, x1, #60, #59" 0 = .ok list' ∧
      Expands (Codec.addressOnly 0) "lsl" list "ubfm" list' ∧
      Codec.a64.encode "lsl" list 0 (Codec.addressOnly 0) = .ok 0xd37cec20 ∧
      Codec.a64.encode "ubfm" list' 0 (Codec.addressOnly 0) = .ok 0xd37cec20) ∧
    ∃ list list', Operand.parse "x0,      x1, lsl #2" 0 = .ok list ∧
      Operand.parse "x0, xzr, x1, lsl #2" 0 = .ok list' ∧
      Expands (Codec.addressOnly 0) "neg" list "sub" list' ∧ Reverses "neg" list ∧
      Codec.a64.encode "sub" list' 0 (Codec.addressOnly 0) = .ok 0xcb010be0 ∧
      Codec.a64.encode "neg" list 0 (Codec.addressOnly 0) = .ok 0xcb010be0 := by
  let d : RegisterOperand := ⟨"x0", ⟨0, true⟩, none, none, ⟨0, 2⟩⟩
  have known (operand : ImmediateOperand) (value : Int)
      (read : (Codec.addressOnly 0 operand.value).toOption = some value) :
      Codec.addressOnly 0 operand.value = .ok value := toOption_eq_some.mp read
  constructor
  · let number (text : String) (start stop : Int) : ImmediateOperand :=
      ⟨⟨[⟨.number, text, ⟨start, stop⟩⟩], ⟨start, stop⟩⟩, none, none, ⟨start - 1, stop⟩⟩
    let n : RegisterOperand := ⟨"x1", ⟨1, true⟩, none, none, ⟨4, 6⟩⟩
    let list := [Operand.register d, .register n, .immediate (number "4" 9 10)]
    let list' := [Operand.register d, .register n, .immediate (number "60" 9 11),
      .immediate (number "59" 14 16)]
    have expands : Expands (Codec.addressOnly 0) "lsl" list "ubfm" list' :=
      .shiftLeft (known (number "4" 9 10) 4 (by decide +kernel))
        ⟨rfl, known (number "60" 9 11) _ (by decide +kernel)⟩
        ⟨rfl, known (number "59" 14 16) _ (by decide +kernel)⟩
    have encoded : Codec.a64.encode "lsl" list 0 (Codec.addressOnly 0) = .ok 0xd37cec20 :=
      encode_of_firstEntry (by decide +kernel)
    exact ⟨list, list', toOption_eq_some.mp (by decide +kernel),
      toOption_eq_some.mp (by decide +kernel), expands, encoded,
      (encode_of_expands expands 0 _).1 encoded⟩
  · let zero : RegisterOperand := ⟨"xzr", ⟨Register.zeroSlot, true⟩, none, none, ⟨4, 7⟩⟩
    let m : RegisterOperand := ⟨"x1", ⟨1, true⟩, some .lsl,
      some ⟨[⟨.number, "2", ⟨18, 19⟩⟩], ⟨18, 19⟩⟩, ⟨9, 19⟩⟩
    let list := [Operand.register d, .register m]
    let list' := [Operand.register d, .register zero, .register m]
    have expands : Expands (Codec.addressOnly 0) "neg" list "sub" list' :=
      @Expands.zero _ ⟨"neg", "sub", 1⟩ [.register d] [.register m] d zero (by decide) rfl rfl
        ⟨rfl, rfl⟩
    have reverses : Reverses "neg" list := ⟨by decide, fun _ => ⟨m, rfl, by decide⟩⟩
    have encoded : Codec.a64.encode "sub" list' 0 (Codec.addressOnly 0) = .ok 0xcb010be0 :=
      encode_of_firstEntry (by decide +kernel)
    exact ⟨list, list', toOption_eq_some.mp (by decide +kernel),
      toOption_eq_some.mp (by decide +kernel), expands, reverses, encoded,
      (encode_of_expands expands 0 _).2 reverses encoded⟩

end InstructionSet

end A64Machine
