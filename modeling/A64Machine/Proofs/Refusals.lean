import A64Machine.Proofs.FormWord
import A64Machine.Proofs.OperandGroups

/-!
# What an encoding refuses

An encoding is refused with a complaint about the operands, or because a number in their text cannot
be read; it never meets a defect of the table. So the number that a refusal names is one of the
tokens that the operands were read from.
-/

namespace A64Machine

/-- A number among some tokens cannot be read. -/
def Token.Unreadable (tokens : List Token) (bad : Text.BadNumeral) : Prop :=
  ∃ token ∈ tokens, token.kind = .number ∧ Text.readLiteral token.text = .error bad

/-- A refusal of some tokens: a complaint, or a number among them that cannot be read. -/
def Refusal.Concerns (tokens : List Token) : Refusal → Prop
  | .assembly _ => True
  | .numeral bad => Token.Unreadable tokens bad

/-- An encoding of operands with some tokens is refused for them, and the table has no defect. -/
def EncodeFailure.Concerns (tokens : List Token) : EncodeFailure → Prop
  | .refused refusal => refusal.Concerns tokens
  | .defective _ => False

variable {tokens : List Token}

/-! ### What may be blamed -/

/-- The text that a complaint repeats from the place that it is about, if it repeats any. -/
def Complaint.quoted? : Complaint → Option String
  | .unexpectedCharacter character => some character.toString
  | .undefinedSymbol name | .duplicateLabel name => some name
  | .unexpectedInExpression text => some text
  | _ => none

/-- A place may be blamed by complaints that repeat nothing. -/
def Blamable (allowed : Refusal → Prop) (span : Span) : Prop :=
  ∀ complaint : Complaint, complaint.quoted? = none → allowed (.assembly ⟨complaint, span⟩)

/-- A token of an expression may be refused by complaints that repeat nothing or its text, and as a
number that cannot be read. -/
structure Token.Refusable (allowed : Refusal → Prop) (token : Token) : Prop where
  blamable : Blamable allowed token.span
  undefined : allowed (.assembly ⟨.undefinedSymbol token.text, token.span⟩)
  unexpected : allowed (.assembly ⟨.unexpectedInExpression token.text, token.span⟩)
  unread : token.kind = .number → ∀ bad, Text.readLiteral token.text = .error bad →
    allowed (.numeral bad)

/-- Any place may be blamed where all complaints are allowed. -/
theorem blamable_concerns (span : Span) : Blamable (Refusal.Concerns tokens) span :=
  fun _ _ => trivial

theorem Token.refusable_concerns {token : Token} (inside : token ∈ tokens) :
    token.Refusable (Refusal.Concerns tokens) :=
  ⟨blamable_concerns _, trivial, trivial, fun isNumber _ unread => ⟨token, inside, isNumber, unread⟩⟩

/-! ### Expressions -/

namespace Expression

variable {allowed : Refusal → Prop} {symbols : SymbolValues} {dot : Int} {token : Token}

/-- A token that has no value is refused for itself. -/
theorem termValue_failsOnly (refusable : token.Refusable allowed) :
    FailsOnly allowed (termValue symbols dot token) := by
  unfold termValue
  split
  · rename_i isNumber
    split
    · exact failsOnly_ok
    · rename_i bad unread
      exact failsOnly_error.mpr (refusable.unread isNumber bad unread)
  · split
    · exact failsOnly_ok
    · split
      · exact failsOnly_ok
      · exact failsOnly_error.mpr refusable.undefined
  · exact failsOnly_error.mpr refusable.unexpected

/-- One more token of an expression is refused for itself. -/
theorem advance_failsOnly {progress : Progress} (refusable : token.Refusable allowed) :
    FailsOnly allowed (advance symbols dot progress token) := by
  have value := @termValue_failsOnly allowed symbols dot token refusable
  have operator := refusable.blamable .operatorExpected rfl
  have parentheses := refusable.blamable .unbalancedParentheses rfl
  unfold advance
  repeat' split
  all_goals simp [value, operator, parentheses]

/-- An expression has a value unless it is refused for one of its tokens or as a whole. -/
theorem evaluate_failsOnly_of_tokens {expression : Expression}
    (refusable : ∀ token ∈ expression.tokens, token.Refusable allowed)
    (blamable : Blamable allowed expression.span) :
    FailsOnly allowed (expression.evaluate symbols dot) := by
  have read : FailsOnly allowed (expression.tokens.foldlM (advance symbols dot) Progress.start) :=
    failsOnly_foldlM fun token inside _ => advance_failsOnly (refusable token inside)
  unfold evaluate
  rw [failsOnly_bind]
  refine ⟨read, fun progress _ => ?_⟩
  split
  · exact failsOnly_throw.mpr (blamable _ rfl)
  · exact failsOnly_pure

/-- An expression has a value unless it is refused for its tokens. -/
theorem evaluate_failsOnly (symbols : SymbolValues) (dot : Int) {expression : Expression}
    (within : expression.Within tokens) :
    FailsOnly (Refusal.Concerns tokens) (expression.evaluate symbols dot) :=
  evaluate_failsOnly_of_tokens (fun _ inside => Token.refusable_concerns (within inside))
    (blamable_concerns _)

end Expression

/-! ### Encodings -/

namespace Encode

/-- The values of expressions that are written with some tokens are refused only for them. -/
def Reads (tokens : List Token) (evaluate : Evaluator) : Prop :=
  ∀ expression : Expression, expression.Within tokens →
    FailsOnly (Refusal.Concerns tokens) (evaluate expression)

/-- An encoding is refused only for some tokens. -/
abbrev RefusesOnly {α : Type} (tokens : List Token) (step : Except EncodeFailure α) : Prop :=
  FailsOnly (EncodeFailure.Concerns tokens) step

/-- The refusals among some failures. -/
abbrev refusing (allowed : EncodeFailure → Prop) : Refusal → Prop :=
  fun refusal => allowed (.refused refusal)

/-- The places of an operand may be blamed, and its expressions fail only as is allowed. -/
abbrev Answers (allowed : EncodeFailure → Prop) (evaluate : Evaluator) (given : Operand) : Prop :=
  given.Each (Blamable (refusing allowed)) fun expression =>
    FailsOnly (refusing allowed) (evaluate expression)

variable {allowed : EncodeFailure → Prop} {form : InstructionForm} {here : Int}
  {evaluate : Evaluator} {draft : Draft} {kind : OperandKind} {role : List Char} {span : Span}

/-- What is written with some tokens is refused for them. -/
theorem answers_of_within (reads : Reads tokens evaluate) {given : Operand}
    (within : given.Within tokens) : Answers (EncodeFailure.Concerns tokens) evaluate given :=
  within.each.imp (fun _ _ => blamable_concerns _) reads

/-- What comes behind a condition fails as it does by itself, or the condition is complained
about. -/
theorem require_failsOnly {α : Type} (blamable : Blamable (refusing allowed) span)
    {complaint : Complaint} (silent : complaint.quoted? = none) {condition : Bool}
    {next : Unit → Except EncodeFailure α} (later : FailsOnly allowed (next ())) :
    FailsOnly allowed (require condition complaint span >>= next) := by
  unfold require
  split
  · exact later
  · exact failsOnly_error.mpr (blamable complaint silent)

theorem amount_failsOnly {given : Option Expression}
    (values : ∀ expression, given = some expression →
      FailsOnly (refusing allowed) (evaluate expression)) :
    FailsOnly allowed (amount evaluate given) := by
  cases given with
  | none => exact failsOnly_ok
  | some expression => exact failsOnly_mapError.mpr (values expression rfl)

theorem registerNumber_failsOnly {operand : RegisterOperand}
    (blamable : Blamable (refusing allowed) operand.span) (wide : Bool) :
    FailsOnly allowed (registerNumber operand wide) :=
  require_failsOnly blamable rfl failsOnly_pure

/-- The width of a field is known where the pattern has the field. -/
theorem fieldWidth_failsOnly {letter : Char} (field : form.pattern.hasField letter = true) :
    FailsOnly allowed (fieldWidth form [letter]) := by
  obtain ⟨positions, known⟩ := Option.isSome_iff_exists.mp field
  rw [fieldWidth, BitPattern.width?, known]
  exact failsOnly_ok

/-- A register is refused for its width or its amount. -/
theorem register_failsOnly {operand : RegisterOperand}
    (answers : Answers allowed evaluate (.register operand)) :
    FailsOnly allowed (register kind role operand evaluate draft) := by
  have amount := amount_failsOnly answers.amount
  have number := registerNumber_failsOnly answers.place
  cases kind with
  | register | wideRegister | halfRegister =>
    exact failsOnly_bind.mpr ⟨number _, fun _ _ => failsOnly_pure⟩
  | _ =>
    exact failsOnly_bind.mpr ⟨number _, fun _ _ => failsOnly_bind.mpr ⟨amount, fun _ _ =>
      require_failsOnly answers.place rfl failsOnly_pure⟩⟩

theorem bitmask_failsOnly (blamable : Blamable (refusing allowed) span) (value : Int) :
    FailsOnly allowed (bitmask span value draft) := by
  refine require_failsOnly blamable rfl ?_
  split
  · exact failsOnly_throw.mpr (blamable _ rfl)
  · exact failsOnly_pure

theorem wideImmediate_failsOnly (blamable : Blamable (refusing allowed) span) (value : Int) :
    FailsOnly allowed (wideImmediate span value draft) := by
  refine require_failsOnly blamable rfl ?_
  split
  · exact failsOnly_throw.mpr (blamable _ rfl)
  · exact failsOnly_pure

theorem splitOffset_failsOnly (blamable : Blamable (refusing allowed) span) (offset : Int) :
    FailsOnly allowed (splitOffset span offset draft) :=
  require_failsOnly blamable rfl failsOnly_pure

theorem arithmeticImmediate_failsOnly {operand : ImmediateOperand}
    (answers : Answers allowed evaluate (.immediate operand)) (value : Int) :
    FailsOnly allowed (arithmeticImmediate operand value evaluate draft) := by
  have amount := amount_failsOnly answers.amount
  refine failsOnly_bind.mpr ⟨amount, fun _ _ => require_failsOnly answers.place rfl ?_⟩
  split
  · exact require_failsOnly answers.place rfl failsOnly_pure
  · split
    · exact failsOnly_pure
    · exact require_failsOnly answers.place rfl failsOnly_pure

/-- A form tells the widths that the encoding of an operand asks for. -/
structure Tells (form : InstructionForm) (kind : OperandKind) (role : List Char) : Prop where
  /-- What an operand sets are fields of the pattern. -/
  fields : ∀ letter ∈ kind.letters role, form.pattern.hasField letter = true
  /-- A plain immediate sets one field. -/
  single : kind = .immediate → ∃ letter, role = [letter]

/-- An immediate is refused for its value or its amount. -/
theorem immediate_failsOnly (tells : Tells form kind role) {operand : ImmediateOperand}
    (answers : Answers allowed evaluate (.immediate operand)) (value : Int) :
    FailsOnly allowed (immediate form here kind role operand value evaluate draft) := by
  have blamable : Blamable (refusing allowed) operand.span := answers.place
  cases kind with
  | immediate =>
    obtain ⟨letter, rfl⟩ := tells.single rfl
    have width := @fieldWidth_failsOnly allowed _ _ (tells.fields letter List.mem_cons_self)
    exact failsOnly_bind.mpr ⟨width, fun _ _ => require_failsOnly blamable rfl failsOnly_pure⟩
  | branchTarget =>
    have width := @fieldWidth_failsOnly allowed _ _ (tells.fields 'I' List.mem_cons_self)
    exact require_failsOnly blamable rfl (failsOnly_bind.mpr ⟨width, fun _ _ =>
      require_failsOnly blamable rfl failsOnly_pure⟩)
  | arithmeticImmediate => exact arithmeticImmediate_failsOnly answers value
  | bitmask => exact bitmask_failsOnly blamable value
  | wide => exact wideImmediate_failsOnly blamable value
  | invertedWide => exact require_failsOnly blamable rfl (wideImmediate_failsOnly blamable _)
  | byteTarget | pageTarget => exact splitOffset_failsOnly blamable _
  | shiftAmount | leftShift | insertLow | extractLow | insertWidth | extractWidth | bitNumber =>
    exact require_failsOnly blamable rfl failsOnly_pure
  | _ => exact failsOnly_pure

/-- An offset is refused for its value. -/
theorem offset_failsOnly (field : form.pattern.hasField 'I' = true)
    (blamable : Blamable (refusing allowed) span) (scaled : Bool) (value : Int) :
    FailsOnly allowed (offset form span scaled value draft) :=
  failsOnly_bind.mpr ⟨fieldWidth_failsOnly field, fun _ _ =>
    require_failsOnly blamable rfl (require_failsOnly blamable rfl failsOnly_pure)⟩

/-- An index is refused for its register or its shift. -/
theorem index_failsOnly {operand : RegisterOperand}
    (answers : Answers allowed evaluate (.register operand)) :
    FailsOnly allowed (index form operand evaluate draft) := by
  have number := registerNumber_failsOnly answers.place
  refine failsOnly_bind.mpr ⟨number _, fun _ _ => ?_⟩
  extract_lets scale shifted
  split
  · exact failsOnly_pure
  · rename_i expression given
    exact failsOnly_bind.mpr ⟨failsOnly_mapError.mpr (answers.amount expression given), fun _ _ =>
      require_failsOnly answers.place rfl failsOnly_pure⟩

/-- An address that fits its kind is refused for its base, its offset or its index. -/
theorem address_failsOnly (tells : Tells form kind role) {operand : AddressOperand}
    (based : (OperandKind.base? operand).any OperandKind.isPlain = true)
    (fits : kind.fitsAddress operand = true)
    (answers : Answers allowed evaluate (.address operand)) :
    FailsOnly allowed (address form kind operand evaluate draft) := by
  obtain ⟨base, rest, parts⟩ := exists_base based
  have offset (field : form.pattern.hasField 'I' = true) (scaled : Bool) (value : Int)
      (draft : Draft) : FailsOnly allowed (offset form operand.span scaled value draft) :=
    offset_failsOnly field answers.place scaled value
  obtain ⟨first, later⟩ := List.forall_mem_cons.mp (parts ▸ answers.parts)
  rw [address, parts]
  refine require_failsOnly first.place rfl ?_
  cases kind with
  | postIndexed =>
    have amount := amount_failsOnly answers.postIndex
    simp [amount, offset (tells.fields 'I' (by simp [OperandKind.letters, OperandKind.fieldLetters]))]
  | registerIndexed =>
    obtain ⟨part, rfl⟩ := exists_indexRegister parts fits
    exact index_failsOnly (later _ List.mem_cons_self)
  | scaledAddress | unscaledAddress | preIndexed =>
    have offset := offset (tells.fields 'I' (by simp [OperandKind.letters, OperandKind.fieldLetters]))
    cases rest with
    | nil => simp [offset]
    | cons part rest =>
      cases part with
      | register part => simp [offset]
      | immediate part =>
        have value : FailsOnly allowed (value evaluate part.value) :=
          failsOnly_mapError.mpr (later _ List.mem_cons_self).value
        simp [value, offset]
  | _ => contradiction

/-- An operand that fits its kind is refused for its values. -/
theorem operand_failsOnly (tells : Tells form kind role) {given : Operand}
    (fits : OperandKind.fits kind.code given = .ok true) (answers : Answers allowed evaluate given) :
    FailsOnly allowed (operand form here evaluate draft kind.code role given) := by
  unfold OperandKind.fits at fits
  unfold operand
  rw [OperandKind.ofChar?_code] at fits ⊢
  cases given with
  | register given => exact register_failsOnly answers
  | immediate given =>
    exact failsOnly_bind.mpr ⟨failsOnly_mapError.mpr answers.value,
      fun value _ => immediate_failsOnly tells answers value⟩
  | address given =>
    have fits := Bool.and_eq_true_iff.mp (Except.ok.inj fits)
    exact address_failsOnly tells fits.1 fits.2 answers

/-- Operands that fit their kinds are refused for their values. -/
theorem allOperands_failsOnly {kinds : List (OperandKind × List Char)}
    (tells : ∀ kind ∈ kinds, Tells form kind.1 kind.2) {list : List Operand}
    (fits : OperandKind.fitsEach ((kinds.map fun kind => kind.1.code).zip list) = .ok true)
    (answers : ∀ given ∈ list, Answers allowed evaluate given) :
    FailsOnly allowed
      (allOperands form here evaluate draft (kinds.map fun kind => (kind.1.code, kind.2)) list) := by
  induction kinds generalizing list draft with
  | nil => exact failsOnly_ok
  | cons kind kinds ih =>
    cases list with
    | nil => exact failsOnly_ok
    | cons given list =>
      obtain ⟨first, others⟩ := List.forall_mem_cons.mp tells
      obtain ⟨firstAnswers, othersAnswer⟩ := List.forall_mem_cons.mp answers
      obtain ⟨firstFits, othersFit⟩ := OperandKind.fitsEach_cons.mp fits
      rw [List.map_cons, allOperands]
      exact failsOnly_bind.mpr ⟨operand_failsOnly first firstFits firstAnswers,
        fun draft _ => ih others othersFit othersAnswer⟩

/-- A form refuses operands as gathering them is refused, or all of them for a field. -/
theorem formWord_failsOnly_of_allOperands {list : List Operand}
    (blamable : Blamable (refusing allowed) (Operand.spanOf list))
    (gathered : FailsOnly allowed
      (allOperands form here evaluate .empty (form.shape.zip form.roles) list)) :
    FailsOnly allowed (formWord form here evaluate list) := by
  refine failsOnly_bind.mpr ⟨gathered, fun draft _ => ?_⟩
  extract_lets flagged
  split
  · exact failsOnly_pure
  · exact failsOnly_throw.mpr (blamable _ rfl)

/-- A form refuses operands that fit it for their values. -/
theorem formWord_failsOnly (sound : form.Sound) (roles : form.roles.length = form.shape.length)
    (tells : ∀ operand ∈ form.operands, Tells form operand.1 operand.2) {list : List Operand}
    (fits : OperandKind.fitsAll form.shape list = .ok true)
    (blamable : Blamable (refusing allowed) (Operand.spanOf list))
    (answers : ∀ given ∈ list, Answers allowed evaluate given) :
    FailsOnly allowed (formWord form here evaluate list) := by
  refine formWord_failsOnly_of_allOperands blamable ?_
  rw [OperandKind.fitsAll, sound.codes roles] at fits
  split at fits
  · rw [sound.shape]
    exact allOperands_failsOnly tells fits answers
  · cases fits

/-- The entries of a mnemonic refuse operands for their values, if those that fit do. -/
theorem firstEntry_failsOnly {mnemonic : String} {list : List Operand}
    {complaint : Option AssemblyError} {entries : List OpcodeEntry}
    (earlier : ∀ error, complaint = some error → refusing allowed (.assembly error))
    (blamable : Blamable (refusing allowed) (Operand.spanOf list))
    (known : ∀ entry ∈ entries, ∃ fit, OperandKind.fitsAll entry.head.shape list = .ok fit)
    (forms : ∀ form, .implemented form ∈ entries →
      OperandKind.fitsAll form.shape list = .ok true →
        FailsOnly allowed (formWord form here evaluate list)) :
    FailsOnly allowed (firstEntry mnemonic here evaluate list complaint entries) := by
  induction entries generalizing complaint with
  | nil =>
    refine failsOnly_error.mpr ?_
    cases complaint with
    | none => exact blamable _ rfl
    | some error => exact earlier error rfl
  | cons entry rest ih =>
    obtain ⟨⟨fit, decided⟩, known⟩ := List.forall_mem_cons.mp known
    have later {complaint : Option AssemblyError}
        (earlier : ∀ error, complaint = some error → refusing allowed (.assembly error)) :=
      @ih complaint earlier known fun form inside => forms form (List.mem_cons_of_mem _ inside)
    unfold firstEntry
    rw [ok_bind (mapError_eq_ok.mpr decided)]
    cases fit with
    | false => exact later earlier
    | true =>
      cases entry with
      | declared head => exact failsOnly_throw.mpr (blamable _ rfl)
      | implemented form =>
        have own := forms form List.mem_cons_self decided
        simp only [if_true]
        split
        · rename_i error refused
          refine later fun first isFirst => ?_
          rcases Option.or_eq_some_iff.mp isFirst with isFirst | ⟨_, isFirst⟩
          · exact earlier first isFirst
          · exact Option.some.inj isFirst ▸ own _ refused
        · exact own

/-- A form refuses operands for some tokens as gathering them does. -/
theorem formWord_refusesOnly_of_allOperands {list : List Operand}
    (gathered : RefusesOnly tokens
      (allOperands form here evaluate .empty (form.shape.zip form.roles) list)) :
    RefusesOnly tokens (formWord form here evaluate list) :=
  formWord_failsOnly_of_allOperands (blamable_concerns _) gathered

end Encode

namespace InstructionSet

/-- All kinds of the shapes of the table have a meaning. -/
theorem shapes_known :
    ∀ group ∈ OpcodeTable.groupsFrom 0 definitions, ∀ entry ∈ group.2,
      entry.head.shape =
        (entry.head.shape.filterMap OperandKind.ofChar?).map OperandKind.code := by
  decide +kernel

/-- A plain immediate of a form sets one field. -/
theorem immediates_single :
    ∀ form ∈ forms, ∀ operand ∈ form.operands, operand.1 = .immediate → operand.2.length = 1 := by
  decide +kernel

/-- A form of the instruction set tells the widths that an encoding asks for. -/
theorem tells {form : InstructionForm} (member : form ∈ forms) :
    ∀ operand ∈ form.operands, Encode.Tells form operand.1 operand.2 := by
  intro operand inside
  refine ⟨fun letter set => ((sound form member).letters operand inside letter set).1, ?_⟩
  intro plain
  exact List.length_eq_one_iff.mp (immediates_single form member operand inside plain)

/-- An encoding is refused for its operands or all of them, never for the table. -/
theorem encode_failsOnly {allowed : EncodeFailure → Prop} (mnemonic : String)
    {operands : List Operand} (address : Int) {evaluate : Evaluator}
    (blamable : Blamable (Encode.refusing allowed) (Operand.spanOf operands))
    (answers : ∀ operand ∈ operands, Encode.Answers allowed evaluate operand) :
    FailsOnly allowed (Codec.a64.encode mnemonic operands address evaluate) := by
  rw [Codec.encode, table_a64]
  split
  · exact failsOnly_error.mpr (blamable _ rfl)
  · refine Encode.firstEntry_failsOnly (fun _ absent => absurd absent.symm (Option.some_ne_none _))
      blamable (fun entry inside => ?_) fun form inside fits => ?_
    · obtain ⟨group, grouped, inside⟩ := OpcodeTable.exists_group_of_mem_entries inside
      rw [builtFrom_table.groups] at grouped
      rw [shapes_known _ grouped entry inside]
      exact OperandKind.exists_fitsAll _ operands
    · have member := decodeOrder_table ▸ (builtFrom_table.of_mem_entries inside).1
      exact Encode.formWord_failsOnly (sound form member) (checked member).roles (tells member)
        fits blamable answers

/-- An encoding is refused for the text of its operands, never for the table. -/
theorem encode_refusesOnly (mnemonic : String) {operands : List Operand} (address : Int)
    {evaluate : Evaluator} (reads : Encode.Reads tokens evaluate)
    (within : ∀ operand ∈ operands, operand.Within tokens) :
    Encode.RefusesOnly tokens (Codec.a64.encode mnemonic operands address evaluate) :=
  encode_failsOnly mnemonic address (blamable_concerns _) fun operand inside =>
    Encode.answers_of_within reads (within operand inside)

end InstructionSet

end A64Machine
