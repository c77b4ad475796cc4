import A64Machine.Proofs.AliasForms
import A64Machine.Proofs.FieldBounds
import A64Machine.Proofs.NumberTokens
import Mathlib.Data.List.Forall2

/-!
# How an encoding ends

The encoding of a text ends with a word, with a complaint, or with a number of the text that has no
value, and in no other way. What it looks up for an operand without asking, such as the name of a
register, the code of a shift or the second part of an address, is there for all operands that fit and
that were read from a text.
-/

namespace A64Machine

/-- What the encoding of an operand looks up: names of registers, codes of their modifiers, and parts
of an address. -/
inductive OperandKind.Meets : OperandKind → Operand → Prop
  /-- A plain register has a name. -/
  | plain {kind : OperandKind} {given : RegisterOperand}
    (isPlain : kind ∈ [.register, .wideRegister, .halfRegister])
    (named : Register.ofName? given.name = some given.register) : kind.Meets (.register given)
  /-- An extended register has an extension, which has a code. -/
  | extended {given : RegisterOperand} {modifier : Modifier} {code : Nat}
    (named : Register.ofName? given.name = some given.register)
    (written : given.modifier = some modifier) (coded : modifier.extendCode? = some code) :
    OperandKind.extended.Meets (.register given)
  /-- A shift has a code if there is one. -/
  | shifted {kind : OperandKind} {given : RegisterOperand}
    (isShifted : kind ∈ [.shifted, .arithmeticShifted])
    (named : Register.ofName? given.name = some given.register)
    (coded : ∀ modifier, given.modifier = some modifier → modifier.shiftCode?.isSome = true) :
    kind.Meets (.register given)
  /-- An immediate has a value to evaluate. -/
  | immediate {kind : OperandKind} {given : ImmediateOperand}
    (isImmediate : kind.isImmediate = true) : kind.Meets (.immediate given)
  /-- Behind the base of an address with a distance there are immediates only. -/
  | distance {kind : OperandKind} {given : AddressOperand} {base : RegisterOperand}
    {rest : List AddressPart} (isDistance : kind ∈ [.scaledAddress, .unscaledAddress, .preIndexed])
    (parts : given.parts = .register base :: rest)
    (named : Register.ofName? base.name = some base.register)
    (distances : ∀ part ∈ rest, ∃ operand, part = .immediate operand) : kind.Meets (.address given)
  /-- A post-indexed address has an amount. -/
  | postIndexed {given : AddressOperand} {base : RegisterOperand} {amount : Expression}
    (parts : given.parts = [.register base])
    (named : Register.ofName? base.name = some base.register)
    (written : given.postIndex = some amount) : OperandKind.postIndexed.Meets (.address given)
  /-- Behind the base of an address with an index there is a register, whose modifier has a code. -/
  | registerIndexed {given : AddressOperand} {base index : RegisterOperand} {code : Nat}
    (parts : given.parts = [.register base, .register index])
    (named : Register.ofName? base.name = some base.register)
    (indexNamed : Register.ofName? index.name = some index.register)
    (coded : Modifier.indexCode? index.modifier = some code) :
    OperandKind.registerIndexed.Meets (.address given)

namespace OperandKind

variable {kind : OperandKind}

/-- A register that fits its kind has what is looked up. -/
theorem meets_of_fitsRegister {given : RegisterOperand} (regular : given.Regular)
    (fits : kind.fitsRegister given = true) : kind.Meets (.register given) := by
  have named := regular.named
  cases kind with
  | register | wideRegister | halfRegister => exact .plain (by decide) named
  | extended =>
    obtain ⟨modifier, written, coded⟩ := (Option.any_eq_true _ _).mp fits
    obtain ⟨code, coded⟩ := Option.isSome_iff_exists.mp coded
    exact .extended named written coded
  | shifted =>
    refine .shifted (by decide) named fun modifier written => ?_
    simpa [fitsRegister, written] using fits
  | arithmeticShifted =>
    refine .shifted (by decide) named fun modifier written => ?_
    simp only [fitsRegister, written, Option.all_some] at fits
    obtain ⟨code, coded, _⟩ := (Option.any_eq_true _ _).mp fits
    exact Option.isSome_iff_exists.mpr ⟨code, coded⟩
  | _ => contradiction

/-- An address that fits its kind has what is looked up. -/
theorem meets_of_fitsAddress {given : AddressOperand} (regular : ∀ part ∈ given.parts, part.Regular)
    (based : (base? given).any isPlain = true) (fits : kind.fitsAddress given = true) :
    kind.Meets (.address given) := by
  obtain ⟨base, rest, parts⟩ := Encode.exists_base based
  rw [parts] at regular
  obtain ⟨baseRegular, others⟩ := List.forall_mem_cons.mp regular
  have named : Register.ofName? base.name = some base.register := baseRegular.named
  have distances (plain : rest.all isPlainImmediate = true) :
      ∀ part ∈ rest, ∃ operand, part = .immediate operand := by
    intro part inside
    have plain := List.all_eq_true.mp plain part inside
    cases part with
    | register operand => contradiction
    | immediate operand => exact ⟨operand, rfl⟩
  cases kind with
  | scaledAddress | unscaledAddress | preIndexed =>
    simp only [fitsAddress, parts, List.tail_cons, Bool.and_eq_true] at fits
    exact .distance (by decide) parts named (distances fits.2)
  | postIndexed =>
    simp only [fitsAddress, parts, List.tail_cons, Bool.and_eq_true, List.isEmpty_iff] at fits
    obtain ⟨⟨_, written⟩, rfl⟩ := fits
    obtain ⟨amount, written⟩ := Option.isSome_iff_exists.mp written
    exact .postIndexed parts named written
  | registerIndexed =>
    obtain ⟨index, rfl⟩ := Encode.exists_indexRegister parts fits
    have indexRegular : index.Regular := others _ List.mem_cons_self
    simp only [fitsAddress, parts, List.tail_cons, Bool.and_eq_true, List.all_cons, isIndex] at fits
    obtain ⟨code, coded⟩ := Option.isSome_iff_exists.mp fits.2.1
    exact .registerIndexed parts named indexRegular.named coded
  | _ => contradiction

/-- An operand that was read and fits its kind has what is looked up. -/
theorem meets_of_fits {given : Operand} (regular : given.Regular)
    (fit : fits kind.code given = .ok true) : kind.Meets given := by
  unfold fits at fit
  rw [ofChar?_code] at fit
  cases given with
  | register given => exact meets_of_fitsRegister regular (Except.ok.inj fit)
  | immediate given => exact .immediate (Bool.and_eq_true_iff.mp (Except.ok.inj fit)).1
  | address given =>
    have fits := Bool.and_eq_true_iff.mp (Except.ok.inj fit)
    exact meets_of_fitsAddress regular fits.1 fits.2

/-- Operands that were read and fit their kinds have what is looked up. -/
theorem meets_of_fitsAll {operands : List (OperandKind × List Char)} {list : List Operand}
    (regular : ∀ given ∈ list, given.Regular)
    (fits : fitsAll (operands.map fun operand => operand.1.code) list = .ok true) :
    List.Forall₂ (fun operand given => operand.1.Meets given) operands list := by
  induction operands generalizing list with
  | nil =>
    obtain rfl := List.length_eq_zero_iff.mp (fitsAll_eq_true.mp fits).1.symm
    exact .nil
  | cons operand operands ih =>
    cases list with
    | nil => exact absurd (fitsAll_eq_true.mp fits).1 (Nat.succ_ne_zero _)
    | cons given list =>
      obtain ⟨regularHere, regular⟩ := List.forall_mem_cons.mp regular
      obtain ⟨fitsHere, fits⟩ := fitsAll_cons.mp fits
      exact .cons (meets_of_fits regularHere fitsHere) (ih regular fits)

end OperandKind

/-- The word of an instruction whose operands are read from a text, which begins at a position of its
line. Expressions may name symbols and the address of the instruction. -/
def Codec.encodeText (codec : Codec) (mnemonic text : String) (offset address : Int)
    (symbols : SymbolValues) : Except EncodeFailure Nat := do
  let operands ← (Operand.parse text offset).mapError fun error => .refused (.assembly error)
  codec.encode mnemonic operands address (Expression.evaluate symbols address)

/-- What is encoded of a text are the operands that were read. -/
theorem Codec.encodeText_of_parse (codec : Codec) (mnemonic : String) {text : String} {offset : Int}
    (address : Int) (symbols : SymbolValues) {operands : List Operand}
    (parsed : Operand.parse text offset = .ok operands) :
    codec.encodeText mnemonic text offset address symbols =
      codec.encode mnemonic operands address (Expression.evaluate symbols address) := by
  rw [Codec.encodeText, parsed]
  rfl

/-- The ways in which the encoding of a text may end. -/
inductive Encode.Ends (text : String) (offset : Int) : Except EncodeFailure Nat → Prop
  /-- A word of 32 bits comes out. -/
  | word {word : Nat} (below : word < 2 ^ 32) : Ends text offset (.ok word)
  /-- The source is complained about. -/
  | complaint (error : AssemblyError) : Ends text offset (.error (.refused (.assembly error)))
  /-- A number of the text is not read, because it has no value. -/
  | numeral {groups : List (List Token)} {token : Token} {bad : Text.BadNumeral}
    (cut : Token.groups text offset = .ok groups) (inside : token ∈ groups.flatten)
    (isNumber : token.kind = .number) (unread : Text.readLiteral token.text = .error bad)
    (noValue : Text.HasNoValue token.text bad) :
    Ends text offset (.error (.refused (.numeral bad)))

namespace InstructionSet

/-- An encoding of operands that were read ends with a word, with a complaint, or with a number that has
no value. -/
theorem ends_encodeText (mnemonic text : String) (offset address : Int) (symbols : SymbolValues) :
    Encode.Ends text offset (Codec.a64.encodeText mnemonic text offset address symbols) := by
  cases parsed : Operand.parse text offset with
  | error error =>
    rw [Codec.encodeText, parsed]
    exact .complaint error
  | ok operands =>
    rw [Codec.encodeText_of_parse _ _ _ _ parsed]
    obtain ⟨groups, cut, read⟩ := bind_eq_ok.mp parsed
    have refuses := encode_refusesOnly mnemonic address
      (fun expression within => Expression.evaluate_failsOnly symbols address within)
      (Operand.within_ofGroups read)
    cases encoded : Codec.a64.encode mnemonic operands address
        (Expression.evaluate symbols address) with
    | ok word =>
      obtain ⟨_, _, _, _, below, _⟩ := decode_of_encode encoded
      exact .word below
    | error failure =>
      have concerns := refuses failure encoded
      rcases failure with (error | bad) | defect
      · exact .complaint error
      · obtain ⟨token, inside, isNumber, unread⟩ := concerns
        have number := Token.isNumber_of_groups cut token inside isNumber
        exact .numeral cut inside isNumber unread ((Text.readLiteral_eq_error number).mp unread)
      · exact concerns.elim

/-- The encoding of a text ends with a word of 32 bits, with a complaint, or with a number of the text
that has no value. Where the operands of the text fit an entry, the encoding finds all that it looks
up for them; and once all of them are encoded, every field of the pattern has a value that fits. -/
theorem encodeText_outcome (mnemonic text : String) (offset address : Int) (symbols : SymbolValues) :
    Encode.Ends text offset (Codec.a64.encodeText mnemonic text offset address symbols) ∧
      ∀ operands, Operand.parse text offset = .ok operands →
        ∀ name form, .implemented form ∈ table.entries name →
          OperandKind.fitsAll form.shape operands = .ok true →
            List.Forall₂ (fun operand given => operand.1.Meets given) form.operands operands ∧
              ∀ evaluate draft,
                Encode.allOperands form address evaluate .empty (form.shape.zip form.roles)
                    operands = .ok draft →
                  ∃ word < 2 ^ 32, form.pattern.encode (fun letter =>
                    (Encode.withFlag form draft).values.lookup letter) = .ok word := by
  refine ⟨ends_encodeText mnemonic text offset address symbols,
    fun operands parsed name form inside fits => ?_⟩
  have regular := Operand.regular_of_parse parsed
  have member := decodeOrder_table ▸ (builtFrom_table.of_mem_entries inside).1
  have check := checked member
  have sound := sound form member
  refine ⟨OperandKind.meets_of_fitsAll regular (sound.codes check.roles ▸ fits),
    fun evaluate draft gathered => ?_⟩
  obtain ⟨word, encoded⟩ := exists_formWord_of_allOperands member regular fits gathered
  obtain ⟨draft', gathered', drafted⟩ := Encode.drafted_of_formWord sound check.wellFormed check.bits
    check.roles fits encoded
  obtain ⟨draft'', gathered'', made⟩ := Encode.formWord_eq_ok.mp encoded
  obtain rfl := Except.ok.inj (gathered.symm.trans gathered'')
  exact ⟨word, drafted.bounded, made⟩

/-- The operands of `add x0, x1, #5` fit a form, all of them are encoded, and a word comes out. -/
theorem encodeText_outcome_add :
    ∃ operands form draft, Operand.parse "x0, x1, #5" 0 = .ok operands ∧
      .implemented form ∈ table.entries "add" ∧
      Encode.allOperands form 0 (Codec.addressOnly 0) .empty (form.shape.zip form.roles) operands =
        .ok draft ∧
      ∃ word < 2 ^ 32, form.pattern.encode (fun letter =>
        (Encode.withFlag form draft).values.lookup letter) = .ok word := by
  have parsed : (Operand.parse "x0, x1, #5" 0).toOption = some
      [.register ⟨"x0", ⟨0, true⟩, none, none, ⟨0, 2⟩⟩,
        .register ⟨"x1", ⟨1, true⟩, none, none, ⟨4, 6⟩⟩,
        .immediate ⟨⟨[⟨.number, "5", ⟨9, 10⟩⟩], ⟨9, 10⟩⟩, none, none, ⟨8, 10⟩⟩] := by
    decide +kernel
  have parsed := toOption_eq_some.mp parsed
  have assembled : (Encode.firstEntry "add" 0 (Codec.addressOnly 0)
      [.register ⟨"x0", ⟨0, true⟩, none, none, ⟨0, 2⟩⟩,
        .register ⟨"x1", ⟨1, true⟩, none, none, ⟨4, 6⟩⟩,
        .immediate ⟨⟨[⟨.number, "5", ⟨9, 10⟩⟩], ⟨9, 10⟩⟩, none, none, ⟨8, 10⟩⟩] none
      (entriesOf "add")).toOption = some 0x91001420 := by
    decide +kernel
  obtain ⟨form, earlier, later, entries, _, fits, made⟩ :=
    Encode.firstEntry_eq_ok.mp (toOption_eq_some.mp assembled)
  have inside : .implemented form ∈ table.entries "add" := by
    rw [← table_a64, entries_a64, entries]
    simp
  obtain ⟨draft, gathered, _⟩ := Encode.formWord_eq_ok.mp made
  obtain ⟨_, fitting⟩ := encodeText_outcome "add" "x0, x1, #5" 0 0 fun _ => none
  exact ⟨_, form, draft, parsed, inside, gathered,
    (fitting _ parsed "add" form inside fits).2 _ draft gathered⟩

end InstructionSet

end A64Machine
