import A64Machine.Proofs.FormWord

/-!
# Encoded words are decoded

The ranges that an encoding checks and the conditions under which a form admits a word are written
apart from each other. They agree in all forms but those of the general bitfield moves, whose two
positions are only held to six bits: at half width such a word may have a position beyond the
register, and then no form admits it. Every other encoded word is decoded to the operation that it
was encoded for, by its own form or by a more general one that takes its words over.
-/

namespace A64Machine

namespace InstructionForm

/-- An operand whose kind admits every word: an immediate, or a register that sets one field. -/
def isFree (operand : OperandKind × List Char) : Bool :=
  operand.1 == .immediate || (operand.1 == .register && operand.2.length == 1)

/-- Whether what the operands of a form have set meets the condition on an operand of a form that
takes its words over. The complement of a half-word sets the same fields as a half-word. -/
def isMet (form : InstructionForm) (mnemonic : String) (operand : OperandKind × List Char) : Bool :=
  isFree operand ||
    (!yields mnemonic operand.1 &&
      (form.operands.contains operand ||
        (operand.1 == .wide && form.operands.contains (.invertedWide, operand.2))) &&
      (!(operand.1 == .extractLow) || form.operands.contains (.extractWidth, operand.2)))

/-- A form takes over the words of another that the other form refuses. -/
structure TakesOver (form other : InstructionForm) : Prop where
  /-- The forms have one operation. -/
  op : other.op = form.op
  /-- The literal bits of the first are among those of the second. -/
  literals : other.pattern.literalMask &&& form.pattern.literalMask = other.pattern.literalMask ∧
    form.pattern.literalValue &&& other.pattern.literalMask = other.pattern.literalValue
  /-- The width flag is at the same place. -/
  flagBits : other.flagBits = form.flagBits
  /-- The conditions on the operands are met. -/
  operands : ∀ operand ∈ other.operands, form.isMet other.mnemonic operand = true
  /-- An extraction has one position, which is an amount below the data size. -/
  position : form.op = .extract →
    (.shiftAmount, ['s']) ∈ form.operands ∧ (.shiftAmount, ['s']) ∈ other.operands ∧
      other.pattern.hasField 'r' = false

instance (form other : InstructionForm) : Decidable (form.TakesOver other) :=
  decidable_of_iff (_ ∧ _ ∧ _ ∧ _ ∧ _)
    ⟨fun ⟨op, literals, flagBits, operands, position⟩ =>
      ⟨op, literals, flagBits, operands, position⟩,
      fun ⟨op, literals, flagBits, operands, position⟩ =>
        ⟨op, literals, flagBits, operands, position⟩⟩

/-- A free operand is admitted when its fields can be read. -/
theorem admitsOperand_of_isFree {mnemonic : String} {fields : Fields} {size : Nat}
    {operand : OperandKind × List Char} (free : isFree operand = true)
    (readable : ∀ letter ∈ operand.1.conditionLetters operand.2,
      ∃ value, fields.lookup letter = some value) :
    admitsOperand mnemonic fields size operand.1 operand.2 = .ok true := by
  obtain ⟨kind, role⟩ := operand
  simp only [isFree, Bool.or_eq_true, Bool.and_eq_true, beq_iff_eq] at free
  rcases free with rfl | ⟨rfl, single⟩
  · rfl
  · obtain ⟨letter, rfl⟩ := List.length_eq_one_iff.mp single
    obtain ⟨value, known⟩ := readable letter List.mem_cons_self
    have same : ∀ other ∈ [letter], fields.lookup other = some value := by simpa using known
    rw [admitsOperand, mapM_read_eq_ok same]
    simp [bind, Except.bind, pure, Except.pure]

section TakesOver

variable {form other : InstructionForm} {draft : Draft} {word : Nat}

/-- A form that takes over the words of another accepts them. -/
theorem TakesOver.accepts (takeover : form.TakesOver other)
    (accepted : form.pattern.accepts word = true) : other.pattern.accepts word = true := by
  obtain ⟨within, agrees⟩ := takeover.literals
  rw [BitPattern.accepts, beq_iff_eq] at accepted ⊢
  calc word &&& other.pattern.literalMask
      = word &&& form.pattern.literalMask &&& other.pattern.literalMask := by
        rw [Nat.and_assoc, Nat.and_comm form.pattern.literalMask, within]
    _ = other.pattern.literalValue := by rw [accepted, agrees]

/-- The width flag of a drafted word agrees. -/
theorem widthAgrees_of_drafted (compiled : other.pattern.WellFormed)
    (drafted : Encode.Drafted form draft word) (same : other.flagBits = form.flagBits) :
    other.widthAgrees (other.pattern.decode word) = true := by
  have flags := drafted.flags
  rw [← same] at flags
  rw [widthAgrees_decode compiled]
  cases narrow : draft.wide != some false with
  | false => exact .inl fun bit inside => (flags bit inside).trans narrow
  | true => exact .inr fun bit inside => (flags bit inside).trans narrow

/-- The data size that a form with a width flag reads from a drafted word is that of the draft. -/
theorem dataSize_of_drafted (compiled : other.pattern.WellFormed)
    (drafted : Encode.Drafted form draft word) (same : other.flagBits = form.flagBits)
    (flag : 'z' ∈ other.pattern.template) :
    dataSize (other.isWide (other.pattern.decode word)) = draft.size := by
  have flags := drafted.flags
  rw [← same] at flags
  have read := @isWide_decode _ word compiled flag
  rw [Draft.size]
  by_cases narrow : draft.wide = some false
  · have clear : ∀ bit ∈ other.flagBits, word.testBit bit = false := fun bit inside => by
      rw [flags bit inside, narrow]
      rfl
    rw [read.mpr clear, if_pos narrow]
    rfl
  · obtain ⟨bit, inside⟩ : ∃ bit, bit ∈ other.flagBits := by
      obtain ⟨bit, here⟩ := List.getElem?_of_mem (List.mem_reverse.mpr flag)
      exact ⟨bit, BitPattern.mem_positionsOf.mpr here⟩
    have wide : other.isWide (other.pattern.decode word) = true := by
      rw [← Bool.not_eq_false, read]
      intro clear
      have set := (flags bit inside).symm.trans (clear bit inside)
      exact narrow (by simpa using set)
    rw [wide, if_neg narrow]
    rfl

end TakesOver

end InstructionForm

namespace InstructionSet

/-- The words of every form are taken over by the form itself or by another one. -/
theorem takesOver_self_or_other :
    ∀ form ∈ forms, form.TakesOver form ∨ ∃ other ∈ forms, form.TakesOver other := by
  decide +kernel

section TakesOver

open Encode (Drafted Settled)
open InstructionForm

variable {form other : InstructionForm} {draft : Draft} {word : Nat}

/-- Forms of one operation hold the same fields, the width flag apart. -/
theorem lookup_decode_eq (member : form ∈ forms) (member' : other ∈ forms)
    (op : other.op = form.op) {letter : Char} (notFlag : letter ≠ 'z')
    (field : form.pattern.hasField letter = true)
    (field' : other.pattern.hasField letter = true) :
    (other.pattern.decode word).lookup letter = (form.pattern.decode word).lookup letter := by
  rw [lookup_decode_baseForm member notFlag field, lookup_decode_baseForm member' notFlag field', op]

/-- An operand that is met comes from an operand of the drafted form with the same fields. -/
theorem exists_source {operand : OperandKind × List Char}
    (met : form.operands.contains operand = true ∨
      operand.1 = .wide ∧ form.operands.contains (.invertedWide, operand.2) = true)
    (drafted : Drafted form draft word) :
    Settled operand.1 operand.2 draft ∧ ∃ source ∈ form.operands,
      source.1.letters source.2 = operand.1.letters operand.2 ∧
      source.1.conditionLetters source.2 = operand.1.conditionLetters operand.2 := by
  rcases met with same | ⟨isWide, inverted⟩
  · have inside := List.contains_iff_mem.mp same
    exact ⟨drafted.settled operand inside, operand, inside, rfl, rfl⟩
  · obtain ⟨kind, role⟩ := operand
    obtain rfl : kind = .wide := isWide
    have inside := List.contains_iff_mem.mp inverted
    have settled := drafted.settled _ inside
    exact ⟨settled, _, inside, rfl, rfl⟩

/-- A form that takes over a word meets the conditions on its operands. -/
theorem admitsOperand_of_takesOver (member : form ∈ forms) (member' : other ∈ forms)
    (takeover : form.TakesOver other) (drafted : Drafted form draft word)
    {operand : OperandKind × List Char} (inside : operand ∈ other.operands) :
    admitsOperand other.mnemonic (other.pattern.decode word)
      (dataSize (other.isWide (other.pattern.decode word))) operand.1 operand.2 = .ok true := by
  have met := takeover.operands operand inside
  simp only [isMet, Bool.or_eq_true, Bool.and_eq_true, Bool.not_eq_true', beq_iff_eq,
    beq_eq_false_iff_ne] at met
  rcases met with free | ⟨⟨firm, source⟩, companion⟩
  · exact admitsOperand_of_isFree free fun letter spoken =>
      exists_lookup_decode ((sound other member').conditions operand inside letter spoken).1 word
  · obtain ⟨settled, source, origin, letters, conditions⟩ := exists_source source drafted
    refine admitsOperand_of_settled settled (fun letter spoken => ?_) (fun depends => ?_) firm
      fun extracts => ?_
    · have here : form.pattern.hasField letter = true ∧ letter ≠ 'z' := by
        rw [← letters, ← conditions] at spoken
        exact spoken.elim ((sound form member).letters source origin letter)
          ((sound form member).conditions source origin letter)
      have there : other.pattern.hasField letter = true :=
        (spoken.elim ((sound other member').letters operand inside letter)
          ((sound other member').conditions operand inside letter)).1
      obtain ⟨value, known⟩ := exists_lookup_decode there word
      refine ⟨value, known, drafted.held letter value here.2 ?_⟩
      rwa [← lookup_decode_eq member member' takeover.op here.2 here.1 there]
    · exact dataSize_of_drafted (checked member').wellFormed drafted takeover.flagBits
        ((sound other member').flag operand inside depends)
    · rcases companion with apart | both
      · exact absurd extracts apart
      · exact drafted.settled _ (List.contains_iff_mem.mp both)

end TakesOver

/-! ### Positions of bitfield moves -/

/-- The position in a bitfield move whose most significant bit is `top`: a field of six bits, or
one that is fixed, with a clear bit or the width flag at the top. -/
def isPlaced (form : InstructionForm) (letter : Char) (top : Nat) : Bool :=
  match form.pattern.positions? letter with
  | some positions => positions == [top, top - 1, top - 2, top - 3, top - 4, top - 5]
  | none => [some '0', some 'z'].contains (BitPattern.charAt? form.pattern.template top)

/-- Bitfield moves have their width at bit 31 and their positions at bits 21 and 15 downwards. The
ones with a fixed width have fixed positions below 32. -/
theorem placed_bitfield : ∀ form ∈ forms, form.op = .bitfield →
    BitPattern.charAt? form.pattern.template 31 = some 'z' ∧
        isPlaced form 'r' 21 = true ∧ isPlaced form 's' 15 = true ∨
      (BitPattern.charAt? form.pattern.template 31 = some '1' ∨
        BitPattern.charAt? form.pattern.template 21 = some '0' ∧
          BitPattern.charAt? form.pattern.template 15 = some '0') ∧
        form.pattern.hasField 'r' = false ∧ form.pattern.hasField 's' = false := by
  decide +kernel

section Bitfield

open InstructionForm

variable {form : InstructionForm} {word : Nat} {letter : Char} {top : Nat}

/-- A position of a bitfield move has six bits, and without its topmost bit it is below 32. -/
theorem position_lt (compiled : form.pattern.WellFormed)
    (accepted : form.pattern.accepts word = true) (placed : isPlaced form letter top = true) :
    ((form.pattern.decode word).lookup letter).getD 0 < 64 ∧
      ((∀ bit ∈ form.flagBits, word.testBit bit = false) →
        (((form.pattern.decode word).lookup letter).getD 0 < 32 ↔ word.testBit top = false)) := by
  rw [isPlaced] at placed
  rw [BitPattern.lookup_decode]
  split at placed
  · rename_i positions known
    obtain rfl := eq_of_beq placed
    rw [known, Option.map_some, Option.getD_some, BitPattern.gather_cons]
    have low := BitPattern.gather_lt word [top - 1, top - 2, top - 3, top - 4, top - 5]
    simp only [List.length_cons, List.length_nil] at low ⊢
    cases word.testBit top <;> simp <;> omega
  · rename_i fixed
    rw [fixed, Option.map_none, Option.getD_none]
    refine ⟨by decide, fun clear => ⟨fun _ => ?_, fun _ => by decide⟩⟩
    rcases List.mem_cons.mp (List.contains_iff_mem.mp placed) with zero | flag
    · exact compiled.accepts_iff.mp accepted top '0' zero rfl
    · exact clear top (BitPattern.mem_positionsOf.mpr (List.mem_singleton.mp flag))

/-- A word of a bitfield move goes beyond its width: it is narrow, but one of its positions is not
below 32. -/
def BeyondWidth (op : Operation) (word : Nat) : Prop :=
  op = .bitfield ∧ word.testBit 31 = false ∧ (word.testBit 21 = true ∨ word.testBit 15 = true)

instance (op : Operation) (word : Nat) : Decidable (BeyondWidth op word) :=
  inferInstanceAs (Decidable (_ ∧ _))

/-- The positions of a bitfield move fit its width unless the word goes beyond it. -/
theorem positionsFit_bitfield (member : form ∈ forms) (op : form.op = .bitfield)
    (accepted : form.pattern.accepts word = true)
    (agrees : form.widthAgrees (form.pattern.decode word) = true) :
    form.positionsFit (form.pattern.decode word)
        (dataSize (form.isWide (form.pattern.decode word))) = true ↔
      ¬BeyondWidth form.op word := by
  have compiled := (checked member).wellFormed
  have literal := compiled.accepts_iff.mp accepted
  simp only [positionsFit, op, beq_self_eq_true, Bool.true_or, Bool.not_true, Bool.false_or,
    List.all_cons, List.all_nil, Bool.and_true, Bool.and_eq_true, decide_eq_true_eq, BeyondWidth,
    true_and]
  rcases placed_bitfield form member op with ⟨flag, placedR, placedS⟩ | ⟨fixed, noR, noS⟩
  · obtain ⟨boundR, narrowR⟩ := position_lt compiled accepted placedR
    obtain ⟨boundS, narrowS⟩ := position_lt compiled accepted placedS
    have top : 31 ∈ form.flagBits := BitPattern.mem_positionsOf.mpr flag
    have present : 'z' ∈ form.pattern.template :=
      List.mem_reverse.mp (List.mem_of_getElem? flag)
    have read := @isWide_decode _ word compiled present
    rcases (widthAgrees_decode compiled).mp agrees with clear | set
    · rw [read.mpr clear, dataSize, if_neg (by decide), narrowR clear, narrowS clear, clear 31 top]
      simp
    · have wide : form.isWide (form.pattern.decode word) = true := by
        rw [← Bool.not_eq_false, read]
        intro clear
        exact absurd ((clear 31 top).symm.trans (set 31 top)) (by decide)
      rw [wide, dataSize, if_pos rfl, set 31 top]
      simp [boundR, boundS]
  · have positive : 0 < dataSize (form.isWide (form.pattern.decode word)) := by
      unfold dataSize
      split <;> decide
    rw [lookup_decode_of_absent noR, lookup_decode_of_absent noS]
    refine iff_of_true ⟨positive, positive⟩ ?_
    rintro ⟨narrow, beyond⟩
    rcases fixed with one | ⟨zeroR, zeroS⟩
    · exact absurd (narrow.symm.trans (literal 31 '1' one rfl)) (by decide)
    · rcases beyond with beyond | beyond
      · exact absurd (beyond.symm.trans (literal 21 '0' zeroR rfl)) (by decide)
      · exact absurd (beyond.symm.trans (literal 15 '0' zeroS rfl)) (by decide)

/-- A form that takes over a word of an extraction holds its position below the data size. -/
theorem positionsFit_extract {other : InstructionForm} {draft : Draft} (member : form ∈ forms)
    (member' : other ∈ forms) (takeover : form.TakesOver other)
    (drafted : Encode.Drafted form draft word) (op : form.op = .extract) :
    other.positionsFit (other.pattern.decode word)
      (dataSize (other.isWide (other.pattern.decode word))) = true := by
  obtain ⟨inside, inside', noR⟩ := takeover.position op
  obtain ⟨amount, set, _, bound⟩ := drafted.settled _ inside 's' rfl
  obtain ⟨field, notFlag⟩ := (sound form member).letters _ inside 's' List.mem_cons_self
  obtain ⟨field', _⟩ := (sound other member').letters _ inside' 's' List.mem_cons_self
  obtain ⟨value, known⟩ := exists_lookup_decode field' word
  have held := drafted.held 's' value notFlag
    (by rwa [← lookup_decode_eq member member' takeover.op notFlag field field'])
  obtain rfl : amount = value := Option.some.inj (set.symm.trans held)
  have size := dataSize_of_drafted (checked member').wellFormed drafted takeover.flagBits
    ((sound other member').flag _ inside' rfl)
  have fits : value < draft.size := by exact_mod_cast bound
  simp [positionsFit, known, lookup_decode_of_absent noR, size, fits, Nat.zero_lt_of_lt fits]

/-- A form that takes over a word admits it, unless the word goes beyond its width. -/
theorem admits_of_takesOver {other : InstructionForm} {draft : Draft} (member : form ∈ forms)
    (member' : other ∈ forms) (takeover : form.TakesOver other)
    (drafted : Encode.Drafted form draft word) (within : ¬BeyondWidth form.op word) :
    other.admits (other.pattern.decode word) = .ok true := by
  have compiled := (checked member').wellFormed
  have agrees := widthAgrees_of_drafted compiled drafted takeover.flagBits
  refine (admits_eq_true (sound other member')).mpr ⟨agrees, ?_,
    fun operand inside => admitsOperand_of_takesOver member member' takeover drafted inside⟩
  by_cases bitfield : form.op = .bitfield
  · rw [← takeover.op] at bitfield within
    exact (positionsFit_bitfield member' bitfield (takeover.accepts drafted.accepted) agrees).mpr within
  · by_cases extract : form.op = .extract
    · exact positionsFit_extract member member' takeover drafted extract
    · simp [positionsFit, takeover.op, bitfield, extract]

/-- Every form that accepts a word beyond its width refuses it. -/
theorem refuses_of_beyondWidth (member : form ∈ forms) (beyond : BeyondWidth form.op word) :
    OpcodeTable.Refuses admits word form := by
  intro accepted
  rw [admits]
  refine if_neg fun both => ?_
  obtain ⟨agrees, fits⟩ := Bool.and_eq_true_iff.mp both
  exact (positionsFit_bitfield member beyond.1 accepted agrees).mp fits beyond

/-- Whether an operand of a kind keeps a position below the data size. The width of an inserted
bitfield only does so together with its lowest bit. -/
def keepsBelow (letter : Char) (operand : OperandKind × List Char) : Bool :=
  match operand.1 with
  | .shiftAmount => operand.2 == [letter]
  | .leftShift => letter == 'r' || letter == 's'
  | .insertLow | .extractLow => letter == 'r'
  | .insertWidth | .extractWidth => letter == 's'
  | _ => false

/-- A bitfield move is a general one, or its operands keep the positions that it has below the data
size. -/
theorem general_or_keepsBelow : ∀ form ∈ forms, form.op = .bitfield →
    form.operands = [reg 'd', reg 'n'] ++ rawBitfield ∨
      (∀ operand ∈ form.operands, operand.1 = .insertWidth → (.insertLow, own) ∈ form.operands) ∧
      ∀ letter ∈ ['r', 's'], form.pattern.hasField letter = false ∨
        ∃ operand ∈ form.operands, keepsBelow letter operand = true := by
  decide +kernel

/-- An operand that keeps a position below the data size has set it to an amount below. -/
theorem lookup_of_keepsBelow {draft : Draft} {letter : Char} {operand : OperandKind × List Char}
    (settled : Encode.Settled operand.1 operand.2 draft) (keeps : keepsBelow letter operand = true)
    (lowest : operand.1 = .insertWidth → 0 ≤ draft.lowest) :
    operand.1.dependsOnSize = true ∧
      ∃ amount, draft.values.lookup letter = some amount ∧ amount < draft.size := by
  obtain ⟨kind, role⟩ := operand
  have positive : (0 : Int) < draft.size := by
    rcases size_draft draft with size | size <;> omega
  cases kind with
  | shiftAmount =>
    obtain ⟨amount, set, _, bound⟩ := settled letter (eq_of_beq keeps)
    exact ⟨rfl, amount, set, bound⟩
  | leftShift =>
    obtain ⟨amount, least, _, setR, setS⟩ := settled
    rcases Bool.or_eq_true_iff.mp keeps with same | same <;> obtain rfl := eq_of_beq same
    · exact ⟨rfl, _, setR, Int.emod_lt_of_pos _ positive⟩
    · exact ⟨rfl, _, setS, by omega⟩
  | insertLow =>
    obtain rfl := eq_of_beq keeps
    exact ⟨rfl, _, settled.1, Int.emod_lt_of_pos _ positive⟩
  | extractLow =>
    obtain rfl := eq_of_beq keeps
    exact ⟨rfl, _, settled.1, settled.2.2⟩
  | insertWidth =>
    obtain rfl := eq_of_beq keeps
    obtain ⟨width, set, _, bound⟩ := settled
    have least := lowest rfl
    exact ⟨rfl, _, set, by omega⟩
  | extractWidth =>
    obtain rfl := eq_of_beq keeps
    obtain ⟨width, set, _, bound⟩ := settled
    exact ⟨rfl, _, set, by omega⟩
  | register | wideRegister | halfRegister | extended | shifted | arithmeticShifted | immediate
  | arithmeticImmediate | bitmask | wide | invertedWide | branchTarget | byteTarget | pageTarget
  | bitNumber | scaledAddress | unscaledAddress | preIndexed | postIndexed | registerIndexed =>
    contradiction

/-- Only a general bitfield move is encoded to a word beyond its width. -/
theorem operands_of_beyondWidth {form : InstructionForm} {draft : Draft} {word : Nat}
    (member : form ∈ forms) (drafted : Encode.Drafted form draft word)
    (beyond : BeyondWidth form.op word) : form.operands = [reg 'd', reg 'n'] ++ rawBitfield := by
  rcases general_or_keepsBelow form member beyond.1 with general | ⟨inserted, kept⟩
  · exact general
  · have compiled := (checked member).wellFormed
    have below : ∀ letter ∈ ['r', 's'], ((form.pattern.decode word).lookup letter).getD 0 <
        dataSize (form.isWide (form.pattern.decode word)) := by
      intro letter position
      cases known : (form.pattern.decode word).lookup letter with
      | none =>
        unfold dataSize
        split <;> decide
      | some value =>
        rcases kept letter position with absent | ⟨operand, inside, keeps⟩
        · rw [lookup_decode_of_absent absent] at known
          contradiction
        · have notFlag : letter ≠ 'z' := by
            rintro rfl
            contradiction
          have held := drafted.held letter value notFlag known
          obtain ⟨depends, amount, set, bound⟩ :=
            lookup_of_keepsBelow (drafted.settled operand inside) keeps fun inserts =>
              (drafted.settled _ (inserted operand inside inserts)).2.1
          obtain rfl : amount = value := Option.some.inj (set.symm.trans held)
          rw [dataSize_of_drafted compiled drafted rfl
            ((sound form member).flag operand inside depends)]
          exact Int.ofNat_lt.mp bound
    have fits : form.positionsFit (form.pattern.decode word)
        (dataSize (form.isWide (form.pattern.decode word))) = true := by
      simpa [positionsFit, beyond.1] using below
    exact absurd beyond ((positionsFit_bitfield member beyond.1 drafted.accepted
      (widthAgrees_of_drafted compiled drafted rfl)).mp fits)

end Bitfield

/-- What the entries of a mnemonic make of operands is what the mnemonic encodes. -/
theorem encode_of_firstEntry {mnemonic : String} {operands : List Operand} {address : Int}
    {evaluate : Evaluator} {word : Nat}
    (taken : (Encode.firstEntry mnemonic address evaluate operands none
      (entriesOf mnemonic)).toOption = some word) :
    Codec.a64.encode mnemonic operands address evaluate = .ok word := by
  rw [toOption_eq_some, ← entries_a64] at taken
  exact Codec.encode_eq_ok.mpr (Encode.firstEntry_eq_ok.mp taken)

/-- What the entries of a mnemonic make of a text is what is encoded of its operands. -/
theorem exists_encode_of_parse {mnemonic text : String} {offset address : Int}
    {evaluate : Evaluator} {word : Nat}
    (taken : (Operand.parse text offset).toOption.bind (fun operands =>
      (Encode.firstEntry mnemonic address evaluate operands none
        (entriesOf mnemonic)).toOption) = some word) :
    ∃ operands, Operand.parse text offset = .ok operands ∧
      Codec.a64.encode mnemonic operands address evaluate = .ok word := by
  obtain ⟨operands, read, made⟩ := Option.bind_eq_some_iff.mp taken
  exact ⟨operands, toOption_eq_some.mp read, encode_of_firstEntry made⟩

/-- The word of an instruction comes from a form with its mnemonic: the first that takes the
operands. -/
theorem encode_eq_ok {mnemonic : String} {operands : List Operand} {address : Int}
    {evaluate : Evaluator} {word : Nat}
    (encoded : Codec.a64.encode mnemonic operands address evaluate = .ok word) :
    ∃ form ∈ forms, form.mnemonic = mnemonic ∧
      Encode.Takes address evaluate operands (table.entries mnemonic) form word := by
  obtain ⟨form, taken⟩ := Codec.encode_eq_ok.mp encoded
  rw [table_a64] at taken
  obtain ⟨earlier, later, entries, _⟩ := id taken
  have inside : .implemented form ∈ table.entries mnemonic := by
    rw [entries]
    simp
  obtain ⟨member, named⟩ := builtFrom_table.of_mem_entries inside
  exact ⟨form, decodeOrder_table ▸ member, named, taken⟩

/-- Whatever is encoded is a word of 32 bits of the form that took the operands. It is decoded to
the operation of that form, unless it is a general bitfield move that goes beyond its width: such a
word has no instruction. -/
theorem decode_of_encode {mnemonic : String} {operands : List Operand} {address : Int}
    {evaluate : Evaluator} {word : Nat}
    (encoded : Codec.a64.encode mnemonic operands address evaluate = .ok word) :
    ∃ form ∈ table.decodeOrder, form.mnemonic = mnemonic ∧
      Encode.Takes address evaluate operands (table.entries mnemonic) form word ∧
      word < 2 ^ 32 ∧ form.pattern.accepts word = true ∧
      (¬BeyondWidth form.op word → ∃ instruction,
        Codec.a64.decode word address = .ok (some instruction) ∧ instruction.form.op = form.op) ∧
      (BeyondWidth form.op word → Codec.a64.decode word address = .ok none ∧
        form.operands = [reg 'd', reg 'n'] ++ rawBitfield) := by
  obtain ⟨form, member, named, taken⟩ := encode_eq_ok encoded
  obtain ⟨earlier, later, _, _, fits, made⟩ := id taken
  have check := checked member
  obtain ⟨draft, drafted⟩ :=
    Encode.formWord_spec (sound form member) check.wellFormed check.bits check.roles fits made
  have bits : Instruction.wordBits word = word := Bits.wrap_of_lt drafted.bounded
  rw [decodeOrder_table]
  refine ⟨form, member, named, taken, drafted.bounded, drafted.accepted, fun within => ?_,
    fun beyond => ⟨?_, ?_⟩⟩
  · obtain ⟨other, member', takeover⟩ : ∃ other ∈ forms, form.TakesOver other :=
      (takesOver_self_or_other form member).elim (fun self => ⟨form, member, self⟩) id
    obtain ⟨first, isFirst⟩ := OpcodeTable.exists_isFirst
      (fun other inside => InstructionForm.admits_eq_ok (sound other inside)) member'
      (takeover.accepts drafted.accepted) (admits_of_takesOver member member' takeover drafted within)
    obtain ⟨before, behind, split, _, accepted, _⟩ := id isFirst
    rw [← bits, ← decodeOrder_table, ← table_a64] at isFirst
    obtain ⟨instruction, decoded, same⟩ := decode_of_isFirst address isFirst
    refine ⟨instruction, decoded, ?_⟩
    rw [same]
    exact op_eq_of_accepts (split ▸ by simp) accepted member drafted.accepted
  · refine decode_eq_none address fun other member' => ?_
    rw [table_a64, decodeOrder_table] at member'
    rw [bits]
    intro accepted
    have op := op_eq_of_accepts member' accepted member drafted.accepted
    exact refuses_of_beyondWidth member' (op ▸ beyond) accepted
  · exact operands_of_beyondWidth member drafted beyond

/-- A bitfield move of a half register from its bit 40 is encoded, but its word has no
instruction. -/
theorem undecodable_bitfield_move :
    ∃ operands, Operand.parse "w0, w1, #40, #3" 0 = .ok operands ∧
      Codec.a64.encode "sbfm" operands 0 (Codec.addressOnly 0) = .ok 0x13280c20 ∧
      Codec.a64.decode 0x13280c20 0 = .ok none := by
  obtain ⟨operands, parsed, encoded⟩ :=
    @exists_encode_of_parse "sbfm" "w0, w1, #40, #3" 0 0 (Codec.addressOnly 0) 0x13280c20
      (by decide +kernel)
  obtain ⟨form, member, _, _, _, accepted, _, undecodable⟩ := decode_of_encode encoded
  rw [decodeOrder_table] at member
  obtain ⟨executable, wider⟩ := accepts_baseForm member
  have op : form.op = .bitfield :=
    op_eq_of_accepts_baseForm executable (by decide) (wider _ accepted) (by decide)
  exact ⟨operands, parsed, encoded, (undecodable ⟨op, by decide, .inl (by decide)⟩).1⟩

end InstructionSet

end A64Machine
