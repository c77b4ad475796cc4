import A64Machine.Decode
import A64Machine.Proofs.OpcodeTable

/-!
# The forms of the instruction set

The definition of the instruction set passes the checks of a table, so its forms are known line by
line. Two further facts about its templates are not among the checks: the base forms of different
operations share no word, and every form keeps the fields of its base form where they are. So it
does not matter for the execution which of several accepting forms a word belongs to: they name
the same operation and the same field values.
-/

namespace A64Machine.InstructionSet

open BitPattern (ofTemplate)
open OpcodeTable

/-- The definition of the instruction set passes all checks of a table. -/
theorem isOk_build : (OpcodeTable.build basis definitions).isOk = true := by decide +kernel

/-- The table is the one that its definition describes. -/
theorem builtFrom_table : BuiltFrom basis definitions table := by
  refine builtFrom_of_build ?_
  have passed := isOk_build
  unfold table
  cases built : OpcodeTable.build basis definitions with
  | error failure => rw [built] at passed; contradiction
  | ok table => rfl

/-- All instruction forms, in the order in which a word is compared with them. -/
def forms : List InstructionForm :=
  ((groupsFrom 0 definitions).flatMap Prod.snd).filterMap OpcodeEntry.form?

/-- The table compares a word with the described forms. -/
theorem decodeOrder_table : table.decodeOrder = forms := by
  rw [decodeOrder, builtFrom_table.groups, forms]

/-- What the checks of the table guarantee of a form. -/
theorem checked {form : InstructionForm} (member : form ∈ forms) :
    Checked basis table.baseForms form :=
  builtFrom_table.checked form (decodeOrder_table ▸ member)

/-- No template of a base form has separators. -/
theorem plain_baseForm : ∀ op ∈ Operation.executable, plain (baseForm op) = baseForm op := by
  decide

/-- The base form of an operation that can be executed; the other operations have none. -/
theorem baseForm?_table (op : Operation) :
    table.baseForm? op =
      if op ∈ Operation.executable then some (ofTemplate (baseForm op)) else none := by
  have bases : table.baseForms =
      Operation.executable.map fun op => (op, ofTemplate (plain (baseForm op))) := by
    rw [builtFrom_table.baseForms, basis, List.map_map]
    rfl
  rw [baseForm?, bases, BitPattern.lookup_map_key]
  split
  · rename_i executable
    rw [plain_baseForm op executable]
  · rfl

/-- The base form of a form's operation accepts all words of the form. -/
theorem accepts_baseForm {form : InstructionForm} (member : form ∈ forms) :
    form.op ∈ Operation.executable ∧
      ∀ word, form.pattern.accepts word = true →
        (ofTemplate (baseForm form.op)).accepts word = true := by
  obtain ⟨base, known, wider⟩ := (checked member).accepts_base
  rw [← baseForm?, baseForm?_table] at known
  split at known
  · rename_i executable
    obtain rfl := Option.some.inj known
    exact ⟨executable, wider⟩
  · contradiction

/-- Two base forms of different operations differ in a literal bit that both have. -/
theorem baseForms_conflict :
    ∀ op ∈ Operation.executable, ∀ other ∈ Operation.executable,
      op = other ∨
        (ofTemplate (baseForm op)).literalValue &&& (ofTemplate (baseForm other)).literalMask ≠
          (ofTemplate (baseForm other)).literalValue &&& (ofTemplate (baseForm op)).literalMask := by
  decide

/-- No word belongs to base forms of different operations. -/
theorem op_eq_of_accepts_baseForm {op other : Operation} (executable : op ∈ Operation.executable)
    (executable' : other ∈ Operation.executable) {word : Nat}
    (accepted : (ofTemplate (baseForm op)).accepts word = true)
    (accepted' : (ofTemplate (baseForm other)).accepts word = true) : op = other := by
  rcases baseForms_conflict op executable other executable' with same | apart
  · exact same
  · rw [BitPattern.accepts, beq_iff_eq] at accepted accepted'
    refine absurd ?_ apart
    rw [← accepted, ← accepted', Nat.and_assoc, Nat.and_assoc,
      Nat.and_comm (ofTemplate (baseForm op)).literalMask]

/-- A form has each field where its base form has it. Only the width flag may stand in for bits
of other fields. -/
theorem positionsOf_baseForm :
    ∀ form ∈ forms, ∀ field ∈ form.pattern.fields, field.1 ≠ 'z' →
      field.1 ∈ baseForm form.op ∧
        field.2 = BitPattern.positionsOf field.1 (baseForm form.op) := by
  decide +kernel

/-- The fields of a form other than the width flag are fields of its base form. -/
theorem positions?_baseForm {form : InstructionForm} (member : form ∈ forms) {letter : Char}
    (notFlag : letter ≠ 'z') (field : form.pattern.hasField letter = true) :
    form.pattern.positions? letter = (ofTemplate (baseForm form.op)).positions? letter := by
  obtain ⟨positions, known⟩ := Option.isSome_iff_exists.mp field
  have entry := mem_of_lookup known
  obtain ⟨present, same⟩ := positionsOf_baseForm form member _ entry notFlag
  have symbolic : BitPattern.isLiteral letter = false := by
    rw [(checked member).wellFormed] at entry
    exact (BitPattern.mem_fieldsOf.mp entry).2.1
  rw [known, BitPattern.positions?_ofTemplate, if_pos ⟨present, symbolic⟩]
  exact congrArg some same

/-- All forms that accept a word have one operation. -/
theorem op_eq_of_accepts {word : Nat} {form other : InstructionForm} (member : form ∈ forms)
    (accepted : form.pattern.accepts word = true) (member' : other ∈ forms)
    (accepted' : other.pattern.accepts word = true) : form.op = other.op := by
  obtain ⟨executable, wider⟩ := accepts_baseForm member
  obtain ⟨executable', wider'⟩ := accepts_baseForm member'
  exact op_eq_of_accepts_baseForm executable executable' (wider word accepted)
    (wider' word accepted')

/-- A form holds the fields of its base form, the width flag apart. -/
theorem lookup_decode_baseForm {form : InstructionForm} (member : form ∈ forms) {letter : Char}
    (notFlag : letter ≠ 'z') (field : form.pattern.hasField letter = true) (word : Nat) :
    (form.pattern.decode word).lookup letter =
      ((ofTemplate (baseForm form.op)).decode word).lookup letter := by
  rw [BitPattern.lookup_decode, BitPattern.lookup_decode, positions?_baseForm member notFlag field]

/-- What a decoded word consists of. -/
theorem decode_eq_some {codec : Codec} {word address : Int} {instruction : Instruction}
    (decoded : codec.decode word address = .ok (some instruction)) :
    IsFirst InstructionForm.admits (Instruction.wordBits word) codec.table.decodeOrder
        instruction.form ∧
      instruction.address = address ∧ instruction.word = word ∧
      instruction.fields = ((codec.table.baseForm? instruction.form.op).map fun base =>
        base.decode (Instruction.wordBits word)).getD [] ∧
      instruction.bound = codec.bound.contains instruction.form.op := by
  rw [Codec.decode] at decoded
  obtain ⟨found, resolved, decoded⟩ := bind_eq_ok.mp decoded
  cases found with
  | none => exact absurd (Except.ok.inj decoded) (by simp)
  | some found =>
    obtain ⟨form, fields⟩ := found
    obtain rfl := Option.some.inj (Except.ok.inj decoded)
    exact ⟨(firstForm_eq_some.mp resolved).1, rfl, rfl, rfl, rfl⟩

/-- A word that a form takes first is decoded to that form. -/
theorem decode_of_isFirst {codec : Codec} {word : Int} {form : InstructionForm} (address : Int)
    (isFirst : IsFirst InstructionForm.admits (Instruction.wordBits word) codec.table.decodeOrder
      form) :
    ∃ instruction, codec.decode word address = .ok (some instruction) ∧ instruction.form = form := by
  rw [Codec.decode, resolve, firstForm_eq_some.mpr ⟨isFirst, rfl⟩]
  exact ⟨_, rfl, rfl⟩

/-- A word that no form takes has no instruction. -/
theorem decode_eq_none {codec : Codec} {word : Int} (address : Int)
    (refused : ∀ form ∈ codec.table.decodeOrder,
      Refuses InstructionForm.admits (Instruction.wordBits word) form) :
    codec.decode word address = .ok none := by
  rw [Codec.decode, resolve, firstForm_eq_none refused]
  rfl

/-- The codec of the machine reads the table of the instruction set. -/
theorem table_a64 : Codec.a64.table = table := by rw [Codec.a64]

/-- The entries of a mnemonic, as they are defined. -/
def entriesOf (mnemonic : String) : List OpcodeEntry :=
  ((groupsFrom 0 definitions).lookup mnemonic).getD []

/-- The table has the defined entries for a mnemonic. -/
theorem entries_a64 (mnemonic : String) : Codec.a64.table.entries mnemonic = entriesOf mnemonic := by
  rw [table_a64, entries, builtFrom_table.groups, entriesOf]

/-- What the first form that takes a word tells is told by the form of its instruction. -/
theorem exists_decode_telling {α : Type} {tells : InstructionForm → α} {told : α} {word : Int}
    (address : Int)
    (first : ((OpcodeTable.firstForm InstructionForm.admits (Instruction.wordBits word)
      forms).toOption.join.map fun first => tells first.1) = some told) :
    ∃ instruction, Codec.a64.decode word address = .ok (some instruction) ∧
      tells instruction.form = told := by
  obtain ⟨⟨form, fields⟩, known, same⟩ := Option.map_eq_some_iff.mp first
  obtain ⟨isFirst, _⟩ := OpcodeTable.firstForm_eq_some.mp
    (toOption_eq_some.mp (Option.join_eq_some_iff.mp known))
  rw [← decodeOrder_table, ← table_a64] at isFirst
  obtain ⟨instruction, decoded, rfl⟩ := decode_of_isFirst address isFirst
  exact ⟨instruction, decoded, same⟩

/-- The first form that takes a word tells the operation and the mnemonic of its instruction. -/
theorem exists_decode_of_first {word : Int} {address : Int} {op : Operation} {mnemonic : String}
    (first : ((OpcodeTable.firstForm InstructionForm.admits (Instruction.wordBits word)
      forms).toOption.join.map fun first => (first.1.op, first.1.mnemonic)) = some (op, mnemonic)) :
    ∃ instruction, Codec.a64.decode word address = .ok (some instruction) ∧
      instruction.form.op = op ∧ instruction.form.mnemonic = mnemonic := by
  obtain ⟨instruction, decoded, told⟩ :=
    @exists_decode_telling _ (fun form => (form.op, form.mnemonic)) _ _ address first
  exact ⟨instruction, decoded, Prod.mk.inj told⟩

/-- All forms that accept a word have one operation, and each of them holds the fields of the base
form of that operation, the width flag apart. So what is executed for a word does not depend on
the form that wins. -/
theorem accepting_forms_agree (word : Nat) :
    (∀ form ∈ table.decodeOrder, form.pattern.accepts word = true →
      ∀ other ∈ table.decodeOrder, other.pattern.accepts word = true → form.op = other.op) ∧
    (∀ form ∈ table.decodeOrder, form.pattern.accepts word = true →
      ∃ base, table.baseForm? form.op = some base ∧ base.accepts word = true ∧
        ∀ letter, letter ≠ 'z' → form.pattern.hasField letter = true →
          base.hasField letter = true ∧
          (form.pattern.decode word).lookup letter = (base.decode word).lookup letter) ∧
    ∀ address instruction, Codec.a64.decode word address = .ok (some instruction) →
      ∀ form ∈ table.decodeOrder, form.pattern.accepts (Instruction.wordBits word) = true →
        instruction.form.op = form.op ∧ instruction.bound = true ∧
        (∃ base, table.baseForm? form.op = some base ∧
          instruction.fields = base.decode (Instruction.wordBits word)) ∧
        ∀ letter, letter ≠ 'z' → form.pattern.hasField letter = true →
          instruction.fields.lookup letter =
            (form.pattern.decode (Instruction.wordBits word)).lookup letter := by
  rw [decodeOrder_table]
  refine ⟨fun form member accepted other member' accepted' =>
    op_eq_of_accepts member accepted member' accepted', fun form member accepted => ?_,
    fun address instruction decoded form member accepted => ?_⟩
  · obtain ⟨executable, wider⟩ := accepts_baseForm member
    refine ⟨_, by rw [baseForm?_table, if_pos executable], wider word accepted,
      fun letter notFlag field => ⟨?_, lookup_decode_baseForm member notFlag field word⟩⟩
    rw [BitPattern.hasField, ← positions?_baseForm member notFlag field]
    exact field
  · obtain ⟨⟨earlier, later, split, _, taken, _⟩, _, _, fields, bound⟩ := decode_eq_some decoded
    rw [table_a64, decodeOrder_table] at split
    have inside : instruction.form ∈ forms := by
      rw [split]
      simp
    have op := op_eq_of_accepts inside taken member accepted
    obtain ⟨executable, _⟩ := accepts_baseForm member
    have base : table.baseForm? form.op = some (ofTemplate (baseForm form.op)) := by
      rw [baseForm?_table, if_pos executable]
    have fields : instruction.fields =
        (ofTemplate (baseForm form.op)).decode (Instruction.wordBits word) := by
      rw [fields, op, table_a64, base]
      rfl
    refine ⟨op, ?_, ⟨_, base, fields⟩, fun letter notFlag field => ?_⟩
    · rw [bound, op]
      exact List.contains_iff_mem.mpr executable
    · rw [fields, lookup_decode_baseForm member notFlag field]

/-- The word of `lsl x0, x1, #4` is accepted by the forms of `lsl` and of `ubfm`. The first one wins,
and what is executed are the fields that the other one has too. -/
theorem accepting_forms_agree_leftShift :
    ∃ shift ∈ table.decodeOrder, ∃ move ∈ table.decodeOrder,
      shift.mnemonic = "lsl" ∧ shift.pattern.accepts 0xd37cec20 = true ∧
      move.mnemonic = "ubfm" ∧ move.pattern.accepts 0xd37cec20 = true ∧
      shift.op = move.op ∧
      (∃ base, table.baseForm? shift.op = some base ∧ base.accepts 0xd37cec20 = true ∧
        (shift.pattern.decode 0xd37cec20).lookup 'r' = (base.decode 0xd37cec20).lookup 'r') ∧
      ∃ instruction, Codec.a64.decode 0xd37cec20 0 = .ok (some instruction) ∧
        instruction.form.mnemonic = "lsl" ∧ instruction.form.op = move.op ∧
        instruction.fields.lookup 'r' = (move.pattern.decode 0xd37cec20).lookup 'r' := by
  obtain ⟨shift, member, move, member', ⟨called, accepted, field⟩, called', accepted', field'⟩ :
      ∃ shift ∈ forms, ∃ move ∈ forms,
        (shift.mnemonic = "lsl" ∧ shift.pattern.accepts 0xd37cec20 = true ∧
          shift.pattern.hasField 'r' = true) ∧
        move.mnemonic = "ubfm" ∧ move.pattern.accepts 0xd37cec20 = true ∧
          move.pattern.hasField 'r' = true := by
    decide +kernel
  rw [← decodeOrder_table] at member member'
  obtain ⟨alike, based, executed⟩ := accepting_forms_agree 0xd37cec20
  obtain ⟨base, known, wider, same⟩ := based shift member accepted
  obtain ⟨instruction, decoded, winner⟩ :=
    @exists_decode_telling _ (·.mnemonic) "lsl" 0xd37cec20 0 (by decide +kernel)
  obtain ⟨op, _, _, fields⟩ := executed 0 instruction decoded move member' accepted'
  exact ⟨shift, member, move, member', called, accepted, called', accepted',
    alike shift member accepted move member' accepted',
    ⟨base, known, wider, (same 'r' (by decide) field).2⟩,
    instruction, decoded, winner, op, fields 'r' (by decide) field'⟩

end A64Machine.InstructionSet
