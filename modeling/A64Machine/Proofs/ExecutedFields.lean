import A64Machine.Proofs.Decodable
import A64Machine.Proofs.Ensures
import A64Machine.Proofs.RoundTrip

/-!
# The fields that are executed

The fields of an instruction are read from its word by the base form of its operation. Three
sources tell their values. Every field of a base form is there; where a form has literal bits or
its width flag, the field of the base form is known; and where a form has the field itself, it
holds what the operands have set.
-/

namespace A64Machine

namespace BitPattern

/-- The bit of every word of a template at a position, where the template has a literal bit or the
width flag. -/
def knownBit (template : List Char) (wide : Bool) (position : Nat) : Option Bool :=
  match charAt? template position with
  | some '0' => some false
  | some '1' => some true
  | some 'z' => some wide
  | _ => none

/-- The value of a field whose bits are all known. -/
def knownValue (template : List Char) (wide : Bool) : List Nat → Option Nat
  | [] => some 0
  | position :: rest =>
    match knownBit template wide position, knownValue template wide rest with
    | some bit, some value => some ((if bit then 2 ^ rest.length else 0) + value)
    | _, _ => none

/-- A known bit is that of every accepted word whose width flag is as given. -/
theorem testBit_of_knownBit {pattern : BitPattern} (compiled : pattern.WellFormed) {word : Nat}
    (accepted : pattern.accepts word = true) {wide : Bool}
    (flags : ∀ bit ∈ positionsOf 'z' pattern.template, word.testBit bit = wide) {position : Nat}
    {bit : Bool} (known : knownBit pattern.template wide position = some bit) :
    word.testBit position = bit := by
  have literal := compiled.accepts_iff.mp accepted
  unfold knownBit at known
  split at known
  · rename_i here
    rw [literal position '0' here rfl, ← Option.some.inj known]
    rfl
  · rename_i here
    rw [literal position '1' here rfl, ← Option.some.inj known]
    rfl
  · rename_i here
    rw [flags position (mem_positionsOf.mpr here), ← Option.some.inj known]
  · contradiction

/-- A known value is that of every accepted word whose width flag is as given. -/
theorem gather_of_knownValue {pattern : BitPattern} (compiled : pattern.WellFormed) {word : Nat}
    (accepted : pattern.accepts word = true) {wide : Bool}
    (flags : ∀ bit ∈ positionsOf 'z' pattern.template, word.testBit bit = wide)
    {positions : List Nat} {value : Nat}
    (known : knownValue pattern.template wide positions = some value) :
    gather word positions = value := by
  induction positions generalizing value with
  | nil => exact Option.some.inj known
  | cons position rest ih =>
    rw [knownValue] at known
    split at known
    · rename_i bit value' first later
      rw [gather_cons, testBit_of_knownBit compiled accepted flags first, ih later]
      exact Option.some.inj known
    · contradiction

end BitPattern

namespace InstructionSet

open BitPattern (ofTemplate positionsOf isLiteral knownValue)

/-- An instruction that executes a word of a form: it has the operation of the form, its fields are
those that the base form reads from the word, and the bits of the width flag are as given. -/
structure Executes (instruction : Instruction) (form : InstructionForm) (word : Nat)
    (wide : Bool) : Prop where
  member : form ∈ forms
  accepted : form.pattern.accepts word = true
  flags : ∀ bit ∈ form.flagBits, word.testBit bit = wide
  op : instruction.form.op = form.op
  fields : instruction.fields = (ofTemplate (baseForm form.op)).decode word

/-- A decoded instruction executes its word, which its form admits. -/
theorem executes_of_decode {word address : Int} {instruction : Instruction}
    (decoded : Codec.a64.decode word address = .ok (some instruction)) :
    Executes instruction instruction.form (Instruction.wordBits word)
        (instruction.form.isWide (instruction.form.pattern.decode (Instruction.wordBits word))) ∧
      instruction.form.admits (instruction.form.pattern.decode (Instruction.wordBits word)) =
        .ok true := by
  obtain ⟨⟨earlier, later, order, _, accepted, admitted⟩, _, _, fields, _⟩ := decode_eq_some decoded
  rw [table_a64] at order fields
  have member : instruction.form ∈ forms := by
    rw [← decodeOrder_table, order]
    simp
  obtain ⟨executable, _⟩ := accepts_baseForm member
  have agrees := ((InstructionForm.admits_eq_true (sound _ member)).mp admitted).1
  refine ⟨⟨member, accepted, InstructionForm.testBit_flag (checked member).wellFormed agrees, rfl,
    ?_⟩, admitted⟩
  rw [fields, baseForm?_table, if_pos executable]
  rfl

/-- A word whose first form and whose fields are known is decoded to an instruction with the
operation of the form and these fields. -/
theorem exists_decode_fields {word address : Int} {op : Operation} {mnemonic : String}
    {fields : Fields}
    (first : ((OpcodeTable.firstForm InstructionForm.admits (Instruction.wordBits word)
      forms).toOption.join.map fun first => (first.1.op, first.1.mnemonic)) = some (op, mnemonic))
    (read : (BitPattern.ofTemplate (baseForm op)).decode (Instruction.wordBits word) = fields) :
    ∃ instruction, Codec.a64.decode word address = .ok (some instruction) ∧
      instruction.form.op = op ∧ instruction.fields = fields := by
  obtain ⟨instruction, decoded, known, _⟩ := exists_decode_of_first first
  obtain ⟨executes, _⟩ := executes_of_decode decoded
  refine ⟨instruction, decoded, known, ?_⟩
  rw [executes.fields, known, read]

/-- Whether a word has an instruction is decided. -/
theorem exists_decode_eq_ok (word address : Int) :
    ∃ found, Codec.a64.decode word address = .ok found := by
  by_cases taken : ∃ form ∈ forms, form.pattern.accepts (Instruction.wordBits word) = true ∧
      form.admits (form.pattern.decode (Instruction.wordBits word)) = .ok true
  · obtain ⟨form, member, accepted, admitted⟩ := taken
    obtain ⟨first, isFirst⟩ := OpcodeTable.exists_isFirst
      (fun other inside => InstructionForm.admits_eq_ok (sound other inside)) member accepted
      admitted
    rw [← decodeOrder_table, ← table_a64] at isFirst
    obtain ⟨instruction, decoded, _⟩ := decode_of_isFirst address isFirst
    exact ⟨_, decoded⟩
  · refine ⟨none, decode_eq_none address fun form member accepted => ?_⟩
    rw [table_a64, decodeOrder_table] at member
    obtain ⟨admitted, decision⟩ := InstructionForm.admits_eq_ok (sound form member)
    cases admitted with
    | true => exact absurd ⟨form, member, accepted, decision⟩ taken
    | false => exact decision

/-- A decoded instruction has a text. -/
theorem exists_text {word address : Int} {instruction : Instruction}
    (decoded : Codec.a64.decode word address = .ok (some instruction)) :
    ∃ text, instruction.text = .ok text := by
  obtain ⟨executes, _⟩ := executes_of_decode decoded
  obtain ⟨printed, same, prints⟩ := exists_arePrinted_of_decode decoded
  exact ⟨_, text_of_arePrinted (sound _ executes.member) same prints⟩

/-- The word of a form is decoded to an instruction that executes it, unless it is a bitfield move
that goes beyond its width. -/
theorem exists_decode {form : InstructionForm} {draft : Draft} {word : Nat} (member : form ∈ forms)
    (drafted : Encode.Drafted form draft word) (within : ¬BeyondWidth form.op word)
    (address : Int) :
    ∃ instruction, Codec.a64.decode word address = .ok (some instruction) ∧
      instruction.address = address ∧
      Executes instruction form word (draft.wide != some false) := by
  obtain ⟨other, member', takeover⟩ : ∃ other ∈ forms, form.TakesOver other :=
    (takesOver_self_or_other form member).elim (fun self => ⟨form, member, self⟩) id
  obtain ⟨first, isFirst⟩ := OpcodeTable.exists_isFirst
    (fun other inside => InstructionForm.admits_eq_ok (sound other inside)) member'
    (takeover.accepts drafted.accepted) (admits_of_takesOver member member' takeover drafted within)
  have bits : Instruction.wordBits word = word := Bits.wrap_of_lt drafted.bounded
  rw [← bits, ← decodeOrder_table, ← table_a64] at isFirst
  obtain ⟨instruction, decoded, _⟩ := decode_of_isFirst address isFirst
  obtain ⟨executes, _⟩ := executes_of_decode decoded
  have op : instruction.form.op = form.op :=
    op_eq_of_accepts executes.member (bits ▸ executes.accepted) member drafted.accepted
  refine ⟨instruction, decoded, (decode_eq_some decoded).2.1,
    ⟨member, drafted.accepted, drafted.flags, op, ?_⟩⟩
  rw [executes.fields, op, bits]

namespace Executes

variable {instruction : Instruction} {form : InstructionForm} {word : Nat} {wide : Bool}

/-- An instruction has all fields of its base form. -/
theorem lookup (executes : Executes instruction form word wide) {letter : Char}
    (present : letter ∈ baseForm form.op) (symbolic : isLiteral letter = false) :
    instruction.fields.lookup letter =
      some (BitPattern.gather word (positionsOf letter (baseForm form.op))) := by
  rw [executes.fields, BitPattern.lookup_decode, BitPattern.positions?_ofTemplate,
    if_pos ⟨present, symbolic⟩]
  rfl

/-- A field has a known value where the form has literal bits or its width flag. -/
theorem lookup_of_known (executes : Executes instruction form word wide) {letter : Char}
    {value : Nat} (present : letter ∈ baseForm form.op) (symbolic : isLiteral letter = false)
    (known : knownValue form.pattern.template wide (positionsOf letter (baseForm form.op)) =
      some value) : instruction.fields.lookup letter = some value := by
  rw [executes.lookup present symbolic, BitPattern.gather_of_knownValue
    (checked executes.member).wellFormed executes.accepted executes.flags known]

/-- A field that the form has is the same for the form and for the instruction. -/
theorem lookup_form (executes : Executes instruction form word wide) {letter : Char}
    (notFlag : letter ≠ 'z') (field : form.pattern.hasField letter = true) :
    instruction.fields.lookup letter = (form.pattern.decode word).lookup letter := by
  rw [executes.fields, lookup_decode_baseForm executes.member notFlag field]

/-- A field that an operand has set holds what was set. -/
theorem lookup_of_drafted (executes : Executes instruction form word wide) {draft : Draft}
    (drafted : Encode.Drafted form draft word) {letter : Char} (notFlag : letter ≠ 'z')
    (field : form.pattern.hasField letter = true) {given : Int}
    (set : draft.values.lookup letter = some given) :
    ∃ value : Nat, instruction.fields.lookup letter = some value ∧ given = value := by
  obtain ⟨value, known⟩ := InstructionForm.exists_lookup_decode field word
  have held := drafted.held letter value notFlag known
  rw [set] at held
  exact ⟨value, (executes.lookup_form notFlag field).trans known, Option.some.inj held⟩

end Executes

end InstructionSet

end A64Machine
