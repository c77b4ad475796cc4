import A64Machine.Proofs.AliasForms
import A64Machine.Proofs.Executable

/-!
# Targets relative to the instruction

Branches, loads of literals and computed addresses name a target, of which the word holds the
distance from the instruction. The encoding checks the distance and places it into one field or into
two; the execution puts the fields together again, extends the sign, scales the distance and adds it
to the address. A target is encoded exactly when it is in reach, and then it is the one that the
instruction uses.
-/

namespace A64Machine

/-! ### Reach -/

/-- What the distance of a target counts: words, in a field of some width, or bytes or pages, in two
fields of 21 bits together. -/
inductive Reach where
  | words (width : Nat)
  | bytes
  | pages
  deriving DecidableEq, Repr

namespace Reach

/-- The kind of an operand that is a target. -/
def kind : Reach → OperandKind
  | .words _ => .branchTarget
  | .bytes => .byteTarget
  | .pages => .pageTarget

/-- Number of bits of the distance. -/
def width : Reach → Nat
  | .words width => width
  | .bytes | .pages => 21

/-- The fields that hold the distance, with their widths. -/
def fields : Reach → List (Char × Nat)
  | .words width => [('I', width)]
  | .bytes | .pages => [('I', 19), ('i', 2)]

/-- The distance of a target from the instruction. -/
def distance : Reach → (here target : Int) → Int
  | .words _, here, target => (target - here) / 4
  | .bytes, here, target => target - here
  | .pages, here, target => target / 4096 - here / 4096

/-- A distance that is counted in words is a whole number of them. -/
def Aligned : Reach → (here target : Int) → Prop
  | .words _, here, target => (target - here) % 4 = 0
  | .bytes, _, _ | .pages, _, _ => True

/-- A target is in reach when its distance is whole and a signed number of the width. -/
def Reaches (reach : Reach) (here target : Int) : Prop :=
  reach.Aligned here target ∧ -(2 ^ (reach.width - 1) : Nat) ≤ reach.distance here target ∧
    reach.distance here target < (2 ^ (reach.width - 1) : Nat)

/-- Places a distance into its fields. -/
def place (reach : Reach) (distance : Int) (draft : Draft) : Draft :=
  match reach with
  | .words width => draft.set 'I' (Bits.wrap width distance)
  | .bytes | .pages =>
    (draft.set 'I' (Bits.wrap 21 distance / 4 : Nat)).set 'i' (Bits.wrap 21 distance % 4 : Nat)

/-- The distance that the fields of an instruction hold. -/
def held (reach : Reach) (instruction : Instruction) : Int :=
  match reach with
  | .words width => Bits.signExtend (instruction.value 'I') width
  | .bytes | .pages =>
    Bits.signExtend (instruction.value 'I' <<< 2 ||| instruction.value 'i' : Nat) 21

@[simp] theorem wide_place (reach : Reach) (distance : Int) (draft : Draft) :
    (reach.place distance draft).wide = draft.wide := by
  cases reach <;> rfl

/-- The fields of a distance are those of the kind of its operand. -/
theorem letters_kind (reach : Reach) {role : List Char} :
    reach.kind.letters role = reach.fields.map Prod.fst := by
  cases reach <;> rfl

/-- Placing a distance sets no other fields. -/
theorem lookup_place_of_ne (reach : Reach) (distance : Int) (draft : Draft) {letter : Char}
    (apart : letter ≠ 'I' ∧ letter ≠ 'i') :
    (reach.place distance draft).values.lookup letter = draft.values.lookup letter := by
  cases reach <;> simp [place, Draft.lookup_set, apart]

/-- A placed distance fits its fields. -/
theorem lookup_place (reach : Reach) (distance : Int) (draft : Draft) :
    ∀ field ∈ reach.fields, ∃ value : Nat,
      (reach.place distance draft).values.lookup field.1 = some (value : Int) ∧
        value < 2 ^ field.2 := by
  cases reach with
  | words width =>
    simp only [fields, place, List.forall_mem_cons, List.not_mem_nil, false_implies, implies_true,
      and_true, Draft.lookup_set, if_true]
    exact ⟨_, rfl, Bits.wrap_lt width distance⟩
  | bytes | pages =>
    have bound := Bits.wrap_lt 21 distance
    have whole : Bits.wrap 21 distance / 4 < 2 ^ 19 := by omega
    have rest : Bits.wrap 21 distance % 4 < 2 ^ 2 := by omega
    simp only [fields, place, List.forall_mem_cons, List.not_mem_nil, false_implies, implies_true,
      and_true, Draft.lookup_set, if_true, if_neg (show 'I' ≠ 'i' by decide)]
    exact ⟨⟨_, rfl, whole⟩, _, rfl, rest⟩

/-- An instruction that holds the placed fields holds the distance. -/
theorem held_of_place {reach : Reach} {here target : Int} (draft : Draft)
    {instruction : Instruction} (positive : 0 < reach.width) (reaches : reach.Reaches here target)
    (same : ∀ field ∈ reach.fields,
      (reach.place (reach.distance here target) draft).values.lookup field.1 =
        some (instruction.value field.1 : Int)) :
    reach.held instruction = reach.distance here target := by
  obtain ⟨_, least, most⟩ := reaches
  have back := Bits.signExtend_wrap positive least most
  cases reach with
  | words width =>
    have given := same _ List.mem_cons_self
    simp only [place, Draft.lookup_set, if_true, Option.some.injEq, Int.natCast_inj] at given
    rw [held, ← given]
    exact back
  | bytes | pages =>
    simp only [fields, place, List.forall_mem_cons, List.not_mem_nil, false_implies, implies_true,
      and_true, Draft.lookup_set, if_true, if_neg (show 'I' ≠ 'i' by decide), Option.some.injEq,
      Int.natCast_inj] at same
    obtain ⟨words, bytes⟩ := same
    have join (whole : Nat) : (whole / 4) <<< 2 ||| whole % 4 = whole := by
      rw [← Nat.shiftLeft_add_eq_or_of_lt (Nat.mod_lt _ (by decide)), Nat.shiftLeft_eq,
        Nat.mul_comm]
      exact Nat.div_add_mod whole 4
    rw [held, ← words, ← bytes, join]
    exact back

end Reach

namespace Encode

variable {form : InstructionForm} {here target : Int} {evaluate : Evaluator} {reach : Reach}

/-- A distance that is split is taken exactly when it is a signed number of 21 bits. -/
theorem splitOffset_eq_ok {span : Span} {distance : Int} {before after : Draft} :
    splitOffset span distance before = .ok after ↔
      isSigned distance 21 = true ∧
        after = (before.set 'I' (Bits.wrap 21 distance / 4 : Nat)).set 'i'
          (Bits.wrap 21 distance % 4 : Nat) := by
  simp only [splitOffset, bind_eq_ok, require_eq_ok, exists_const, pure, Except.pure,
    Except.ok.injEq, eq_comm (a := after)]

/-- A target is taken exactly when it is in reach, and then its distance is placed. -/
theorem operand_target (widths : ∀ field ∈ reach.fields, form.pattern.width? field.1 = some field.2)
    {given : ImmediateOperand} (known : evaluate given.value = .ok target) {role : List Char}
    {before after : Draft} :
    operand form here evaluate before reach.kind.code role (.immediate given) = .ok after ↔
      reach.Reaches here target ∧ after = reach.place (reach.distance here target) before := by
  have read : value evaluate given.value = .ok target := by rw [value, known]; rfl
  simp only [operand, OperandKind.ofChar?_code, ok_bind read]
  cases reach with
  | words width =>
    have width : fieldWidth form ['I'] = .ok width := by
      rw [fieldWidth, widths _ List.mem_cons_self]
    simp only [Reach.kind, immediate, bind_eq_ok, width, require_eq_ok, Except.ok.injEq,
      exists_const, exists_eq_left', pure, Except.pure, beq_iff_eq, isSigned, decide_eq_true_eq,
      Reach.Reaches, Reach.Aligned, Reach.distance, Reach.width, Reach.place,
      eq_comm (a := after), and_assoc]
  | bytes | pages =>
    simp only [Reach.kind, immediate, splitOffset_eq_ok, isSigned, decide_eq_true_eq,
      Reach.Reaches, Reach.Aligned, Reach.distance, Reach.width, Reach.place, true_and]

end Encode

namespace InstructionSet

open BitPattern (positionsOf isLiteral knownValue)

/-! ### Forms with a target -/

/-- Number of bits of a field that an operand in front of a target sets: a register, or the number
of a bit. -/
def frontWidth (letter : Char) : Nat := if letter = 'b' then 6 else 5

/-- A form of a mnemonic and an operation whose last operand is a target, behind some others. The
fields of all operands are there, and other fields have codes that are known from the width flag. -/
structure TargetForm (form : InstructionForm) (mnemonic : String) (op : Operation)
    (front : List FormOperand) (reach : Reach) (codes : Bool → List (Char × Nat)) : Prop where
  mnemonic : form.mnemonic = mnemonic
  op : form.op = op
  operands : form.operands = front ++ [(reach.kind, own)]
  widths : ∀ field ∈ reach.fields, form.pattern.width? field.1 = some field.2
  frontWidths : ∀ operand ∈ front, ∀ letter ∈ operand.1.letters operand.2,
    (letter ≠ 'I' ∧ letter ≠ 'i') ∧ form.pattern.width? letter = some (frontWidth letter)
  codes : ∀ wide, ∀ code ∈ codes wide, code.1 ∈ baseForm form.op ∧ isLiteral code.1 = false ∧
    knownValue form.pattern.template wide (positionsOf code.1 (baseForm form.op)) = some code.2

instance (form : InstructionForm) (mnemonic : String) (op : Operation) (front : List FormOperand)
    (reach : Reach) (codes : Bool → List (Char × Nat)) :
    Decidable (TargetForm form mnemonic op front reach codes) :=
  decidable_of_iff (_ ∧ _ ∧ _ ∧ _ ∧ _ ∧ _)
    ⟨fun ⟨mnemonic, op, operands, widths, frontWidths, codes⟩ =>
      ⟨mnemonic, op, operands, widths, frontWidths, codes⟩,
      fun ⟨mnemonic, op, operands, widths, frontWidths, codes⟩ =>
        ⟨mnemonic, op, operands, widths, frontWidths, codes⟩⟩

/-- The names of the conditions with their codes; two of them have a second name. -/
def conditionCodes : List (String × Nat) := conditions.zipIdx ++ [("hs", 2), ("lo", 3)]

/-- The forms with a target, by what their instructions do. -/
structure HasTargetForms : Prop where
  branch : ∀ linked : Bool, ∃ form ∈ forms,
    TargetForm form (if linked then "bl" else "b") .branchImmediate [] (.words 26)
      fun _ => [('p', linked.toNat)]
  conditional : ∀ stem ∈ ["b.", "b"], ∀ condition ∈ conditionCodes, ∃ form ∈ forms,
    TargetForm form (stem ++ condition.1) .branchConditional [] (.words 19)
      fun _ => [('c', condition.2)]
  compare : ∀ negated : Bool, ∃ form ∈ forms,
    TargetForm form (if negated then "cbnz" else "cbz") .compareBranch [reg 't'] (.words 19)
      fun wide => [('p', negated.toNat), ('z', wide.toNat)]
  test : ∀ set : Bool, ∃ form ∈ forms,
    TargetForm form (if set then "tbnz" else "tbz") .testBranch [reg 't', (.bitNumber, own)]
      (.words 14) fun _ => [('p', set.toNat)]
  load : ∃ form ∈ forms,
    TargetForm form "ldr" .transferLiteral [reg 't'] (.words 19) fun wide => [('c', wide.toNat)]
  loadSigned : ∃ form ∈ forms,
    TargetForm form "ldrsw" .transferLiteral [xreg 't'] (.words 19) fun _ => [('c', 2)]
  address : ∃ form ∈ forms,
    TargetForm form "adr" .pcRelative [xreg 'd'] .bytes fun _ => [('p', 0)]
  page : ∃ form ∈ forms,
    TargetForm form "adrp" .pcRelative [xreg 'd'] .pages fun _ => [('p', 1)]

instance : Decidable HasTargetForms :=
  decidable_of_iff (_ ∧ _ ∧ _ ∧ _ ∧ _ ∧ _ ∧ _ ∧ _)
    ⟨fun ⟨branch, conditional, compare, test, load, loadSigned, address, page⟩ =>
      ⟨branch, conditional, compare, test, load, loadSigned, address, page⟩,
      fun ⟨branch, conditional, compare, test, load, loadSigned, address, page⟩ =>
        ⟨branch, conditional, compare, test, load, loadSigned, address, page⟩⟩

/-- The instruction set has all forms with a target. -/
theorem hasTargetForms : HasTargetForms := by decide +kernel

/-- Whether the kind stands for a target. -/
def isTarget (kind : OperandKind) : Bool :=
  kind == .branchTarget || kind == .byteTarget || kind == .pageTarget

/-- A form with a target has no rivals among the forms of its mnemonic. -/
theorem unrivalled_of_isTarget : ∀ form ∈ forms,
    (form.operands.getLast?.any fun operand => isTarget operand.1) = true →
      Unrivalled form form.mnemonic := by
  decide +kernel

section TargetForm

variable {form : InstructionForm} {mnemonic : String} {op : Operation} {front : List FormOperand}
  {reach : Reach} {codes : Bool → List (Char × Nat)} {here target : Int} {evaluate : Evaluator}
  {before : List Operand} {draft : Draft} {given : ImmediateOperand} {word : Nat}

/-- Operands that fit a form with a target are encoded by it. -/
theorem encode_iff_formWord (member : form ∈ forms)
    (targeted : TargetForm form mnemonic op front reach codes)
    (fits : OperandKind.fitsAll form.shape (before ++ [.immediate given]) = .ok true) :
    Codec.a64.encode mnemonic (before ++ [.immediate given]) here evaluate = .ok word ↔
      Encode.formWord form here evaluate (before ++ [.immediate given]) = .ok word := by
  have isTarget : (form.operands.getLast?.any fun operand => isTarget operand.1) = true := by
    rw [targeted.operands, List.getLast?_concat]
    cases reach <;> rfl
  rw [← targeted.mnemonic]
  exact (unrivalled_of_isTarget form member isTarget).encode_iff fits

/-- The operands in front of a target fit their kinds and make a draft, in which each of their fields
has a fitting value. -/
structure Prepared (form : InstructionForm) (here : Int) (evaluate : Evaluator)
    (front : List FormOperand) (before : List Operand) (draft : Draft) : Prop where
  count : front.length = before.length
  fits : OperandKind.fitsEach ((front.map fun operand => operand.1.code).zip before) = .ok true
  gathered : Encode.allOperands form here evaluate .empty
    (front.map fun operand => (operand.1.code, operand.2)) before = .ok draft
  held : ∀ operand ∈ front, ∀ letter ∈ operand.1.letters operand.2, ∃ value : Nat,
    draft.values.lookup letter = some (value : Int) ∧ value < 2 ^ frontWidth letter

/-- An immediate fits the kind of a target. -/
theorem Prepared.fitsAll (prepared : Prepared form here evaluate front before draft)
    (member : form ∈ forms) (targeted : TargetForm form mnemonic op front reach codes)
    (unshifted : given.modifier = none) :
    OperandKind.fitsAll form.shape (before ++ [.immediate given]) = .ok true := by
  have target : OperandKind.fits reach.kind.code (.immediate given) = .ok true := by
    simp only [OperandKind.fits, OperandKind.ofChar?_code, unshifted]
    cases reach <;> rfl
  have shape : form.shape = (front.map Prod.fst ++ [reach.kind]).map OperandKind.code := by
    rw [(sound form member).codes (checked member).roles, targeted.operands]
    simp
  rw [shape, OperandKind.fitsAll_concat]
  refine ⟨_, _, rfl, by simpa using prepared.count, ?_, target⟩
  rw [List.map_map]
  exact prepared.fits

/-- All operands are encoded exactly when the target is in reach. -/
theorem Prepared.allOperands (prepared : Prepared form here evaluate front before draft)
    (member : form ∈ forms) (targeted : TargetForm form mnemonic op front reach codes)
    (known : evaluate given.value = .ok target) (after : Draft) :
    Encode.allOperands form here evaluate .empty (form.shape.zip form.roles)
        (before ++ [.immediate given]) = .ok after ↔
      reach.Reaches here target ∧ after = reach.place (reach.distance here target) draft := by
  rw [(sound form member).shape, targeted.operands, List.map_append,
    Encode.allOperands_append _ (by simpa using prepared.count), ok_bind prepared.gathered,
    ← @Encode.operand_target _ _ _ _ _ targeted.widths _ known own]
  simp only [List.map_cons, List.map_nil, Encode.allOperands, bind_eq_ok, Except.ok.injEq,
    exists_eq_right]

/-- A target is encoded exactly when it is in reach. -/
theorem exists_encode_iff (member : form ∈ forms)
    (targeted : TargetForm form mnemonic op front reach codes)
    (prepared : Prepared form here evaluate front before draft)
    (unshifted : given.modifier = none) (known : evaluate given.value = .ok target) :
    (∃ word, Codec.a64.encode mnemonic (before ++ [.immediate given]) here evaluate = .ok word) ↔
      reach.Reaches here target := by
  have fits := prepared.fitsAll member targeted unshifted
  have check := checked member
  simp only [encode_iff_formWord member targeted fits]
  constructor
  · rintro ⟨word, made⟩
    obtain ⟨after, gathered, _⟩ := Encode.formWord_eq_ok.mp made
    exact ((prepared.allOperands member targeted known after).mp gathered).1
  · intro reaches
    have gathered := (prepared.allOperands member targeted known _).mpr ⟨reaches, rfl⟩
    refine Encode.exists_formWord (sound form member) check.wellFormed check.roles fits gathered
      fun field inside notFlag => ?_
    obtain ⟨letter, positions⟩ := field
    obtain ⟨present, symbolic, same⟩ := BitPattern.mem_fieldsOf.mp (check.wellFormed ▸ inside)
    have width : form.pattern.width? letter = some positions.length := by
      rw [BitPattern.width?, check.wellFormed.positions?_eq, if_pos ⟨present, symbolic⟩, same]
      rfl
    obtain ⟨operand, among, sets⟩ :=
      (((reprintable form member).covered letter present).resolve_left (by simp [symbolic])).resolve_left
        notFlag
    rw [targeted.operands] at among
    rcases List.mem_append.mp among with ahead | last
    · obtain ⟨apart, width'⟩ := targeted.frontWidths operand ahead letter sets
      obtain ⟨value, set, small⟩ := prepared.held operand ahead letter sets
      rw [width, Option.some.injEq] at width'
      exact ⟨value, (reach.lookup_place_of_ne _ draft apart).trans set, width' ▸ small⟩
    · obtain rfl := List.mem_singleton.mp last
      obtain ⟨field, among, rfl⟩ : ∃ field ∈ reach.fields, field.1 = letter := by
        rw [reach.letters_kind] at sets
        exact List.mem_map.mp sets
      obtain ⟨value, set, small⟩ := reach.lookup_place (reach.distance here target) draft field among
      have width' := targeted.widths field among
      rw [width, Option.some.injEq] at width'
      exact ⟨value, set, width' ▸ small⟩

/-- An instruction that executes a word with an encoded target: it holds the distance of the target,
what the operands in front of it have set, and the codes of its form. -/
structure Aimed (instruction : Instruction) (front : List FormOperand) (reach : Reach)
    (codes : Bool → List (Char × Nat)) (here target : Int) (draft : Draft) : Prop where
  address : instruction.address = here
  reaches : reach.Reaches here target
  held : reach.held instruction = reach.distance here target
  front : ∀ operand ∈ front, ∀ letter ∈ operand.1.letters operand.2,
    draft.values.lookup letter = some (instruction.value letter : Int)
  codes : ∀ code ∈ codes (draft.wide != some false), instruction.value code.1 = code.2

/-- The word of an encoded target is decoded to an instruction that holds its distance. -/
theorem exists_aimed (member : form ∈ forms)
    (targeted : TargetForm form mnemonic op front reach codes) (general : form.op ≠ .bitfield)
    (positive : 0 < reach.width) (prepared : Prepared form here evaluate front before draft)
    (unshifted : given.modifier = none) (known : evaluate given.value = .ok target)
    (encoded :
      Codec.a64.encode mnemonic (before ++ [.immediate given]) here evaluate = .ok word) :
    ∃ instruction, Codec.a64.decode word here = .ok (some instruction) ∧
      Executes instruction form word (draft.wide != some false) ∧
      Aimed instruction front reach codes here target draft := by
  have fits := prepared.fitsAll member targeted unshifted
  have check := checked member
  rw [encode_iff_formWord member targeted fits] at encoded
  obtain ⟨after, gathered, drafted⟩ := Encode.drafted_of_formWord (sound form member)
    check.wellFormed check.bits check.roles fits encoded
  obtain ⟨reaches, rfl⟩ := (prepared.allOperands member targeted known after).mp gathered
  obtain ⟨instruction, decoded, address, executes⟩ :=
    exists_decode member drafted (fun beyond => general beyond.1) here
  rw [Reach.wide_place] at executes
  refine ⟨instruction, decoded, executes, address, reaches,
    Reach.held_of_place draft positive reaches fun field inside => ?_,
    fun operand ahead letter sets => ?_, fun code inside => ?_⟩
  · obtain ⟨value, set, _⟩ := reach.lookup_place (reach.distance here target) draft field inside
    have sets : field.1 ∈ reach.kind.letters own := reach.letters_kind ▸ List.mem_map_of_mem inside
    have last : (reach.kind, own) ∈ form.operands := by
      rw [targeted.operands]
      simp
    rw [set, executes.value_of_drafted drafted last sets set]
  · obtain ⟨apart, _⟩ := targeted.frontWidths operand ahead letter sets
    obtain ⟨value, set, _⟩ := prepared.held operand ahead letter sets
    have set' := (reach.lookup_place_of_ne (reach.distance here target) draft apart).trans set
    have inside : operand ∈ form.operands := targeted.operands ▸ List.mem_append_left _ ahead
    rw [set, executes.value_of_drafted drafted inside sets set']
  · obtain ⟨present, symbolic, value⟩ := targeted.codes _ code inside
    rw [Instruction.value, executes.lookup_of_known present symbolic value]
    rfl

/-- No operands stand in front of the target. -/
theorem prepared_nil : Prepared form here evaluate [] [] .empty :=
  ⟨rfl, rfl, rfl, by simp⟩

/-- A register that tells the width stands in front of the target. -/
theorem prepared_register {register : RegisterOperand} {letter : Char}
    (plain : register.modifier = none) (small : register.register.slot < 2 ^ frontWidth letter) :
    Prepared form here evaluate [reg letter] [.register register]
      ({ Draft.empty with wide := some register.register.wide }.set letter
        register.register.slot) where
  count := rfl
  fits := by
    simp [reg, OperandKind.fitsEach, OperandKind.fits, OperandKind.ofChar?_code,
      OperandKind.fitsRegister, OperandKind.isPlain, plain, bind, Except.bind]
  gathered := by
    have taken := (@Encode.operand_register_eq_ok form here evaluate .empty _ letter register).mpr
      ⟨rfl, rfl⟩
    exact bind_eq_ok.mpr ⟨_, taken, rfl⟩
  held := by
    simp only [reg, OperandKind.letters, OperandKind.fieldLetters, Option.getD_none,
      List.mem_singleton, forall_eq, Draft.lookup_set, if_true]
    exact ⟨_, rfl, small⟩

/-- A full register stands in front of the target. -/
theorem prepared_wideRegister {register : RegisterOperand} {letter : Char}
    (plain : register.modifier = none) (wide : register.register.wide = true)
    (small : register.register.slot < 2 ^ frontWidth letter) :
    Prepared form here evaluate [xreg letter] [.register register]
      (Draft.empty.set letter register.register.slot) where
  count := rfl
  fits := by
    simp [xreg, OperandKind.fitsEach, OperandKind.fits, OperandKind.ofChar?_code,
      OperandKind.fitsRegister, OperandKind.isPlain, plain, bind, Except.bind]
  gathered := by
    have taken :=
      (@Encode.operand_wideRegister_eq_ok form here evaluate .empty _ letter register).mpr
        ⟨wide, rfl⟩
    exact bind_eq_ok.mpr ⟨_, taken, rfl⟩
  held := by
    simp only [xreg, OperandKind.letters, OperandKind.fieldLetters, Option.getD_none,
      List.mem_singleton, forall_eq, Draft.lookup_set, if_true]
    exact ⟨_, rfl, small⟩

/-- A register and the number of one of its bits stand in front of the target. -/
theorem prepared_bitNumber {register : RegisterOperand} {bit : ImmediateOperand} {position : Nat}
    (plain : register.modifier = none) (small : register.register.slot < 32)
    (unshifted : bit.modifier = none) (known : evaluate bit.value = .ok (position : Int))
    (inside : position < InstructionForm.dataSize register.register.wide) :
    Prepared form here evaluate [reg 't', (.bitNumber, own)] [.register register, .immediate bit]
      (({ Draft.empty with wide := some register.register.wide }.set 't'
        register.register.slot).set 'b' position) where
  count := rfl
  fits := by
    simp [reg, OperandKind.fitsEach, OperandKind.fits, OperandKind.ofChar?_code,
      OperandKind.fitsRegister, OperandKind.isPlain, OperandKind.isImmediate, plain, unshifted,
      bind, Except.bind]
  gathered := by
    have size : ({ Draft.empty with wide := some register.register.wide }.set 't'
        register.register.slot).size = InstructionForm.dataSize register.register.wide := by
      rw [Draft.size_set, Draft.size]
      cases register.register.wide <;> rfl
    have first := (@Encode.operand_register_eq_ok form here evaluate .empty _ 't' register).mpr
      ⟨rfl, rfl⟩
    have second := (@Encode.operand_bitNumber_eq_ok form here evaluate _ _ own _ _ known).mpr
      ⟨⟨Int.natCast_nonneg _, size ▸ Int.ofNat_lt.mpr inside⟩, rfl⟩
    exact bind_eq_ok.mpr ⟨_, first, bind_eq_ok.mpr ⟨_, second, rfl⟩⟩
  held := by
    have most : InstructionForm.dataSize register.register.wide ≤ 64 := by
      cases register.register.wide <;> decide
    simp only [reg, List.forall_mem_cons, List.not_mem_nil, false_implies, implies_true, and_true,
      OperandKind.letters, OperandKind.fieldLetters, Option.getD_none, Option.getD_some,
      Draft.lookup_set, if_true, if_neg (show 't' ≠ 'b' by decide)]
    exact ⟨⟨_, rfl, small⟩, _, rfl, Nat.lt_of_lt_of_le inside most⟩

end TargetForm

end InstructionSet

end A64Machine
