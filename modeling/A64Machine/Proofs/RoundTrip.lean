import A64Machine.Proofs.MaskedWord
import A64Machine.Proofs.Reassembly

/-!
# Disassembled words assemble again

The text of a decoded word is read as the operands of its form. The entries of the mnemonic that
come before the form either have other operands or refuse the printed ones, so the form itself
takes them and makes its word again. Only the rotation of a masked immediate may come back reduced,
which denotes the same mask.
-/

namespace A64Machine

namespace OperandKind

/-- Whether one of the kinds excludes what is printed for the operand at its place. -/
def excludesOne (kinds : List OperandKind) (operands : List (OperandKind × List Char)) : Bool :=
  (kinds.zip operands).any fun (kind, operand) => excludes kind operand.1

end OperandKind

namespace Encode

variable {form : InstructionForm} {here : Int} {fields target : Fields} {wide : Bool}

/-! ### Earlier entries -/

/-- Printed operands do not fit kinds of which one excludes them. -/
theorem fitsEach_of_excludesOne {kinds : List OperandKind} {printed : List PrintedAs}
    {list : List Operand} (prints : ArePrinted form here fields wide target printed)
    (reads : Spelling.ReadsAll (printed.map Prod.snd) list)
    (excluded : OperandKind.excludesOne kinds (printed.map Prod.fst) = true) :
    OperandKind.fitsEach ((kinds.map OperandKind.code).zip list) = .ok false := by
  induction printed generalizing kinds list with
  | nil => simp [OperandKind.excludesOne] at excluded
  | cons operand rest ih =>
    obtain ⟨next, later, rfl, readsHere, readsLater⟩ := reads
    obtain ⟨printsHere, printsLater⟩ := List.forall_mem_cons.mp prints
    cases kinds with
    | nil => contradiction
    | cons kind kinds =>
      rw [List.map_cons, List.zip_cons_cons, OperandKind.fitsEach]
      simp only [OperandKind.excludesOne, List.map_cons, List.zip_cons_cons, List.any_cons,
        Bool.or_eq_true] at excluded
      rcases excluded with apart | excluded
      · rw [ok_bind (printsHere.shapes.misfits apart readsHere)]
        rfl
      · obtain ⟨fits, decided⟩ := OperandKind.exists_fits kind next
        rw [ok_bind decided]
        cases fits with
        | true => exact ih printsLater readsLater excluded
        | false => rfl

/-- Whether an entry that is a move of another kind refuses what a move prints. -/
def isRefusedMove (earlier : OpcodeEntry) (form : InstructionForm) : Bool :=
  form.mnemonic == "mov" && earlier.form?.any fun other =>
    match other.operands, form.operands with
    | [first, (kind, role)], [first', (printed, role')] =>
      first.1 == .register && first == first' && role == role' && refuses kind printed
    | _, _ => false

/-- Whether an entry leaves what a form prints to later entries: it has another number of operands
or one that excludes the printed one, or it is a move that refuses the printed value. -/
def leavesTo (earlier : OpcodeEntry) (form : InstructionForm) : Bool :=
  let kinds := earlier.head.shape.filterMap OperandKind.ofChar?
  earlier.head.shape == kinds.map OperandKind.code &&
    (kinds.length != form.operands.length || OperandKind.excludesOne kinds form.operands ||
      isRefusedMove earlier form)

/-- A move of another kind complains about what a move prints. -/
theorem formWord_of_isRefusedMove {other : InstructionForm} (sound : other.Sound)
    (refused : isRefusedMove (.implemented other) form = true) {printed : List PrintedAs}
    (same : printed.map Prod.fst = form.operands)
    (prints : ArePrinted form here fields wide target printed) {list : List Operand}
    (reads : Spelling.ReadsAll (printed.map Prod.snd) list) :
    ∃ error, formWord other here (Codec.addressOnly here) list =
      .error (.refused (.assembly error)) := by
  simp only [isRefusedMove, OpcodeEntry.form?, Option.any_some, Bool.and_eq_true,
    beq_iff_eq] at refused
  obtain ⟨moved, matched⟩ := refused
  split at matched
  · rename_i first kind role first' kind' role' operands operands'
    simp only [Bool.and_eq_true, beq_iff_eq] at matched
    obtain ⟨⟨⟨isRegister, sameFirst⟩, sameRole⟩, refused⟩ := matched
    subst sameFirst sameRole
    obtain ⟨_, role⟩ := first
    obtain rfl : _ = OperandKind.register := isRegister
    rw [operands'] at same
    obtain ⟨⟨_, spelling⟩, rest, rfl, rfl, later⟩ := List.map_eq_cons_iff.mp same
    obtain ⟨⟨_, spelling'⟩, rest, rfl, rfl, none⟩ := List.map_eq_cons_iff.mp later
    obtain rfl := List.map_eq_nil_iff.mp none
    obtain ⟨printsFirst, printsRest⟩ := List.forall_mem_cons.mp prints
    obtain ⟨printsSecond, _⟩ := List.forall_mem_cons.mp printsRest
    obtain ⟨operand, _, rfl, readsFirst, operand', _, rfl, readsSecond, rfl⟩ := reads
    have ready : Ready form .register fields wide .empty := told_empty.ready rfl
    obtain ⟨after, encoded, holds⟩ := printsFirst.encodes operand readsFirst .empty ready
    obtain ⟨error, complained⟩ :=
      printsSecond.refused moved kind refused operand' readsSecond after (holds.width rfl) other
    have begun : Encode.operand other here (Codec.addressOnly here) .empty
        OperandKind.register.code role operand = .ok after := by
      obtain ⟨named, rfl⟩ := printsFirst.shapes
      obtain ⟨given, rfl, _⟩ := readsFirst
      rwa [operand_register] at encoded ⊢
    refine ⟨error, ?_⟩
    rw [formWord, sound.shape, operands]
    simp only [List.map_cons, List.map_nil]
    rw [allOperands, ok_bind begun, allOperands, complained]
    rfl
  · contradiction

/-- What a form prints is left to it by an entry that stands in front of it. -/
theorem passes_of_leavesTo {earlier : OpcodeEntry}
    (sound : ∀ other, earlier = .implemented other → other.Sound)
    (leaves : leavesTo earlier form = true) {printed : List PrintedAs}
    (same : printed.map Prod.fst = form.operands)
    (prints : ArePrinted form here fields wide target printed) {list : List Operand}
    (reads : Spelling.ReadsAll (printed.map Prod.snd) list) :
    Passes here (Codec.addressOnly here) list earlier := by
  simp only [leavesTo, Bool.and_eq_true, Bool.or_eq_true, beq_iff_eq, bne_iff_ne] at leaves
  obtain ⟨known, apart⟩ := leaves
  generalize earlier.head.shape.filterMap OperandKind.ofChar? = kinds at known apart
  have count : list.length = form.operands.length := by
    rw [length_of_readsAll reads, List.length_map, ← same, List.length_map]
  rw [Passes, OperandKind.fitsAll, known, List.length_map]
  by_cases short : kinds.length = list.length
  · rw [if_pos short]
    rcases apart with (other | excluded) | refused
    · exact absurd (short.trans count) other
    · exact .inl (fitsEach_of_excludesOne prints reads (same ▸ excluded))
    · obtain ⟨fits, decided⟩ := OperandKind.exists_fitsEach kinds list
      cases fits with
      | false => exact .inl decided
      | true =>
        cases earlier with
        | declared head => simp [isRefusedMove, OpcodeEntry.form?] at refused
        | implemented other =>
          obtain ⟨error, complained⟩ :=
            formWord_of_isRefusedMove (sound other rfl) refused same prints reads
          exact .inr ⟨decided, other, error, rfl, complained⟩
  · exact .inl (if_neg short)

end Encode

namespace InstructionForm

variable {form : InstructionForm} {word : Nat}

/-! ### The word that comes back -/

/-- The word that comes back when a form is printed and assembled. -/
def reassembled (form : InstructionForm) (word : Nat) : Nat :=
  if form.op = .logicImmediate then LogicalImmediate.reduceRotation word else word

/-- A masked immediate stands where its operation has it, and only there. -/
structure Masked (form : InstructionForm) : Prop where
  /-- The fields of the packed form have no gaps. -/
  positions : form.op = .logicImmediate →
    BitPattern.positionsOf 'N' form.pattern.template = BitPattern.contiguous 22 1 ∧
      BitPattern.positionsOf 'r' form.pattern.template = BitPattern.contiguous 16 6 ∧
        BitPattern.positionsOf 's' form.pattern.template = BitPattern.contiguous 10 6
  /-- Only this operation has masked immediates. -/
  op : ∀ operand ∈ form.operands, operand.1 = .bitmask → form.op = .logicImmediate
  /-- Nothing but a masked immediate sets the rotation. -/
  rotation : form.op = .logicImmediate → ∀ operand ∈ form.operands,
    'r' ∈ operand.1.letters operand.2 → operand.1 = .bitmask

instance (form : InstructionForm) : Decidable form.Masked :=
  decidable_of_iff (_ ∧ _ ∧ _)
    ⟨fun ⟨positions, op, rotation⟩ => ⟨positions, op, rotation⟩,
      fun ⟨positions, op, rotation⟩ => ⟨positions, op, rotation⟩⟩

/-- The word that comes back has 32 bits. -/
theorem reassembled_lt (small : word < 2 ^ 32) : form.reassembled word < 2 ^ 32 := by
  rw [reassembled]
  split
  · exact LogicalImmediate.reduceRotation_lt small
  · exact small

/-- The word that comes back differs in the rotation alone. -/
theorem testBit_reassembled (masked : form.Masked) {bit : Nat}
    (other : BitPattern.charAt? form.pattern.template bit ≠ some 'r') :
    (form.reassembled word).testBit bit = word.testBit bit := by
  rw [reassembled]
  split
  · rename_i op
    obtain ⟨_, rotation, _⟩ := masked.positions op
    have outside : ¬(16 ≤ bit ∧ bit < 22) := by
      intro inside
      have member : bit ∈ BitPattern.contiguous 16 6 := BitPattern.mem_contiguous.mpr inside
      rw [← rotation] at member
      exact other (BitPattern.mem_positionsOf.mp member)
    rw [LogicalImmediate.reduceRotation,
      LogicalImmediate.testBit_withRotation (LogicalImmediate.rotation_lt word), if_neg outside]
  · rfl

/-- The word that comes back is one of the form. -/
theorem accepts_reassembled (compiled : form.pattern.WellFormed) (masked : form.Masked)
    (accepted : form.pattern.accepts word = true) :
    form.pattern.accepts (form.reassembled word) = true := by
  rw [compiled.accepts_iff] at accepted ⊢
  intro bit c here literal
  rw [testBit_reassembled masked, accepted bit c here literal]
  intro rotation
  obtain rfl : c = 'r' := Option.some.inj (here.symm.trans rotation)
  contradiction

/-- The width flag comes back. -/
theorem flags_reassembled (masked : form.Masked) :
    ∀ bit ∈ form.flagBits, (form.reassembled word).testBit bit = word.testBit bit := by
  intro bit inside
  refine testBit_reassembled masked fun rotation => ?_
  have flag := BitPattern.mem_positionsOf.mp inside
  exact absurd (flag.symm.trans rotation) (by decide)

/-- Every field but the rotation comes back. -/
theorem lookup_reassembled (compiled : form.pattern.WellFormed) (masked : form.Masked)
    {letter : Char} (other : form.op = .logicImmediate → letter ≠ 'r') :
    (form.pattern.decode (form.reassembled word)).lookup letter =
      (form.pattern.decode word).lookup letter := by
  by_cases op : form.op = .logicImmediate
  · rw [lookup_decode compiled, lookup_decode compiled]
    split
    · refine congrArg some (BitPattern.gather_congr fun bit inside => ?_)
      refine testBit_reassembled masked fun rotation => ?_
      rw [BitPattern.mem_positionsOf.mp inside] at rotation
      exact other op (Option.some.inj rotation)
    · rfl
  · rw [reassembled, if_neg op]

/-- What the operands set comes back, with a reduced rotation. -/
theorem restored_reassembled (compiled : form.pattern.WellFormed) (masked : form.Masked)
    {operand : OperandKind × List Char} (member : operand ∈ form.operands) :
    Encode.Restored operand.1 operand.2 (form.pattern.decode word)
      (form.pattern.decode (form.reassembled word)) := by
  refine ⟨fun letter inside other => ?_, fun isMask n r s knownN knownR knownS => ?_⟩
  · refine lookup_reassembled compiled masked fun op same => ?_
    subst same
    exact other.elim (fun noMask => noMask (masked.rotation op operand member inside)) fun no => no rfl
  · have op := masked.op operand member isMask
    obtain ⟨positionsN, positionsR, positionsS⟩ := masked.positions op
    rw [lookup_decode compiled] at knownN knownR knownS ⊢
    split at knownN
    · split at knownS
      · split at knownR
        · rename_i fieldR
          rw [if_pos fieldR]
          rw [positionsN, BitPattern.gather_contiguous] at knownN
          rw [positionsR, BitPattern.gather_contiguous] at knownR ⊢
          rw [positionsS, BitPattern.gather_contiguous] at knownS
          obtain rfl := Option.some.inj knownN
          obtain rfl := Option.some.inj knownR
          obtain rfl := Option.some.inj knownS
          rw [reassembled, if_pos op]
          exact congrArg some
            (LogicalImmediate.wordRotation_withRotation (LogicalImmediate.rotation_lt word))
        · contradiction
      · contradiction
    · contradiction

/-- The fields of a word have values of their widths. -/
theorem areFields_decode (form : InstructionForm) (word : Nat) :
    Encode.AreFields form (form.pattern.decode word) := by
  intro letter width known
  rw [BitPattern.width?] at known
  obtain ⟨positions, here, rfl⟩ := Option.map_eq_some_iff.mp known
  refine ⟨BitPattern.gather word positions, ?_, BitPattern.gather_lt word positions⟩
  rw [BitPattern.lookup_decode, here]
  rfl

/-- The bits of the width flag say whether the instruction is wide. -/
theorem testBit_flag (compiled : form.pattern.WellFormed)
    (agrees : form.widthAgrees (form.pattern.decode word) = true) :
    ∀ bit ∈ form.flagBits, word.testBit bit = form.isWide (form.pattern.decode word) := by
  intro bit inside
  have flag : 'z' ∈ form.pattern.template :=
    List.mem_reverse.mp (List.mem_of_getElem? (BitPattern.mem_positionsOf.mp inside))
  have narrow := @isWide_decode _ word compiled flag
  rcases (widthAgrees_decode compiled).mp agrees with clear | set
  · rw [clear bit inside, narrow.mpr clear]
  · cases wide : form.isWide (form.pattern.decode word) with
    | true => exact set bit inside
    | false => exact narrow.mp wide bit inside

end InstructionForm

namespace Text

/-- The part of a text in front of its first blank. -/
def beforeBlank (text : String) : String := String.ofList (text.toList.takeWhile (· != ' '))

/-- The part of a text behind its first blank. -/
def behindBlank (text : String) : String :=
  String.ofList ((text.toList.dropWhile (· != ' ')).drop 1)

/-- A word without blanks is in front of the first blank. -/
theorem beforeBlank_eq {word : String} (unbroken : ' ' ∉ word.toList) :
    beforeBlank word = word ∧ ∀ rest, beforeBlank (word ++ " " ++ rest) = word := by
  have passes : ∀ c ∈ word.toList, (c != ' ') = true := fun c inside => by
    simp only [bne_iff_ne]
    rintro rfl
    exact unbroken inside
  constructor
  · rw [beforeBlank, ← List.append_nil word.toList, List.takeWhile_append_of_pos passes]
    simp
  · intro rest
    rw [beforeBlank, String.toList_append, String.toList_append, List.append_assoc,
      List.takeWhile_append_of_pos passes]
    simp

/-- What follows a word and a blank is behind the first blank. -/
theorem behindBlank_eq {word : String} (unbroken : ' ' ∉ word.toList) :
    behindBlank word = "" ∧ ∀ rest, behindBlank (word ++ " " ++ rest) = rest := by
  have passes : ∀ c ∈ word.toList, (c != ' ') = true := fun c inside => by
    simp only [bne_iff_ne]
    rintro rfl
    exact unbroken inside
  constructor
  · rw [behindBlank, ← List.append_nil word.toList, List.dropWhile_append_of_pos passes]
    rfl
  · intro rest
    rw [behindBlank, String.toList_append, String.toList_append, List.append_assoc,
      List.dropWhile_append_of_pos passes]
    simp

end Text

namespace InstructionSet

open OpcodeTable (groupsFrom)

/-- Every form can be taken apart into printed operands and put together again. -/
theorem reprintable : ∀ form ∈ forms, form.Reprintable := by decide +kernel

/-- Every form has its masked immediate where its operation has it. -/
theorem masked : ∀ form ∈ forms, form.Masked := by decide +kernel

/-- No mnemonic has a blank. -/
theorem unbroken : ∀ form ∈ forms, ' ' ∉ form.mnemonic.toList := by decide +kernel

/-- Every entry leaves to the later ones of its mnemonic what they print. -/
theorem entries_leave : ∀ group ∈ groupsFrom 0 definitions,
    group.2.Pairwise fun earlier later =>
      later.form?.all (fun form => Encode.leavesTo earlier form) = true := by
  decide +kernel

/-- A form stands among the entries of its mnemonic behind entries that leave to it what it
prints. -/
theorem exists_earlier {form : InstructionForm} (member : form ∈ forms) :
    ∃ earlier later, Codec.a64.table.entries form.mnemonic = earlier ++ .implemented form :: later ∧
      ∀ entry ∈ earlier, Encode.leavesTo entry form = true ∧
        ∀ other, entry = .implemented other → other ∈ forms := by
  rw [← decodeOrder_table] at member
  have inside := builtFrom_table.mem_decodeOrder_iff.mp member
  rw [table_a64]
  obtain ⟨earlier, later, split⟩ := List.append_of_mem inside
  refine ⟨earlier, later, split, fun entry before => ⟨?_, fun other same => ?_⟩⟩
  · rw [OpcodeTable.entries, builtFrom_table.groups] at split
    cases found : (groupsFrom 0 definitions).lookup form.mnemonic with
    | none =>
      rw [found] at split
      simp at split
    | some group =>
      rw [found, Option.getD_some] at split
      have leave := entries_leave _ (OpcodeTable.mem_of_lookup found)
      rw [split, List.pairwise_append] at leave
      exact leave.2.2 entry before _ List.mem_cons_self
  · rw [← decodeOrder_table]
    have among : .implemented other ∈ table.entries form.mnemonic := by
      rw [split, ← same]
      exact List.mem_append_left _ before
    exact (builtFrom_table.of_mem_entries among).1

/-- The text of an instruction is its mnemonic and, behind a blank, the texts of its operands. -/
theorem text_of_arePrinted {instruction : Instruction} (sound : instruction.form.Sound)
    {target : Fields} {printed : List Encode.PrintedAs}
    (same : printed.map Prod.fst = instruction.form.operands)
    (prints : Encode.ArePrinted instruction.form instruction.address
      (instruction.form.pattern.decode (Instruction.wordBits instruction.word))
      (instruction.form.isWide
        (instruction.form.pattern.decode (Instruction.wordBits instruction.word)))
      target printed) :
    instruction.text = .ok (if printed.isEmpty then instruction.form.mnemonic
      else instruction.form.mnemonic ++ " " ++
        ", ".intercalate ((printed.map Prod.snd).map Spelling.text)) := by
  have shape : instruction.form.shape.zip instruction.form.roles =
      printed.map fun operand => (operand.1.1.code, operand.1.2) := by
    rw [sound.shape, ← same, List.map_map]
    rfl
  rw [Instruction.text]
  simp only [shape]
  rw [ok_bind (Encode.allOperands_text prints)]
  cases printed <;> rfl

/-- The text of a decoded word is split at its first blank into the mnemonic and the operands. -/
theorem split_text {mnemonic : String} (unbroken : ' ' ∉ mnemonic.toList)
    (printed : List Encode.PrintedAs) {text : String}
    (same : text = if printed.isEmpty then mnemonic
      else mnemonic ++ " " ++ ", ".intercalate ((printed.map Prod.snd).map Spelling.text)) :
    Text.beforeBlank text = mnemonic ∧
      Text.behindBlank text = ", ".intercalate ((printed.map Prod.snd).map Spelling.text) := by
  obtain ⟨alone, front⟩ := Text.beforeBlank_eq unbroken
  obtain ⟨alone', behind⟩ := Text.behindBlank_eq unbroken
  subst same
  cases printed with
  | nil => exact ⟨alone, alone'⟩
  | cons operand rest => exact ⟨front _, behind _⟩

/-- A decoded instruction prints all its operands. -/
theorem exists_arePrinted_of_decode {word address : Int} {instruction : Instruction}
    (decoded : Codec.a64.decode word address = .ok (some instruction)) :
    ∃ printed, printed.map Prod.fst = instruction.form.operands ∧
      Encode.ArePrinted instruction.form instruction.address
        (instruction.form.pattern.decode (Instruction.wordBits instruction.word))
        (instruction.form.isWide
          (instruction.form.pattern.decode (Instruction.wordBits instruction.word)))
        (instruction.form.pattern.decode
          (instruction.form.reassembled (Instruction.wordBits instruction.word))) printed := by
  obtain ⟨⟨before, behind, order, _, accepted, admitted⟩, _, sameWord, _⟩ := decode_eq_some decoded
  have member : instruction.form ∈ forms := by
    rw [← decodeOrder_table, ← table_a64, order]
    simp
  have compiled := (checked member).wellFormed
  rw [← sameWord] at admitted
  refine Encode.exists_arePrinted (sound _ member) (reprintable _ member)
    (InstructionForm.areFields_decode _ _) admitted (fun absent => ?_) fun operand inside =>
      InstructionForm.restored_reassembled compiled (masked _ member) inside
  rw [InstructionForm.lookup_decode compiled, if_neg fun both => absent both.1]

/-- The operands that a form prints are read back. -/
theorem parse_of_arePrinted {form : InstructionForm} (member : form ∈ forms) {here : Int}
    {fields target : Fields} {wide : Bool} {printed : List Encode.PrintedAs}
    (same : printed.map Prod.fst = form.operands)
    (prints : Encode.ArePrinted form here fields wide target printed) (offset : Int) :
    ∃ operands,
      Operand.parse (", ".intercalate ((printed.map Prod.snd).map Spelling.text)) offset =
          .ok operands ∧
        Spelling.ReadsAll (printed.map Prod.snd) operands := by
  refine Operand.parse_intercalate (fun spelling inside => ?_) (fun spelling inside => ?_) offset
  · obtain ⟨operand, among, rfl⟩ := List.mem_map.mp inside
    exact (prints operand among).valid
  · rw [← List.map_dropLast] at inside
    obtain ⟨operand, among, rfl⟩ := List.mem_map.mp inside
    refine (prints operand (List.dropLast_subset _ among)).shapes.exists_plain ?_
    refine (reprintable _ member).addresses operand.1 ?_
    rw [← same, ← List.map_dropLast]
    exact List.mem_map_of_mem among

/-- Operands that are read for what a form prints are taken by it, behind the entries of its mnemonic
that come before it. -/
theorem takes_of_reads {form : InstructionForm} {word : Nat} {address : Int}
    (member : form ∈ forms) (small : word < 2 ^ 32) (accepted : form.pattern.accepts word = true)
    (agrees : form.widthAgrees (form.pattern.decode word) = true)
    {printed : List Encode.PrintedAs} (same : printed.map Prod.fst = form.operands)
    (prints : Encode.ArePrinted form address (form.pattern.decode word)
      (form.isWide (form.pattern.decode word)) (form.pattern.decode (form.reassembled word)) printed)
    {operands : List Operand} (reads : Spelling.ReadsAll (printed.map Prod.snd) operands) :
    Encode.Takes address (Codec.addressOnly address) operands
      (Codec.a64.table.entries form.mnemonic) form (form.reassembled word) := by
  have check := checked member
  have compiled := check.wellFormed
  have maskedForm := masked _ member
  obtain ⟨earlier, later, entries, leave⟩ := exists_earlier member
  refine ⟨earlier, later, entries, fun entry inside => ?_, ?_, ?_⟩
  · exact Encode.passes_of_leavesTo
      (fun other isOther => sound other ((leave entry inside).2 other isOther))
      (leave entry inside).1 same prints reads
  · exact Encode.fitsAll_of_reads (sound _ member) check.roles same prints reads
  · exact Encode.formWord_of_reads (sound _ member) (reprintable _ member) compiled check.bits
      (InstructionForm.reassembled_lt small)
      (InstructionForm.accepts_reassembled compiled maskedForm accepted)
      (fun bit inside => (InstructionForm.flags_reassembled maskedForm bit inside).trans
        (InstructionForm.testBit_flag compiled agrees bit inside)) same prints
      (fun operand inside => InstructionForm.restored_reassembled compiled maskedForm inside) reads

/-- The operands that a form prints are read back as operands that it takes, behind the entries of
its mnemonic that come before it. -/
theorem takes_of_arePrinted {form : InstructionForm} {word : Nat} {address : Int}
    (member : form ∈ forms) (small : word < 2 ^ 32) (accepted : form.pattern.accepts word = true)
    (agrees : form.widthAgrees (form.pattern.decode word) = true)
    {printed : List Encode.PrintedAs} (same : printed.map Prod.fst = form.operands)
    (prints : Encode.ArePrinted form address (form.pattern.decode word)
      (form.isWide (form.pattern.decode word)) (form.pattern.decode (form.reassembled word)) printed) :
    ∃ operands,
      Operand.parse (", ".intercalate ((printed.map Prod.snd).map Spelling.text)) 0 = .ok operands ∧
        Encode.Takes address (Codec.addressOnly address) operands
          (Codec.a64.table.entries form.mnemonic) form (form.reassembled word) := by
  obtain ⟨operands, parsed, reads⟩ := parse_of_arePrinted member same prints 0
  exact ⟨operands, parsed, takes_of_reads member small accepted agrees same prints reads⟩

/-- Disassembling a word and assembling the text gives the word back, and where it has a masked
immediate the word whose rotation is reduced to the size of the element, which denotes the same
masks. -/
theorem encode_text_of_decode {word : Nat} {address : Int} {instruction : Instruction}
    (small : word < 2 ^ 32)
    (decoded : Codec.a64.decode word address = .ok (some instruction)) :
    ∃ text operands word', instruction.text = .ok text ∧
      Operand.parse (Text.behindBlank text) 0 = .ok operands ∧
      Codec.a64.encode (Text.beforeBlank text) operands address (Codec.addressOnly address) =
        .ok word' ∧
      (instruction.form.op ≠ .logicImmediate → word' = word) ∧
      (instruction.form.op = .logicImmediate →
        word' = LogicalImmediate.withRotation word (LogicalImmediate.wordRotation word %
          LogicalImmediate.ringSize (LogicalImmediate.wordN word) (LogicalImmediate.wordRun word)) ∧
        ∀ size, LogicalImmediate.wordMasks word' size = LogicalImmediate.wordMasks word size) := by
  obtain ⟨isFirst, sameAddress, sameWord, _⟩ := decode_eq_some decoded
  obtain ⟨before, behind, order, _, accepted, admitted⟩ := isFirst
  have member : instruction.form ∈ forms := by
    rw [← decodeOrder_table, ← table_a64, order]
    simp
  have bits : Instruction.wordBits word = word := Bits.wrap_of_lt small
  rw [bits] at accepted admitted
  have compiled := (checked member).wellFormed
  have flagless : 'z' ∉ instruction.form.pattern.template →
      (instruction.form.pattern.decode word).lookup 'z' = none := by
    intro absent
    rw [InstructionForm.lookup_decode compiled, if_neg fun both => absent both.1]
  obtain ⟨printed, same, prints⟩ := @Encode.exists_arePrinted _ address _ _ (sound _ member)
    (reprintable _ member) (InstructionForm.areFields_decode _ word) admitted flagless
    fun operand inside => InstructionForm.restored_reassembled compiled (masked _ member) inside
  have agrees := ((InstructionForm.admits_eq_true (sound _ member)).mp admitted).1
  obtain ⟨operands, parsed, takes⟩ := takes_of_arePrinted member small accepted agrees same prints
  have text := @text_of_arePrinted instruction (sound _ member) _ printed same
    (by rw [sameWord, bits, sameAddress]; exact prints)
  obtain ⟨mnemonic, rest⟩ := split_text (unbroken _ member) printed rfl
  refine ⟨_, operands, instruction.form.reassembled word, text, rest.symm ▸ parsed, ?_, ?_, ?_⟩
  · rw [mnemonic]
    exact Codec.encode_eq_ok.mpr ⟨instruction.form, takes⟩
  · intro other
    rw [InstructionForm.reassembled, if_neg other]
  · intro op
    rw [InstructionForm.reassembled, if_pos op]
    exact ⟨rfl, LogicalImmediate.wordMasks_reduceRotation word⟩

/-- The word of an immediate of elements of four bits whose rotation is four loses its rotation. -/
theorem reassembled_rotation :
    ∃ instruction, Codec.a64.decode 0x1204e020 0 = .ok (some instruction) ∧
      instruction.form.op = .logicImmediate ∧
      ∃ text operands, instruction.text = .ok text ∧
        Operand.parse (Text.behindBlank text) 0 = .ok operands ∧
        Codec.a64.encode (Text.beforeBlank text) operands 0 (Codec.addressOnly 0) =
          .ok 0x1200e020 := by
  have found : ((OpcodeTable.firstForm InstructionForm.admits 0x1204e020 forms).toOption.join.map
      fun first => first.1.op) = some .logicImmediate := by
    decide +kernel
  obtain ⟨⟨form, fields⟩, known, op⟩ := Option.map_eq_some_iff.mp found
  obtain ⟨isFirst, _⟩ := OpcodeTable.firstForm_eq_some.mp
    (toOption_eq_some.mp (Option.join_eq_some_iff.mp known))
  rw [← decodeOrder_table, ← table_a64] at isFirst
  obtain ⟨instruction, decoded, rfl⟩ := @decode_of_isFirst _ 0x1204e020 _ 0 isFirst
  obtain ⟨text, operands, word, printed, parsed, encoded, _, rotated⟩ :=
    encode_text_of_decode (by decide) decoded
  obtain rfl : word = 0x1200e020 := (rotated op).1.trans (by decide +kernel)
  exact ⟨instruction, decoded, op, text, operands, printed, parsed, encoded⟩

end InstructionSet

end A64Machine
