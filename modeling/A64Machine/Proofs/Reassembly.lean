import A64Machine.Proofs.FormWord
import A64Machine.Proofs.PrintedAddress
import A64Machine.Proofs.PrintedImmediate

/-!
# A form makes its word out of its printed operands

The operands that a form prints for the fields of a word are encoded one after the other, and each
of them tells what the later ones need to know. In the end every field holds what was printed, so
the form makes the word again, or the same word with a reduced rotation.
-/

namespace A64Machine

open InstructionForm (Agree dataSize)

namespace OperandKind

/-- Whether the kinds of the operands in front of one have told what it needs to know. -/
def isReady (form : InstructionForm) (seen : List OperandKind) (kind : OperandKind) : Bool :=
  (!kind.needsWidth form || seen.contains .register) &&
    kind.companion?.all (fun companion => seen.contains companion) &&
      (!kind.setsLowest || !seen.any setsLowest)

/-- Whether every operand stands behind those that tell what it needs to know. -/
def areOrdered (form : InstructionForm) :
    (seen : List OperandKind) → List (OperandKind × List Char) → Bool
  | _, [] => true
  | seen, (kind, _) :: rest => isReady form seen kind && areOrdered form (kind :: seen) rest

/-- The lowest bit of a bitfield is written as a rotation. -/
theorem mem_letters_of_setsLowest {kind : OperandKind} (sets : kind.setsLowest = true)
    (role : List Char) : 'r' ∈ kind.letters role := by
  cases kind <;> first | exact List.mem_cons_self | contradiction

end OperandKind

namespace InstructionForm

/-- What taking a form apart into printed operands and putting it together again rely on. -/
structure Reprintable (form : InstructionForm) : Prop where
  /-- Every operand can be printed and read back. -/
  printable : ∀ operand ∈ form.operands, form.Printable operand.1 operand.2
  /-- Every operand stands behind those that tell what it needs to know. -/
  ordered : OperandKind.areOrdered form [] form.operands = true
  /-- The width of a bitfield comes with its lowest bit. -/
  companions : ∀ operand ∈ form.operands,
    operand.1.companion?.all (fun other => form.operands.any fun operand => operand.1 == other) = true
  /-- Every field but the width flag is set by an operand. -/
  covered : ∀ letter ∈ form.pattern.template, BitPattern.isLiteral letter = true ∨ letter = 'z' ∨
    ∃ operand ∈ form.operands, letter ∈ operand.1.letters operand.2
  /-- The width flag is told by a register. -/
  flagged : 'z' ∈ form.pattern.template → ∃ operand ∈ form.operands, operand.1 = .register
  /-- A form that tests a bit has no width flag. -/
  unflagged : (∃ operand ∈ form.operands, operand.1 = .bitNumber) → 'z' ∉ form.pattern.template
  /-- Only the last operand is an address. -/
  addresses : ∀ operand ∈ form.operands.dropLast, operand.1.isAddress = false

instance (form : InstructionForm) (kind : OperandKind) (role : List Char) :
    Decidable (form.Printable kind role) :=
  decidable_of_iff (_ ∧ _ ∧ _ ∧ _ ∧ _ ∧ _ ∧ _)
    ⟨fun ⟨fields, distance, named, single, moves, position, access⟩ =>
      ⟨fields, distance, named, single, moves, position, access⟩,
      fun ⟨fields, distance, named, single, moves, position, access⟩ =>
        ⟨fields, distance, named, single, moves, position, access⟩⟩

instance (form : InstructionForm) : Decidable form.Reprintable :=
  decidable_of_iff (_ ∧ _ ∧ _ ∧ _ ∧ _ ∧ _ ∧ _)
    ⟨fun ⟨printable, ordered, companions, covered, flagged, unflagged, addresses⟩ =>
      ⟨printable, ordered, companions, covered, flagged, unflagged, addresses⟩,
      fun ⟨printable, ordered, companions, covered, flagged, unflagged, addresses⟩ =>
        ⟨printable, ordered, companions, covered, flagged, unflagged, addresses⟩⟩

end InstructionForm

namespace Encode

variable {form : InstructionForm} {here : Int} {fields target : Fields} {wide : Bool}

/-- What is encoded with the printed fields is encoded with fields that are the same. -/
theorem Prints.congr {kind : OperandKind} {role : List Char} {spelling : Spelling}
    (prints : Prints form here kind role fields wide fields spelling)
    (same : ∀ letter ∈ kind.letters role, target.lookup letter = fields.lookup letter) :
    Prints form here kind role fields wide target spelling := by
  refine ⟨prints.text, prints.valid, prints.shapes, fun operand reads draft ready => ?_,
    prints.refused⟩
  obtain ⟨after, encoded, holds⟩ := prints.encodes operand reads draft ready
  refine ⟨after, encoded, fun letter inside => ?_, holds.width, fun sets r known => ?_⟩
  · obtain ⟨given, known, set⟩ := holds.agree letter inside
    exact ⟨given, (same letter inside).trans known, set⟩
  · have inside := OperandKind.mem_letters_of_setsLowest sets role
    exact holds.lowest sets r ((same 'r' inside).symm.trans known)

/-- Every admitted operand of a form is printed and read back. -/
theorem exists_prints {kind : OperandKind} {role : List Char} (printable : form.Printable kind role)
    (areFields : AreFields form fields)
    (admitted : InstructionForm.admitsOperand form.mnemonic fields (dataSize wide) kind role =
      .ok true)
    (positions : form.positionsFit fields (dataSize wide) = true)
    (narrow : kind = .bitNumber → wide = false → ∀ bit, fields.lookup 'b' = some bit → bit < 32)
    (companion : ∀ other, kind.companion? = some other → ∃ role',
      InstructionForm.admitsOperand form.mnemonic fields (dataSize wide) other role' = .ok true)
    (restored : Restored kind role fields target) :
    ∃ spelling, Prints form here kind role fields wide target spelling := by
  by_cases masked : kind = .bitmask
  · subst masked
    exact prints_bitmask printable areFields admitted restored
  · obtain ⟨spelling, prints⟩ :
        ∃ spelling, Prints form here kind role fields wide fields spelling := by
      cases kind with
      | register => exact prints_register printable areFields (.inl rfl) admitted
      | wideRegister => exact prints_register printable areFields (.inr (.inl rfl)) admitted
      | halfRegister => exact prints_register printable areFields (.inr (.inr rfl)) admitted
      | extended => exact prints_extended printable areFields admitted
      | shifted => exact prints_shifted printable areFields (.inl rfl) admitted
      | arithmeticShifted => exact prints_shifted printable areFields (.inr rfl) admitted
      | immediate => exact prints_immediate printable areFields
      | shiftAmount => exact prints_shiftAmount printable areFields positions
      | arithmeticImmediate => exact prints_arithmeticImmediate printable areFields
      | bitmask => contradiction
      | wide => exact prints_wide printable areFields admitted
      | invertedWide => exact prints_invertedWide printable areFields admitted
      | branchTarget => exact prints_branchTarget printable areFields
      | byteTarget => exact prints_byteTarget printable areFields
      | pageTarget => exact prints_pageTarget printable areFields
      | leftShift => exact prints_leftShift printable areFields positions admitted
      | insertLow => exact prints_insertLow printable areFields positions
      | insertWidth =>
        obtain ⟨role', admitted'⟩ := companion .insertLow rfl
        exact prints_insertWidth printable areFields positions admitted'
      | extractLow => exact prints_extractLow printable areFields positions
      | extractWidth =>
        obtain ⟨role', admitted'⟩ := companion .extractLow rfl
        exact prints_extractWidth printable areFields positions admitted'
      | bitNumber => exact prints_bitNumber printable areFields (narrow rfl)
      | scaledAddress => exact prints_offsetAddress printable areFields (.inl rfl)
      | unscaledAddress => exact prints_offsetAddress printable areFields (.inr rfl)
      | preIndexed => exact prints_preIndexed printable areFields
      | postIndexed => exact prints_postIndexed printable areFields
      | registerIndexed => exact prints_registerIndexed printable areFields admitted
    exact ⟨spelling, prints.congr fun letter inside => restored.same letter inside (.inl masked)⟩

/-! ### One operand after the other -/

/-- What operands of some kinds have told about the instruction. -/
structure Told (seen : List OperandKind) (fields : Fields) (wide : Bool) (draft : Draft) : Prop where
  /-- The width is not another one. -/
  compatible : ∀ known, draft.wide = some known → known = wide
  /-- A register has told the width. -/
  width : .register ∈ seen → draft.wide = some wide
  /-- The lowest bit of a bitfield has been told. -/
  lowest : ∀ kind ∈ seen, kind.setsLowest = true → ∀ r, fields.lookup 'r' = some r →
    draft.lowest = kind.lowestBit wide r

/-- Nothing is told at first. -/
theorem told_empty : Told [] fields wide .empty :=
  ⟨fun _ impossible => by contradiction, fun impossible => by contradiction,
    fun _ impossible => by contradiction⟩

/-- What an operand needs to know has been told. -/
theorem Told.ready {seen : List OperandKind} {kind : OperandKind} {draft : Draft}
    (told : Told seen fields wide draft) (isReady : kind.isReady form seen = true) :
    Ready form kind fields wide draft := by
  simp only [OperandKind.isReady, Bool.and_eq_true, Bool.or_eq_true, Bool.not_eq_true'] at isReady
  obtain ⟨⟨width, companion⟩, _⟩ := isReady
  refine ⟨told.compatible, fun needed => ?_, fun needed r known => ?_⟩
  · rw [needed] at width
    exact told.width (List.contains_iff_mem.mp (width.resolve_left (by simp)))
  · cases kind with
    | insertWidth =>
      exact told.lowest .insertLow (List.contains_iff_mem.mp companion) rfl r known
    | extractWidth =>
      exact told.lowest .extractLow (List.contains_iff_mem.mp companion) rfl r known
    | _ => contradiction

/-- What an encoded operand tells is told besides what was told before. -/
theorem Told.cons {seen : List OperandKind} {kind : OperandKind} {role : List Char}
    {before after : Draft} (told : Told seen fields wide before)
    (isReady : kind.isReady form seen = true) (extended : Extends kind role before after)
    (register : kind = .register → after.wide = some wide)
    (lowest : kind.setsLowest = true → ∀ r, fields.lookup 'r' = some r →
      after.lowest = kind.lowestBit wide r) : Told (kind :: seen) fields wide after := by
  simp only [OperandKind.isReady, Bool.and_eq_true, Bool.or_eq_true, Bool.not_eq_true'] at isReady
  obtain ⟨_, single⟩ := isReady
  have width := extended.wide
  refine ⟨fun known set => ?_, fun inside => ?_, List.forall_mem_cons.mpr
    ⟨lowest, fun other inside sets r known => ?_⟩⟩
  · by_cases isRegister : kind = .register
    · rw [register isRegister] at set
      exact (Option.some.inj set).symm
    · rw [if_neg isRegister] at width
      exact told.compatible known (width ▸ set)
  · by_cases isRegister : kind = .register
    · exact register isRegister
    · rw [if_neg isRegister] at width
      rw [width]
      exact told.width ((List.mem_cons.mp inside).resolve_left fun same => isRegister same.symm)
  · have kept : kind.setsLowest = false := by
      rcases single with kept | none
      · exact kept
      · rw [List.any_eq_false] at none
        exact absurd sets (none other inside)
    rw [extended.lowest kept]
    exact told.lowest other inside sets r known

/-- An operand of a form with the spelling that it is printed as. -/
abbrev PrintedAs := (OperandKind × List Char) × Spelling

/-- The operands are printed as their spellings. -/
def ArePrinted (form : InstructionForm) (here : Int) (fields : Fields) (wide : Bool)
    (target : Fields) (printed : List PrintedAs) : Prop :=
  ∀ operand ∈ printed,
    Prints form here operand.1.1 operand.1.2 fields wide target operand.2

/-- Operands that are read from their spellings are encoded with the printed fields. -/
theorem exists_allOperands {printed : List PrintedAs} {list : List Operand}
    {seen : List OperandKind} {before : Draft}
    (prints : ArePrinted form here fields wide target printed)
    (restored : ∀ operand ∈ printed, Restored operand.1.1 operand.1.2 fields target)
    (reads : Spelling.ReadsAll (printed.map Prod.snd) list)
    (ordered : OperandKind.areOrdered form seen (printed.map Prod.fst) = true)
    (apart : (printed.map Prod.fst).Pairwise OperandKind.Apart)
    (told : Told seen fields wide before) :
    ∃ after, allOperands form here (Codec.addressOnly here) before
        (printed.map fun operand => (operand.1.1.code, operand.1.2)) list = .ok after ∧
      (∀ letter, (∀ operand ∈ printed, letter ∉ operand.1.1.letters operand.1.2) →
        after.values.lookup letter = before.values.lookup letter) ∧
      (∀ operand ∈ printed, ∀ letter ∈ operand.1.1.letters operand.1.2,
        Agree target after letter) ∧
      ((.register ∈ seen ∨ ∃ operand ∈ printed, operand.1.1 = .register) →
        after.wide = some wide) := by
  induction printed generalizing list seen before with
  | nil =>
    refine ⟨before, rfl, fun _ _ => rfl, by simp, fun register => told.width ?_⟩
    simpa using register
  | cons first rest ih =>
    obtain ⟨⟨kind, role⟩, spelling⟩ := first
    obtain ⟨operand, later, rfl, readsFirst, readsLater⟩ := reads
    obtain ⟨printsFirst, printsLater⟩ := List.forall_mem_cons.mp prints
    obtain ⟨restoredFirst, restoredLater⟩ := List.forall_mem_cons.mp restored
    obtain ⟨isReady, ordered⟩ := Bool.and_eq_true_iff.mp ordered
    obtain ⟨apartFirst, apart⟩ := List.pairwise_cons.mp apart
    obtain ⟨middle, encoded, holds⟩ :=
      printsFirst.encodes operand readsFirst before (told.ready isReady)
    have extended : Extends kind role before middle :=
      (operand_spec (OperandKind.ofChar?_code kind) (printsFirst.shapes.fits readsFirst) encoded).1
    have told' : Told (kind :: seen) fields wide middle := by
      refine told.cons isReady extended holds.width fun sets r known => ?_
      have plain : kind ≠ .bitmask := by
        intro masked
        rw [masked] at sets
        contradiction
      have same := restoredFirst.same 'r' (OperandKind.mem_letters_of_setsLowest sets role) (.inl plain)
      exact holds.lowest sets r (same.trans known)
    obtain ⟨after, gathered, frame, agree, width⟩ :=
      ih printsLater restoredLater readsLater ordered apart told'
    refine ⟨after, ?_, fun letter outside => ?_, List.forall_mem_cons.mpr
      ⟨fun letter inside => ?_, agree⟩, fun register => width ?_⟩
    · rw [List.map_cons, allOperands, ok_bind encoded, gathered]
    · obtain ⟨here, there⟩ := List.forall_mem_cons.mp outside
      rw [frame letter there, extended.frame letter here]
    · obtain ⟨given, known, set⟩ := holds.agree letter inside
      refine ⟨given, known, (frame letter fun other member => ?_).trans set⟩
      exact (apartFirst other.1 (List.mem_map_of_mem member)).letters letter inside
    · rcases register with before | ⟨other, member, register⟩
      · exact .inl (List.mem_cons_of_mem _ before)
      · rcases List.mem_cons.mp member with rfl | later
        · exact .inl (register ▸ List.mem_cons_self)
        · exact .inr ⟨other, later, register⟩

/-- The texts of printed operands are those of their spellings. -/
theorem allOperands_text {printed : List PrintedAs}
    (prints : ArePrinted form here fields wide target printed) :
    Disassembly.allOperands form fields wide here
        (printed.map fun operand => (operand.1.1.code, operand.1.2)) =
      .ok ((printed.map Prod.snd).map Spelling.text) := by
  induction printed with
  | nil => rfl
  | cons operand rest ih =>
    obtain ⟨here, later⟩ := List.forall_mem_cons.mp prints
    rw [List.map_cons, Disassembly.allOperands]
    simp only [OperandKind.ofChar?_code]
    rw [ok_bind here.text, ok_bind (ih later)]
    rfl

/-- Operands that are read from printed spellings fit the kinds that they were printed for. -/
theorem fitsEach_of_reads {printed : List PrintedAs} {list : List Operand}
    (prints : ArePrinted form here fields wide target printed)
    (reads : Spelling.ReadsAll (printed.map Prod.snd) list) :
    OperandKind.fitsEach ((printed.map fun operand => operand.1.1.code).zip list) = .ok true := by
  induction printed generalizing list with
  | nil => rfl
  | cons operand rest ih =>
    obtain ⟨next, later, rfl, readsHere, readsLater⟩ := reads
    obtain ⟨here, printsLater⟩ := List.forall_mem_cons.mp prints
    exact OperandKind.fitsEach_cons.mpr ⟨here.shapes.fits readsHere, ih printsLater readsLater⟩

/-- There are as many operands as spellings that they are read from. -/
theorem length_of_readsAll {spellings : List Spelling} {list : List Operand}
    (reads : Spelling.ReadsAll spellings list) : list.length = spellings.length := by
  induction spellings generalizing list with
  | nil =>
    obtain rfl := reads
    rfl
  | cons spelling rest ih =>
    obtain ⟨next, later, rfl, _, readsLater⟩ := reads
    rw [List.length_cons, List.length_cons, ih readsLater]

/-- Operands that are read from all that a form prints fit the form. -/
theorem fitsAll_of_reads (sound : form.Sound) (roles : form.roles.length = form.shape.length)
    {printed : List PrintedAs} (same : printed.map Prod.fst = form.operands)
    (prints : ArePrinted form here fields wide target printed) {list : List Operand}
    (reads : Spelling.ReadsAll (printed.map Prod.snd) list) :
    OperandKind.fitsAll form.shape list = .ok true := by
  have codes : form.shape = printed.map fun operand => operand.1.1.code := by
    have zipped := congrArg (List.map Prod.fst) sound.shape
    rw [List.map_fst_zip (Nat.le_of_eq roles.symm), ← same, List.map_map, List.map_map] at zipped
    exact zipped
  rw [OperandKind.fitsAll, codes, List.length_map, if_pos]
  · exact fitsEach_of_reads prints reads
  · rw [length_of_readsAll reads, List.length_map]

/-! ### The word of the form -/

/-- A form whose fields are admitted prints all its operands. -/
theorem exists_arePrinted (sound : form.Sound) (reprintable : form.Reprintable)
    (areFields : AreFields form fields) (admitted : form.admits fields = .ok true)
    (flagless : 'z' ∉ form.pattern.template → fields.lookup 'z' = none)
    (restored : ∀ operand ∈ form.operands, Restored operand.1 operand.2 fields target) :
    ∃ printed, printed.map Prod.fst = form.operands ∧
      ArePrinted form here fields (form.isWide fields) target printed := by
  obtain ⟨_, positions, met⟩ := (InstructionForm.admits_eq_true sound).mp admitted
  have each : ∀ operand ∈ form.operands, ∃ spelling,
      Prints form here operand.1 operand.2 fields (form.isWide fields) target spelling := by
    intro operand member
    refine exists_prints (reprintable.printable operand member) areFields (met operand member)
      positions (fun tests narrow bit known => ?_) (fun other isCompanion => ?_)
      (restored operand member)
    · have noFlag := flagless (reprintable.unflagged ⟨operand, member, tests⟩)
      simp only [InstructionForm.isWide, noFlag, known, decide_eq_false_iff_not] at narrow
      omega
    · have companions := reprintable.companions operand member
      rw [isCompanion, Option.all_some, List.any_eq_true] at companions
      obtain ⟨companion, member', same⟩ := companions
      obtain rfl := eq_of_beq same
      exact ⟨_, met companion member'⟩
  generalize form.operands = operands at each
  induction operands with
  | nil => exact ⟨[], rfl, by simp [ArePrinted]⟩
  | cons operand rest ih =>
    obtain ⟨⟨spelling, here⟩, later⟩ := List.forall_mem_cons.mp each
    obtain ⟨printed, same, prints⟩ := ih later
    exact ⟨(operand, spelling) :: printed, by rw [List.map_cons, same],
      List.forall_mem_cons.mpr ⟨here, prints⟩⟩

/-- A form makes a word out of the operands that are read from what it prints, when the printed
fields are those of the word. -/
theorem formWord_of_reads (sound : form.Sound) (reprintable : form.Reprintable)
    (compiled : form.pattern.WellFormed) (bits : form.pattern.bits = 32) {word : Nat}
    (small : word < 2 ^ 32) (accepted : form.pattern.accepts word = true)
    (flags : ∀ bit ∈ form.flagBits, word.testBit bit = wide) {printed : List PrintedAs}
    (same : printed.map Prod.fst = form.operands)
    (prints : ArePrinted form here fields wide (form.pattern.decode word) printed)
    (restored : ∀ operand ∈ form.operands,
      Restored operand.1 operand.2 fields (form.pattern.decode word))
    {list : List Operand} (reads : Spelling.ReadsAll (printed.map Prod.snd) list) :
    formWord form here (Codec.addressOnly here) list = .ok word := by
  have member {operand : PrintedAs} (inside : operand ∈ printed) : operand.1 ∈ form.operands :=
    same ▸ List.mem_map_of_mem inside
  obtain ⟨after, gathered, frame, agree, width⟩ :=
    exists_allOperands prints (fun operand inside => restored operand.1 (member inside)) reads
      (same ▸ reprintable.ordered) (same ▸ sound.apart) told_empty
  have shape : form.shape.zip form.roles =
      printed.map fun operand => (operand.1.1.code, operand.1.2) := by
    rw [sound.shape, ← same, List.map_map]
    rfl
  have unset : after.values.lookup 'z' = none :=
    frame 'z' fun operand inside sets =>
      (sound.letters operand.1 (member inside) 'z' sets).2 rfl
  refine formWord_eq_ok.mpr ⟨after, shape ▸ gathered,
    BitPattern.encode_gather compiled (bits ▸ small) accepted fun letter positions known => ?_⟩
  rw [compiled.positions?_eq] at known
  split at known
  · rename_i field
    obtain ⟨present, symbolic⟩ := field
    obtain rfl := Option.some.inj known
    rw [lookup_withFlag compiled unset]
    by_cases flag : letter = 'z'
    · subst flag
      rw [if_pos ⟨rfl, present⟩]
      obtain ⟨operand, inside, register⟩ := reprintable.flagged present
      obtain ⟨pair, printedHere, rfl⟩ := List.mem_map.mp (same ▸ inside)
      rw [width (.inr ⟨pair, printedHere, register⟩)]
      cases wide with
      | false =>
        have clear : BitPattern.gather word (BitPattern.positionsOf 'z' form.pattern.template) = 0 :=
          BitPattern.gather_eq_zero_iff.mpr flags
        rw [if_pos rfl, clear]
        rfl
      | true =>
        have set : BitPattern.gather word (BitPattern.positionsOf 'z' form.pattern.template) =
            Bits.mask form.flagBits.length := BitPattern.gather_eq_max_iff.mpr flags
        rw [if_neg (by simp), set]
    · rw [if_neg fun both => flag both.1]
      obtain ⟨operand, inside, sets⟩ :=
        ((reprintable.covered letter present).resolve_left (by simp [symbolic])).resolve_left flag
      obtain ⟨pair, printedHere, rfl⟩ := List.mem_map.mp (same ▸ inside)
      obtain ⟨value, read, set⟩ := agree pair printedHere letter sets
      rw [InstructionForm.lookup_decode compiled, if_pos ⟨present, symbolic⟩] at read
      rw [set, Option.some.inj read]
  · contradiction

end Encode

end A64Machine
