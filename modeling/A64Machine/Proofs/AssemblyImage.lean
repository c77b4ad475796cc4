import A64Machine.Proofs.AssemblyEmission
import A64Machine.Proofs.AssemblyLayout
import A64Machine.Proofs.Decodable
import A64Machine.Proofs.DecodeCache
import A64Machine.Proofs.OperandGroups

/-!
# An image is what its lines say

The second pass writes every line where the first pass has placed it. A line writes no more than was
reserved for it, so the lines of a source that never goes back leave each other's bytes alone, and
what a line has written is found in the image. A machine that loads the image fetches the encoded
words.
-/

namespace A64Machine

/-! ### Writes that leave each other alone -/

namespace ImageWrite

/-- A write comes behind another one. -/
def Behind (first second : ImageWrite) : Prop := first.address + first.width ≤ second.address

/-- A write covers a byte of the image. -/
def Covers (write : ImageWrite) (place : Nat) : Prop :=
  write.address ≤ place ∧ place < write.address + write.width

end ImageWrite

namespace Assembler

open Directive Listing

variable {size : Nat} {endianness : Endianness} {symbols : SymbolMap} {image : Array UInt8}
  {writes : List ImageWrite} {write : ImageWrite} {line : SourceLine} {address : Nat}

/-- A write leaves the bytes alone that it does not cover. -/
theorem getElem?_applyWrite (fits : write.address + write.width ≤ image.size) {place : Nat}
    (outside : ¬ write.Covers place) :
    (applyWrite endianness image write)[place]? = image[place]? := by
  rw [applyWrite, Memory.getElem?_overwrite _ (by rwa [Endianness.length_bytesOf]),
    Endianness.length_bytesOf]
  exact if_neg outside

/-- What was just written is found in the image. -/
theorem stretch_applyWrite (fits : write.address + write.width ≤ image.size) :
    Memory.stretch (applyWrite endianness image write) write.address write.width =
      endianness.bytesOf write.width write.value := by
  have laid := @Memory.stretch_overwrite image write.address
    (endianness.bytesOf write.width write.value)
  rw [Endianness.length_bytesOf] at laid
  exact laid fits

/-- Writes leave the bytes alone that none of them covers. -/
theorem getElem?_applyWrites (fits : ∀ write ∈ writes, write.address + write.width ≤ image.size)
    {place : Nat} (outside : ∀ write ∈ writes, ¬ write.Covers place) :
    (writes.foldl (applyWrite endianness) image)[place]? = image[place]? := by
  induction writes generalizing image with
  | nil => rfl
  | cons write rest ih =>
    obtain ⟨here, later⟩ := List.forall_mem_cons.mp fits
    obtain ⟨outsideHere, outsideLater⟩ := List.forall_mem_cons.mp outside
    rw [List.foldl_cons, ih (by rwa [size_applyWrite]) outsideLater,
      getElem?_applyWrite here outsideHere]

/-- What was written is found in the image, if the writes come behind each other. -/
theorem stretch_applyWrites (fits : ∀ write ∈ writes, write.address + write.width ≤ image.size)
    (apart : writes.Pairwise ImageWrite.Behind) (inside : write ∈ writes) :
    Memory.stretch (writes.foldl (applyWrite endianness) image) write.address write.width =
      endianness.bytesOf write.width write.value := by
  induction writes generalizing image with
  | nil => contradiction
  | cons first rest ih =>
    obtain ⟨fitsHere, fitsLater⟩ := List.forall_mem_cons.mp fits
    obtain ⟨apartHere, apartLater⟩ := List.pairwise_cons.mp apart
    have fitsLater : ∀ write ∈ rest,
        write.address + write.width ≤ (applyWrite endianness image first).size := by
      rwa [size_applyWrite]
    rcases List.mem_cons.mp inside with rfl | inside
    · rw [List.foldl_cons, ← stretch_applyWrite fitsHere]
      apply Memory.stretch_congr
      intro place _ below
      apply getElem?_applyWrites fitsLater
      intro other later covers
      have behind := apartHere other later
      unfold ImageWrite.Behind at behind
      exact absurd covers.1 (by omega)
    · exact ih fitsLater apartLater inside

/-! ### What a line writes -/

/-- A write that is allowed lies within the image. -/
theorem write?_eq_ok {at' : Int} {width value : Nat} {span : Span}
    (allowed : write? size at' width value span = .ok write) :
    write = ⟨at'.toNat, width, value⟩ ∧ 0 ≤ at' ∧ at' + width ≤ size := by
  unfold write? at allowed
  split at allowed
  · exact ⟨(Except.ok.inj allowed).symm, ‹_›⟩
  · contradiction

/-- What lies within the image may be written. -/
theorem write?_of_within {width value : Nat} {span : Span} (within : address + width ≤ size) :
    write? size address width value span = .ok ⟨address, width, value⟩ :=
  if_pos (by omega)

/-- A value of a data directive is stored as its lowest bytes. -/
theorem dataValue_eq_ok {width : Nat} {operand : Operand}
    (stored : dataValue size symbols width address operand = .ok write) :
    ∃ given value, operand = .immediate given ∧
      given.value.evaluate (valuesOf symbols) address = .ok value ∧
      write = ⟨address, width, Bits.wrap (8 * width) value⟩ ∧ address + width ≤ size := by
  unfold dataValue at stored
  cases operand with
  | immediate given =>
    obtain ⟨value, valued, stored⟩ := bind_eq_ok.mp stored
    split at stored
    · obtain ⟨rfl, _, fits⟩ := write?_eq_ok stored
      exact ⟨given, value, rfl, valued, rfl, by omega⟩
    · contradiction
  | register given => contradiction
  | address given => contradiction

/-- The values of a data directive are stored one behind the other. -/
theorem dataValues_clean {width : Nat} {operands : List Operand}
    (clean : (dataValues size symbols width address operands).failure = none) :
    (dataValues size symbols width address operands).writes.length = operands.length ∧
      ∀ index operand, operands[index]? = some operand → ∃ given value,
        operand = .immediate given ∧
        given.value.evaluate (valuesOf symbols) (address + index * width : Nat) = .ok value ∧
        (dataValues size symbols width address operands).writes[index]? =
          some ⟨address + index * width, width, Bits.wrap (8 * width) value⟩ ∧
        address + index * width + width ≤ size := by
  induction operands generalizing address with
  | nil => exact ⟨rfl, fun index operand inside => by contradiction⟩
  | cons first rest ih =>
    rw [dataValues] at clean ⊢
    cases stored : dataValue size symbols width address first with
    | error refusal =>
      rw [stored] at clean
      contradiction
    | ok write =>
      rw [stored] at clean
      obtain ⟨count, later⟩ := ih clean
      obtain ⟨given, value, rfl, valued, rfl, fits⟩ := dataValue_eq_ok stored
      refine ⟨congrArg (· + 1) count, fun index operand inside => ?_⟩
      cases index with
      | zero =>
        obtain rfl := Option.some.inj inside
        rw [Nat.zero_mul, Nat.add_zero]
        exact ⟨given, value, rfl, valued, rfl, fits⟩
      | succ index =>
        have next : address + width + index * width = address + (index + 1) * width := by
          rw [Nat.succ_mul]
          omega
        rw [← next]
        exact later index operand inside

/-- An instruction that is assembled is written as its word. -/
theorem instruction_eq_ok {mnemonic : String} {groups : List (List Token)}
    (assembled : instruction size symbols mnemonic groups address = .ok write) :
    address % Instruction.byteLength = 0 ∧ ∃ operands word, Operand.ofGroups groups = .ok operands ∧
      Codec.a64.encode (Text.lower mnemonic) operands address
        (Expression.evaluate (valuesOf symbols) address) = .ok word ∧
      write = ⟨address, Instruction.byteLength, word⟩ ∧
      address + Instruction.byteLength ≤ size := by
  unfold instruction at assembled
  simp only at assembled
  split at assembled
  · contradiction
  · rename_i aligned
    obtain ⟨operands, parsed, assembled⟩ := bind_eq_ok.mp assembled
    obtain ⟨word, encoded, written⟩ := bind_eq_ok.mp assembled
    obtain ⟨same, _, fits⟩ := write?_eq_ok (mapError_eq_ok.mp written)
    refine ⟨by omega, operands, word, mapError_eq_ok.mp parsed, encoded, same, by omega⟩

/-- Data directives are directives that do not change the address. -/
theorem directive_of_elementWidth {mnemonic : String} {width : Nat}
    (isData : elementWidth? mnemonic = some width) :
    isDirective mnemonic = true ∧ isLayout mnemonic = false := by
  have inside := OpcodeTable.mem_of_lookup isData
  simp only [List.mem_cons, Prod.mk.injEq, List.not_mem_nil, or_false] at inside
  rcases inside with ⟨rfl, _⟩ | ⟨rfl, _⟩ | ⟨rfl, _⟩ | ⟨rfl, _⟩ <;> decide

/-- Directives that change the address are directives. -/
theorem directive_of_isLayout {mnemonic : String} (layouts : isLayout mnemonic = true) :
    isDirective mnemonic = true := by
  rw [isLayout, Bool.or_eq_true, beq_iff_eq, beq_iff_eq] at layouts
  rcases layouts with rfl | rfl <;> decide

/-- An instruction is no data directive. -/
theorem elementWidth_of_instruction {mnemonic : String}
    (isInstruction : isDirective mnemonic = false) : elementWidth? mnemonic = none := by
  cases isData : elementWidth? mnemonic with
  | none => rfl
  | some width =>
    rw [(directive_of_elementWidth isData).1] at isInstruction
    contradiction

/-- An instruction moves nothing. -/
theorem isLayout_of_instruction {mnemonic : String} (isInstruction : isDirective mnemonic = false) :
    isLayout mnemonic = false := by
  cases layouts : isLayout mnemonic with
  | false => rfl
  | true =>
    rw [directive_of_isLayout layouts] at isInstruction
    contradiction

/-- A line with an instruction writes its word. -/
theorem emitLine_instruction {mnemonic : String} (named : line.mnemonic = some mnemonic)
    (isInstruction : isDirective mnemonic = false)
    (clean : (emitLine size symbols address line).failure = none) :
    address % Instruction.byteLength = 0 ∧ address + Instruction.byteLength ≤ size ∧
      ∃ operands word, Operand.parse line.operands line.column = .ok operands ∧
        Codec.a64.encode (Text.lower mnemonic) operands address
          (Expression.evaluate (valuesOf symbols) address) = .ok word ∧
        (emitLine size symbols address line).writes =
          [⟨address, Instruction.byteLength, word⟩] := by
  have notLayout : isLayout mnemonic ≠ true := by
    rw [isLayout_of_instruction isInstruction]
    exact Bool.false_ne_true
  have notData := elementWidth_of_instruction isInstruction
  unfold emitLine at clean ⊢
  simp only [named, if_neg notLayout, notData, isInstruction] at clean ⊢
  cases grouped : Token.groups line.operands line.column with
  | error error =>
    simp only [grouped, failed] at clean
    contradiction
  | ok groups =>
    simp only [grouped] at clean ⊢
    cases assembled : instruction size symbols mnemonic groups address with
    | error failure =>
      simp [assembled, failed] at clean
    | ok write =>
      obtain ⟨aligned, operands, word, parsed, encoded, rfl, fits⟩ := instruction_eq_ok assembled
      refine ⟨aligned, fits, operands, word, ?_, encoded, by simp⟩
      rw [Operand.parse, ok_bind grouped, parsed]

/-- There is room for the values of a data directive in the bytes that are reserved for it. -/
theorem length_le_lineSize {mnemonic : String} {width : Nat} {operands : List Operand}
    (named : line.mnemonic = some mnemonic) (isData : elementWidth? mnemonic = some width)
    (parsed : Operand.parse line.operands line.column = .ok operands) :
    operands.length * width ≤ lineSize line := by
  obtain ⟨groups, grouped, parsed⟩ := bind_eq_ok.mp parsed
  rw [lineSize, named]
  simp only [isData, grouped]
  exact Nat.mul_le_mul_right width (Operand.length_ofGroups parsed)

/-- A line with a data directive writes its values. -/
theorem emitLine_data {mnemonic : String} {width : Nat} (named : line.mnemonic = some mnemonic)
    (isData : elementWidth? mnemonic = some width)
    (clean : (emitLine size symbols address line).failure = none) :
    ∃ operands, Operand.parse line.operands line.column = .ok operands ∧
      emitLine size symbols address line = dataValues size symbols width address operands := by
  have notLayout : isLayout mnemonic ≠ true := by
    rw [(directive_of_elementWidth isData).2]
    exact Bool.false_ne_true
  unfold emitLine at clean ⊢
  simp only [named, if_neg notLayout, isData] at clean ⊢
  cases grouped : Token.groups line.operands line.column with
  | error error =>
    simp only [grouped, failed] at clean
    contradiction
  | ok groups =>
    simp only [grouped] at clean ⊢
    by_cases empty : groups.isEmpty = true
    · rw [if_pos empty] at clean
      contradiction
    · rw [if_neg empty] at clean ⊢
      cases parsed : Operand.ofGroups groups with
      | error error =>
        rw [parsed] at clean
        contradiction
      | ok operands =>
        exact ⟨operands, by rw [Operand.parse, ok_bind grouped, parsed], rfl⟩

/-- A line without an instruction or a data directive writes nothing. -/
theorem emitLine_other
    (other : ∀ mnemonic, line.mnemonic = some mnemonic →
      isDirective mnemonic = true ∧ elementWidth? mnemonic = none) :
    (emitLine size symbols address line).writes = [] := by
  unfold emitLine
  cases named : line.mnemonic with
  | none => rfl
  | some mnemonic =>
    obtain ⟨directive, notData⟩ := other mnemonic named
    simp only [notData, directive, if_true]
    split
    · rfl
    · split <;> rfl

/-- The values of a data directive lie one behind the other. -/
theorem dataValues_within {width : Nat} {operands : List Operand}
    (clean : (dataValues size symbols width address operands).failure = none) :
    (∀ write ∈ (dataValues size symbols width address operands).writes,
      address ≤ write.address ∧
        write.address + write.width ≤ address + operands.length * width ∧
        write.address + write.width ≤ size) ∧
      (dataValues size symbols width address operands).writes.Pairwise ImageWrite.Behind := by
  obtain ⟨count, stored⟩ := dataValues_clean clean
  have known : ∀ index (inside :
      index < (dataValues size symbols width address operands).writes.length),
      (dataValues size symbols width address operands).writes[index].address =
          address + index * width ∧
        (dataValues size symbols width address operands).writes[index].width = width ∧
        address + index * width + width ≤ size := by
    intro index inside
    have within : index < operands.length := count ▸ inside
    obtain ⟨_, _, _, _, written, fits⟩ :=
      stored index operands[index] (List.getElem?_eq_getElem within)
    rw [List.getElem?_eq_getElem inside] at written
    rw [Option.some.inj written]
    exact ⟨rfl, rfl, fits⟩
  constructor
  · intro write inside
    obtain ⟨index, short, rfl⟩ := List.getElem_of_mem inside
    obtain ⟨there, wide, fits⟩ := known index short
    have last : (index + 1) * width ≤ operands.length * width :=
      Nat.mul_le_mul_right width (count ▸ short)
    rw [Nat.succ_mul] at last
    rw [there, wide]
    omega
  · apply List.pairwise_iff_getElem.mpr
    intro first second inside inside' before
    obtain ⟨there, wide, _⟩ := known first inside
    obtain ⟨there', _, _⟩ := known second inside'
    have next : (first + 1) * width ≤ second * width := Nat.mul_le_mul_right width before
    rw [Nat.succ_mul] at next
    rw [ImageWrite.Behind, there, wide, there']
    omega

/-- A line with an instruction reserves the bytes of its word. -/
theorem lineSize_instruction {mnemonic : String} (named : line.mnemonic = some mnemonic)
    (isInstruction : isDirective mnemonic = false) : lineSize line = Instruction.byteLength := by
  rw [lineSize, named]
  simp [elementWidth_of_instruction isInstruction, isInstruction]

/-- A line has an instruction, a data directive or neither. -/
theorem line_cases (line : SourceLine) :
    (∀ mnemonic, line.mnemonic = some mnemonic →
        isDirective mnemonic = true ∧ elementWidth? mnemonic = none) ∨
      (∃ mnemonic, line.mnemonic = some mnemonic ∧ isDirective mnemonic = false) ∨
      ∃ mnemonic width, line.mnemonic = some mnemonic ∧ elementWidth? mnemonic = some width := by
  cases named : line.mnemonic with
  | none => exact .inl fun mnemonic same => by contradiction
  | some mnemonic =>
    cases isData : elementWidth? mnemonic with
    | some width => exact .inr (.inr ⟨mnemonic, width, rfl, isData⟩)
    | none =>
      cases directive : isDirective mnemonic with
      | false => exact .inr (.inl ⟨mnemonic, rfl, directive⟩)
      | true =>
        refine .inl ?_
        rintro _ ⟨⟩
        exact ⟨directive, isData⟩

/-- A line writes within the bytes that are reserved for it. -/
theorem emitLine_within (clean : (emitLine size symbols address line).failure = none) :
    (∀ write ∈ (emitLine size symbols address line).writes,
      address ≤ write.address ∧ write.address + write.width ≤ address + lineSize line ∧
        write.address + write.width ≤ size) ∧
      (emitLine size symbols address line).writes.Pairwise ImageWrite.Behind := by
  rcases line_cases line with other | ⟨mnemonic, named, isInstruction⟩ |
    ⟨mnemonic, width, named, isData⟩
  · rw [emitLine_other other]
    exact ⟨fun write inside => by contradiction, .nil⟩
  · obtain ⟨_, fits, _, word, _, _, same⟩ := emitLine_instruction named isInstruction clean
    rw [same, lineSize_instruction named isInstruction]
    refine ⟨fun write inside => ?_, List.pairwise_singleton _ _⟩
    rw [List.mem_singleton.mp inside]
    exact ⟨Nat.le_refl _, Nat.le_refl _, fits⟩
  · obtain ⟨operands, parsed, same⟩ := emitLine_data named isData clean
    have room := length_le_lineSize named isData parsed
    rw [same] at clean ⊢
    obtain ⟨within, apart⟩ := dataValues_within clean
    refine ⟨fun write inside => ?_, apart⟩
    obtain ⟨above, below, fits⟩ := within write inside
    omega

/-! ### What all lines write -/

/-- The writes of the lines of a listing. -/
def writesOf (size : Nat) (symbols : SymbolMap) (listed : Listing) : List ImageWrite :=
  listed.flatMap fun entry => (emitLine size symbols entry.2 entry.1).writes

/-- Lines that are placed behind each other write behind each other. -/
theorem writesOf_within {listed : Listing}
    (clean : ∀ entry ∈ listed, (emitLine size symbols entry.2 entry.1).failure = none)
    (apart : listed.Pairwise fun first second => first.2 + lineSize first.1 ≤ second.2) :
    (∀ write ∈ writesOf size symbols listed, write.address + write.width ≤ size) ∧
      (writesOf size symbols listed).Pairwise ImageWrite.Behind := by
  constructor
  · intro write inside
    obtain ⟨entry, among, inside⟩ := List.mem_flatMap.mp inside
    exact ((emitLine_within (clean entry among)).1 write inside).2.2
  · apply List.pairwise_flatMap.mpr
    refine ⟨fun entry among => (emitLine_within (clean entry among)).2, ?_⟩
    apply apart.imp_of_mem
    intro first second among among' behind write inside write' inside'
    have below := ((emitLine_within (clean first among)).1 write inside).2.1
    have above := ((emitLine_within (clean second among')).1 write' inside').1
    unfold ImageWrite.Behind
    omega

end Assembler

/-! ### What a machine fetches -/

/-- An encoded word has 32 bits. -/
theorem InstructionSet.lt_of_encode {mnemonic : String} {operands : List Operand} {address : Int}
    {evaluate : Evaluator} {word : Nat}
    (encoded : Codec.a64.encode mnemonic operands address evaluate = .ok word) :
    word < 2 ^ 32 := by
  obtain ⟨form, member, _, _, _, _, _, fits, made⟩ := encode_eq_ok encoded
  have check := checked member
  obtain ⟨draft, drafted⟩ :=
    Encode.formWord_spec (sound form member) check.wellFormed check.bits check.roles fits made
  exact drafted.bounded

namespace Machine

/-- An image that is not empty is loaded: the origin holds it, and nothing is decoded. -/
theorem exists_loadOrigin (machine : Machine) {image : Array UInt8} (full : image.isEmpty = false) :
    ∃ loaded, machine.loadOrigin image = .ok loaded ∧ loaded.core.memory.origin = image ∧
      loaded.core.memory.endianness = machine.core.memory.endianness ∧
      loaded.decoded = undecoded image.size := by
  unfold loadOrigin Memory.loadOrigin
  rw [full]
  refine ⟨_, rfl, ?_⟩
  simp [reset, dropDecoded, CoreState.reset, Memory.reset, Memory.size]

/-- Where nothing is decoded, the word of the origin is what a fetch decodes. -/
theorem fetch_undecoded {machine : Machine} {size word : Nat}
    (aligned : machine.pc % Instruction.byteLength = 0)
    (within : machine.pc + Instruction.byteLength ≤ size)
    (fresh : machine.decoded = undecoded size)
    (peeked : machine.core.memory.peekOrigin machine.pc Instruction.byteLength = .ok word) :
    machine.fetch.map Prod.fst = instructionOf machine.pc word := by
  have unknown : machine.decoded[machine.pc / Instruction.byteLength]? = some none := by
    rw [fresh, undecoded, Array.getElem?_replicate, if_pos]
    rw [Instruction.byteLength] at *
    omega
  unfold fetch
  simp only [aligned, unknown, peeked]
  cases instructionOf machine.pc word <;> rfl

end Machine

namespace Assembler

open Directive Listing

variable {size : Nat} {symbols : SymbolMap} {write : ImageWrite} {line : SourceLine} {address : Nat}

/-- A word stands at an address of an image, so that a machine that loads it fetches the word. -/
structure HoldsWord (assembler : Assembler) (address word : Nat) : Prop where
  aligned : address % Instruction.byteLength = 0
  within : address + Instruction.byteLength ≤ assembler.image.size
  bytes : Memory.stretch assembler.image address Instruction.byteLength =
    assembler.endianness.bytesOf Instruction.byteLength word
  fetched : ∀ machine : Machine, machine.core.memory.endianness = assembler.endianness →
    ∃ loaded, machine.loadOrigin assembler.image = .ok loaded ∧
      loaded.core.memory.peekOrigin address Instruction.byteLength = .ok word ∧
      (Machine.fetch { loaded with pc := address }).map Prod.fst =
        Machine.instructionOf address word

/-- The bytes of a word in an image are what a machine fetches that loads it. -/
theorem holdsWord_of_bytes {assembler : Assembler} {address word : Nat} (small : word < 2 ^ 32)
    (aligned : address % Instruction.byteLength = 0)
    (within : address + Instruction.byteLength ≤ assembler.image.size)
    (bytes : Memory.stretch assembler.image address Instruction.byteLength =
      assembler.endianness.bytesOf Instruction.byteLength word) :
    assembler.HoldsWord address word := by
  refine ⟨aligned, within, bytes, fun machine same => ?_⟩
  have full : assembler.image.isEmpty = false := by
    rw [Array.isEmpty_eq_false_iff]
    rintro empty
    rw [empty] at within
    exact absurd within (Nat.not_succ_le_zero _)
  obtain ⟨loaded, loads, origin, order, fresh⟩ := machine.exists_loadOrigin full
  have peeked : loaded.core.memory.peekOrigin address Instruction.byteLength = .ok word := by
    rw [Memory.peekOrigin, origin, order, same, if_pos (Memory.holds_iff.mpr within), bytes,
      Endianness.valueOf_bytesOf]
    exact congrArg Except.ok (Nat.mod_eq_of_lt small)
  exact ⟨loaded, loads, peeked,
    @Machine.fetch_undecoded { loaded with pc := address } _ _ aligned within fresh peeked⟩

/-- A line writes a byte when it is at an address: one of the word of its instruction, or of the
values of its data directive. -/
def Occupies (line : SourceLine) (address place : Nat) : Prop :=
  ∃ mnemonic, line.mnemonic = some mnemonic ∧ address ≤ place ∧
    (isDirective mnemonic = false ∧ place < address + Instruction.byteLength ∨
      ∃ width operands, elementWidth? mnemonic = some width ∧
        Operand.parse line.operands line.column = .ok operands ∧
        place < address + operands.length * width)

/-- An assembled source is what its lines say, where they are listed with their addresses. -/
structure Renders (assembler : Assembler) (listed : Listing) (final : Assembler) : Prop where
  /-- Every line is placed by what it says, behind the lines before it. -/
  placed : ∀ before line address after, listed = before ++ (line, address) :: after →
    IsPlaced (Listing.symbols before) (endFrom 0 before) line address
  /-- The symbols are the labels. -/
  symbols : final.symbols = Listing.symbols listed
  /-- Every label has the address of its line. -/
  labels : ∀ line address name, (line, address) ∈ listed → line.label = some name →
    final.symbols.lookup name = some (address : Int)
  /-- Every instruction is found where it was placed, encoded with all symbols. -/
  instructions : ∀ line address mnemonic, (line, address) ∈ listed →
    line.mnemonic = some mnemonic → isDirective mnemonic = false →
    ∃ operands word, Operand.parse line.operands line.column = .ok operands ∧
      Codec.a64.encode (Text.lower mnemonic) operands address
        (Expression.evaluate (valuesOf final.symbols) address) = .ok word ∧
      final.HoldsWord address word
  /-- Every value of a data directive is found where it was placed, evaluated at its address. -/
  values : ∀ line address mnemonic width, (line, address) ∈ listed →
    line.mnemonic = some mnemonic → elementWidth? mnemonic = some width →
    ∃ operands, Operand.parse line.operands line.column = .ok operands ∧
      ∀ index operand, operands[index]? = some operand → ∃ given value,
        operand = .immediate given ∧
        given.value.evaluate (valuesOf final.symbols) (address + index * width : Nat) =
          .ok value ∧
        Memory.stretch final.image (address + index * width : Nat) width =
          final.endianness.bytesOf width (Bits.wrap (8 * width) value)
  /-- Lines that are placed behind each other have bytes of their own. -/
  apart : listed.Pairwise fun first second => first.2 + lineSize first.1 ≤ second.2
  /-- A line occupies no more bytes than are reserved for it. -/
  within : ∀ line address place, (line, address) ∈ listed → Occupies line address place →
    place < address + lineSize line
  /-- All other bytes are zero. -/
  blank : ∀ place < assembler.size,
    (∀ line address, (line, address) ∈ listed → ¬ Occupies line address place) →
    final.image[place]? = some 0
  size : final.image.size = assembler.size
  endianness : final.endianness = assembler.endianness

/-- A line occupies no more bytes than are reserved for it. -/
theorem Occupies.lt {place : Nat} (occupies : Occupies line address place) :
    place < address + lineSize line := by
  obtain ⟨mnemonic, named, _, ⟨isInstruction, below⟩ | ⟨width, operands, isData, parsed, below⟩⟩ :=
    occupies
  · rwa [lineSize_instruction named isInstruction]
  · have room := length_le_lineSize named isData parsed
    omega

/-- What a line writes it occupies. -/
theorem occupies_of_covers (clean : (emitLine size symbols address line).failure = none)
    (inside : write ∈ (emitLine size symbols address line).writes) {place : Nat}
    (covers : write.Covers place) : Occupies line address place := by
  rcases line_cases line with other | ⟨mnemonic, named, isInstruction⟩ |
    ⟨mnemonic, width, named, isData⟩
  · rw [emitLine_other other] at inside
    contradiction
  · obtain ⟨_, _, _, word, _, _, same⟩ := emitLine_instruction named isInstruction clean
    rw [same] at inside
    obtain rfl := List.mem_singleton.mp inside
    exact ⟨mnemonic, named, covers.1, .inl ⟨isInstruction, covers.2⟩⟩
  · obtain ⟨operands, parsed, same⟩ := emitLine_data named isData clean
    rw [same] at clean inside
    obtain ⟨above, below, _⟩ := (dataValues_within clean).1 write inside
    refine ⟨mnemonic, named, Nat.le_trans above covers.1, .inr ⟨width, operands, isData, parsed, ?_⟩⟩
    exact Nat.lt_of_lt_of_le covers.2 below

/-- What is listed was placed. -/
theorem filterMap_place (listed : Listing) :
    (listed.map place).filterMap (fun placed =>
      placed.line.toOption.map fun line => (line, placed.address)) = listed := by
  rw [List.filterMap_map]
  exact List.filterMap_some

/-- What placed lines write is what is listed writes. -/
theorem flatMap_place (listed : Listing) :
    ((listed.map place).flatMap fun entry => (entry.emit size symbols).writes) =
      writesOf size symbols listed :=
  List.flatMap_map ..

/-- Lines that write into a blank image without errors are rendered in it. -/
theorem renders_of_writes {assembler : Assembler} {listed : Listing} {image : Array UInt8}
    (laid : Laid assembler.size [] 0 listed) (forward : Listing.NeverBack listed)
    (clean : ∀ entry ∈ listed,
      (emitLine assembler.size (Listing.symbols listed) entry.2 entry.1).failure = none)
    (written : image = (writesOf assembler.size (Listing.symbols listed) listed).foldl
      (applyWrite assembler.endianness) (Array.replicate assembler.size 0)) :
    assembler.Renders listed
      { assembler with image := image, symbols := Listing.symbols listed } := by
  have apart := laid.pairwise forward
  obtain ⟨fits, behind⟩ := writesOf_within clean apart
  have blankSize : (Array.replicate assembler.size (0 : UInt8)).size = assembler.size :=
    Array.size_replicate
  have imageSize : image.size = assembler.size := by
    rw [written, size_applyWrites, blankSize]
  have found : ∀ entry ∈ listed, ∀ write ∈
      (emitLine assembler.size (Listing.symbols listed) entry.2 entry.1).writes,
      Memory.stretch image write.address write.width =
        assembler.endianness.bytesOf write.width write.value := by
    intro entry among write inside
    rw [written]
    exact stretch_applyWrites (by rwa [blankSize]) behind
      (List.mem_flatMap.mpr ⟨entry, among, inside⟩)
  refine ⟨?_, rfl, ?_, ?_, ?_, apart, fun line address place _ => Occupies.lt, ?_, imageSize, rfl⟩
  · rintro before line address after rfl
    obtain ⟨symbols, there⟩ := laid.split
    exact (layoutLine_eq_ok there).1
  · intro line address name inside labelled
    exact laid.lookup inside labelled
  · intro line address mnemonic inside named isInstruction
    obtain ⟨aligned, within, operands, word, parsed, encoded, same⟩ :=
      emitLine_instruction named isInstruction (clean _ inside)
    have stored := found _ inside ⟨address, Instruction.byteLength, word⟩
      (same ▸ List.mem_singleton_self _)
    exact ⟨operands, word, parsed, encoded, holdsWord_of_bytes
      (InstructionSet.lt_of_encode encoded) aligned (imageSize ▸ within) stored⟩
  · intro line address mnemonic width inside named isData
    obtain ⟨operands, parsed, same⟩ := emitLine_data named isData (clean _ inside)
    refine ⟨operands, parsed, fun index operand there => ?_⟩
    obtain ⟨given, value, isGiven, valued, written, _⟩ :=
      (dataValues_clean (same ▸ clean _ inside)).2 index operand there
    have stored := found _ inside
      ⟨address + index * width, width, Bits.wrap (8 * width) value⟩
      (same ▸ List.mem_of_getElem? written)
    exact ⟨given, value, isGiven, valued, stored⟩
  · intro place below outside
    show image[place]? = some 0
    rw [written, getElem?_applyWrites (by rwa [blankSize]), Array.getElem?_replicate, if_pos below]
    intro write inside covers
    obtain ⟨entry, among, inside⟩ := List.mem_flatMap.mp inside
    exact outside _ _ among (occupies_of_covers (clean entry among) inside covers)

/-- A source that is assembled without errors and never goes back is rendered as it is listed. Its
listing is of all its lines in their order. -/
theorem assemble_renders {assembler final : Assembler} {lines : List String}
    (assembled : assembler.assemble lines = (.ok [], final))
    (forward : (assembler.listing lines).NeverBack) :
    lines.map SourceLine.parse = (assembler.listing lines).map (fun entry => .ok entry.1) ∧
      assembler.Renders (assembler.listing lines) final := by
  unfold assemble at assembled
  simp only at assembled
  split at assembled
  · cases assembled
  · rename_i placed symbols laid
    obtain ⟨noErrors, rfl⟩ := Prod.mk.inj assembled
    obtain ⟨clean, image⟩ := emitLines_clean (Prod.ext noErrors rfl)
    obtain ⟨listed, rfl, parsed, rfl, isLaid⟩ := laid_of_layout laid fun entry inside =>
      (clean entry inside).1
    have same : assembler.listing lines = listed := by
      rw [listing, laid]
      exact filterMap_place listed
    rw [same] at forward ⊢
    have isClean : ∀ entry ∈ listed, (emitLine assembler.size (Listing.symbols listed) entry.2
        entry.1).failure = none := fun entry inside =>
      (clean (place entry) (List.mem_map.mpr ⟨entry, inside, rfl⟩)).2
    rw [flatMap_place] at image
    exact ⟨parsed, renders_of_writes isLaid forward isClean image⟩

/-- A branch to a label behind it, over bytes that an alignment leaves out. -/
def branchAhead : List String := ["start: b tail", ".align 3", "tail: .hword 258, tail"]

/-- An assembler of twelve bytes whose most significant bytes come first. -/
def twelveBytes : Assembler := ⟨12, .big, #[], []⟩

/-- The branch is assembled with the address that its label gets after it. -/
theorem assemble_renders_branchAhead :
    ∃ final, twelveBytes.assemble branchAhead = (.ok [], final) ∧
      (twelveBytes.listing branchAhead).NeverBack ∧
      final.symbols.lookup "tail" = some 8 ∧ final.HoldsWord 0 0x14000002 := by
  have evaluated : (twelveBytes.assemble branchAhead).1.toOption = some [] := by
    decide +kernel
  rcases assembled : twelveBytes.assemble branchAhead with ⟨outcome, final⟩
  rw [assembled] at evaluated
  obtain rfl := toOption_eq_some.mp evaluated
  have listed : twelveBytes.listing branchAhead =
      [(⟨some "start", some "b", "tail", 9⟩, 0), (⟨none, some ".align", "3", 7⟩, 8),
        (⟨some "tail", some ".hword", "258, tail", 13⟩, 8)] := by
    decide +kernel
  have noOrigin : ∀ entry ∈ twelveBytes.listing branchAhead, entry.1.mnemonic ≠ some ".org" := by
    rw [listed]
    decide
  have forward : (twelveBytes.listing branchAhead).NeverBack := fun before line address after split
      named => absurd named (noOrigin (line, address) (split ▸ List.mem_append_right _ List.mem_cons_self))
  obtain ⟨_, renders⟩ := assemble_renders assembled forward
  rw [listed] at renders
  have symbols : final.symbols = [("start", 0), ("tail", 8)] := renders.symbols
  obtain ⟨operands, parsed, expected⟩ :=
    @InstructionSet.exists_encode_of_parse "b" "tail" 9 0
      (Expression.evaluate (valuesOf [("start", 0), ("tail", 8)]) 0) 0x14000002 (by decide +kernel)
  obtain ⟨read, word, same, encoded, holds⟩ :=
    renders.instructions _ 0 "b" List.mem_cons_self rfl (by decide)
  obtain rfl := Except.ok.inj (same.symm.trans parsed)
  have lower : Text.lower "b" = "b" := by decide +kernel
  rw [lower, symbols] at encoded
  obtain rfl := Except.ok.inj (encoded.symm.trans expected)
  exact ⟨final, rfl, forward, by rw [symbols]; rfl, holds⟩

end Assembler

end A64Machine
