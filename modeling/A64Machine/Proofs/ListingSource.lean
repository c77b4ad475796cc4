import A64Machine.Listing
import A64Machine.Proofs.AssemblyImage
import A64Machine.Proofs.PrintedLine
import A64Machine.Proofs.StepFaults

/-!
# A listing is source of its memory

The text of every word is a line that is assembled as the word again: the text of its instruction, or
a directive with the word itself. Such a line has no label, stays where it is and takes the bytes of
one word, so all lines are laid out at the addresses of their words, the targets of branches keep
their meaning, and the image is made of the words that were listed.
-/

namespace A64Machine

namespace Operand

/-- A word in hexadecimal notation is read as an immediate that denotes it. -/
theorem exists_groups_wordHex (word : Nat) (offset : Int) :
    ∃ group given, Token.groups (Text.wordHex word) offset = .ok [group] ∧
      ofGroups [group] = .ok [.immediate given] ∧ given.value.Denotes word := by
  have scans := Spelling.scans_wordHex word Token.breaks_nil Token.scans_nil
  rw [List.append_nil] at scans
  obtain ⟨tokens, scanned, spelled⟩ := scans offset
  obtain ⟨token, tokens, rfl, isNumber, alone⟩ := List.map_eq_cons_iff.mp spelled
  obtain rfl := List.map_eq_nil_iff.mp alone
  obtain ⟨span, rfl⟩ := Token.lexeme_eq.mp isNumber
  obtain ⟨first, rest, expression, cut, notWord, notOpening, made, denotes⟩ :=
    @exists_value word _ [⟨.number, Text.wordHex word, span⟩]
      (Text.readLiteral_wordHex word) (.inl (by
        rw [Expression.numberLexemes, if_neg (by omega)]
        rfl))
  obtain ⟨rfl, rfl⟩ := List.cons.inj cut
  obtain ⟨readInner, same⟩ := exists_readGroup 1
  have read := (@readGroupWith_value readInner [] _ _ _ notWord notOpening made).1 rfl
  rw [← same] at read
  have grouped : Token.groups (Text.wordHex word) offset =
      .ok [[⟨.number, Text.wordHex word, span⟩]] := by
    rw [Token.groups, ok_bind scanned]
    rfl
  refine ⟨_, ⟨expression, none, none, Token.spanOf ⟨.number, Text.wordHex word, span⟩ []⟩, grouped,
    ?_, denotes⟩
  show ([[_]].foldlM (readGroup 1) []).map List.reverse = _
  rw [List.foldlM_cons, ok_bind read]
  rfl

end Operand

namespace Assembler

open Directive

variable {size address word : Nat}

/-- A line of a source stores a word at an address: it stays there without defining a label, takes
the bytes of the word, and writes it. -/
def StoresWord (size address word : Nat) (text : String) : Prop :=
  ∃ line, SourceLine.parse text = .ok line ∧
    layoutLine size [] address line = .ok (address, []) ∧
    lineSize line = Instruction.byteLength ∧
    emitLine size [] address line = ⟨[⟨address, Instruction.byteLength, word⟩], none⟩

/-- The text of the instruction of a word stores the word, if its masked immediate has a rotation
within the element. -/
theorem storesWord_text {instruction : Instruction} {text : String} (small : word < 2 ^ 32)
    (aligned : address % Instruction.byteLength = 0)
    (within : address + Instruction.byteLength ≤ size)
    (decoded : Codec.a64.decode word address = .ok (some instruction))
    (reduced : instruction.form.op = .logicImmediate → LogicalImmediate.wordRotation word <
      LogicalImmediate.ringSize (LogicalImmediate.wordN word) (LogicalImmediate.wordRun word))
    (printed : instruction.text = .ok text) : StoresWord size address word text := by
  have member : instruction.form ∈ InstructionSet.forms :=
    (InstructionSet.executes_of_decode decoded).1.member
  have isInstruction := InstructionSet.isDirective_mnemonic _ member
  have lowered := Text.lower_of_solid (InstructionSet.solid_mnemonic _ member)
  have notData := elementWidth_of_instruction isInstruction
  have notLayout := isLayout_of_instruction isInstruction
  have same : instruction.form.reassembled word = word := by
    unfold InstructionForm.reassembled
    split
    · exact LogicalImmediate.reduceRotation_eq_self (reduced ‹_›)
    · rfl
  obtain ⟨written, column, operands, parsed, read, encoded⟩ :=
    InstructionSet.exists_parse_text small decoded printed
  obtain ⟨groups, grouped, ofGroups⟩ := bind_eq_ok.mp read
  have stays := @layoutLine_unlabelled size address
    ⟨none, some instruction.form.mnemonic, written, column⟩ _ rfl rfl notLayout
    (fun directive => absurd (isInstruction.symm.trans directive) Bool.false_ne_true)
  refine ⟨_, parsed, stays, lineSize_instruction rfl isInstruction, ?_⟩
  · have assembled : Assembler.instruction size [] instruction.form.mnemonic groups address =
        .ok ⟨address, Instruction.byteLength, word⟩ := by
      have unmoved : ¬ ((address : Int) % Instruction.byteLength ≠ 0) := by omega
      -- Printed targets are addresses, so no line needs the symbols of another one.
      have noSymbols : Expression.evaluate (valuesOf []) address = Codec.addressOnly address := rfl
      rw [same, ← noSymbols] at encoded
      unfold Assembler.instruction
      simp only [if_neg unmoved, lowered]
      rw [ok_bind (mapError_eq_ok.mpr ofGroups), ok_bind encoded]
      exact mapError_eq_ok.mpr (write?_of_within within)
    unfold emitLine
    simp only [notLayout, notData, isInstruction, grouped, assembled, Bool.false_eq_true, if_false]

/-- A directive with a word stores the word. -/
theorem storesWord_directive (small : word < 2 ^ 32)
    (within : address + Instruction.byteLength ≤ size) :
    StoresWord size address word (".word " ++ Text.wordHex word) := by
  have solid : Text.Solid ".word".toList := by decide
  obtain ⟨column, parsed⟩ := SourceLine.exists_parse_words solid (Spelling.solid_wordHex word).tidy
  obtain ⟨group, given, grouped, read, denotes⟩ := Operand.exists_groups_wordHex word column
  have isData : elementWidth? ".word" = some Instruction.byteLength := rfl
  have stays : isLayout ".word" = false := rfl
  have stored : dataValue size [] Instruction.byteLength address (.immediate given) =
      .ok ⟨address, Instruction.byteLength, word⟩ := by
    have bits : 8 * Instruction.byteLength = 32 := rfl
    have range : -(2 ^ (32 - 1) : Nat) ≤ (word : Int) ∧ (word : Int) < (2 ^ 32 : Nat) := by omega
    have wrapped : Bits.wrap 32 word = word := Bits.wrap_of_lt small
    rw [dataValue, ok_bind (denotes _ _), bits, if_pos range, wrapped]
    exact write?_of_within within
  refine ⟨_, parsed, layoutLine_unlabelled rfl rfl stays fun _ => rfl, ?_, ?_⟩
  · rw [lineSize]
    simp only [isData, grouped]
    rfl
  · unfold emitLine
    simp only [stays, isData, grouped, read, dataValues, stored]
    rfl

/-- Every word has a text that stores it. -/
theorem exists_wordText (small : word < 2 ^ 32) (aligned : address % Instruction.byteLength = 0)
    (within : address + Instruction.byteLength ≤ size)
    (reduced : ∀ instruction, Codec.a64.decode word address = .ok (some instruction) →
      instruction.form.op = .logicImmediate → LogicalImmediate.wordRotation word <
        LogicalImmediate.ringSize (LogicalImmediate.wordN word) (LogicalImmediate.wordRun word)) :
    ∃ text, Codec.a64.wordText word address = .ok text ∧ StoresWord size address word text := by
  obtain ⟨found, decoded⟩ := InstructionSet.exists_decode_eq_ok word address
  cases found with
  | none =>
    refine ⟨_, ?_, storesWord_directive small within⟩
    rw [Codec.wordText, ok_bind decoded]
    rfl
  | some instruction =>
    obtain ⟨text, printed⟩ := InstructionSet.exists_text decoded
    refine ⟨text, ?_, storesWord_text small aligned within decoded (reduced _ decoded) printed⟩
    rw [Codec.wordText, ok_bind decoded]
    exact printed

/-! ### Lines one behind the other -/

/-- Texts store words one behind the other from an address on. -/
inductive StoreWords (size : Nat) : (address : Nat) → List Nat → List String → Prop
  | nil {address : Nat} : StoreWords size address [] []
  | cons {address word : Nat} {words : List Nat} {text : String} {texts : List String}
      (first : StoresWord size address word text)
      (later : StoreWords size (address + Instruction.byteLength) words texts) :
      StoreWords size address (word :: words) (text :: texts)

/-- The writes of words one behind the other. -/
def wordWrites : (address : Nat) → List Nat → List ImageWrite
  | _, [] => []
  | address, word :: rest =>
    ⟨address, Instruction.byteLength, word⟩ :: wordWrites (address + Instruction.byteLength) rest

variable {words : List Nat} {texts : List String}

/-- Lines that store words are laid out without errors and labels, and write the words. -/
theorem layout_of_storeWords (stored : StoreWords size address words texts) :
    ∃ placed, layout size [] address (texts.map SourceLine.parse) = (.ok placed, []) ∧
      (∀ entry ∈ placed, entry.error = none ∧ (entry.emit size []).failure = none) ∧
      (placed.flatMap fun entry => (entry.emit size []).writes) = wordWrites address words := by
  induction stored with
  | nil => exact ⟨[], rfl, by simp, rfl⟩
  | @cons address word words text texts first later ih =>
    obtain ⟨line, parsed, laid, length, emitted⟩ := first
    obtain ⟨placed, laidLater, clean, written⟩ := ih
    have here : placeLine size [] address (SourceLine.parse text) =
        .ok (Listing.place (line, address), [], address + Instruction.byteLength) := by
      rw [parsed, placeLine, laid, ← length]
      rfl
    have emits : (Listing.place (line, address)).emit size [] =
        ⟨[⟨address, Instruction.byteLength, word⟩], none⟩ := emitted
    refine ⟨Listing.place (line, address) :: placed, ?_, ?_, ?_⟩
    · rw [List.map_cons, layout_cons, here]
      simp only [laidLater]
      rfl
    · exact List.forall_mem_cons.mpr ⟨⟨rfl, by rw [emits]⟩, clean⟩
    · rw [List.flatMap_cons, written, emits]
      rfl

/-- Lines that store words are assembled without errors, and the image holds the words. -/
theorem assemble_of_storeWords {assembler : Assembler}
    (stored : StoreWords assembler.size 0 words texts) :
    ∃ final, assembler.assemble texts = (.ok [], final) ∧
      final.image = (wordWrites 0 words).foldl (applyWrite assembler.endianness)
        (Array.replicate assembler.size 0) := by
  obtain ⟨placed, laid, clean, written⟩ := layout_of_storeWords stored
  refine ⟨{ assembler with
    image := (wordWrites 0 words).foldl (applyWrite assembler.endianness)
      (Array.replicate assembler.size 0)
    symbols := [] }, ?_, rfl⟩
  rw [assemble, laid]
  simp only [emitLines_of_clean clean, written]

end Assembler

/-! ### The words of a memory -/

namespace Memory

open Assembler

variable {memory : Memory} {address : Nat}

/-- The word at an address. -/
def wordAt (memory : Memory) (address : Nat) : Nat :=
  memory.endianness.valueOf (stretch memory.bytes address Instruction.byteLength)

/-- The words from an address on. -/
def wordsFrom (memory : Memory) : (count address : Nat) → List Nat
  | 0, _ => []
  | count + 1, address =>
    memory.wordAt address :: memory.wordsFrom count (address + Instruction.byteLength)

/-- A word within memory is there to be seen. -/
theorem peek_wordAt (within : address + Instruction.byteLength ≤ memory.size) :
    memory.peek address Instruction.byteLength = .ok (memory.wordAt address) := by
  rw [peek_natCast, if_pos within]
  rfl

/-- A word within memory has 32 bits. -/
theorem wordAt_lt (within : address + Instruction.byteLength ≤ memory.size) :
    memory.wordAt address < 2 ^ 32 := by
  have bounded := memory.endianness.valueOf_lt (stretch memory.bytes address Instruction.byteLength)
  rwa [length_stretch within] at bounded

/-- Writing a word of memory copies its bytes. -/
theorem getElem?_applyWrite_wordAt {image : Array UInt8}
    (within : address + Instruction.byteLength ≤ memory.size)
    (fits : address + Instruction.byteLength ≤ image.size) (place : Nat) :
    (applyWrite memory.endianness image
        ⟨address, Instruction.byteLength, memory.wordAt address⟩)[place]? =
      if address ≤ place ∧ place < address + Instruction.byteLength then memory.bytes[place]?
      else image[place]? := by
  have same : memory.endianness.bytesOf Instruction.byteLength (memory.wordAt address) =
      stretch memory.bytes address Instruction.byteLength := by
    have back := memory.endianness.bytesOf_valueOf
      (stretch memory.bytes address Instruction.byteLength)
    rwa [length_stretch within] at back
  have long : (stretch memory.bytes address Instruction.byteLength).length =
      Instruction.byteLength := length_stretch within
  rw [applyWrite, same, getElem?_overwrite image (by rwa [long]), long]
  split
  · rename_i inside
    rw [getElem?_stretch, if_pos (Nat.sub_lt_left_of_lt_add inside.1 inside.2),
      Nat.add_sub_cancel' inside.1]
  · rfl

/-- Writing words of memory one behind the other copies the bytes of all of them. -/
theorem getElem?_wordWrites {image : Array UInt8} {count : Nat}
    (within : address + count * Instruction.byteLength ≤ memory.size)
    (same : image.size = memory.size) (place : Nat) :
    ((wordWrites address (memory.wordsFrom count address)).foldl
        (applyWrite memory.endianness) image)[place]? =
      if address ≤ place ∧ place < address + count * Instruction.byteLength then
        memory.bytes[place]?
      else image[place]? := by
  induction count generalizing image address with
  | zero => rw [if_neg (by omega)]; rfl
  | succ count ih =>
    rw [Nat.succ_mul] at within ⊢
    rw [wordsFrom, wordWrites, List.foldl_cons,
      ih (by omega) (by rwa [size_applyWrite]),
      getElem?_applyWrite_wordAt (by omega) (by omega)]
    -- A place belongs to the later words, to the first one, or to none of them.
    by_cases later : address + Instruction.byteLength ≤ place ∧
        place < address + Instruction.byteLength + count * Instruction.byteLength
    · rw [if_pos later, if_pos (by omega)]
    · rw [if_neg later]
      by_cases here : address ≤ place ∧ place < address + Instruction.byteLength
      · rw [if_pos here, if_pos (by omega)]
      · rw [if_neg here, if_neg (by omega)]

/-- Writing all words of memory makes its bytes again. -/
theorem foldl_wordWrites {count : Nat} (whole : count * Instruction.byteLength = memory.size) :
    (wordWrites 0 (memory.wordsFrom count 0)).foldl (applyWrite memory.endianness)
      (Array.replicate memory.size 0) = memory.bytes := by
  apply Array.ext_getElem?
  intro place
  rw [getElem?_wordWrites (by omega) Array.size_replicate]
  split
  · rfl
  · rw [Array.getElem?_eq_none (by rw [Array.size_replicate]; omega),
      Array.getElem?_eq_none (by rw [← Memory.size]; omega)]

/-- The text of a row is that of its word. -/
theorem wordText_of_listingRows {codec : Codec} {count : Nat} {start : Int} {rows : List ListingRow}
    (listed : memory.listingRows codec count start = .ok rows) :
    ∀ row ∈ rows, codec.wordText row.word row.address = .ok row.text := by
  induction count generalizing start rows with
  | zero =>
    obtain rfl := Except.ok.inj listed
    exact fun row absent => by contradiction
  | succ count ih =>
    rw [listingRows] at listed
    split at listed
    · obtain rfl := Except.ok.inj listed
      exact fun row absent => by contradiction
    · obtain ⟨first, here, listed⟩ := bind_eq_ok.mp listed
      obtain ⟨rest, later, same⟩ := bind_eq_ok.mp listed
      obtain ⟨word, _, here⟩ := bind_eq_ok.mp here
      obtain ⟨text, written, isFirst⟩ := bind_eq_ok.mp here
      obtain rfl := Except.ok.inj same
      obtain rfl := Except.ok.inj isFirst
      exact List.forall_mem_cons.mpr ⟨mapError_eq_ok.mp written, ih later⟩

/-- No word of memory has a masked immediate whose rotation reaches the size of its elements. -/
def RotationsReduced (memory : Memory) : Prop :=
  ∀ (address word : Nat) instruction, address % Instruction.byteLength = 0 →
    memory.peek address Instruction.byteLength = .ok word →
    Codec.a64.decode word address = .ok (some instruction) →
    instruction.form.op = .logicImmediate →
    LogicalImmediate.wordRotation word <
      LogicalImmediate.ringSize (LogicalImmediate.wordN word) (LogicalImmediate.wordRun word)

/-- The rows of a listing are lines that store the words of memory. -/
theorem storeWords_listingRows (reduced : memory.RotationsReduced) {count : Nat}
    (aligned : address % Instruction.byteLength = 0)
    (within : address + count * Instruction.byteLength ≤ memory.size) :
    ∃ rows, memory.listingRows Codec.a64 count address = .ok rows ∧
      StoreWords memory.size address (memory.wordsFrom count address)
        (rows.map ListingRow.text) := by
  induction count generalizing address with
  | zero => exact ⟨[], rfl, .nil⟩
  | succ count ih =>
    rw [Nat.succ_mul] at within
    have here : address + Instruction.byteLength ≤ memory.size := by omega
    have peeked := peek_wordAt here
    obtain ⟨text, written, stores⟩ := exists_wordText (wordAt_lt here) aligned here
      fun instruction decoded => reduced address _ instruction aligned peeked decoded
    obtain ⟨rows, listed, storeLater⟩ :=
      @ih (address + Instruction.byteLength) (by rw [Nat.add_mod_right, aligned]) (by omega)
    refine ⟨⟨address, memory.wordAt address, text⟩ :: rows, ?_, .cons stores storeLater⟩
    have row : memory.listingRow Codec.a64 address = .ok ⟨address, memory.wordAt address, text⟩ := by
      rw [listingRow, ok_bind (mapError_eq_ok.mpr peeked), ok_bind (mapError_eq_ok.mpr written)]
      rfl
    rw [listingRows, if_neg (by omega), ok_bind row, ← Int.natCast_add, ok_bind listed]
    rfl

/-- The texts of a listing of a whole memory are source of its bytes, if the memory consists of words
and no masked immediate among them is rotated by the size of its elements or more. A word without an
instruction is listed as a directive. -/
theorem assemble_listing {assembler : Assembler} (size : assembler.size = memory.size)
    (order : assembler.endianness = memory.endianness)
    (whole : memory.size % Instruction.byteLength = 0) (reduced : memory.RotationsReduced) :
    ∃ rows final, memory.listing Codec.a64 0 memory.size = .ok rows ∧
      (∀ row ∈ rows, Codec.a64.decode row.word row.address = .ok none →
        row.text = ".word " ++ Text.wordHex row.word) ∧
      assembler.assemble (rows.map ListingRow.text) = (.ok [], final) ∧
      final.image = memory.bytes := by
  obtain ⟨count, counts⟩ : ∃ count, count * Instruction.byteLength = memory.size :=
    ⟨memory.size / Instruction.byteLength, Nat.div_mul_cancel (Nat.dvd_of_mod_eq_zero whole)⟩
  obtain ⟨rows, listed, stored⟩ := @storeWords_listingRows memory 0 reduced count rfl (by omega)
  rw [← size] at stored
  obtain ⟨final, assembled, image⟩ := assemble_of_storeWords stored
  have counted : ((0 + (memory.size : Int) - 0 + Instruction.byteLength - 1) /
      Instruction.byteLength).toNat = count := by
    rw [← counts, Instruction.byteLength]
    omega
  refine ⟨rows, final, ?_, fun row inside unknown => ?_, assembled, ?_⟩
  · rw [listing]
    exact counted ▸ listed
  · have written := wordText_of_listingRows listed row inside
    rw [Codec.wordText, ok_bind unknown] at written
    exact (Except.ok.inj written).symm
  · rw [image, size, order, foldl_wordWrites counts]

/-- A mask of elements of 32 bits, a word without an instruction, and a branch to an address in front
of memory. -/
def threeWords : Memory :=
  ofBytes .big #[0x12, 0x01, 0x1c, 0x20, 0x00, 0x00, 0x00, 0x00, 0x17, 0xff, 0xff, 0xfd]

/-- The three words are assembled from their listing. -/
theorem assemble_listing_threeWords :
    ∃ rows final, threeWords.listing Codec.a64 0 12 = .ok rows ∧
      twelveBytes.assemble (rows.map ListingRow.text) = (.ok [], final) ∧
      final.image = threeWords.bytes := by
  have reduced : threeWords.RotationsReduced := by
    intro address word instruction aligned peeked _ _
    rw [peek_natCast] at peeked
    split at peeked
    · rename_i within
      have few : address = 0 ∨ address = 4 ∨ address = 8 := by
        have below : address + 4 ≤ 12 := within
        have multiple : address % 4 = 0 := aligned
        omega
      obtain rfl := Except.ok.inj peeked
      rcases few with rfl | rfl | rfl <;> decide +kernel
    · cases peeked
  obtain ⟨rows, final, listed, _, assembled, image⟩ :=
    @assemble_listing threeWords twelveBytes rfl rfl rfl reduced
  exact ⟨rows, final, listed, assembled, image⟩

end Memory

end A64Machine
