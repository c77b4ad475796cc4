import A64Machine.Assembler
import A64Machine.Proofs.RoundTrip

/-!
# Printed lines of source

What a disassembly prints are lower-case letters, digits and a few marks, with blanks between them
and none at either end. Such a line has no comment and no label, and its first word is the mnemonic.
What follows is the operand text, so a line of source with the text of an instruction is assembled
with the operands that were printed.
-/

namespace A64Machine

namespace Text

/-- The characters other than the blank that a disassembly prints. -/
def inkCharacters : List Char := "abcdefghijklmnopqrstuvwxyz0123456789.,#-[]!".toList

/-- No printed character is blank, begins a comment or ends a label. -/
theorem plain_of_ink : ∀ c ∈ inkCharacters,
    isBlank c = false ∧ SourceLine.isLineEnd c = false ∧ c ≠ '/' ∧ c ≠ ';' ∧ c ≠ ':' := by
  decide +kernel

/-- Printed characters are in lower case. -/
theorem lower_of_ink : ∀ c ∈ inkCharacters, c ≠ '\u0130' ∧ c ≠ 'Σ' ∧ lowerChar c = c := by
  decide +kernel

/-- A printed text without blanks. -/
def Solid (text : List Char) : Prop := text ≠ [] ∧ ∀ c ∈ text, c ∈ inkCharacters

instance (text : List Char) : Decidable (Solid text) := inferInstanceAs (Decidable (_ ∧ _))

/-- A printed text with no blank at either end. -/
structure Tidy (text : List Char) : Prop where
  printed : ∀ c ∈ text, c = ' ' ∨ c ∈ inkCharacters
  first : ∃ c rest, text = c :: rest ∧ c ∈ inkCharacters
  last : ∃ front c, text = front ++ [c] ∧ c ∈ inkCharacters

variable {text front behind : List Char}

/-- A text without blanks has none at either end. -/
theorem Solid.tidy (solid : Solid text) : Tidy text := by
  obtain ⟨some, ink⟩ := solid
  refine ⟨fun c inside => .inr (ink c inside), ?_, ?_⟩
  · obtain ⟨c, rest, rfl⟩ := List.exists_cons_of_ne_nil some
    exact ⟨c, rest, rfl, ink c List.mem_cons_self⟩
  · refine ⟨text.dropLast, text.getLast some, (List.dropLast_concat_getLast some).symm, ?_⟩
    exact ink _ (List.getLast_mem some)

/-- Printed texts with others between them have no blank at either end. -/
theorem Tidy.join (tidy : Tidy front) (between : List Char)
    (printed : ∀ c ∈ between, c = ' ' ∨ c ∈ inkCharacters) (tidy' : Tidy behind) :
    Tidy (front ++ (between ++ behind)) := by
  refine ⟨fun c inside => ?_, ?_, ?_⟩
  · rcases List.mem_append.mp inside with inside | inside
    · exact tidy.printed c inside
    · exact (List.mem_append.mp inside).elim (printed c) (tidy'.printed c)
  · obtain ⟨c, rest, rfl, ink⟩ := tidy.first
    exact ⟨c, _, rfl, ink⟩
  · obtain ⟨rest, c, rfl, ink⟩ := tidy'.last
    exact ⟨front ++ (between ++ rest), c, by simp, ink⟩

/-- Printed characters in front of a text without blanks leave it one. -/
theorem Solid.prepend (front : List Char) (ink : ∀ c ∈ front, c ∈ inkCharacters)
    (solid : Solid behind) : Solid (front ++ behind) :=
  ⟨List.append_ne_nil_of_right_ne_nil _ solid.1, List.forall_mem_append.mpr ⟨ink, solid.2⟩⟩

/-- A printed text without blanks is in lower case. -/
theorem lower_of_solid {word : String} (solid : Solid word.toList) : lower word = word := by
  have same (before : List Char) {text : List Char} (ink : ∀ c ∈ text, c ∈ inkCharacters) :
      lowerFrom before text = text := by
    induction text generalizing before with
    | nil => rfl
    | cons c rest ih =>
      obtain ⟨here, later⟩ := List.forall_mem_cons.mp ink
      obtain ⟨notDotted, notSigma, lowered⟩ := lower_of_ink c here
      rw [lowerFrom, if_neg notDotted, if_neg notSigma, lowered, ih _ later]
      rfl
  rw [lower, same _ solid.2, String.ofList_toList]

end Text

/-! ### Reading a printed line -/

namespace SourceLine

open Text (Solid Tidy)

variable {text : List Char}

/-- A text without a slash has no block comment. -/
theorem blankComments_eq_self (absent : '/' ∉ text) : blankComments 0 text = text := by
  induction text with
  | nil => rfl
  | cons c rest ih =>
    rw [List.mem_cons, not_or] at absent
    have plain : commentTail? c rest = none := by
      unfold commentTail?
      split
      · exact absurd rfl absent.1
      · rfl
    rw [blankComments, plain]
    exact congrArg _ (ih absent.2)

/-- A marker does not occur in a text without its first character. -/
theorem position?_eq_none {first : Char} {marker : List Char} (absent : first ∉ text) :
    position? (first :: marker) text = none := by
  induction text with
  | nil => rfl
  | cons c rest ih =>
    rw [List.mem_cons, not_or] at absent
    have differs : startsWith (first :: marker) (c :: rest) = false := by
      simp [startsWith, Ne.symm absent.1]
    rw [position?, differs, ih absent.2]
    rfl

/-- A text without the first character of a marker is all in front of it. -/
theorem before_eq_self {first : Char} {marker : List Char} (absent : first ∉ text) :
    before (first :: marker) text = text := by
  rw [before, position?_eq_none absent]

/-- The last character of a text stays if it is not of the class that is dropped. -/
theorem dropEndWhile_eq_self {p : Char → Bool} {front : List Char} {c : Char} (plain : p c = false) :
    Text.dropEndWhile p (front ++ [c]) = front ++ [c] := by
  simp [Text.dropEndWhile, plain]

/-- A printed text has none of the characters that divide lines. -/
theorem absent_of_tidy (tidy : Tidy text) : '/' ∉ text ∧ ';' ∉ text ∧ ':' ∉ text := by
  have plain : ∀ c ∈ text, c ≠ '/' ∧ c ≠ ';' ∧ c ≠ ':' := by
    intro c inside
    rcases tidy.printed c inside with rfl | ink
    · decide
    · exact (Text.plain_of_ink c ink).2.2
  exact ⟨fun inside => (plain _ inside).1 rfl, fun inside => (plain _ inside).2.1 rfl,
    fun inside => (plain _ inside).2.2 rfl⟩

/-- A printed line has no comments. -/
theorem withoutComments_of_tidy (tidy : Tidy text) : withoutComments text = .ok text := by
  obtain ⟨noSlash, noSemicolon, _⟩ := absent_of_tidy tidy
  have ends : Text.dropEndWhile isLineEnd text = text := by
    obtain ⟨front, c, rfl, ink⟩ := tidy.last
    exact dropEndWhile_eq_self (Text.plain_of_ink c ink).2.1
  simp only [withoutComments, ends, blankComments_eq_self noSlash, position?_eq_none noSlash,
    before_eq_self noSlash, before_eq_self noSemicolon]

/-- A printed line has no label. -/
theorem label?_of_tidy (tidy : Tidy text) : label? text = none := by
  obtain ⟨_, _, noColon⟩ := absent_of_tidy tidy
  unfold label?
  split
  · rfl
  · rename_i c rest begins
    split
    · split
      · rename_i behind closes
        have inside : ':' ∈ text.dropWhile Text.isBlank := by
          rw [begins]
          refine List.mem_cons_of_mem _ ?_
          refine (List.dropWhile_sublist Lexeme.continuesName).subset ?_
          refine (List.dropWhile_sublist Text.isBlank).subset ?_
          rw [closes]
          exact List.mem_cons_self
        exact absurd ((List.dropWhile_sublist Text.isBlank).subset inside) noColon
      · rfl
    · rfl

/-- Nothing is dropped from the start of a printed text. -/
theorem dropWhile_of_tidy (tidy : Tidy text) : text.dropWhile Text.isBlank = text := by
  obtain ⟨c, rest, rfl, ink⟩ := tidy.first
  exact List.dropWhile_cons_of_neg (by simp [Text.plain_of_ink c ink])

/-- The first word of a printed line is its mnemonic, and what follows it are the operands. -/
theorem parse_of_tidy {line : String} {word behind : List Char} (tidy : Tidy line.toList)
    (split : line.toList = word ++ behind) (solid : Solid word)
    (breaks : ∀ c ∈ behind.head?, Text.isBlank c = true) :
    ∃ column, parse line = .ok ⟨none, some (String.ofList word),
      String.ofList (Text.dropEndWhile Text.isBlank (behind.dropWhile Text.isBlank)), column⟩ := by
  have taken : line.toList.takeWhile (fun c => !Text.isBlank c) = word := by
    rw [split, List.takeWhile_append_of_pos fun c inside => by
      simp [Text.plain_of_ink c (solid.2 c inside)]]
    cases behind with
    | nil => simp
    | cons c rest => simp [breaks c rfl]
  have lowered : Text.lower (String.ofList word) = String.ofList word :=
    Text.lower_of_solid (by rwa [String.toList_ofList])
  have some : word.isEmpty = false := List.isEmpty_eq_false_iff.mpr solid.1
  rw [parse, ok_bind (withoutComments_of_tidy tidy)]
  simp only [label?_of_tidy tidy, dropWhile_of_tidy tidy, taken, some, lowered]
  rw [split, List.drop_left]
  exact ⟨_, rfl⟩

/-- A printed word alone is a mnemonic without operands. -/
theorem exists_parse_word {mnemonic : String} (solid : Solid mnemonic.toList) :
    ∃ column, parse mnemonic = .ok ⟨none, some mnemonic, "", column⟩ := by
  obtain ⟨column, parsed⟩ :=
    parse_of_tidy solid.tidy (List.append_nil _).symm solid (fun c absent => nomatch absent)
  rw [String.ofList_toList] at parsed
  exact ⟨column, parsed⟩

/-- A printed word with a printed text behind it is a mnemonic with its operands. -/
theorem exists_parse_words {mnemonic operands : String} (solid : Solid mnemonic.toList)
    (tidy : Tidy operands.toList) :
    ∃ column, parse (mnemonic ++ " " ++ operands) = .ok ⟨none, some mnemonic, operands, column⟩ := by
  have split : (mnemonic ++ " " ++ operands).toList =
      mnemonic.toList ++ ([' '] ++ operands.toList) := by
    simp [String.toList_append]
  have whole : Tidy (mnemonic ++ " " ++ operands).toList :=
    split ▸ solid.tidy.join [' '] (by simp) tidy
  obtain ⟨column, parsed⟩ := parse_of_tidy whole split solid (by simp; decide)
  have begins : ([' '] ++ operands.toList).dropWhile Text.isBlank = operands.toList :=
    dropWhile_of_tidy tidy
  have ends : Text.dropEndWhile Text.isBlank operands.toList = operands.toList := by
    obtain ⟨front, c, same, ink⟩ := tidy.last
    rw [same]
    exact dropEndWhile_eq_self (Text.plain_of_ink c ink).1
  rw [begins, ends, String.ofList_toList, String.ofList_toList] at parsed
  exact ⟨column, parsed⟩

end SourceLine

/-! ### The lines of instructions -/

namespace Spelling

open Text (Solid Tidy inkCharacters)

/-- The digits of a number are printed characters. -/
theorem solid_digits {base : Nat} (positive : 0 < base) (most : base ≤ 16) (value : Nat) :
    Solid (Text.digits base value) := by
  have each : ∀ digit < 16, Text.digitChar digit ∈ inkCharacters := by decide
  refine ⟨Text.digits_ne_nil base value, fun c inside => ?_⟩
  rcases Text.mem_digitsBefore positive _ _ _ inside with none | ⟨digit, below, rfl⟩
  · contradiction
  · exact each digit (Nat.lt_of_lt_of_le below most)

/-- The sign of a number is a printed character. -/
theorem ink_sign (value : Int) : ∀ c ∈ Text.sign value, c ∈ inkCharacters := by
  unfold Text.sign
  split <;> decide

/-- A number in decimal notation has no blanks. -/
theorem solid_decimal (value : Int) : Solid (Text.decimal value).toList := by
  rw [Text.toList_decimal]
  exact .prepend _ (ink_sign value) (solid_digits (by decide) (by decide) _)

/-- A number in hexadecimal notation has no blanks. -/
theorem solid_hex (value : Int) : Solid (Text.hex value).toList := by
  rw [Text.toList_hex]
  exact .prepend _ (ink_sign value)
    (.prepend ['0', 'x'] (by decide) (solid_digits (by decide) (by decide) _))

/-- A word in hexadecimal notation has no blanks. -/
theorem solid_wordHex (value : Nat) : Solid (Text.wordHex value).toList := by
  obtain ⟨zeros, text⟩ := Text.toList_wordHex value
  have ink : ∀ c ∈ '0' :: 'x' :: List.replicate zeros '0', c ∈ inkCharacters := by
    intro c inside
    simp only [List.mem_cons, List.mem_replicate] at inside
    rcases inside with rfl | rfl | ⟨_, rfl⟩ <;> decide
  rw [text]
  exact .prepend ('0' :: 'x' :: List.replicate zeros '0') ink
    (solid_digits (Nat.succ_pos 15) (Nat.le_refl 16) value)

/-- An immediate has no blanks. -/
theorem solid_immediate (value : Int) : Solid (Disassembly.immediate value).toList := by
  unfold Disassembly.immediate
  split
  · rw [String.toList_append]
    exact .prepend _ (by decide) (solid_decimal value)
  · rw [String.toList_append]
    exact .prepend _ (by decide) (solid_hex value)

/-- The names of registers have no blanks. -/
theorem solid_register :
    ∀ slot < 32, ∀ wide, Solid (Register.name ⟨slot, wide⟩).toList := by
  decide +kernel

/-- The names of modifiers have no blanks. -/
theorem solid_modifier (modifier : Modifier) : Solid modifier.name.toList := by
  cases modifier <;> decide

variable {front : List Char}

/-- A modification is printed behind another text. -/
theorem tidy_modification (tidy : Tidy front) (modification : Modification) :
    Tidy (front ++ (modificationText modification).toList) := by
  cases modification with
  | none => rwa [modificationText, String.toList_empty, List.append_nil]
  | some modification =>
    obtain ⟨modifier, amount⟩ := modification
    have named := tidy.join [',', ' '] (by decide) (solid_modifier modifier).tidy
    cases amount with
    | none => simpa [modificationText, amountText, String.toList_append] using named
    | some amount =>
      have whole := named.join [' ', '#'] (by decide) (solid_decimal amount).tidy
      simpa [modificationText, amountText, String.toList_append] using whole

/-- An operand without brackets is printed with no blank at either end. -/
theorem tidy_plain {spelling : PlainSpelling} (valid : spelling.Valid) :
    Tidy spelling.text.toList := by
  cases spelling with
  | register named modification =>
    rw [PlainSpelling.text, String.toList_append]
    exact tidy_modification (solid_register _ valid.1 _).tidy modification
  | immediate value shift =>
    rw [PlainSpelling.text, String.toList_append]
    exact tidy_modification (solid_immediate value).tidy _
  | number value marked =>
    rw [PlainSpelling.text, String.toList_append]
    refine (Solid.prepend _ ?_ (solid_hex value)).tidy
    cases marked <;> decide

/-- An operand is printed with no blank at either end. -/
theorem tidy_text {spelling : Spelling} (valid : spelling.Valid) : Tidy spelling.text.toList := by
  have opening {base : Register} (small : base.slot < 32) : Tidy ('[' :: base.name.toList) :=
    (Solid.prepend ['['] (by decide) (solid_register _ small _)).tidy
  cases spelling with
  | plain spelling => exact tidy_plain valid
  | address base behind preIndexed =>
    have closing : Solid (']' :: (if preIndexed then "!" else "").toList) := by
      cases preIndexed <;> decide
    have opened := opening valid.1
    cases behind with
    | none =>
      have whole := opened.join [] (by decide) closing.tidy
      simpa [text, String.toList_append] using whole
    | some behind =>
      have whole := (opened.join [',', ' '] (by decide)
        (tidy_plain (valid.2 behind rfl))).join [] (by decide) closing.tidy
      simpa [text, String.toList_append] using whole
  | postIndexed base amount =>
    have whole := (opening valid).join [']', ',', ' '] (by decide)
      (solid_immediate amount).tidy
    simpa [text, String.toList_append] using whole

/-- Operands are printed with no blank at either end. -/
theorem tidy_intercalate {spellings : List Spelling} (some : spellings ≠ [])
    (valid : ∀ spelling ∈ spellings, spelling.Valid) :
    Tidy (", ".intercalate (spellings.map text)).toList := by
  induction spellings with
  | nil => contradiction
  | cons spelling spellings ih =>
    obtain ⟨here, later⟩ := List.forall_mem_cons.mp valid
    cases spellings with
    | nil => simpa using tidy_text here
    | cons next spellings =>
      have whole := (tidy_text here).join [',', ' '] (by decide) (ih (by simp) later)
      rw [List.map_cons, List.map_cons, String.intercalate_cons_cons, ← List.map_cons]
      simpa [String.toList_append] using whole

end Spelling

namespace InstructionSet

open Assembler

/-- All mnemonics are printed words. -/
theorem solid_mnemonic : ∀ form ∈ forms, Text.Solid form.mnemonic.toList := by decide +kernel

/-- No mnemonic is a directive. -/
theorem isDirective_mnemonic : ∀ form ∈ forms, Directive.isDirective form.mnemonic = false := by
  decide +kernel

/-- The text of a decoded word is a line with its mnemonic and operands that are encoded as the word
again, but for the rotation of a masked immediate. -/
theorem exists_parse_text {word : Nat} {address : Int} {instruction : Instruction} {text : String}
    (small : word < 2 ^ 32) (decoded : Codec.a64.decode word address = .ok (some instruction))
    (printed : instruction.text = .ok text) :
    ∃ written column operands,
      SourceLine.parse text = .ok ⟨none, some instruction.form.mnemonic, written, column⟩ ∧
      Operand.parse written column = .ok operands ∧
      Codec.a64.encode instruction.form.mnemonic operands address (Codec.addressOnly address) =
        .ok (instruction.form.reassembled word) := by
  obtain ⟨⟨_, _, order, _, accepted, admitted⟩, sameAddress, sameWord, _⟩ := decode_eq_some decoded
  have member : instruction.form ∈ forms := by
    rw [← decodeOrder_table, ← table_a64, order]
    simp
  have bits : Instruction.wordBits word = word := Bits.wrap_of_lt small
  rw [bits] at accepted admitted
  have agrees := ((InstructionForm.admits_eq_true (sound _ member)).mp admitted).1
  obtain ⟨spelled, same, prints⟩ := exists_arePrinted_of_decode decoded
  obtain rfl := Except.ok.inj (printed.symm.trans (text_of_arePrinted (sound _ member) same prints))
  have solid := solid_mnemonic _ member
  have reads (column : Nat) := parse_of_arePrinted member same prints column
  rw [sameWord, sameAddress, bits] at prints
  have encodes {operands : List Operand}
      (reads : Spelling.ReadsAll (spelled.map Prod.snd) operands) :
      Codec.a64.encode instruction.form.mnemonic operands address (Codec.addressOnly address) =
        .ok (instruction.form.reassembled word) :=
    Codec.encode_eq_ok.mpr
      ⟨instruction.form, takes_of_reads member small accepted agrees same prints reads⟩
  cases spelled with
  | nil =>
    obtain ⟨column, parsed⟩ := SourceLine.exists_parse_word solid
    obtain ⟨operands, read, readsAll⟩ := reads column
    exact ⟨_, column, operands, parsed, read, encodes readsAll⟩
  | cons first rest =>
    have tidy : Text.Tidy (", ".intercalate
        (((first :: rest).map Prod.snd).map Spelling.text)).toList := by
      refine Spelling.tidy_intercalate (by simp) fun spelling inside => ?_
      obtain ⟨operand, among, rfl⟩ := List.mem_map.mp inside
      exact (prints operand among).valid
    obtain ⟨column, parsed⟩ := SourceLine.exists_parse_words solid tidy
    obtain ⟨operands, read, readsAll⟩ := reads column
    exact ⟨_, column, operands, parsed, read, encodes readsAll⟩

end InstructionSet

end A64Machine
