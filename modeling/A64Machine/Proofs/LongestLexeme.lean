import A64Machine.Proofs.NumberTokens

/-!
# The longest lexeme

A lexeme is a number, a name or a punctuation mark. Which of them a text begins with is told by its
first character, and the token that is read is the longest lexeme at the start of the text. A lead
of a number without digits behind it belongs to no number, so such a text begins with a zero alone.
No lexeme has a blank in it, and a comma is a lexeme by itself.
-/

namespace A64Machine.Lexeme

/-- The texts of tokens. -/
inductive IsLexeme : TokenKind → List Char → Prop
  | number {text : List Char} (isNumber : IsNumber text) : IsLexeme .number text
  | name {first : Char} {rest : List Char} (starts : startsName first = true)
    (goesOn : ∀ c ∈ rest, continuesName c = true) : IsLexeme .name (first :: rest)
  | mark {c : Char} (isMark : isPunctuation c = true) : IsLexeme .punct [c]

/-- A lexeme at the start of a text than which no other one is longer. -/
structure IsLongest (kind : TokenKind) (lexeme text : List Char) : Prop where
  isLexeme : IsLexeme kind lexeme
  isPrefix : lexeme <+: text
  longest : ∀ kind' other, IsLexeme kind' other → other <+: text → other.length ≤ lexeme.length

/-- A text begins with a token. -/
def StartsToken (text : List Char) : Prop := ∃ kind lexeme, IsLexeme kind lexeme ∧ lexeme <+: text

/-! ### Characters of lexemes -/

/-- What holds of all ASCII characters holds of each of them. -/
theorem forall_ascii {holds : Char → Prop} (each : ∀ code < 128, holds (Char.ofNat code)) {c : Char}
    (isAscii : c.toNat < 128) : holds c := by
  have here := each c.toNat isAscii
  rwa [Char.ofNat_toNat] at here

/-- Names begin with ASCII characters. -/
theorem ascii_of_startsName {c : Char} (starts : startsName c = true) : c.toNat < 128 := by
  simp only [startsName, Bool.or_eq_true, beq_iff_eq] at starts
  rcases starts with ((letter | rfl) | rfl) | rfl
  · have letter : (decide (c.val ≥ 'A'.val ∧ c.val ≤ 'Z'.val) ||
        decide (c.val ≥ 'a'.val) && decide (c.val ≤ 'z'.val)) = true := letter
    simp only [Bool.or_eq_true, Bool.and_eq_true, decide_eq_true_eq, UInt32.le_iff_toNat_le]
      at letter
    rcases letter with letter | letter
    · exact Nat.lt_of_le_of_lt letter.2 (by decide)
    · exact Nat.lt_of_le_of_lt letter.2 (by decide)
  · decide
  · decide
  · decide

/-- The kind of the tokens that begin with a character. -/
def kindOf? (c : Char) : Option TokenKind :=
  if Text.isDigit c then some .number
  else if startsName c then some .name
  else if isPunctuation c then some .punct
  else none

/-- No name begins with a digit. -/
theorem isDigit_of_startsName {c : Char} (starts : startsName c = true) :
    Text.isDigit c = false := by
  have each : ∀ code < 128, startsName (Char.ofNat code) = true →
      Text.isDigit (Char.ofNat code) = false := by
    decide
  exact @forall_ascii (fun c => startsName c = true → Text.isDigit c = false) each c
    (ascii_of_startsName starts) starts

/-- No punctuation mark begins a number or a name. -/
theorem kindOf?_mark {c : Char} (isMark : isPunctuation c = true) : kindOf? c = some .punct := by
  have known : c ∈ ['[', ']', '#', '!', ',', '+', '-', '(', ')'] := List.contains_iff_mem.mp isMark
  have each : ∀ c ∈ ['[', ']', '#', '!', ',', '+', '-', '(', ')'], kindOf? c = some .punct := by
    decide
  exact each c known

/-- A number begins with a digit. -/
theorem IsNumber.isDigit {first : Char} {rest : List Char} (isNumber : IsNumber (first :: rest)) :
    Text.isDigit first = true := by
  cases isNumber with
  | hexadecimal | binary => decide
  | decimal some each => exact each first List.mem_cons_self

/-- The first character of a lexeme tells its kind. -/
theorem IsLexeme.kindOf? {kind : TokenKind} {first : Char} {rest : List Char}
    (isLexeme : IsLexeme kind (first :: rest)) : kindOf? first = some kind := by
  cases isLexeme with
  | number isNumber => rw [Lexeme.kindOf?, if_pos isNumber.isDigit]
  | name starts =>
    rw [Lexeme.kindOf?, if_neg (by simp [isDigit_of_startsName starts]), if_pos starts]
  | mark isMark => exact kindOf?_mark isMark

/-- A lexeme is not empty. -/
theorem IsLexeme.exists_cons {kind : TokenKind} {lexeme : List Char}
    (isLexeme : IsLexeme kind lexeme) : ∃ first rest, lexeme = first :: rest := by
  cases isLexeme with
  | number isNumber =>
    cases isNumber with
    | hexadecimal | binary => exact ⟨_, _, rfl⟩
    | decimal some => exact List.exists_cons_of_ne_nil some
  | name | mark => exact ⟨_, _, rfl⟩

/-! ### The longest number -/

/-- No prefix of characters of a class is longer than the run at the start of a text. -/
theorem length_le_runLength {p : Char → Bool} {text front : List Char} (isPrefix : front <+: text)
    (each : ∀ c ∈ front, p c = true) : front.length ≤ runLength p text := by
  obtain ⟨behind, rfl⟩ := isPrefix
  rw [runLength, List.takeWhile_append_of_pos each, List.length_append]
  exact Nat.le_add_right _ _

/-- A run is no longer than the text. -/
theorem runLength_le (p : Char → Bool) (text : List Char) : runLength p text ≤ text.length :=
  (List.takeWhile_prefix p).length_le

/-- A number is no longer than the text. -/
theorem numberLength_le (text : List Char) : numberLength text ≤ text.length := by
  unfold numberLength
  split
  · rename_i lead rest
    extract_lets digits
    have within : digits ≤ rest.length := by
      unfold digits
      split
      · exact runLength_le _ _
      · split
        · exact runLength_le _ _
        · exact Nat.zero_le _
    split
    · exact runLength_le _ _
    · exact Nat.add_le_add_right within 2
  · exact runLength_le _ _

/-- A run of decimal digits is no longer than the number that is read. -/
theorem runLength_le_numberLength (text : List Char) :
    runLength Text.isDigit text ≤ numberLength text := by
  unfold numberLength
  split
  · rename_i lead rest
    extract_lets digits
    split
    · exact Nat.le_refl _
    · rename_i led
      -- Digits of another base are read only behind a lead, which is no decimal digit.
      have isLead : lead = 'x' ∨ lead = 'X' ∨ lead = 'b' ∨ lead = 'B' := by
        unfold digits at led
        split at led
        · rename_i hexadecimal
          exact hexadecimal.imp_right .inl
        · split at led
          · rename_i binary
            exact .inr (.inr binary)
          · exact absurd rfl led
      have noDigit : Text.isDigit lead = false := by
        rcases isLead with rfl | rfl | rfl | rfl <;> decide
      have zero : Text.isDigit '0' = true := by decide
      have one : runLength Text.isDigit ('0' :: lead :: rest) = 1 := by
        simp [runLength, zero, noDigit]
      omega
  · exact Nat.le_refl _

/-- No number at the start of a text is longer than the one that is read. -/
theorem IsNumber.length_le {number text : List Char} (isNumber : IsNumber number)
    (isPrefix : number <+: text) : number.length ≤ numberLength text := by
  cases isNumber with
  | @hexadecimal lead digits isLead some each =>
    obtain ⟨behind, rfl⟩ := isPrefix
    have within := length_le_runLength (List.prefix_append digits behind) each
    have positive := List.length_pos_iff.mpr some
    rw [List.cons_append, List.cons_append, numberLength, if_pos isLead, if_neg (by omega)]
    simp only [List.length_cons]
    omega
  | @binary lead digits isLead some each =>
    obtain ⟨behind, rfl⟩ := isPrefix
    have within := length_le_runLength (List.prefix_append digits behind) each
    have positive := List.length_pos_iff.mpr some
    have noHex : ¬(lead = 'x' ∨ lead = 'X') := by
      rcases isLead with rfl | rfl <;> decide
    rw [List.cons_append, List.cons_append, numberLength, if_neg noHex, if_pos isLead,
      if_neg (by omega)]
    simp only [List.length_cons]
    omega
  | decimal some each =>
    exact Nat.le_trans (length_le_runLength isPrefix each) (runLength_le_numberLength text)

/-- A text has a number at its start just when it begins with a digit. -/
theorem numberLength_ne_zero {first : Char} {rest : List Char} :
    numberLength (first :: rest) ≠ 0 ↔ Text.isDigit first = true := by
  constructor
  · intro positive
    have isNumber := isNumber_take positive
    obtain ⟨length, isSucc⟩ := Nat.exists_eq_succ_of_ne_zero positive
    rw [isSucc, List.take_succ_cons] at isNumber
    exact isNumber.isDigit
  · intro isDigit
    have alone : IsNumber [first] := .decimal (List.cons_ne_nil _ _) (by simpa using isDigit)
    exact Nat.ne_of_gt (alone.length_le ⟨rest, rfl⟩)

/-! ### The token at the start of a text -/

/-- What begins with a character is read by the kind that it tells. -/
theorem token?_cons (first : Char) (rest : List Char) :
    token? (first :: rest) =
      match kindOf? first with
      | some .number => some (.number, numberLength (first :: rest))
      | some .name => some (.name, 1 + runLength continuesName rest)
      | some .punct => some (.punct, 1)
      | none => none := by
  unfold token? kindOf?
  simp only [numberLength_ne_zero]
  split
  · rfl
  · split
    · rfl
    · split <;> rfl

/-- Lexemes at the start of one text are of one kind. -/
theorem IsLexeme.same_kind {kind kind' : TokenKind} {lexeme other text : List Char}
    (isLexeme : IsLexeme kind lexeme) (isPrefix : lexeme <+: text)
    (isLexeme' : IsLexeme kind' other) (isPrefix' : other <+: text) : kind' = kind := by
  obtain ⟨first, rest, rfl⟩ := isLexeme.exists_cons
  obtain ⟨c, behind, rfl⟩ := isLexeme'.exists_cons
  obtain ⟨tail, rfl⟩ := isPrefix
  obtain ⟨rfl, _⟩ := List.cons_prefix_cons.mp isPrefix'
  exact Option.some.inj (isLexeme'.kindOf?.symm.trans isLexeme.kindOf?)

/-- The longest lexeme of its kind is the longest one. -/
theorem isLongest_of_kind {kind : TokenKind} {lexeme text : List Char}
    (isLexeme : IsLexeme kind lexeme) (isPrefix : lexeme <+: text)
    (longest : ∀ other, IsLexeme kind other → other <+: text → other.length ≤ lexeme.length) :
    IsLongest kind lexeme text := by
  refine ⟨isLexeme, isPrefix, fun kind' other isLexeme' isPrefix' => ?_⟩
  obtain rfl := isLexeme.same_kind isPrefix isLexeme' isPrefix'
  exact longest other isLexeme' isPrefix'

/-- The number that is read is the longest lexeme at the start of a text. -/
theorem isLongest_number {text : List Char} (positive : numberLength text ≠ 0) :
    IsLongest .number (text.take (numberLength text)) text := by
  refine isLongest_of_kind (.number (isNumber_take positive)) (List.take_prefix _ _) ?_
  intro other isLexeme isPrefix
  cases isLexeme with
  | number isNumber =>
    rw [List.length_take_of_le (numberLength_le text)]
    exact isNumber.length_le isPrefix

/-- The name that is read is the longest lexeme at the start of a text. -/
theorem isLongest_name {first : Char} (starts : startsName first = true) (rest : List Char) :
    IsLongest .name ((first :: rest).take (1 + runLength continuesName rest)) (first :: rest) := by
  have run : rest.take (runLength continuesName rest) = rest.takeWhile continuesName :=
    (List.prefix_iff_eq_take.mp (List.takeWhile_prefix _)).symm
  rw [Nat.add_comm, List.take_succ_cons, run]
  refine isLongest_of_kind (.name starts ?_) ?_ ?_
  · exact List.all_eq_true.mp List.all_takeWhile
  · exact List.cons_prefix_cons.mpr ⟨rfl, List.takeWhile_prefix _⟩
  · intro other isLexeme isPrefix
    cases isLexeme with
    | name _ goesOn =>
      obtain ⟨_, isPrefix⟩ := List.cons_prefix_cons.mp isPrefix
      exact Nat.succ_le_succ (length_le_runLength isPrefix goesOn)

/-- The token that is read is the longest lexeme at the start of a text. -/
theorem isLongest_of_token? {text : List Char} {kind : TokenKind} {length : Nat}
    (read : token? text = some (kind, length)) :
    length ≤ text.length ∧ IsLongest kind (text.take length) text := by
  cases text with
  | nil => contradiction
  | cons first rest =>
    unfold token? at read
    simp only at read
    split at read
    · rename_i positive
      obtain ⟨rfl, rfl⟩ := Prod.mk.inj (Option.some.inj read)
      exact ⟨numberLength_le _, isLongest_number positive⟩
    · split at read
      · rename_i starts
        obtain ⟨rfl, rfl⟩ := Prod.mk.inj (Option.some.inj read)
        refine ⟨?_, isLongest_name starts rest⟩
        rw [Nat.add_comm]
        exact Nat.succ_le_succ (runLength_le continuesName rest)
      · split at read
        · rename_i isMark
          obtain ⟨rfl, rfl⟩ := Prod.mk.inj (Option.some.inj read)
          refine ⟨Nat.le_add_left _ _, isLongest_of_kind (.mark isMark) ⟨rest, rfl⟩ ?_⟩
          intro other isLexeme _
          cases isLexeme with
          | mark => exact Nat.le_refl _
        · contradiction

/-- A text of which no token is read begins with none. -/
theorem not_startsToken {text : List Char} (unread : token? text = none) : ¬StartsToken text := by
  rintro ⟨kind, lexeme, isLexeme, behind, rfl⟩
  obtain ⟨first, rest, rfl⟩ := isLexeme.exists_cons
  rw [List.cons_append, token?_cons, isLexeme.kindOf?] at unread
  cases kind <;> contradiction

/-- A token is read just of a text that begins with one. -/
theorem token?_eq_none {text : List Char} : token? text = none ↔ ¬StartsToken text := by
  refine ⟨not_startsToken, fun none => ?_⟩
  cases read : token? text with
  | none => rfl
  | some token =>
    have isLongest := (isLongest_of_token? read).2
    exact absurd ⟨_, _, isLongest.isLexeme, isLongest.isPrefix⟩ none

/-- The longest lexeme at the start of a text is the token that is read. -/
theorem IsLongest.token?_eq {kind : TokenKind} {lexeme text : List Char}
    (isLongest : IsLongest kind lexeme text) : token? text = some (kind, lexeme.length) := by
  cases read : token? text with
  | none => exact absurd ⟨_, _, isLongest.isLexeme, isLongest.isPrefix⟩ (not_startsToken read)
  | some token =>
    obtain ⟨kind', length⟩ := token
    obtain ⟨within, isLongest'⟩ := isLongest_of_token? read
    obtain rfl := isLongest.isLexeme.same_kind isLongest.isPrefix isLongest'.isLexeme
      isLongest'.isPrefix
    have above := isLongest.longest _ _ isLongest'.isLexeme isLongest'.isPrefix
    have below := isLongest'.longest _ _ isLongest.isLexeme isLongest.isPrefix
    rw [List.length_take_of_le within] at above below
    rw [Nat.le_antisymm above below]

/-! ### Blanks and commas -/

/-- Whether a character may stand in a number or in a name. -/
def isInner (c : Char) : Bool := Text.isDigit c || isHexDigit c || continuesName c

/-- A name may go on with a character with which it may begin. -/
theorem continuesName_of_startsName {c : Char} (starts : startsName c = true) :
    continuesName c = true := by
  have each : ∀ code < 128, startsName (Char.ofNat code) = true →
      continuesName (Char.ofNat code) = true := by
    decide
  exact @forall_ascii (fun c => startsName c = true → continuesName c = true) each c
    (ascii_of_startsName starts) starts

/-- Numbers have characters of numbers. -/
theorem IsNumber.isInner {number : List Char} (isNumber : IsNumber number) :
    ∀ c ∈ number, isInner c = true := by
  cases isNumber with
  | hexadecimal isLead some each =>
    refine List.forall_mem_cons.mpr ⟨by decide, List.forall_mem_cons.mpr ⟨?_, fun c inside => ?_⟩⟩
    · rcases isLead with rfl | rfl <;> decide
    · simp [Lexeme.isInner, each c inside]
  | binary isLead some each =>
    refine List.forall_mem_cons.mpr ⟨by decide, List.forall_mem_cons.mpr ⟨?_, fun c inside => ?_⟩⟩
    · rcases isLead with rfl | rfl <;> decide
    · have isDigit := each c inside
      simp only [isBinaryDigit, Bool.or_eq_true, beq_iff_eq] at isDigit
      rcases isDigit with rfl | rfl <;> decide
  | decimal some each => exact fun c inside => by simp [Lexeme.isInner, each c inside]

/-- A character of a lexeme stands in a number or a name, or it is a punctuation mark by itself. -/
theorem IsLexeme.isInner_or_mark {kind : TokenKind} {lexeme : List Char}
    (isLexeme : IsLexeme kind lexeme) {c : Char} (inside : c ∈ lexeme) :
    isInner c = true ∨ isPunctuation c = true ∧ kind = .punct ∧ lexeme = [c] := by
  cases isLexeme with
  | number isNumber => exact .inl (isNumber.isInner c inside)
  | name starts goesOn =>
    have goesOn : continuesName c = true := by
      rcases List.mem_cons.mp inside with rfl | inside
      · exact continuesName_of_startsName starts
      · exact goesOn c inside
    exact .inl (by simp [isInner, goesOn])
  | mark isMark =>
    obtain rfl := List.mem_singleton.mp inside
    exact .inr ⟨isMark, rfl, rfl⟩

/-- The code points of the blanks. -/
def blankCodes : List Nat :=
  Text.blankRanges.flatMap fun range => List.range' range.1 (range.2 + 1 - range.1)

/-- What holds of all blanks holds of each of them. -/
theorem forall_blank {holds : Char → Prop} (each : ∀ code ∈ blankCodes, holds (Char.ofNat code))
    {c : Char} (isBlank : Text.isBlank c = true) : holds c := by
  have among : c.toNat ∈ blankCodes := by
    obtain ⟨range, known, within⟩ := List.any_eq_true.mp isBlank
    refine List.mem_flatMap.mpr ⟨range, known, List.mem_range'_1.mpr ?_⟩
    have bounds : range.1 ≤ c.toNat ∧ c.toNat ≤ range.2 := of_decide_eq_true within
    omega
  have here := each c.toNat among
  rwa [Char.ofNat_toNat] at here

/-- No blank stands in a lexeme. -/
theorem not_inner_of_isBlank {c : Char} (isBlank : Text.isBlank c = true) :
    isInner c = false ∧ isPunctuation c = false := by
  have each : ∀ code ∈ blankCodes,
      isInner (Char.ofNat code) = false ∧ isPunctuation (Char.ofNat code) = false := by
    decide +kernel
  exact @forall_blank (fun c => isInner c = false ∧ isPunctuation c = false) each c isBlank

/-- A lexeme has no blank in it. -/
theorem IsLexeme.not_isBlank {kind : TokenKind} {lexeme : List Char}
    (isLexeme : IsLexeme kind lexeme) : ∀ c ∈ lexeme, Text.isBlank c = false := by
  intro c inside
  cases isBlank : Text.isBlank c with
  | false => rfl
  | true =>
    obtain ⟨notInner, noMark⟩ := not_inner_of_isBlank isBlank
    rcases isLexeme.isInner_or_mark inside with inner | ⟨isMark, _⟩
    · rw [notInner] at inner
      contradiction
    · rw [noMark] at isMark
      contradiction

/-- A comma is a lexeme by itself. -/
theorem IsLexeme.eq_comma {kind : TokenKind} {lexeme : List Char} (isLexeme : IsLexeme kind lexeme)
    (inside : ',' ∈ lexeme) : kind = .punct ∧ lexeme = [','] := by
  have notInner : isInner ',' = false := by decide
  rcases isLexeme.isInner_or_mark inside with inner | ⟨_, isPunct, alone⟩
  · rw [notInner] at inner
    contradiction
  · exact ⟨isPunct, alone⟩

end A64Machine.Lexeme
