import A64Machine.Proofs.Refusals
import A64Machine.Proofs.Token

/-!
# Which numbers cannot be read

The numbers of operand text are runs of hexadecimal or binary digits behind their lead, or runs of
decimal digits. All of them have a value but two kinds of decimal numbers: those that have a leading
zero without being zero, and those that are too long.
-/

namespace A64Machine

namespace Text

/-- A decimal digit is below ten, and an ASCII digit is the one that it is written as. -/
theorem digitValue?_spec {c : Char} {digit : Nat} (known : digitValue? c = some digit) :
    digit < 10 ∧ (c.toNat < 128 → 48 ≤ c.toNat ∧ c.toNat ≤ 57) := by
  unfold digitValue? at known
  split at known
  · split at known
    · rename_i isDigit
      obtain rfl := Option.some.inj known
      simp only [Char.isDigit, ge_iff_le, Bool.and_eq_true, decide_eq_true_eq,
        UInt32.le_iff_toNat_le] at isDigit
      have least : 48 ≤ c.toNat := isDigit.1
      have most : c.toNat ≤ 57 := isDigit.2
      omega
    · cases known
  · obtain ⟨first, _, known⟩ := List.exists_of_findSome?_eq_some known
    split at known
    · obtain rfl := Option.some.inj known
      omega
    · cases known

/-- A decimal digit has its value in every base that has all of them. -/
theorem baseDigit?_of_digitValue? {base : Nat} (decimal : 10 ≤ base) {c : Char} {digit : Nat}
    (known : digitValue? c = some digit) : baseDigit? base c = some digit := by
  obtain ⟨small, ascii⟩ := digitValue?_spec known
  have lower : ¬('a' ≤ c ∧ c ≤ 'z') := by
    simp only [Char.le_def, UInt32.le_iff_toNat_le]
    change ¬(97 ≤ c.toNat ∧ c.toNat ≤ 122)
    omega
  have upper : ¬('A' ≤ c ∧ c ≤ 'Z') := by
    simp only [Char.le_def, UInt32.le_iff_toNat_le]
    change ¬(65 ≤ c.toNat ∧ c.toNat ≤ 90)
    omega
  have below : digit < base := Nat.lt_of_lt_of_le small decimal
  simp [baseDigit?, lower, upper, known, below]

/-- A decimal digit has its value in base ten. -/
theorem baseDigit?_ten {c : Char} (isDigit : isDigit c = true) :
    baseDigit? 10 c = digitValue? c := by
  obtain ⟨digit, known⟩ := Option.isSome_iff_exists.mp isDigit
  rw [known, baseDigit?_of_digitValue? (Nat.le_refl 10) known]

/-- Hexadecimal digits are ASCII characters. -/
theorem ascii_of_isHexDigit {c : Char} (isDigit : Lexeme.isHexDigit c = true) : c.toNat < 128 := by
  simp only [Lexeme.isHexDigit, Char.isDigit, ge_iff_le, Bool.or_eq_true, Bool.and_eq_true,
    decide_eq_true_eq, Char.le_def, UInt32.le_iff_toNat_le] at isDigit
  rcases isDigit with (isDigit | isDigit) | isDigit
  · exact Nat.lt_of_le_of_lt isDigit.2 (by decide)
  · exact Nat.lt_of_le_of_lt isDigit.2 (by decide)
  · exact Nat.lt_of_le_of_lt isDigit.2 (by decide)

/-- A hexadecimal digit has a value in base sixteen. -/
theorem baseDigit?_hex {c : Char} (isDigit : Lexeme.isHexDigit c = true) :
    (baseDigit? 16 c).isSome = true := by
  have ascii := ascii_of_isHexDigit isDigit
  have each : ∀ code < 128, Lexeme.isHexDigit (Char.ofNat code) = true →
      (baseDigit? 16 (Char.ofNat code)).isSome = true := by
    decide
  rw [← Char.ofNat_toNat c] at isDigit ⊢
  exact each c.toNat ascii isDigit

/-- The low line is no digit. -/
theorem baseDigit?_lowLine (base : Nat) : baseDigit? base '_' = none := rfl

/-- Digits go on to a value, which is zero when all of them are. -/
theorem afterDigits_digits {base : Nat} (positive : 0 < base) {cs : List Char}
    (digits : ∀ c ∈ cs, (baseDigit? base c).isSome = true) (value : Nat) :
    ∃ result, afterDigits base value cs = some result ∧
      (result = 0 ↔ value = 0 ∧ ∀ c ∈ cs, baseDigit? base c = some 0) := by
  induction cs generalizing value with
  | nil => exact ⟨value, rfl, by simp⟩
  | cons c rest ih =>
    obtain ⟨here, later⟩ := List.forall_mem_cons.mp digits
    obtain ⟨digit, known⟩ := Option.isSome_iff_exists.mp here
    obtain ⟨result, read, zero⟩ := ih later (value * base + digit)
    have plain : rest.head? ≠ some '_' := by
      intro same
      have digit := later '_' (List.mem_of_mem_head? same)
      rw [baseDigit?_lowLine] at digit
      contradiction
    refine ⟨result, (digitRun?_cons known plain).trans read, zero.trans ?_⟩
    have sum : value * base + digit = 0 ↔ value = 0 ∧ digit = 0 := by
      rw [Nat.add_eq_zero_iff, Nat.mul_eq_zero]
      simp [Nat.ne_of_gt positive]
    rw [sum, List.forall_mem_cons, known, Option.some.injEq, and_assoc]

/-- A run of digits has a value, which is zero when all of them are. -/
theorem digitRun?_run {base : Nat} (positive : 0 < base) {cs : List Char} (some : cs ≠ [])
    (digits : ∀ c ∈ cs, (baseDigit? base c).isSome = true) :
    ∃ result, digitRun? base 0 cs = Option.some result ∧
      (result = 0 ↔ ∀ c ∈ cs, baseDigit? base c = Option.some 0) := by
  obtain ⟨c, rest, rfl⟩ := List.exists_cons_of_ne_nil some
  obtain ⟨result, read, zero⟩ := afterDigits_digits positive digits 0
  exact ⟨result, read, zero.trans (and_iff_right rfl)⟩

end Text

namespace Lexeme

/-- The text of a number: hexadecimal or binary digits behind their lead, or decimal digits. -/
inductive IsNumber : List Char → Prop
  | hexadecimal {lead : Char} {digits : List Char} (isLead : lead = 'x' ∨ lead = 'X')
    (some : digits ≠ []) (each : ∀ c ∈ digits, isHexDigit c = true) :
    IsNumber ('0' :: lead :: digits)
  | binary {lead : Char} {digits : List Char} (isLead : lead = 'b' ∨ lead = 'B')
    (some : digits ≠ []) (each : ∀ c ∈ digits, isBinaryDigit c = true) :
    IsNumber ('0' :: lead :: digits)
  | decimal {digits : List Char} (some : digits ≠ []) (each : ∀ c ∈ digits, Text.isDigit c = true) :
    IsNumber digits

/-- A run that is not empty is a list of characters of its class. -/
theorem take_runLength {p : Char → Bool} {text : List Char} (positive : runLength p text ≠ 0) :
    text.take (runLength p text) ≠ [] ∧ ∀ c ∈ text.take (runLength p text), p c = true := by
  have run : text.take (runLength p text) = text.takeWhile p :=
    (List.prefix_iff_eq_take.mp (List.takeWhile_prefix p)).symm
  rw [run]
  exact ⟨fun none => positive (congrArg List.length none),
    List.all_eq_true.mp List.all_takeWhile⟩

/-- What is taken for a number is one. -/
theorem isNumber_take {text : List Char} (positive : numberLength text ≠ 0) :
    IsNumber (text.take (numberLength text)) := by
  have decimal {text : List Char} (positive : runLength Text.isDigit text ≠ 0) :
      IsNumber (text.take (runLength Text.isDigit text)) :=
    .decimal (take_runLength positive).1 (take_runLength positive).2
  unfold numberLength at positive ⊢
  split at positive
  · rename_i lead rest
    simp only at positive ⊢
    by_cases hex : lead = 'x' ∨ lead = 'X'
    · simp only [if_pos hex] at positive ⊢
      split at positive
      · rename_i none
        rw [if_pos none]
        exact decimal positive
      · rename_i some
        rw [if_neg some]
        exact .hexadecimal hex (take_runLength some).1 (take_runLength some).2
    · simp only [if_neg hex] at positive ⊢
      by_cases bin : lead = 'b' ∨ lead = 'B'
      · simp only [if_pos bin] at positive ⊢
        split at positive
        · rename_i none
          rw [if_pos none]
          exact decimal positive
        · rename_i some
          rw [if_neg some]
          exact .binary bin (take_runLength some).1 (take_runLength some).2
      · simp only [if_neg bin, if_true] at positive ⊢
        exact decimal positive
  · exact decimal positive

/-- A token that is a number has the text of one. -/
theorem isNumber_of_token {text : List Char} {length : Nat}
    (read : token? text = some (.number, length)) : IsNumber (text.take length) := by
  cases text with
  | nil => cases read
  | cons c rest =>
    unfold token? at read
    simp only at read
    split at read
    · rename_i positive
      obtain ⟨_, rfl⟩ := Prod.mk.inj (Option.some.inj read)
      exact isNumber_take positive
    · split at read
      · cases read
      · split at read <;> cases read

end Lexeme

namespace Text

/-- A decimal number that has no value, and what it is refused for: it is too long, or it has a leading
zero without being zero. -/
inductive HasNoValue (text : String) : BadNumeral → Prop
  | tooLong (digits : ∀ c ∈ text.toList, isDigit c = true)
    (long : mostDigits < text.toList.length) : HasNoValue text (.tooLong text.toList.length)
  | leadingZero (digits : ∀ c ∈ text.toList, isDigit c = true)
    (short : text.toList.length ≤ mostDigits)
    (leading : text.toList.head?.bind digitValue? = some 0)
    (positive : ∃ c ∈ text.toList, digitValue? c ≠ some 0) :
    HasNoValue text (.malformed 0 text)

/-- The characters of a decimal number show no other base. -/
theorem ledBy_digits {letters : List Char} (plain : ∀ letter ∈ letters, isDigit letter = false)
    {cs : List Char} (digits : ∀ c ∈ cs, isDigit c = true) : ledBy letters cs = false := by
  unfold ledBy
  split
  · rename_i first letter rest
    have digit := digits letter (List.mem_cons_of_mem _ List.mem_cons_self)
    cases among : letters.contains letter with
    | false => simp
    | true =>
      rw [plain letter (List.contains_iff_mem.mp among)] at digit
      contradiction
  · rfl

/-- Digits behind the lead of their base have a value, however many they are. -/
theorem exists_readLiteral {text : String} {base : Nat} {lead : Char} {digits : List Char}
    (same : text.toList = '0' :: lead :: digits)
    (isLead : base = 16 ∧ (lead = 'x' ∨ lead = 'X') ∨ base = 2 ∧ (lead = 'b' ∨ lead = 'B'))
    (some : digits ≠ []) (each : ∀ c ∈ digits, (baseDigit? base c).isSome = true) :
    ∃ value, readLiteral text = .ok value := by
  have positive : 0 < base := by
    rcases isLead with ⟨rfl, _⟩ | ⟨rfl, _⟩ <;> decide
  obtain ⟨value, read, _⟩ := digitRun?_run positive some each
  refine ⟨value, ?_⟩
  rcases isLead with ⟨rfl, isLead⟩ | ⟨rfl, isLead⟩
  · have led : ledBy ['x', 'X'] ('0' :: lead :: digits) = true := by
      rcases isLead with rfl | rfl <;> rfl
    simp [readLiteral, same, led, read, withinLimit]
  · have notHex : ledBy ['x', 'X'] ('0' :: lead :: digits) = false := by
      rcases isLead with rfl | rfl <;> rfl
    have led : ledBy ['b', 'B'] ('0' :: lead :: digits) = true := by
      rcases isLead with rfl | rfl <;> rfl
    simp [readLiteral, same, notHex, led, read, withinLimit]

/-- Decimal digits have a value unless they are too many or have a leading zero without being zero. -/
theorem readLiteral_digits {text : String} {value : Nat}
    (digits : ∀ c ∈ text.toList, isDigit c = true)
    (read : digitRun? 10 0 text.toList = some value) :
    readLiteral text =
      if mostDigits < text.toList.length then .error (.tooLong text.toList.length)
      else if value ≠ 0 ∧ text.toList.head?.bind digitValue? = some 0 then
        .error (.malformed 0 text)
      else .ok value := by
  have counted : text.toList.countP (· != '_') = text.toList.length := by
    apply List.countP_eq_length.mpr
    intro c inside
    have digit := digits c inside
    simp only [bne_iff_ne]
    rintro rfl
    exact absurd digit (by decide)
  have notHex := @ledBy_digits ['x', 'X'] (by decide) _ digits
  have notBinary := @ledBy_digits ['b', 'B'] (by decide) _ digits
  unfold readLiteral
  simp only [notHex, notBinary, List.drop_zero, read, withinLimit, counted, true_and,
    Bool.false_eq_true, if_false]
  split
  · rfl
  · rw [ok_bind rfl]
    split <;> rfl

/-- The decimal numbers that cannot be read are those that have no value. -/
theorem readLiteral_digits_eq_error {text : String} (some : text.toList ≠ [])
    (digits : ∀ c ∈ text.toList, isDigit c = true) {bad : BadNumeral} :
    readLiteral text = .error bad ↔ HasNoValue text bad := by
  obtain ⟨value, read, zero⟩ := digitRun?_run (Nat.succ_pos 9) some fun c inside =>
    baseDigit?_ten (digits c inside) ▸ digits c inside
  have positive : value ≠ 0 ↔ ∃ c ∈ text.toList, digitValue? c ≠ Option.some 0 := by
    rw [ne_eq, zero]
    simp only [Classical.not_forall, exists_prop]
    exact exists_congr fun c => and_congr_right fun inside => by
      rw [baseDigit?_ten (digits c inside)]
  rw [readLiteral_digits digits read]
  constructor
  · intro refused
    split at refused
    · rename_i long
      exact Except.error.inj refused ▸ .tooLong digits long
    · rename_i short
      split at refused
      · rename_i leading
        exact Except.error.inj refused ▸ .leadingZero digits (Nat.not_lt.mp short) leading.2
          (positive.mp leading.1)
      · cases refused
  · rintro (⟨_, long⟩ | ⟨_, short, leading, isPositive⟩)
    · rw [if_pos long]
    · rw [if_neg (Nat.not_lt.mpr short), if_pos ⟨positive.mpr isPositive, leading⟩]

/-- The numbers that cannot be read are the decimal numbers that have no value. -/
theorem readLiteral_eq_error {text : String} (number : Lexeme.IsNumber text.toList)
    {bad : BadNumeral} : readLiteral text = .error bad ↔ HasNoValue text bad := by
  -- behind a lead of another base there is a value, and the lead is no decimal digit
  have led {lead : Char} (hasValue : ∃ value, readLiteral text = .ok value)
      (plain : isDigit lead = false) (inside : lead ∈ text.toList) :
      readLiteral text = .error bad ↔ HasNoValue text bad := by
    obtain ⟨value, read⟩ := hasValue
    refine iff_of_false (fun refused => nomatch read.symm.trans refused) ?_
    rintro (⟨digits, _⟩ | ⟨digits, _⟩)
    all_goals exact Bool.false_ne_true (plain.symm.trans (digits lead inside))
  generalize same : text.toList = cs at number
  cases number with
  | @hexadecimal lead digits isLead some each =>
    refine led (exists_readLiteral same (.inl ⟨rfl, isLead⟩) some fun c inside =>
      baseDigit?_hex (each c inside)) ?_ (same ▸ by simp : lead ∈ text.toList)
    rcases isLead with rfl | rfl <;> decide
  | @binary lead digits isLead some each =>
    refine led (exists_readLiteral same (.inr ⟨rfl, isLead⟩) some fun c inside => ?_) ?_
      (same ▸ by simp : lead ∈ text.toList)
    · have isBinary := each c inside
      simp only [Lexeme.isBinaryDigit, Bool.or_eq_true, beq_iff_eq] at isBinary
      rcases isBinary with rfl | rfl <;> decide
    · rcases isLead with rfl | rfl <;> decide
  | decimal some digits =>
    subst same
    exact readLiteral_digits_eq_error some digits

end Text

namespace Token

/-- The numbers of a text that was scanned are numbers. -/
theorem isNumber_of_scan {skip : Nat} {position : Int} {text : List Char} {tokens : List Token}
    (scanned : scan skip position text = .ok tokens) :
    ∀ token ∈ tokens, token.kind = .number → Lexeme.IsNumber token.text.toList := by
  induction text generalizing skip position tokens with
  | nil =>
    obtain rfl : [] = tokens := by
      cases skip <;> exact Except.ok.inj scanned
    exact fun token absent => by contradiction
  | cons c rest ih =>
    cases skip with
    | succ skip => exact ih scanned
    | zero =>
      rw [scan] at scanned
      split at scanned
      · exact ih scanned
      · split at scanned
        · cases scanned
        · rename_i kind length read
          obtain ⟨later, scannedLater, rfl⟩ := map_eq_ok.mp scanned
          refine List.forall_mem_cons.mpr ⟨?_, ih scannedLater⟩
          rintro rfl
          rw [String.toList_ofList]
          exact Lexeme.isNumber_of_token read

/-- The numbers of a text that was cut into groups are numbers. -/
theorem isNumber_of_groups {text : String} {offset : Int} {result : List (List Token)}
    (cut : groups text offset = .ok result) :
    ∀ token ∈ result.flatten, token.kind = .number → Lexeme.IsNumber token.text.toList := by
  obtain ⟨tokens, scanned, cut⟩ := bind_eq_ok.mp cut
  have within := groupAt_subset 0 tokens
  intro token inside
  apply isNumber_of_scan scanned
  split at cut
  · obtain rfl := Except.ok.inj cut
    contradiction
  · obtain rfl := Except.ok.inj cut
    exact within inside

end Token

end A64Machine
