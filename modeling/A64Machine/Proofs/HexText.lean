import A64Machine.Text.ByteDigits
import A64Machine.Proofs.SourceColumns

/-!
# Hexadecimal text that is read

What numerals in base sixteen and texts of bytes look like is said here without their readers, which
accept just these texts. A numeral is more than a run of digits: blanks may surround it, and it may
have a sign, a lead and low lines between digits of any script. A text of bytes is more than pairs
of digits: there may be gaps between the pairs. Pairs of hexadecimal digits without anything else
are both, and have the value that their bytes have.
-/

namespace A64Machine.Text

/-! ### Trimming -/

/-- No character of a class stands at either end of a text. -/
def Bare (p : Char → Bool) (text : List Char) : Prop :=
  (∀ c, text.head? = some c → p c = false) ∧ ∀ c, text.getLast? = some c → p c = false

theorem dropEndWhile_append_of_pos {p : Char → Bool} {behind : List Char}
    (each : ∀ c ∈ behind, p c = true) (text : List Char) :
    dropEndWhile p (text ++ behind) = dropEndWhile p text := by
  rw [dropEndWhile, List.reverse_append, List.dropWhile_append_of_pos, dropEndWhile]
  exact fun c inside => each c (List.mem_reverse.mp inside)

/-- What stands in front of a character that stays is not dropped. -/
theorem dropEndWhile_append {p : Char → Bool} {c : Char} (stays : p c = false)
    (front behind : List Char) :
    dropEndWhile p (front ++ c :: behind) = front ++ c :: dropEndWhile p behind := by
  have turned : (front ++ c :: behind).reverse = behind.reverse ++ c :: front.reverse := by simp
  rw [dropEndWhile, dropEndWhile, turned, List.dropWhile_append]
  split
  · rename_i none
    rw [List.isEmpty_iff.mp none]
    simp [stays]
  · simp

/-- Nothing is dropped from the end of a text that is bare. -/
theorem Bare.dropEndWhile_eq {p : Char → Bool} {text : List Char} (bare : Bare p text) :
    dropEndWhile p text = text := by
  rcases List.eq_nil_or_concat text with rfl | ⟨front, last, rfl⟩
  · rfl
  · rw [List.concat_eq_append, dropEndWhile_append (bare.2 last (by simp))]
    rfl

/-- Trimming takes away what stands around a text that is bare. -/
theorem trim_eq {p : Char → Bool} {before text behind : List Char} (bare : Bare p text)
    (blankBefore : ∀ c ∈ before, p c = true) (blankBehind : ∀ c ∈ behind, p c = true) :
    dropEndWhile p ((before ++ (text ++ behind)).dropWhile p) = text := by
  rw [List.dropWhile_append_of_pos blankBefore]
  cases text with
  | nil =>
    have nothing := @List.dropWhile_append_of_pos _ _ _ [] blankBehind
    rw [List.append_nil] at nothing
    rw [List.nil_append, nothing]
    rfl
  | cons c rest =>
    have first : p c = false := bare.1 c rfl
    rw [List.cons_append, List.dropWhile_cons_of_neg (by simp [first]), ← List.cons_append,
      dropEndWhile_append_of_pos blankBehind, bare.dropEndWhile_eq]

/-- Trimming takes away what stands around some part of a text. -/
theorem exists_trim (p : Char → Bool) (text : List Char) :
    ∃ before behind, text = before ++ (dropEndWhile p (text.dropWhile p) ++ behind) ∧
      (∀ c ∈ before, p c = true) ∧ ∀ c ∈ behind, p c = true := by
  obtain ⟨behind, split, blankBehind⟩ := exists_dropEndWhile p (text.dropWhile p)
  refine ⟨text.takeWhile p, behind, ?_, List.all_eq_true.mp List.all_takeWhile, blankBehind⟩
  rw [← split, List.takeWhile_append_dropWhile]

/-! ### Digits -/

/-- The value of digits behind a value. -/
def joinDigits (base value : Nat) (digits : List Nat) : Nat :=
  digits.foldl (fun value digit => value * base + digit) value

/-- Digits with single low lines between them, and their values. -/
inductive IsDigitRun (base : Nat) : List Char → List Nat → Prop
  | last {c : Char} {digit : Nat} (known : baseDigit? base c = some digit) :
    IsDigitRun base [c] [digit]
  | next {c : Char} {digit : Nat} {rest : List Char} {digits : List Nat}
    (known : baseDigit? base c = some digit) (later : IsDigitRun base rest digits) :
    IsDigitRun base (c :: rest) (digit :: digits)
  | spaced {c : Char} {digit : Nat} {rest : List Char} {digits : List Nat}
    (known : baseDigit? base c = some digit) (later : IsDigitRun base rest digits) :
    IsDigitRun base (c :: '_' :: rest) (digit :: digits)

/-- A run begins with a digit. -/
theorem IsDigitRun.exists_cons {base : Nat} {run : List Char} {digits : List Nat}
    (isRun : IsDigitRun base run digits) :
    ∃ c rest digit, run = c :: rest ∧ baseDigit? base c = some digit := by
  cases isRun with
  | last known | next known | spaced known => exact ⟨_, _, _, rfl, known⟩

/-- A run ends with a digit. -/
theorem IsDigitRun.exists_concat {base : Nat} {run : List Char} {digits : List Nat}
    (isRun : IsDigitRun base run digits) :
    ∃ front c digit, run = front ++ [c] ∧ baseDigit? base c = some digit := by
  induction isRun with
  | last known => exact ⟨[], _, _, rfl, known⟩
  | next _ _ ih =>
    obtain ⟨front, c, digit, rfl, known⟩ := ih
    exact ⟨_ :: front, c, digit, rfl, known⟩
  | spaced _ _ ih =>
    obtain ⟨front, c, digit, rfl, known⟩ := ih
    exact ⟨_ :: '_' :: front, c, digit, rfl, known⟩

/-- The characters of a run are digits and low lines. -/
theorem IsDigitRun.mem {base : Nat} {run : List Char} {digits : List Nat}
    (isRun : IsDigitRun base run digits) :
    ∀ c ∈ run, (baseDigit? base c).isSome = true ∨ c = '_' := by
  induction isRun with
  | last known => simp [known]
  | next known _ ih => exact List.forall_mem_cons.mpr ⟨.inl (by simp [known]), ih⟩
  | spaced known _ ih =>
    exact List.forall_mem_cons.mpr
      ⟨.inl (by simp [known]), List.forall_mem_cons.mpr ⟨.inr rfl, ih⟩⟩

/-- Runs of digits are read, and nothing else is. -/
theorem digitRun?_eq_some {base value result : Nat} {run : List Char} :
    digitRun? base value run = some result ↔
      ∃ digits, IsDigitRun base run digits ∧ result = joinDigits base value digits := by
  constructor
  · intro read
    fun_induction digitRun? base value run with
    | case1 => cases read
    | case2 => cases read
    | case3 value c digit known =>
      exact ⟨[digit], .last known, (Option.some.inj read).symm⟩
    | case4 value c digit known rest ih =>
      obtain ⟨digits, later, rfl⟩ := ih read
      exact ⟨digit :: digits, .spaced known later, rfl⟩
    | case5 value c digit known next rest plain ih =>
      obtain ⟨digits, later, rfl⟩ := ih read
      exact ⟨digit :: digits, .next known later, rfl⟩
  · rintro ⟨digits, isRun, rfl⟩
    induction isRun generalizing value with
    | last known => simp [digitRun?, known, joinDigits]
    | @next c digit rest digits known later ih =>
      obtain ⟨next, rest, following, rfl, nextKnown⟩ := later.exists_cons
      have plain : (next :: rest).head? ≠ some '_' := by
        rintro same
        obtain rfl := Option.some.inj same
        rw [baseDigit?_lowLine] at nextKnown
        contradiction
      rw [digitRun?_cons known plain]
      exact ih
    | @spaced c digit rest digits known later ih =>
      rw [digitRun?]
      simp only [known]
      exact ih

/-! ### Numerals -/

/-- A sign, and whether it negates. -/
inductive IsSign : List Char → Bool → Prop
  | absent : IsSign [] false
  | plus : IsSign ['+'] false
  | minus : IsSign ['-'] true

/-- What may stand between the sign and the digits: nothing, or a zero of any script and an `x`, and
behind them a low line. -/
inductive IsHexLead : List Char → Prop
  | absent : IsHexLead []
  | shown {zero letter : Char} (isZero : digitValue? zero = some 0)
    (isLetter : letter = 'x' ∨ letter = 'X') : IsHexLead [zero, letter]
  | spaced {zero letter : Char} (isZero : digitValue? zero = some 0)
    (isLetter : letter = 'x' ∨ letter = 'X') : IsHexLead [zero, letter, '_']

/-- A numeral in base sixteen and its value. -/
inductive IsHexNumeral : List Char → Int → Prop
  | intro {before sign lead run behind : List Char} {negative : Bool} {digits : List Nat}
    (blankBefore : ∀ c ∈ before, isNumeralBlank c = true) (signed : IsSign sign negative)
    (led : IsHexLead lead) (isRun : IsDigitRun 16 run digits)
    (blankBehind : ∀ c ∈ behind, isNumeralBlank c = true) :
    IsHexNumeral (before ++ (sign ++ (lead ++ run) ++ behind))
      (if negative then -(joinDigits 16 0 digits : Nat) else (joinDigits 16 0 digits : Nat))

/-- No hexadecimal digit is a blank. -/
theorem not_blank_of_baseDigit? {c : Char} {digit : Nat} (known : baseDigit? 16 c = some digit) :
    isBlank c = false := by
  cases blank : isBlank c with
  | false => rfl
  | true =>
    have each : ∀ code ∈ Lexeme.blankCodes, baseDigit? 16 (Char.ofNat code) = none := by
      decide +kernel
    have none := @Lexeme.forall_blank (fun c => baseDigit? 16 c = none) each c blank
    rw [known] at none
    contradiction

theorem not_numeralBlank {c : Char} {digit : Nat} (known : baseDigit? 16 c = some digit) :
    isNumeralBlank c = false := by
  rw [isNumeralBlank, not_blank_of_baseDigit? known, Bool.false_and]

/-- A zero and an `x` lead what stands behind them. -/
theorem ledBy_iff {cs : List Char} :
    ledBy ['x', 'X'] cs = true ↔ ∃ zero letter rest, cs = zero :: letter :: rest ∧
      digitValue? zero = some 0 ∧ (letter = 'x' ∨ letter = 'X') := by
  unfold ledBy
  split
  · rename_i first letter rest
    rw [Bool.and_eq_true, beq_iff_eq, List.contains_iff_mem, List.mem_cons, List.mem_singleton]
    constructor
    · rintro ⟨isZero, isLetter⟩
      exact ⟨first, letter, rest, rfl, isZero, isLetter⟩
    · rintro ⟨_, _, _, same, known⟩
      cases same
      exact known
  · rename_i short
    refine iff_of_false Bool.false_ne_true ?_
    rintro ⟨zero, letter, rest, same, _⟩
    exact short zero letter rest same

/-- No digits of base sixteen begin with a lead. -/
theorem IsDigitRun.not_ledBy {run : List Char} {digits : List Nat}
    (isRun : IsDigitRun 16 run digits) : ¬ledBy ['x', 'X'] run = true := by
  intro led
  obtain ⟨zero, letter, rest, rfl, _, isLetter⟩ := ledBy_iff.mp led
  have inside := isRun.mem letter (by simp)
  rcases isLetter with rfl | rfl <;> exact absurd inside (by decide)

/-- Numerals without a sign are digits behind a lead. -/
theorem unsignedNumeral?_eq_some {cs : List Char} {value : Nat} :
    unsignedNumeral? 16 cs = some value ↔
      ∃ lead run digits, cs = lead ++ run ∧ IsHexLead lead ∧ IsDigitRun 16 run digits ∧
        value = joinDigits 16 0 digits := by
  constructor
  · intro read
    unfold unsignedNumeral? at read
    split at read
    · rename_i led
      obtain ⟨zero, letter, rest, rfl, isZero, isLetter⟩ := ledBy_iff.mp led.2
      simp only [List.drop_succ_cons, List.drop_zero] at read
      split at read
      · obtain ⟨digits, isRun, same⟩ := digitRun?_eq_some.mp read
        exact ⟨_, _, digits, rfl, .spaced isZero isLetter, isRun, same⟩
      · obtain ⟨digits, isRun, same⟩ := digitRun?_eq_some.mp read
        exact ⟨_, _, digits, rfl, .shown isZero isLetter, isRun, same⟩
    · obtain ⟨digits, isRun, same⟩ := digitRun?_eq_some.mp read
      exact ⟨[], cs, digits, rfl, .absent, isRun, same⟩
  · rintro ⟨lead, run, digits, rfl, led, isRun, rfl⟩
    have read : digitRun? 16 0 run = some (joinDigits 16 0 digits) :=
      digitRun?_eq_some.mpr ⟨digits, isRun, rfl⟩
    unfold unsignedNumeral?
    cases led with
    | absent =>
      rw [List.nil_append, if_neg fun led => isRun.not_ledBy led.2, read]
    | @shown zero letter isZero isLetter =>
      rw [if_pos ⟨rfl, ledBy_iff.mpr ⟨zero, letter, run, rfl, isZero, isLetter⟩⟩]
      obtain ⟨c, rest, digit, rfl, known⟩ := isRun.exists_cons
      simp only [List.cons_append, List.nil_append, List.drop_succ_cons, List.drop_zero]
      split
      · rename_i same
        obtain ⟨rfl, rfl⟩ := List.cons.inj same
        cases known
      · exact read
    | @spaced zero letter isZero isLetter =>
      rw [if_pos ⟨rfl, ledBy_iff.mpr ⟨zero, letter, '_' :: run, rfl, isZero, isLetter⟩⟩]
      exact read

/-- A numeral without a sign begins and ends with a digit. -/
theorem exists_ends {lead run : List Char} {digits : List Nat} (led : IsHexLead lead)
    (isRun : IsDigitRun 16 run digits) :
    (∃ c rest digit, lead ++ run = c :: rest ∧ baseDigit? 16 c = some digit) ∧
      ∃ front c digit, lead ++ run = front ++ [c] ∧ baseDigit? 16 c = some digit := by
  constructor
  · cases led with
    | absent => exact isRun.exists_cons
    | shown isZero | spaced isZero =>
      exact ⟨_, _, 0, rfl, baseDigit?_of_digitValue? (by decide) isZero⟩
  · obtain ⟨front, c, digit, rfl, known⟩ := isRun.exists_concat
    exact ⟨lead ++ front, c, digit, (List.append_assoc ..).symm, known⟩

/-- The text behind a sign, if it begins with one. -/
def behindSign (cs : List Char) : List Char :=
  if cs.head? == some '-' || cs.head? == some '+' then cs.tail else cs

/-- A text is a sign, if it begins with one, and what stands behind it. -/
theorem exists_sign (cs : List Char) :
    ∃ sign, cs = sign ++ behindSign cs ∧ IsSign sign (cs.head? == some '-') := by
  cases cs with
  | nil => exact ⟨[], rfl, .absent⟩
  | cons c rest =>
    by_cases minus : c = '-'
    · subst minus
      exact ⟨['-'], rfl, .minus⟩
    · by_cases plus : c = '+'
      · subst plus
        exact ⟨['+'], rfl, .plus⟩
      · have noMinus : ((c :: rest).head? == some '-') = false := by simp [minus]
        have noPlus : ((c :: rest).head? == some '+') = false := by simp [plus]
        rw [behindSign, noMinus, noPlus]
        exact ⟨[], rfl, .absent⟩

/-- A sign in front of a digit is found. -/
theorem IsSign.found {sign : List Char} {negative : Bool} (signed : IsSign sign negative)
    {c : Char} {digit : Nat} (known : baseDigit? 16 c = some digit) (rest : List Char) :
    ((sign ++ c :: rest).head? == some '-') = negative ∧
      behindSign (sign ++ c :: rest) = c :: rest := by
  cases signed with
  | absent =>
    have noSign : c ≠ '-' ∧ c ≠ '+' := by
      constructor <;> (rintro rfl; cases known)
    simp [behindSign, noSign]
  | plus | minus => exact ⟨rfl, rfl⟩

/-- A numeral is read behind the sign of what is left without the blanks around it. -/
theorem readNumeral_eq_ok_iff_unsigned {text : List Char} {value : Int} :
    readNumeral 16 (String.ofList text) = .ok value ↔
      let core := dropEndWhile isNumeralBlank (text.dropWhile isNumeralBlank)
      ∃ magnitude, unsignedNumeral? 16 (behindSign core) = some magnitude ∧
        value = if core.head? == some '-' then -(magnitude : Int) else magnitude := by
  unfold readNumeral
  simp only [String.toList_ofList, ← behindSign.eq_def]
  generalize dropEndWhile isNumeralBlank (text.dropWhile isNumeralBlank) = core
  cases unsignedNumeral? 16 (behindSign core) with
  | none => simp
  | some magnitude =>
    have read : (Except.ok (if core.head? == some '-' then -(magnitude : Int) else magnitude) :
        Except BadNumeral Int) = .ok value ↔
          value = if core.head? == some '-' then -(magnitude : Int) else magnitude := by
      rw [Except.ok.injEq, eq_comm]
    have within : withinLimit 16 (behindSign core) magnitude = .ok magnitude := rfl
    simp only [within, Option.some.injEq, exists_eq_left']
    exact read

/-- Numerals are read, and nothing else is. -/
theorem readNumeral_eq_ok {text : List Char} {value : Int} :
    readNumeral 16 (String.ofList text) = .ok value ↔ IsHexNumeral text value := by
  rw [readNumeral_eq_ok_iff_unsigned]
  constructor
  · rintro ⟨magnitude, unsigned, rfl⟩
    obtain ⟨before, behind, split, blankBefore, blankBehind⟩ := exists_trim isNumeralBlank text
    generalize dropEndWhile isNumeralBlank (text.dropWhile isNumeralBlank) = core
      at unsigned split ⊢
    obtain ⟨sign, parts, signed⟩ := exists_sign core
    obtain ⟨lead, run, digits, same, led, isRun, rfl⟩ := unsignedNumeral?_eq_some.mp unsigned
    have numeral := IsHexNumeral.intro blankBefore signed led isRun blankBehind
    rwa [← same, ← parts, ← split] at numeral
  · rintro ⟨blankBefore, signed, led, isRun, blankBehind⟩
    rename_i before sign lead run behind negative digits
    obtain ⟨⟨c, rest, digit, same, known⟩, front, last, _, same', known'⟩ := exists_ends led isRun
    have bare : Bare isNumeralBlank (sign ++ (lead ++ run)) := by
      constructor
      · intro first isFirst
        rw [same] at isFirst
        cases signed with
        | absent =>
          obtain rfl := Option.some.inj isFirst
          exact not_numeralBlank known
        | plus | minus =>
          obtain rfl := Option.some.inj isFirst
          decide
      · intro final isLast
        rw [same', ← List.append_assoc, List.getLast?_concat] at isLast
        obtain rfl := Option.some.inj isLast
        exact not_numeralBlank known'
    obtain ⟨isNegative, found⟩ := signed.found known rest
    rw [← same] at isNegative found
    simp only [trim_eq bare blankBefore blankBehind]
    exact ⟨_, found ▸ unsignedNumeral?_eq_some.mpr ⟨lead, run, digits, rfl, led, isRun, rfl⟩,
      by rw [isNegative]⟩

/-- A text is not a numeral for two values. -/
theorem IsHexNumeral.unique {text : List Char} {value value' : Int}
    (numeral : IsHexNumeral text value) (numeral' : IsHexNumeral text value') : value = value' := by
  have read := readNumeral_eq_ok.mpr numeral
  rw [readNumeral_eq_ok.mpr numeral'] at read
  exact (Except.ok.inj read).symm

/-! ### Bytes -/

/-- Bytes as pairs of hexadecimal digits, in either case, with gaps of a class between the pairs. -/
inductive IsByteText (isGap : Char → Bool) : List Char → List UInt8 → Prop
  | nil : IsByteText isGap [] []
  | gap {c : Char} {rest : List Char} {bytes : List UInt8} (between : isGap c = true)
    (later : IsByteText isGap rest bytes) : IsByteText isGap (c :: rest) bytes
  | byte {high low : Char} {top bottom : Nat} {rest : List Char} {bytes : List UInt8}
    (highKnown : asciiDigit? 16 high = some top) (lowKnown : asciiDigit? 16 low = some bottom)
    (later : IsByteText isGap rest bytes) :
    IsByteText isGap (high :: low :: rest) (UInt8.ofNat (16 * top + bottom) :: bytes)

/-- Bytes as pairs of hexadecimal digits, in either case, without anything else. -/
def Spells (text : List Char) (bytes : List UInt8) : Prop := IsByteText (fun _ => false) text bytes

/-- The number that bytes make behind a value, the most significant byte first. -/
def joinBytes (value : Nat) (bytes : List UInt8) : Nat :=
  bytes.foldl (fun value byte => value * 256 + byte.toNat) value

variable {isGap : Char → Bool} {text : List Char} {bytes : List UInt8}

theorem asciiDigit?_spec {c : Char} {digit : Nat} (known : asciiDigit? 16 c = some digit) :
    c.toNat < 128 ∧ baseDigit? 16 c = some digit ∧ digit < 16 := by
  unfold asciiDigit? at known
  split at known
  · rename_i ascii
    have small : digit < 16 := by
      have kept := (Option.filter_eq_some_iff.mp known).2
      exact of_decide_eq_true kept
    exact ⟨ascii, known, small⟩
  · cases known

/-- A digit of base sixteen is a hexadecimal digit unless it is beyond ASCII. -/
theorem isHexDigit_of_baseDigit? {c : Char} (known : (baseDigit? 16 c).isSome = true)
    (ascii : c.toNat < 128) : Lexeme.isHexDigit c = true := by
  have each : ∀ code < 128, (baseDigit? 16 (Char.ofNat code)).isSome = true →
      Lexeme.isHexDigit (Char.ofNat code) = true := by
    decide
  exact @Lexeme.forall_ascii
    (fun c => (baseDigit? 16 c).isSome = true → Lexeme.isHexDigit c = true) each c ascii known

/-- The ASCII digits of base sixteen are the hexadecimal digits. -/
theorem asciiDigit?_isSome {c : Char} :
    (asciiDigit? 16 c).isSome = true ↔ Lexeme.isHexDigit c = true := by
  constructor
  · intro known
    obtain ⟨digit, known⟩ := Option.isSome_iff_exists.mp known
    obtain ⟨ascii, known, _⟩ := asciiDigit?_spec known
    exact isHexDigit_of_baseDigit? (Option.isSome_iff_exists.mpr ⟨digit, known⟩) ascii
  · intro isDigit
    rw [asciiDigit?, if_pos (ascii_of_isHexDigit isDigit)]
    exact baseDigit?_hex isDigit

/-- No hexadecimal digit is a gap. -/
theorem not_gap_of_asciiDigit? {c : Char} {digit : Nat} (known : asciiDigit? 16 c = some digit) :
    isByteGap c = false := by
  have isDigit := asciiDigit?_isSome.mp (Option.isSome_iff_exists.mpr ⟨digit, known⟩)
  have each : ∀ code < 128, Lexeme.isHexDigit (Char.ofNat code) = true →
      isByteGap (Char.ofNat code) = false := by
    decide
  exact @Lexeme.forall_ascii (fun c => Lexeme.isHexDigit c = true → isByteGap c = false) each c
    (ascii_of_isHexDigit isDigit) isDigit

/-- Texts of bytes are read from any position on, and nothing else is. -/
theorem readBytesFrom_eq_ok {position : Nat} :
    readBytesFrom position text = .ok bytes ↔ IsByteText isByteGap text bytes := by
  constructor
  · intro read
    fun_induction readBytesFrom position text generalizing bytes with
    | case1 =>
      obtain rfl := Except.ok.inj read
      exact .nil
    | case2 position high rest isGap ih => exact .gap isGap (ih read)
    | case3 | case4 | case5 => cases read
    | case6 position high notGap top low rest highKnown bottom lowKnown ih =>
      obtain ⟨later, readLater, rfl⟩ := map_eq_ok.mp read
      exact .byte highKnown lowKnown (ih readLater)
  · intro isText
    induction isText generalizing position with
    | nil => rfl
    | gap between later ih =>
      unfold readBytesFrom
      rw [if_pos between, ih]
    | byte highKnown lowKnown later ih =>
      unfold readBytesFrom
      rw [if_neg (ne_true_of_eq_false (not_gap_of_asciiDigit? highKnown))]
      simp only [highKnown, lowKnown, ih]
      rfl

/-- Gaps are ASCII characters. -/
theorem ascii_of_isByteGap {c : Char} (isGap : isByteGap c = true) : c.toNat < 128 := by
  rw [isByteGap, Bool.or_eq_true, beq_iff_eq, decide_eq_true_eq] at isGap
  rcases isGap with rfl | within
  · decide
  · omega

/-- The characters of a text of bytes are hexadecimal digits and gaps. -/
theorem IsByteText.mem (isText : IsByteText isGap text bytes) :
    ∀ c ∈ text, Lexeme.isHexDigit c = true ∨ isGap c = true := by
  induction isText with
  | nil => exact fun c absent => nomatch absent
  | gap between later ih => exact List.forall_mem_cons.mpr ⟨.inr between, ih⟩
  | byte highKnown lowKnown later ih =>
    have high := asciiDigit?_isSome.mp (Option.isSome_iff_exists.mpr ⟨_, highKnown⟩)
    have low := asciiDigit?_isSome.mp (Option.isSome_iff_exists.mpr ⟨_, lowKnown⟩)
    exact List.forall_mem_cons.mpr ⟨.inl high, List.forall_mem_cons.mpr ⟨.inl low, ih⟩⟩

/-- Texts of bytes are read, and nothing else is. -/
theorem readBytes_eq_ok :
    readBytes text = .ok bytes ↔ IsByteText isByteGap text bytes := by
  unfold readBytes
  split
  · rename_i position found
    refine iff_of_false (fun same => nomatch same) fun isText => ?_
    obtain ⟨inside, beyond, _⟩ := List.findIdx?_eq_some_iff_getElem.mp found
    have ascii : text[position].toNat < 128 := by
      rcases isText.mem _ (List.getElem_mem inside) with isDigit | isGap
      · exact ascii_of_isHexDigit isDigit
      · exact ascii_of_isByteGap isGap
    exact absurd (of_decide_eq_true beyond) (Nat.not_le.mpr ascii)
  · exact readBytesFrom_eq_ok

/-- A text is not a text of two lists of bytes. -/
theorem IsByteText.unique {bytes' : List UInt8} (isText : IsByteText isByteGap text bytes)
    (isText' : IsByteText isByteGap text bytes') : bytes = bytes' := by
  have read := readBytes_eq_ok.mpr isText
  rw [readBytes_eq_ok.mpr isText'] at read
  exact (Except.ok.inj read).symm

/-- A text of bytes has two digits for each byte, and gaps. -/
theorem IsByteText.length_eq (isText : IsByteText isByteGap text bytes) :
    text.length = 2 * bytes.length + text.countP isByteGap := by
  induction isText with
  | nil => rfl
  | gap between later ih =>
    rw [List.length_cons, List.countP_cons_of_pos between, ih]
    omega
  | byte highKnown lowKnown later ih =>
    have high := ne_true_of_eq_false (not_gap_of_asciiDigit? highKnown)
    have low := ne_true_of_eq_false (not_gap_of_asciiDigit? lowKnown)
    rw [List.length_cons, List.length_cons, List.length_cons, List.countP_cons_of_neg high,
      List.countP_cons_of_neg low, ih]
    omega

/-- Pairs of digits without gaps are a text of bytes. -/
theorem Spells.isByteText (spells : Spells text bytes) : IsByteText isByteGap text bytes := by
  induction spells with
  | nil => exact .nil
  | gap between => cases between
  | byte highKnown lowKnown _ ih => exact .byte highKnown lowKnown ih

/-- A text of bytes in which no character is a gap is pairs of digits. -/
theorem IsByteText.spells (isText : IsByteText isByteGap text bytes)
    (noGap : ∀ c ∈ text, isByteGap c = false) : Spells text bytes := by
  induction isText with
  | nil => exact .nil
  | gap between _ _ => exact absurd between (by simp [noGap])
  | byte highKnown lowKnown later ih =>
    simp only [List.forall_mem_cons] at noGap
    exact .byte highKnown lowKnown (ih noGap.2.2)

/-- Pairs of digits are hexadecimal digits. -/
theorem Spells.isHexDigit (spells : Spells text bytes) :
    ∀ c ∈ text, Lexeme.isHexDigit c = true := by
  intro c inside
  exact (spells.mem c inside).resolve_right Bool.false_ne_true

/-- The pairs of some bytes are those of the first of them and those of the others. -/
theorem Spells.exists_append {front back : List UInt8} (spells : Spells text (front ++ back)) :
    ∃ first second, text = first ++ second ∧ Spells first front ∧ Spells second back := by
  induction front generalizing text with
  | nil => exact ⟨[], text, rfl, .nil, spells⟩
  | cons byte front ih =>
    cases spells with
    | gap between => cases between
    | byte highKnown lowKnown later =>
      obtain ⟨first, second, rfl, here, there⟩ := ih later
      exact ⟨_ :: _ :: first, second, rfl, .byte highKnown lowKnown here, there⟩

theorem Spells.length_eq (spells : Spells text bytes) : text.length = 2 * bytes.length := by
  induction spells with
  | nil => rfl
  | gap between => cases between
  | byte _ _ _ ih =>
    simp only [List.length_cons, ih]
    omega

/-- Pairs of digits are digits that make the number that the bytes make. -/
theorem Spells.exists_isDigitRun (spells : Spells text bytes) (some : bytes ≠ []) :
    ∃ digits, IsDigitRun 16 text digits ∧
      ∀ value, joinDigits 16 value digits = joinBytes value bytes := by
  induction spells with
  | nil => contradiction
  | gap between => cases between
  | @byte high low top bottom rest bytes highKnown lowKnown later ih =>
    obtain ⟨_, highKnown, topSmall⟩ := asciiDigit?_spec highKnown
    obtain ⟨_, lowKnown, bottomSmall⟩ := asciiDigit?_spec lowKnown
    have byte (value : Nat) : (value * 16 + top) * 16 + bottom =
        value * 256 + (UInt8.ofNat (16 * top + bottom)).toNat := by
      rw [UInt8.toNat_ofNat', Nat.mod_eq_of_lt (by omega)]
      omega
    cases later with
    | nil =>
      exact ⟨[top, bottom], .next highKnown (.last lowKnown), byte⟩
    | gap between => cases between
    | byte highKnown' lowKnown' later =>
      obtain ⟨digits, isRun, same⟩ := ih (by simp)
      refine ⟨top :: bottom :: digits, .next highKnown (.next lowKnown isRun), fun value => ?_⟩
      rw [joinBytes, List.foldl_cons, ← byte]
      exact same _

/-- Pairs of digits are a numeral for the number that the bytes make. -/
theorem Spells.isHexNumeral (spells : Spells text bytes) (some : bytes ≠ []) :
    IsHexNumeral text (joinBytes 0 bytes) := by
  obtain ⟨digits, isRun, same⟩ := spells.exists_isDigitRun some
  have numeral := @IsHexNumeral.intro [] [] [] text [] false digits (by simp) .absent .absent isRun
    (by simp)
  rw [same] at numeral
  simpa using numeral

/-! ### What is let through -/

/-- A character that numerals and texts of bytes may have beside hexadecimal digits: a sign, a low
line, the letter of a lead, a blank or a digit of another script. -/
def IsLenient (c : Char) : Prop :=
  c ∈ ['+', '-', '_', 'x', 'X'] ∨ isBlank c = true ∨
    128 ≤ c.toNat ∧ (baseDigit? 16 c).isSome = true

/-- No hexadecimal digit is one of these characters. -/
theorem IsLenient.not_isHexDigit {c : Char} (lenient : IsLenient c) :
    ¬Lexeme.isHexDigit c = true := by
  intro isDigit
  have ascii := ascii_of_isHexDigit isDigit
  have each : ∀ code < 128, Lexeme.isHexDigit (Char.ofNat code) = true →
      ¬(Char.ofNat code ∈ ['+', '-', '_', 'x', 'X'] ∨ isBlank (Char.ofNat code) = true) := by
    decide
  have plain := @Lexeme.forall_ascii (fun c => Lexeme.isHexDigit c = true →
    ¬(c ∈ ['+', '-', '_', 'x', 'X'] ∨ isBlank c = true)) each c ascii isDigit
  rcases lenient with mark | blank | ⟨beyond, _⟩
  · exact plain (.inl mark)
  · exact plain (.inr blank)
  · exact absurd ascii (Nat.not_lt.mpr beyond)

theorem isHexDigit_or_lenient {c : Char} (known : (baseDigit? 16 c).isSome = true) :
    Lexeme.isHexDigit c = true ∨ IsLenient c := by
  rcases Nat.lt_or_ge c.toNat 128 with ascii | beyond
  · exact .inl (isHexDigit_of_baseDigit? known ascii)
  · exact .inr (.inr (.inr ⟨beyond, known⟩))

/-- The characters of a numeral are hexadecimal digits and those that are let through. -/
theorem IsHexNumeral.mem {value : Int} (numeral : IsHexNumeral text value) :
    ∀ c ∈ text, Lexeme.isHexDigit c = true ∨ IsLenient c := by
  obtain ⟨blankBefore, signed, led, isRun, blankBehind⟩ := numeral
  rename_i before sign lead run behind negative digits
  have blank {c : Char} (blank : isNumeralBlank c = true) :
      Lexeme.isHexDigit c = true ∨ IsLenient c :=
    .inr (.inr (.inl (Bool.and_eq_true_iff.mp blank).1))
  have inSign : ∀ c ∈ sign, IsLenient c := by
    cases signed with
    | absent => exact fun c absent => nomatch absent
    | plus | minus => exact List.forall_mem_singleton.mpr (.inl (by decide))
  have letterLenient {letter : Char} (isLetter : letter = 'x' ∨ letter = 'X') :
      IsLenient letter := by
    rcases isLetter with rfl | rfl <;> exact .inl (by decide)
  have zeroRead {zero : Char} (isZero : digitValue? zero = some 0) :
      Lexeme.isHexDigit zero = true ∨ IsLenient zero :=
    isHexDigit_or_lenient (Option.isSome_iff_exists.mpr
      ⟨0, baseDigit?_of_digitValue? (by decide) isZero⟩)
  have inLead : ∀ c ∈ lead, Lexeme.isHexDigit c = true ∨ IsLenient c := by
    cases led with
    | absent => exact fun c absent => nomatch absent
    | shown isZero isLetter =>
      exact List.forall_mem_cons.mpr ⟨zeroRead isZero,
        List.forall_mem_singleton.mpr (.inr (letterLenient isLetter))⟩
    | spaced isZero isLetter =>
      exact List.forall_mem_cons.mpr ⟨zeroRead isZero, List.forall_mem_cons.mpr
        ⟨.inr (letterLenient isLetter), List.forall_mem_singleton.mpr (.inr (.inl (by decide)))⟩⟩
  have inRun : ∀ c ∈ run, Lexeme.isHexDigit c = true ∨ IsLenient c := by
    intro c inside
    rcases isRun.mem c inside with known | rfl
    · exact isHexDigit_or_lenient known
    · exact .inr (.inl (by decide))
  simp only [List.mem_append]
  rintro c (inside | (inside | inside | inside) | inside)
  · exact blank (blankBefore c inside)
  · exact .inr (inSign c inside)
  · exact inLead c inside
  · exact inRun c inside
  · exact blank (blankBehind c inside)

/-- A gap is let through. -/
theorem IsLenient.of_isByteGap {c : Char} (isGap : isByteGap c = true) : IsLenient c := by
  have each : ∀ code < 128, isByteGap (Char.ofNat code) = true →
      isBlank (Char.ofNat code) = true := by
    decide
  exact .inr (.inl (@Lexeme.forall_ascii (fun c => isByteGap c = true → isBlank c = true) each c
    (ascii_of_isByteGap isGap) isGap))

end A64Machine.Text
