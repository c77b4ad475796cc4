import A64Machine.Disassembly
import A64Machine.Expression
import A64Machine.Proofs.Outcome

/-!
# Printed numbers are read back

The digits of a number, read from left to right, rebuild it, so a literal in hexadecimal notation
has its value back whatever its length. Decimal notation is only used for small numbers.
-/

namespace A64Machine.Text

/-- A digit has its value back in every base that has the digit. -/
theorem baseDigit?_digitChar :
    ∀ digit < 16, ∀ base < 17, digit < base → baseDigit? base (digitChar digit) = some digit := by
  decide

/-- No digit is the low line that may stand between digits. -/
theorem digitChar_ne_lowLine : ∀ digit < 16, digitChar digit ≠ '_' := by decide

/-- What a run of digits goes on to after a value. -/
def afterDigits (base value : Nat) : List Char → Option Nat
  | [] => some value
  | c :: rest => digitRun? base value (c :: rest)

/-- A digit in front of other digits is taken into the value. -/
theorem digitRun?_cons {base value digit : Nat} {c : Char} {rest : List Char}
    (known : baseDigit? base c = some digit) (plain : rest.head? ≠ some '_') :
    digitRun? base value (c :: rest) = afterDigits base (value * base + digit) rest := by
  rw [digitRun?.eq_def]
  simp only [known]
  split
  · rfl
  · exact absurd rfl plain
  · rfl

/-- Reading the digits of a value gives the value, whatever digits follow. -/
theorem digitRun?_digitsBefore {base : Nat} (least : 2 ≤ base) (most : base ≤ 16) :
    ∀ fuel value written, value < 2 ^ (fuel + 1) → written.head? ≠ some '_' →
      digitRun? base 0 (digitsBefore base (fuel + 1) value written) =
        afterDigits base value written := by
  intro fuel
  induction fuel with
  | zero =>
    intro value written small plain
    have single : value < base := by omega
    have known := baseDigit?_digitChar value (by omega) base (by omega) single
    rw [digitsBefore, if_pos single, Nat.mod_eq_of_lt single, digitRun?_cons known plain,
      Nat.zero_mul, Nat.zero_add]
  | succ fuel ih =>
    intro value written small plain
    have below : value % base < base := Nat.mod_lt _ (by omega)
    have known := baseDigit?_digitChar (value % base) (by omega) base (by omega) below
    rw [digitsBefore]
    by_cases single : value < base
    · rw [if_pos single, digitRun?_cons known plain, Nat.zero_mul, Nat.zero_add,
        Nat.mod_eq_of_lt single]
    · rw [if_neg single]
      have smaller : value / base < 2 ^ (fuel + 1) := by
        have halved : value / base ≤ value / 2 := Nat.div_le_div_left least (by decide)
        have doubled : 2 ^ (fuel + 1 + 1) = 2 ^ (fuel + 1) * 2 := Nat.pow_succ ..
        omega
      have front : (digitChar (value % base) :: written).head? ≠ some '_' := by
        intro same
        exact digitChar_ne_lowLine _ (by omega) (Option.some.inj same)
      rw [ih (value / base) _ smaller front, afterDigits, digitRun?_cons known plain,
        Nat.div_add_mod']

/-- Reading the digits of a value gives the value. -/
theorem digitRun?_digits {base : Nat} (least : 2 ≤ base) (most : base ≤ 16) (value : Nat) :
    digitRun? base 0 (digits base value) = some value :=
  digitRun?_digitsBefore least most _ value [] Nat.lt_log2_self (by simp)

/-- The digits of a value are digits of the base. -/
theorem mem_digitsBefore {base : Nat} (positive : 0 < base) {c : Char} :
    ∀ fuel value written, c ∈ digitsBefore base fuel value written →
      c ∈ written ∨ ∃ digit < base, c = digitChar digit := by
  intro fuel
  induction fuel with
  | zero =>
    intro value written inside
    exact .inl inside
  | succ fuel ih =>
    intro value written inside
    have front (later : c ∈ digitChar (value % base) :: written) :
        c ∈ written ∨ ∃ digit < base, c = digitChar digit := by
      rcases List.mem_cons.mp later with rfl | later
      · exact .inr ⟨_, Nat.mod_lt _ positive, rfl⟩
      · exact .inl later
    rw [digitsBefore] at inside
    split at inside
    · exact front inside
    · rcases ih _ _ inside with later | digit
      · exact front later
      · exact .inr digit

/-- A value has digits. -/
theorem digits_ne_nil (base value : Nat) : digits base value ≠ [] := by
  have grows : ∀ fuel value written, written ≠ [] → digitsBefore base fuel value written ≠ [] := by
    intro fuel
    induction fuel with
    | zero => exact fun _ _ some => some
    | succ fuel ih =>
      intro value written _
      rw [digitsBefore]
      split
      · simp
      · exact ih _ _ (by simp)
  rw [digits, digitsBefore]
  split
  · simp
  · exact grows _ _ _ (by simp)

/-- The sign in front of a number. -/
def sign (value : Int) : List Char := if value < 0 then ['-'] else []

/-- A number in hexadecimal notation is its sign, the lead and its digits. -/
theorem toList_hex (value : Int) :
    (hex value).toList = sign value ++ '0' :: 'x' :: digits 16 value.natAbs := by
  rw [hex, String.toList_ofList, number, sign]
  split <;> simp

/-- A number in decimal notation is its sign and its digits. -/
theorem toList_decimal (value : Int) :
    (decimal value).toList = sign value ++ digits 10 value.natAbs := by
  rw [decimal, String.toList_ofList, number, sign]
  split <;> simp

/-- A literal in hexadecimal notation has its value back. -/
theorem readLiteral_hex (value : Nat) : readLiteral (hex value) = .ok value := by
  have text : (hex value).toList = '0' :: 'x' :: digits 16 value := by
    rw [toList_hex, sign, if_neg (by omega), Int.natAbs_natCast]
    rfl
  have lead : ledBy ['x', 'X'] ('0' :: 'x' :: digits 16 value) = true := rfl
  simp only [readLiteral, text, lead, if_true, List.drop_succ_cons, List.drop_zero,
    digitRun?_digits (show 2 ≤ 16 by decide) (Nat.le_refl 16)]
  rfl

/-- Zeros in front of digits leave their value. -/
theorem digitRun?_zeros {base : Nat} (positive : 0 < base) (most : base ≤ 16) (zeros : Nat)
    {digits : List Char} (some : digits ≠ []) (plain : digits.head? ≠ .some '_') :
    digitRun? base 0 (List.replicate zeros '0' ++ digits) = digitRun? base 0 digits := by
  induction zeros with
  | zero => rfl
  | succ zeros ih =>
    have known : baseDigit? base '0' = .some 0 :=
      baseDigit?_digitChar 0 (by decide) base (by omega) positive
    have front : (List.replicate zeros '0' ++ digits).head? ≠ .some '_' := by
      cases zeros with
      | zero => exact plain
      | succ zeros => simp [List.replicate_succ]
    obtain ⟨c, rest, same⟩ := List.exists_cons_of_ne_nil
      (List.append_ne_nil_of_right_ne_nil (List.replicate zeros '0') some)
    rw [List.replicate_succ, List.cons_append, digitRun?_cons known front, Nat.zero_mul, same,
      afterDigits, ← same, ih]

/-- The digits of a value begin with a digit. -/
theorem digits_plain {base : Nat} (positive : 0 < base) (most : base ≤ 16) (value : Nat) :
    (digits base value).head? ≠ some '_' := by
  intro first
  rcases mem_digitsBefore positive _ _ _ (List.mem_of_mem_head? first) with none | ⟨digit, below, same⟩
  · contradiction
  · exact digitChar_ne_lowLine digit (by omega) same.symm

/-- A word in hexadecimal notation has zeros between the lead and its digits. -/
theorem toList_wordHex (value : Nat) : ∃ zeros, (wordHex value).toList =
    '0' :: 'x' :: (List.replicate zeros '0' ++ digits 16 value) := by
  refine ⟨10 - 2 - (digits 16 value).length, ?_⟩
  rw [wordHex, String.toList_ofList, number, if_neg (by omega), Int.natAbs_natCast]
  rfl

/-- A word in hexadecimal notation has its value back. -/
theorem readLiteral_wordHex (value : Nat) : readLiteral (wordHex value) = .ok value := by
  obtain ⟨zeros, text⟩ := toList_wordHex value
  have lead (rest : List Char) : ledBy ['x', 'X'] ('0' :: 'x' :: rest) = true := rfl
  have read := digitRun?_zeros (Nat.succ_pos 15) (Nat.le_refl 16) zeros (digits_ne_nil 16 value)
    (digits_plain (Nat.succ_pos 15) (Nat.le_refl 16) value)
  rw [digitRun?_digits (by decide) (Nat.le_refl 16)] at read
  simp only [readLiteral, text, lead, if_true, List.drop_succ_cons, List.drop_zero, read]
  rfl

/-- A small literal in decimal notation has its value back. -/
theorem readLiteral_decimal :
    ∀ value : Nat, value < 256 → readLiteral (decimal value) = .ok value := by
  have read : ∀ value : Nat, value < 256 → (readLiteral (decimal value)).toOption = some value := by
    decide +kernel
  exact fun value small => toOption_eq_some.mp (read value small)

end A64Machine.Text
