import A64Machine.Proofs.OpcodeTable
import Mathlib.Algebra.Group.Int.Defs

/-!
# Words and the values of their fields

The text of a template, read from left to right, says everything about the words of its pattern.
A literal fixes the bit at its place, and the places of a letter spell the value of its field from
the highest digit down, however far apart they stand. So the words that have the literal bits and
the values that fit the fields are the same thing, once written as a word and once field by field.
-/

namespace A64Machine.BitPattern

open OpcodeTable (plain)

/-- The character names a field of the text. -/
def NamesField (text : List Char) (letter : Char) : Prop :=
  letter ∈ text ∧ isLiteral letter = false

/-- A word has the literals of a text at the places where they stand. -/
def HasLiterals (text : List Char) (word : Nat) : Prop :=
  ∀ before literal after, text = before ++ literal :: after → isLiteral literal = true →
    word.testBit after.length = (literal == '1')

/-- A word spells a value with the places of a letter: each place has the digit of the value that
is followed by as many digits as the letter has places behind. -/
def Spells (text : List Char) (word : Nat) (letter : Char) (value : Nat) : Prop :=
  value < 2 ^ text.count letter ∧
    ∀ before after, text = before ++ letter :: after →
      value.testBit (after.count letter) = word.testBit after.length

/-- The characters that a text has at a bit. -/
theorem charAt?_eq_some_iff {text : List Char} {bit : Nat} {c : Char} :
    charAt? text bit = some c ↔ ∃ before after, text = before ++ c :: after ∧ after.length = bit := by
  induction text with
  | nil => simp [charAt?]
  | cons first rest ih =>
    rw [charAt?_cons]
    constructor
    · intro here
      split at here
      · rename_i top
        obtain rfl := Option.some.inj here
        exact ⟨[], rest, rfl, top.symm⟩
      · obtain ⟨before, after, rfl, place⟩ := ih.mp here
        exact ⟨first :: before, after, rfl, place⟩
    · rintro ⟨before, after, split, rfl⟩
      cases before with
      | nil =>
        obtain ⟨rfl, rfl⟩ := List.cons.inj split
        rw [if_pos rfl]
      | cons _ before =>
        obtain ⟨rfl, rfl⟩ := List.cons.inj split
        have lower : after.length ≠ (before.append (c :: after)).length := by
          rw [List.append_eq, List.length_append, List.length_cons]
          omega
        rw [if_neg lower]
        exact ih.mpr ⟨before, after, rfl, rfl⟩

/-- A pattern accepts the words with the literals of its text. -/
theorem accepts_ofTemplate_iff_hasLiterals {text : List Char} {word : Nat} :
    (ofTemplate text).accepts word = true ↔ HasLiterals text word := by
  rw [accepts_ofTemplate]
  constructor
  · intro agrees before literal after split
    exact agrees _ literal (charAt?_eq_some_iff.mpr ⟨before, after, split, rfl⟩)
  · intro agrees bit literal here isLiteral
    obtain ⟨before, after, split, rfl⟩ := charAt?_eq_some_iff.mp here
    exact agrees before literal after split isLiteral

/-- A field has as many positions as its letter has places. -/
theorem length_positionsOf (letter : Char) (text : List Char) :
    (positionsOf letter text).length = text.count letter := by
  induction text with
  | nil => rfl
  | cons c rest ih =>
    rw [positionsOf, List.count_cons]
    by_cases same : c = letter
    · simp [same, ih]
    · simp [same, ih]

/-- The digit that a field takes from one of its places. -/
theorem testBit_gather_positionsOf (word : Nat) (letter : Char) (before after : List Char) :
    (gather word (positionsOf letter (before ++ letter :: after))).testBit (after.count letter) =
      word.testBit after.length := by
  have small := gather_lt word (positionsOf letter after)
  rw [length_positionsOf] at small
  induction before with
  | nil =>
    rw [List.nil_append, positionsOf, if_pos rfl, gather, length_positionsOf, Nat.testBit_or,
      Nat.testBit_lt_two_pow small]
    cases word.testBit after.length <;> simp [Nat.testBit_two_pow_self]
  | cons c before ih =>
    rw [List.cons_append, positionsOf]
    split
    · -- a place further left is a higher digit
      have higher : (before ++ letter :: after).count letter ≠ after.count letter := by
        rw [List.count_append, List.count_cons_self]
        omega
      rw [gather, length_positionsOf, Nat.testBit_or, ih]
      split
      · rw [Nat.testBit_two_pow_of_ne higher, Bool.false_or]
      · rw [Nat.zero_testBit, Bool.false_or]
    · exact ih

/-- Every digit of a field has a place. -/
theorem exists_place {letter : Char} {text : List Char} {digit : Nat}
    (inside : digit < text.count letter) :
    ∃ before after, text = before ++ letter :: after ∧ after.count letter = digit := by
  induction text with
  | nil => simp at inside
  | cons c rest ih =>
    rw [List.count_cons] at inside
    by_cases top : c = letter ∧ digit = rest.count letter
    · obtain ⟨rfl, rfl⟩ := top
      exact ⟨[], rest, rfl, rfl⟩
    · have later : digit < rest.count letter := by
        simp only [beq_iff_eq] at inside
        split at inside
        · rename_i same
          have : digit ≠ rest.count letter := fun h => top ⟨same, h⟩
          omega
        · exact inside
      obtain ⟨before, after, rfl, counted⟩ := ih later
      exact ⟨c :: before, after, rfl, counted⟩

/-- What a word holds in a field is what it spells with the places of the letter. -/
theorem spells_iff {text : List Char} {word : Nat} {letter : Char} {value : Nat} :
    Spells text word letter value ↔ value = gather word (positionsOf letter text) := by
  have spelled : Spells text word letter (gather word (positionsOf letter text)) := by
    constructor
    · rw [← length_positionsOf]
      exact gather_lt _ _
    · rintro before after rfl
      exact testBit_gather_positionsOf word letter before after
  constructor
  · rintro ⟨small, digits⟩
    apply Nat.eq_of_testBit_eq
    intro digit
    by_cases inside : digit < text.count letter
    · obtain ⟨before, after, split, rfl⟩ := exists_place inside
      rw [digits before after split, spelled.2 before after split]
    · have beyond : 2 ^ text.count letter ≤ 2 ^ digit :=
        Nat.pow_le_pow_right (by decide) (Nat.le_of_not_lt inside)
      rw [Nat.testBit_lt_two_pow (Nat.lt_of_lt_of_le small beyond),
        Nat.testBit_lt_two_pow (Nat.lt_of_lt_of_le spelled.1 beyond)]
  · rintro rfl
    exact spelled

/-- The value of a field in a decoded word is the one that the word spells. -/
theorem lookup_decode_ofTemplate {text : List Char} {word : Nat} {letter : Char} {value : Nat} :
    ((ofTemplate text).decode word).lookup letter = some value ↔
      NamesField text letter ∧ Spells text word letter value := by
  rw [lookup_decode, positions?_ofTemplate, spells_iff]
  by_cases named : letter ∈ text ∧ isLiteral letter = false
  · simp [named, NamesField, eq_comm]
  · simp [named, NamesField]

/-- Values make a word just when each field has one of its width. -/
theorem encode_ofTemplate_isOk_iff {text : List Char} {values : Char → Option Int} :
    (∃ word, (ofTemplate text).encode values = .ok word) ↔
      ∀ letter, NamesField text letter →
        ∃ value : Nat, values letter = some (value : Int) ∧ value < 2 ^ text.count letter := by
  have fits : (∀ field ∈ fieldsOf text, ∃ value : Nat,
      values field.1 = some (value : Int) ∧ value < 2 ^ field.2.length) ↔
      ∀ letter, NamesField text letter →
        ∃ value : Nat, values letter = some (value : Int) ∧ value < 2 ^ text.count letter := by
    constructor
    · intro each letter named
      rw [← length_positionsOf]
      exact each (letter, _) (mem_fieldsOf.mpr ⟨named.1, named.2, rfl⟩)
    · rintro each ⟨letter, positions⟩ member
      obtain ⟨present, symbolic, rfl⟩ := mem_fieldsOf.mp member
      rw [length_positionsOf]
      exact each letter ⟨present, symbolic⟩
  rw [← fits]
  constructor
  · rintro ⟨word, made⟩
    obtain ⟨bits, placed, -⟩ := map_eq_ok.mp made
    exact (encodeFields_eq_ok.mp placed).1
  · intro each
    exact ⟨_, map_eq_ok.mpr ⟨_, encodeFields_eq_ok.mpr ⟨each, rfl⟩, rfl⟩⟩

/-- A value has a field's width just when it is neither missing nor negative nor too large. -/
theorem exists_fitting_iff {given : Option Int} {width : Nat} :
    (∃ value : Nat, given = some (value : Int) ∧ value < 2 ^ width) ↔
      ¬(given = none ∨ ∃ value, given = some value ∧ (value < 0 ∨ 2 ^ width ≤ value)) := by
  have natural : ((2 ^ width : Nat) : Int) = 2 ^ width := by push_cast; rfl
  cases given with
  | none => simp
  | some value =>
    simp only [Option.some.injEq, exists_eq_left', reduceCtorEq, false_or]
    constructor
    · rintro ⟨magnitude, rfl, small⟩
      omega
    · intro fits
      obtain ⟨magnitude, rfl⟩ := Int.eq_ofNat_of_zero_le (a := value) (by omega)
      exact ⟨magnitude, rfl, by omega⟩

/-- Values make no word just when those of some field are missing, negative or too large. -/
theorem encode_ofTemplate_fails_iff {text : List Char} {values : Char → Option Int} :
    (∃ failure, (ofTemplate text).encode values = .error failure) ↔
      ∃ letter, NamesField text letter ∧
        (values letter = none ∨ ∃ value, values letter = some value ∧
          (value < 0 ∨ 2 ^ text.count letter ≤ value)) := by
  have made := @encode_ofTemplate_isOk_iff text values
  simp only [exists_fitting_iff] at made
  constructor
  · rintro ⟨failure, failed⟩
    refine Classical.byContradiction fun fitting => ?_
    obtain ⟨word, succeeded⟩ := made.mpr fun letter named unfit => fitting ⟨letter, named, unfit⟩
    rw [failed] at succeeded
    contradiction
  · rintro ⟨letter, named, unfit⟩
    cases outcome : (ofTemplate text).encode values with
    | ok word => exact absurd unfit (made.mp ⟨word, outcome⟩ letter named)
    | error failure => exact ⟨failure, rfl⟩

/-- A word that values make decodes to just those of its fields. -/
theorem lookup_decode_of_encode {text : List Char} {values : Char → Option Int} {word : Nat}
    (made : (ofTemplate text).encode values = .ok word) (letter : Char) (value : Nat) :
    ((ofTemplate text).decode word).lookup letter = some value ↔
      NamesField text letter ∧ values letter = some (value : Int) := by
  obtain ⟨-, -, holds⟩ := gather_of_encode (wellFormed_ofTemplate text) made
  rw [lookup_decode_ofTemplate, spells_iff]
  refine and_congr_right fun named => ?_
  have known : (ofTemplate text).positions? letter = some (positionsOf letter text) :=
    (positions?_ofTemplate text letter).trans (if_pos named)
  rw [holds letter _ known, Option.some_inj, Int.natCast_inj, eq_comm]

/-- A word of a pattern is made of the values that it decodes to. -/
theorem WellFormed.encode_decode {pattern : BitPattern} (compiled : pattern.WellFormed) {word : Nat}
    (small : word < 2 ^ pattern.bits) (accepted : pattern.accepts word = true) :
    pattern.encode (fun letter => ((pattern.decode word).lookup letter).map Int.ofNat) =
      .ok word := by
  refine encode_gather compiled small accepted fun letter positions known => ?_
  rw [lookup_decode, known]
  rfl

/-- A compiled pattern is a bijection between the words that have its literals and the values that
fit its fields. Values that are missing, negative or too large make no word; all others make a
word of the pattern that decodes to just them, and a word of the pattern is made of the values
that it decodes to. -/
theorem words_biject_with_values {template : List Char} {widths : List (Char × Int)} {bits : Int}
    {pattern : BitPattern} (compiled : compile template widths bits = .ok pattern) :
    (pattern.bits : Int) = bits ∧
      (∀ word, pattern.accepts word = true ↔ HasLiterals (plain template) word) ∧
      (∀ word letter value, (pattern.decode word).lookup letter = some value ↔
        NamesField (plain template) letter ∧ Spells (plain template) word letter value) ∧
      (∀ values, (∃ failure, pattern.encode values = .error failure) ↔
        ∃ letter, NamesField (plain template) letter ∧
          (values letter = none ∨ ∃ value, values letter = some value ∧
            (value < 0 ∨ 2 ^ (plain template).count letter ≤ value))) ∧
      (∀ values word, pattern.encode values = .ok word →
        word < 2 ^ pattern.bits ∧ pattern.accepts word = true ∧
          ∀ letter value, (pattern.decode word).lookup letter = some value ↔
            NamesField (plain template) letter ∧ values letter = some (value : Int)) ∧
      ∀ word < 2 ^ pattern.bits, pattern.accepts word = true →
        pattern.encode (fun letter => ((pattern.decode word).lookup letter).map Int.ofNat) =
          .ok word := by
  obtain ⟨same, size⟩ := eq_ofTemplate_of_compile compiled
  change pattern = ofTemplate (plain template) at same
  obtain rfl := same
  have wellFormed := wellFormed_ofTemplate (plain template)
  refine ⟨size, fun word => accepts_ofTemplate_iff_hasLiterals,
    fun word letter value => lookup_decode_ofTemplate, fun values => encode_ofTemplate_fails_iff,
    fun values word made => ?_, fun word => wellFormed.encode_decode⟩
  obtain ⟨small, accepted, -⟩ := gather_of_encode wellFormed made
  exact ⟨small, accepted, lookup_decode_of_encode made⟩

/-- The words of a pattern with two fields that lie across each other. -/
theorem words_biject_with_values_scattered :
    ∃ pattern, compile "ab0_1 ba_a".toList [('a', 3), ('c', 9)] 7 = .ok pattern ∧
      pattern.encode (fun letter => if letter = 'a' then some 5 else some 2) = .ok 0b1101001 ∧
      pattern.decode 0b1101001 = [('a', 5), ('b', 2)] ∧
      (∃ failure, pattern.encode (fun _ => some 4) = .error failure) ∧
      ∀ word < 2 ^ pattern.bits, pattern.accepts word = true →
        pattern.encode (fun letter => ((pattern.decode word).lookup letter).map Int.ofNat) =
          .ok word := by
  have compiled : compile "ab0_1 ba_a".toList [('a', 3), ('c', 9)] 7 =
      .ok (ofTemplate "ab01baa".toList) := toOption_eq_some.mp (by decide)
  obtain ⟨-, -, -, fails, -, restores⟩ := words_biject_with_values compiled
  refine ⟨_, compiled, toOption_eq_some.mp (by decide), by decide, ?_, restores⟩
  exact (fails _).mpr ⟨'b', ⟨by decide, by decide⟩, .inr ⟨4, rfl, .inr (by decide)⟩⟩

end A64Machine.BitPattern
