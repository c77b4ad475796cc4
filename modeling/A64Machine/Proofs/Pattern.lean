import A64Machine.Pattern

/-!
# Bit patterns as bijections

A template gives every bit of a word one character, so the literal bits and the fields of a
compiled pattern share the word out without a gap or an overlap. Hence taking the fields out of
an accepted word and placing them again gives the word back, and a word made from field values
is accepted and holds those values. Both hold however a field is scattered.
-/

namespace A64Machine.BitPattern

/-- Whether a property holds of some letters is decided letter by letter. The general decision over
all characters is of no use. -/
instance (priority := high) decidableForallLetter (letters : List Char) (holds : Char → Prop)
    [DecidablePred holds] : Decidable (∀ letter ∈ letters, holds letter) :=
  List.decidableBAll holds letters

/-- Whether a property holds of one of some letters is decided letter by letter, too. -/
instance (priority := high) decidableExistsLetter (letters : List Char) (holds : Char → Prop)
    [DecidablePred holds] : Decidable (∃ letter ∈ letters, holds letter) :=
  List.decidableBEx holds letters

/-- The character of a template that stands at a bit of the word. -/
def charAt? (template : List Char) (bit : Nat) : Option Char := template.reverse[bit]?

/-- The first character of a template stands at its highest bit. -/
theorem charAt?_cons (c : Char) (rest : List Char) (bit : Nat) :
    charAt? (c :: rest) bit = if bit = rest.length then some c else charAt? rest bit := by
  unfold charAt?
  rw [List.reverse_cons, List.getElem?_append, List.length_reverse]
  by_cases same : bit = rest.length
  · simp [same]
  · by_cases below : bit < rest.length
    · simp [same, below]
    · have above : bit - rest.length ≠ 0 := by omega
      simp [same, below, above]

/-- Bits beyond the template have no character. -/
theorem charAt?_of_le {template : List Char} {bit : Nat} (beyond : template.length ≤ bit) :
    charAt? template bit = none := by
  simp [charAt?, beyond]

/-- Bits below the length of the template have a character of the template. -/
theorem exists_charAt? {template : List Char} {bit : Nat} (below : bit < template.length) :
    ∃ c ∈ template, charAt? template bit = some c := by
  have small : bit < template.reverse.length := by simpa using below
  exact ⟨template.reverse[bit], List.mem_reverse.mp (List.getElem_mem small),
    List.getElem?_eq_getElem small⟩

/-- A bit of `placesWhere` tells whether the character at that bit satisfies the condition. -/
theorem testBit_placesWhere (p : Char → Bool) (template : List Char) (bit : Nat) :
    (placesWhere p template).testBit bit = (charAt? template bit).any p := by
  induction template with
  | nil => simp [placesWhere, charAt?]
  | cons c rest ih =>
    rw [placesWhere, Nat.testBit_or, ih, charAt?_cons]
    by_cases same : bit = rest.length
    · subst same
      rw [charAt?_of_le (Nat.le_refl rest.length)]
      by_cases holds : p c <;> simp [holds, Nat.testBit_two_pow_self]
    · have apart : rest.length ≠ bit := fun h => same h.symm
      by_cases holds : p c <;> simp [holds, same, Nat.testBit_two_pow_of_ne apart]

/-- The positions of a letter are the bits at which it stands. -/
theorem mem_positionsOf {letter : Char} {template : List Char} {bit : Nat} :
    bit ∈ positionsOf letter template ↔ charAt? template bit = some letter := by
  induction template with
  | nil => simp [positionsOf, charAt?]
  | cons c rest ih =>
    rw [positionsOf, charAt?_cons]
    by_cases same : bit = rest.length
    · subst same
      have absent : rest.length ∉ positionsOf letter rest := by
        rw [ih, charAt?_of_le (Nat.le_refl _)]
        simp
      by_cases found : c = letter <;> simp [found, absent]
    · by_cases found : c = letter <;> simp [found, same, ih]

/-- No bit belongs to a letter twice. -/
theorem nodup_positionsOf (letter : Char) (template : List Char) :
    (positionsOf letter template).Nodup := by
  induction template with
  | nil => exact List.nodup_nil
  | cons c rest ih =>
    rw [positionsOf]
    split
    · refine List.nodup_cons.mpr ⟨?_, ih⟩
      rw [mem_positionsOf, charAt?_of_le (Nat.le_refl _)]
      simp
    · exact ih

/-! ### Taking a field out and placing it -/

/-- A field value has as many bits as there are positions. -/
theorem gather_lt (word : Nat) (positions : List Nat) :
    gather word positions < 2 ^ positions.length := by
  induction positions with
  | nil => simp [gather]
  | cons position rest ih =>
    rw [gather, List.length_cons, Nat.pow_succ]
    refine Nat.or_lt_two_pow (n := rest.length + 1) ?_ (by rw [Nat.pow_succ]; omega)
    split
    · rw [Nat.pow_succ]; have := Nat.two_pow_pos rest.length; omega
    · exact Nat.two_pow_pos _

/-- The first position of a field is its most significant bit. -/
theorem gather_cons (word position : Nat) (rest : List Nat) :
    gather word (position :: rest) =
      (if word.testBit position then 2 ^ rest.length else 0) + gather word rest := by
  rw [gather]
  split
  · have grown := Nat.two_pow_add_eq_or_of_lt (gather_lt word rest) 1
    rw [Nat.mul_one] at grown
    exact grown.symm
  · rw [Nat.zero_or, Nat.zero_add]

/-- A field is zero when none of its bits is set. -/
theorem gather_eq_zero_iff {word : Nat} {positions : List Nat} :
    gather word positions = 0 ↔ ∀ position ∈ positions, word.testBit position = false := by
  induction positions with
  | nil => simp [gather]
  | cons position rest ih =>
    rw [gather_cons, List.forall_mem_cons, ← ih]
    cases word.testBit position <;> simp

/-- A field has its greatest value when all of its bits are set. -/
theorem gather_eq_max_iff {word : Nat} {positions : List Nat} :
    gather word positions = 2 ^ positions.length - 1 ↔
      ∀ position ∈ positions, word.testBit position = true := by
  induction positions with
  | nil => simp [gather]
  | cons position rest ih =>
    have := Nat.two_pow_pos rest.length
    have := gather_lt word rest
    rw [gather_cons, List.forall_mem_cons, ← ih, List.length_cons, Nat.pow_succ]
    cases word.testBit position <;> simp <;> omega

/-- A field value is determined by the bits at its positions. -/
theorem gather_congr {word other : Nat} {positions : List Nat}
    (same : ∀ position ∈ positions, word.testBit position = other.testBit position) :
    gather word positions = gather other positions := by
  induction positions with
  | nil => rfl
  | cons position rest ih =>
    rw [gather, gather, same position List.mem_cons_self,
      ih fun p hp => same p (List.mem_cons_of_mem _ hp)]

/-- The positions of a field without gaps. -/
def contiguous (start : Nat) : (width : Nat) → List Nat
  | 0 => []
  | width + 1 => (start + width) :: contiguous start width

/-- The positions of a field without gaps begin at its start. -/
theorem mem_contiguous {start width bit : Nat} :
    bit ∈ contiguous start width ↔ start ≤ bit ∧ bit < start + width := by
  induction width with
  | zero =>
    rw [contiguous]
    simp
  | succ width ih =>
    rw [contiguous, List.mem_cons, ih]
    omega

/-- The value of a field without gaps is a run of the bits of the word. -/
theorem gather_contiguous (word start width : Nat) :
    gather word (contiguous start width) = (word >>> start) % 2 ^ width := by
  have length : ∀ width, (contiguous start width).length = width := by
    intro width
    induction width with
    | zero => rfl
    | succ width ih => rw [contiguous, List.length_cons, ih]
  induction width with
  | zero => simp [contiguous, gather, Nat.mod_one]
  | succ width ih =>
    rw [contiguous, gather_cons, length, ih, Nat.mod_pow_succ, ← Nat.testBit_shiftRight,
      Nat.testBit_eq_decide_div_mod_eq, Nat.add_comm]
    rcases Nat.mod_two_eq_zero_or_one (word >>> start / 2 ^ width) with clear | set
    · simp [clear]
    · simp [set]

/-- What is placed depends on as many bits of the value as there are positions. -/
theorem scatter_congr {value other : Nat} {positions : List Nat}
    (same : ∀ index < positions.length, value.testBit index = other.testBit index) :
    scatter value positions = scatter other positions := by
  induction positions with
  | nil => rfl
  | cons position rest ih =>
    rw [scatter, scatter, same rest.length (by simp),
      ih fun index small => same index (by simp only [List.length_cons]; omega)]

/-- Placing a value sets no bit outside the positions. -/
theorem testBit_scatter_of_not_mem {value bit : Nat} {positions : List Nat}
    (outside : bit ∉ positions) : (scatter value positions).testBit bit = false := by
  induction positions with
  | nil => simp [scatter]
  | cons position rest ih =>
    rw [List.mem_cons, not_or] at outside
    rw [scatter, Nat.testBit_or, ih outside.2]
    have apart : position ≠ bit := fun h => outside.1 h.symm
    split <;> simp [Nat.testBit_two_pow_of_ne apart]

/-- Placing a field again restores its bits of the word and sets no other. -/
theorem testBit_scatter_gather (word : Nat) (positions : List Nat) (bit : Nat) :
    (scatter (gather word positions) positions).testBit bit =
      (decide (bit ∈ positions) && word.testBit bit) := by
  induction positions with
  | nil => simp [scatter]
  | cons position rest ih =>
    have top : (gather word (position :: rest)).testBit rest.length = word.testBit position := by
      rw [gather, Nat.testBit_or, Nat.testBit_lt_two_pow (gather_lt word rest)]
      cases word.testBit position <;> simp [Nat.testBit_two_pow_self]
    have low : scatter (gather word (position :: rest)) rest = scatter (gather word rest) rest := by
      refine scatter_congr fun index small => ?_
      rw [gather, Nat.testBit_or]
      have apart : rest.length ≠ index := by omega
      cases word.testBit position <;> simp [Nat.testBit_two_pow_of_ne apart]
    rw [scatter, top, low, Nat.testBit_or, ih]
    by_cases same : bit = position
    · subst same
      cases word.testBit bit <;> simp [Nat.testBit_two_pow_self]
    · have apart : position ≠ bit := fun h => same h.symm
      cases word.testBit position <;> simp [same, Nat.testBit_two_pow_of_ne apart]

/-- A placed value can be taken out again, up to the number of its bits. -/
theorem gather_scatter {value : Nat} {positions : List Nat} (distinct : positions.Nodup) :
    gather (scatter value positions) positions = value % 2 ^ positions.length := by
  induction positions generalizing value with
  | nil => simp [gather, Nat.mod_one]
  | cons position rest ih =>
    obtain ⟨fresh, distinct⟩ := List.nodup_cons.mp distinct
    have low : gather (scatter value (position :: rest)) rest = gather (scatter value rest) rest := by
      refine gather_congr fun p hp => ?_
      have apart : position ≠ p := fun h => fresh (h ▸ hp)
      rw [scatter, Nat.testBit_or]
      split <;> simp [Nat.testBit_two_pow_of_ne apart]
    have top : (scatter value (position :: rest)).testBit position = value.testBit rest.length := by
      rw [scatter, Nat.testBit_or, testBit_scatter_of_not_mem fresh]
      split <;> simp_all [Nat.testBit_two_pow_self]
    rw [gather, top, low, ih distinct]
    apply Nat.eq_of_testBit_eq
    intro index
    rw [Nat.testBit_or, Nat.testBit_mod_two_pow, Nat.testBit_mod_two_pow, List.length_cons]
    by_cases same : index = rest.length
    · subst same
      split <;> simp_all [Nat.testBit_two_pow_self]
    · have apart : rest.length ≠ index := fun h => same h.symm
      have bound : index < rest.length + 1 ↔ index < rest.length := by omega
      split <;> simp [Nat.testBit_two_pow_of_ne apart, bound]

/-! ### Compiled patterns -/

/-- The pattern of a template without separators. -/
def ofTemplate (template : List Char) : BitPattern :=
  ⟨template, placesWhere isLiteral template, placesWhere (· == '1') template, fieldsOf template⟩

/-- A pattern that is what its template says. -/
def WellFormed (pattern : BitPattern) : Prop := pattern = ofTemplate pattern.template

theorem wellFormed_ofTemplate (template : List Char) : (ofTemplate template).WellFormed := rfl

/-- Compiling a template drops its separators and keeps everything else. -/
theorem eq_ofTemplate_of_compile {template : List Char} {widths : List (Char × Int)} {bits : Int}
    {pattern : BitPattern} (compiled : compile template widths bits = .ok pattern) :
    pattern = ofTemplate (template.filter fun c => !isSeparator c) ∧
      (pattern.bits : Int) = bits := by
  simp only [compile, bind, Except.bind, pure, Except.pure, throw, throwThe,
    MonadExceptOf.throw] at compiled
  split at compiled
  · contradiction
  · rename_i agrees
    split at compiled
    · contradiction
    · split at compiled
      · contradiction
      · obtain rfl := Except.ok.inj compiled
        exact ⟨rfl, Decidable.not_not.mp agrees⟩

/-- The fields of a template are the positions of its letters. -/
theorem mem_fieldsOf {template : List Char} {letter : Char} {positions : List Nat} :
    (letter, positions) ∈ fieldsOf template ↔
      letter ∈ template ∧ isLiteral letter = false ∧ positions = positionsOf letter template := by
  simp only [fieldsOf, List.mem_map, List.mem_eraseDups, List.mem_filter, Prod.mk.injEq,
    Bool.not_eq_true']
  constructor
  · rintro ⟨c, ⟨present, symbolic⟩, rfl, rfl⟩
    exact ⟨present, symbolic, rfl⟩
  · rintro ⟨present, symbolic, rfl⟩
    exact ⟨letter, ⟨present, symbolic⟩, rfl, rfl⟩

/-- Looking a key up in a list whose values are computed from the keys. -/
theorem lookup_map_key {α β : Type} [DecidableEq α] (f : α → β) (keys : List α) (key : α) :
    (keys.map fun k => (k, f k)).lookup key = if key ∈ keys then some (f key) else none := by
  induction keys with
  | nil => simp
  | cons k rest ih =>
    rw [List.map_cons, List.lookup_cons, ih]
    by_cases same : key = k
    · simp [same]
    · simp [same, beq_false_of_ne same]

/-- Looking a key up after the values were mapped. -/
theorem lookup_map_value {α β γ : Type} [BEq α] (f : β → γ) (entries : List (α × β)) (key : α) :
    (entries.map fun entry => (entry.1, f entry.2)).lookup key = (entries.lookup key).map f := by
  induction entries with
  | nil => rfl
  | cons entry rest ih =>
    obtain ⟨k, value⟩ := entry
    rw [List.map_cons, List.lookup_cons, List.lookup_cons, ih]
    cases key == k <;> rfl

/-- The positions of a field of a template. -/
theorem positions?_ofTemplate (template : List Char) (letter : Char) :
    (ofTemplate template).positions? letter =
      if letter ∈ template ∧ isLiteral letter = false then some (positionsOf letter template)
      else none := by
  rw [positions?, ofTemplate, fieldsOf, lookup_map_key]
  simp [List.mem_eraseDups]

/-- The positions of a field of a pattern that is what its template says. -/
theorem WellFormed.positions?_eq {pattern : BitPattern} (compiled : pattern.WellFormed)
    (letter : Char) :
    pattern.positions? letter =
      if letter ∈ pattern.template ∧ isLiteral letter = false then
        some (positionsOf letter pattern.template)
      else none := by
  obtain ⟨template, rfl⟩ : ∃ template, pattern = ofTemplate template := ⟨_, compiled⟩
  exact positions?_ofTemplate template letter

/-- The value of a field in a decoded word. -/
theorem lookup_decode (pattern : BitPattern) (word : Nat) (letter : Char) :
    (pattern.decode word).lookup letter = (pattern.positions? letter).map (gather word) :=
  lookup_map_value (gather word) pattern.fields letter

/-- A word is accepted when it agrees with every literal bit of the template. -/
theorem accepts_ofTemplate {template : List Char} {word : Nat} :
    (ofTemplate template).accepts word = true ↔
      ∀ bit c, charAt? template bit = some c → isLiteral c = true →
        word.testBit bit = (c == '1') := by
  rw [accepts, beq_iff_eq]
  constructor
  · intro equal bit c here literal
    have bits := congrArg (Nat.testBit · bit) equal
    simp only [ofTemplate, Nat.testBit_and, testBit_placesWhere, here, Option.any_some, literal,
      Bool.and_true] at bits
    exact bits
  · intro agree
    apply Nat.eq_of_testBit_eq
    intro bit
    simp only [ofTemplate, Nat.testBit_and, testBit_placesWhere]
    cases here : charAt? template bit with
    | none => simp
    | some c =>
      cases literal : isLiteral c with
      | true => simp [literal, agree bit c here literal]
      | false =>
        have notOne : (c == '1') = false := by
          simp only [isLiteral, Bool.or_eq_false_iff] at literal
          exact literal.2
        simp [literal, notOne]

/-! ### Encoding and decoding -/

/-- A pattern that is what its template says accepts the words with its literal bits. -/
theorem WellFormed.accepts_iff {pattern : BitPattern} (compiled : pattern.WellFormed)
    {word : Nat} : pattern.accepts word = true ↔
      ∀ bit c, charAt? pattern.template bit = some c → isLiteral c = true →
        word.testBit bit = (c == '1') := by
  rw [compiled]
  exact accepts_ofTemplate

/-- The bits that fields with the given values contribute to a word. -/
def fieldBits (values : Char → Nat) : List (Char × List Nat) → Nat
  | [] => 0
  | (letter, positions) :: rest => scatter (values letter) positions ||| fieldBits values rest

/-- A bit is contributed by the field that it belongs to. -/
theorem testBit_fieldBits (values : Char → Nat) (fields : List (Char × List Nat)) (bit : Nat) :
    (fieldBits values fields).testBit bit =
      fields.any fun field => (scatter (values field.1) field.2).testBit bit := by
  induction fields with
  | nil => simp [fieldBits]
  | cons field rest ih => simp [fieldBits, ih]

/-- Encoding fields succeeds just when every field has a value of its width. -/
theorem encodeFields_eq_ok {template : List Char} {values : Char → Option Int}
    {fields : List (Char × List Nat)} {word : Nat} :
    encodeFields template values fields = .ok word ↔
      (∀ field ∈ fields, ∃ value : Nat, values field.1 = some (value : Int) ∧
        value < 2 ^ field.2.length) ∧
      word = fieldBits (fun letter => ((values letter).getD 0).toNat) fields := by
  induction fields generalizing word with
  | nil => simp [encodeFields, fieldBits, eq_comm]
  | cons field rest ih =>
    obtain ⟨letter, positions⟩ := field
    rw [encodeFields, List.forall_mem_cons]
    cases given : values letter with
    | none => simp
    | some value =>
      have small : (0 ≤ value ∧ value < (2 ^ positions.length : Nat)) ↔
          ∃ n : Nat, some value = some (n : Int) ∧ n < 2 ^ positions.length := by
        constructor
        · rintro ⟨nonnegative, bound⟩
          obtain ⟨n, rfl⟩ := Int.eq_ofNat_of_zero_le nonnegative
          exact ⟨n, rfl, Int.ofNat_lt.mp bound⟩
        · rintro ⟨n, same, bound⟩
          obtain rfl := Option.some.inj same
          exact ⟨Int.natCast_nonneg n, Int.ofNat_lt.mpr bound⟩
      dsimp only
      by_cases fits : 0 ≤ value ∧ value < (2 ^ positions.length : Nat)
      · rw [if_pos fits]
        have first := small.mp fits
        cases tail : encodeFields template values rest with
        | error error =>
          have none : ∀ word, ¬ encodeFields template values rest = .ok word := by simp [tail]
          constructor
          · intro encoded; contradiction
          · rintro ⟨⟨_, others⟩, _⟩
            exact absurd (ih.mpr ⟨others, rfl⟩) (none _)
        | ok bits =>
          obtain ⟨others, rfl⟩ := ih.mp tail
          simp only [Except.map, Except.ok.injEq, fieldBits, given, Option.getD_some]
          constructor
          · intro h; exact ⟨⟨first, others⟩, h.symm⟩
          · intro h; exact h.2.symm
      · rw [if_neg fits]
        constructor
        · intro encoded; contradiction
        · rintro ⟨⟨first, _⟩, _⟩
          exact absurd (small.mpr first) fits

/-- A bit of a template without an entry among the fields belongs to none of them. -/
theorem testBit_fieldBits_ofTemplate {template : List Char} {values : Char → Nat} {bit : Nat} :
    (fieldBits values (fieldsOf template)).testBit bit =
      (charAt? template bit).any fun letter =>
        !isLiteral letter && (scatter (values letter) (positionsOf letter template)).testBit bit := by
  rw [testBit_fieldBits, Bool.eq_iff_iff]
  simp only [List.any_eq_true, Prod.exists, mem_fieldsOf, Option.any_eq_true, Bool.and_eq_true,
    Bool.not_eq_true']
  constructor
  · rintro ⟨letter, _, ⟨_, symbolic, rfl⟩, set⟩
    have inside : bit ∈ positionsOf letter template :=
      Decidable.byContradiction fun outside => by
        simp [testBit_scatter_of_not_mem outside] at set
    exact ⟨letter, mem_positionsOf.mp inside, symbolic, set⟩
  · rintro ⟨letter, here, symbolic, set⟩
    have present : letter ∈ template :=
      List.mem_reverse.mp (List.mem_of_getElem? here)
    exact ⟨letter, _, ⟨present, symbolic, rfl⟩, set⟩

/-- Encoding the fields that an accepted word holds gives the word back. -/
theorem encode_gather {pattern : BitPattern} (compiled : pattern.WellFormed) {word : Nat}
    (small : word < 2 ^ pattern.bits) (accepted : pattern.accepts word = true)
    {values : Char → Option Int}
    (holds : ∀ letter positions, pattern.positions? letter = some positions →
      values letter = some (gather word positions : Int)) :
    pattern.encode values = .ok word := by
  obtain ⟨template, rfl⟩ : ∃ template, pattern = ofTemplate template := ⟨_, compiled⟩
  rw [accepts_ofTemplate] at accepted
  have holds : ∀ letter ∈ template, isLiteral letter = false →
      values letter = some (gather word (positionsOf letter template) : Int) := by
    intro letter present symbolic
    refine holds letter _ ?_
    rw [positions?_ofTemplate, if_pos ⟨present, symbolic⟩]
  have fields : encodeFields template values (fieldsOf template) =
      .ok (fieldBits (fun letter => ((values letter).getD 0).toNat) (fieldsOf template)) := by
    refine encodeFields_eq_ok.mpr ⟨?_, rfl⟩
    rintro ⟨letter, positions⟩ member
    obtain ⟨present, symbolic, rfl⟩ := mem_fieldsOf.mp member
    exact ⟨_, holds letter present symbolic, gather_lt _ _⟩
  rw [encode, show (ofTemplate template).fields = fieldsOf template from rfl,
    show (ofTemplate template).template = template from rfl, fields]
  refine congrArg Except.ok (Nat.eq_of_testBit_eq fun bit => ?_)
  rw [Nat.testBit_or, testBit_fieldBits_ofTemplate, ofTemplate, testBit_placesWhere]
  by_cases below : bit < template.length
  · obtain ⟨c, present, here⟩ := exists_charAt? below
    cases literal : isLiteral c with
    | true => simp [here, literal, accepted bit c here literal]
    | false =>
      have notOne : (c == '1') = false := (Bool.or_eq_false_iff.mp literal).2
      simp [here, literal, notOne, holds c present literal, testBit_scatter_gather,
        mem_positionsOf]
  · have beyond := Nat.le_of_not_lt below
    simp [charAt?_of_le beyond,
      Nat.testBit_lt_two_pow (Nat.lt_of_lt_of_le small (Nat.pow_le_pow_right (by decide) beyond))]

/-- An encoded word is one of the pattern, and its fields are the values it was made from. -/
theorem gather_of_encode {pattern : BitPattern} (compiled : pattern.WellFormed) {word : Nat}
    {values : Char → Option Int} (encoded : pattern.encode values = .ok word) :
    word < 2 ^ pattern.bits ∧ pattern.accepts word = true ∧
      ∀ letter positions, pattern.positions? letter = some positions →
        values letter = some (gather word positions : Int) := by
  obtain ⟨template, rfl⟩ : ∃ template, pattern = ofTemplate template := ⟨_, compiled⟩
  rw [encode, show (ofTemplate template).fields = fieldsOf template from rfl,
    show (ofTemplate template).template = template from rfl] at encoded
  cases fields : encodeFields template values (fieldsOf template) with
  | error error => rw [fields] at encoded; contradiction
  | ok contributed =>
    rw [fields] at encoded
    have made := Except.ok.inj encoded
    obtain ⟨fits, rfl⟩ := encodeFields_eq_ok.mp fields
    have bitOf (bit : Nat) : word.testBit bit =
        (charAt? template bit).any fun c =>
          c == '1' || (!isLiteral c && (scatter ((values c).getD 0).toNat
            (positionsOf c template)).testBit bit) := by
      rw [← made, Nat.testBit_or, testBit_fieldBits_ofTemplate, ofTemplate, testBit_placesWhere]
      cases charAt? template bit <;> rfl
    refine ⟨?_, ?_, ?_⟩
    · apply Nat.lt_pow_two_of_testBit
      intro bit beyond
      have none : charAt? template bit = none := charAt?_of_le beyond
      rw [bitOf, none]
      rfl
    · rw [accepts_ofTemplate]
      intro bit c here literal
      rw [bitOf, here]
      simp [literal]
    · intro letter positions known
      rw [positions?_ofTemplate] at known
      split at known
      · rename_i member
        obtain rfl := Option.some.inj known
        obtain ⟨value, given, bound⟩ := fits (letter, _) (mem_fieldsOf.mpr ⟨member.1, member.2, rfl⟩)
        have notOne : (letter == '1') = false := (Bool.or_eq_false_iff.mp member.2).2
        have same : gather word (positionsOf letter template) =
            gather (scatter value (positionsOf letter template)) (positionsOf letter template) := by
          refine gather_congr fun bit inside => ?_
          rw [bitOf, mem_positionsOf.mp inside]
          simp [notOne, member.2, given]
        rw [same, gather_scatter (nodup_positionsOf _ _), Nat.mod_eq_of_lt bound]
        exact given
      · contradiction

end A64Machine.BitPattern
