import A64Machine.Proofs.AddressForms
import A64Machine.Proofs.DraftFrame
import A64Machine.Proofs.OperandGroups
import A64Machine.Proofs.RoundTrip

/-!
# Encoded values fit their fields

The ranges that an encoding checks are written apart from the patterns. Every field that an operand
sets gets a value that the field of the pattern has room for, and all fields but the width flag are
set by operands; so the pattern makes a word whenever all operands are encoded. What an encoding
looks up for an operand, such as the code of a shift, it finds for all operands that fit and that
were read from a text.
-/

namespace A64Machine

namespace Draft

/-- A field is set to a value of the given width. -/
def Holds (draft : Draft) (letter : Char) (width : Nat) : Prop :=
  ∃ value : Nat, draft.values.lookup letter = some (value : Int) ∧ value < 2 ^ width

variable {draft : Draft} {letter other : Char} {width : Nat} {value : Int}

/-- A field that is set holds a value of some width if that value is one. -/
theorem holds_set : (draft.set letter value).Holds other width ↔
    if other = letter then 0 ≤ value ∧ value < (2 ^ width : Nat) else draft.Holds other width := by
  rw [Holds, lookup_set]
  split
  · constructor
    · rintro ⟨number, same, below⟩
      obtain rfl := Option.some.inj same
      exact ⟨Int.natCast_nonneg number, Int.ofNat_lt.mpr below⟩
    · rintro ⟨least, most⟩
      obtain ⟨number, rfl⟩ := Int.eq_ofNat_of_zero_le least
      exact ⟨number, rfl, Int.ofNat_lt.mp most⟩
  · rfl

section Several

variable {first second third : Char} {m n k : Nat} {one two three : Int}

/-- A field that was set holds its value. -/
theorem holds_single (inFirst : 0 ≤ one ∧ one < (2 ^ m : Nat)) :
    ∀ field ∈ [(first, m)], (draft.set first one).Holds field.1 field.2 :=
  List.forall_mem_singleton.mpr (holds_set.mpr (by rwa [if_pos rfl]))

/-- Two fields that were set hold their values. -/
theorem holds_pair (apart : first ≠ second) (inFirst : 0 ≤ one ∧ one < (2 ^ m : Nat))
    (inSecond : 0 ≤ two ∧ two < (2 ^ n : Nat)) :
    ∀ field ∈ [(first, m), (second, n)],
      ((draft.set first one).set second two).Holds field.1 field.2 := by
  refine List.forall_mem_cons.mpr ⟨holds_set.mpr ?_, holds_single inSecond⟩
  rw [if_neg apart]
  exact holds_set.mpr (by rwa [if_pos rfl])

/-- Three fields that were set hold their values. -/
theorem holds_triple (apart : first ≠ second ∧ first ≠ third ∧ second ≠ third)
    (inFirst : 0 ≤ one ∧ one < (2 ^ m : Nat)) (inSecond : 0 ≤ two ∧ two < (2 ^ n : Nat))
    (inThird : 0 ≤ three ∧ three < (2 ^ k : Nat)) :
    ∀ field ∈ [(first, m), (second, n), (third, k)],
      (((draft.set first one).set second two).set third three).Holds field.1 field.2 := by
  refine List.forall_mem_cons.mpr ⟨holds_set.mpr ?_, holds_pair apart.2.2 inSecond inThird⟩
  rw [if_neg apart.2.1]
  refine holds_set.mpr ?_
  rw [if_neg apart.1]
  exact holds_set.mpr (by rwa [if_pos rfl])

end Several

/-- All fields of a role that is set hold its value. -/
theorem holds_setAll {role : List Char} (inside : letter ∈ role) (least : 0 ≤ value)
    (most : value < (2 ^ width : Nat)) : (draft.setAll role value).Holds letter width := by
  obtain ⟨number, rfl⟩ := Int.eq_ofNat_of_zero_le least
  exact ⟨number, by rw [lookup_setAll, if_pos inside], Int.ofNat_lt.mp most⟩

/-- The size of a draft is 32 or 64. -/
theorem size_le (draft : Draft) : 0 < draft.size ∧ draft.size ≤ 64 := by
  unfold size
  split <;> decide

end Draft

/-- The number of a register that was read has five bits. -/
theorem RegisterOperand.Regular.slot_lt {operand : RegisterOperand} (regular : operand.Regular) :
    operand.register.slot < 32 := by
  have small : ∀ entry ∈ Register.names, entry.2.slot < 32 := by decide
  exact small _ (OpcodeTable.mem_of_lookup regular.named)

/-! ### Room -/

/-- The widths that the ranges of a kind need, where they do not ask the form for a width. -/
def OperandKind.ownWidths (kind : OperandKind) (role : List Char) : List (Char × Nat) :=
  match kind with
  | .register | .wideRegister | .halfRegister => role.map (·, 5)
  | .extended => [('m', 5), ('o', 3), ('i', 3)]
  | .shifted | .arithmeticShifted => [('m', 5), ('s', 2), ('i', 6)]
  | .immediate | .branchTarget => []
  | .shiftAmount => role.map (·, 6)
  | .arithmeticImmediate => [('s', 1), ('i', 12)]
  | .bitmask => [('N', 1), ('r', 6), ('s', 6)]
  | .wide | .invertedWide => [('h', 2), ('j', 16)]
  | .byteTarget | .pageTarget => [('I', 19), ('i', 2)]
  | .leftShift => [('r', 6), ('s', 6)]
  | .insertLow | .extractLow => [('r', 6)]
  | .insertWidth | .extractWidth => [('s', 6)]
  | .bitNumber => [('b', 6)]
  | .scaledAddress | .unscaledAddress | .preIndexed | .postIndexed => [('n', 5)]
  | .registerIndexed => [('n', 5), ('m', 5), ('o', 3), ('S', 1)]

namespace InstructionForm

/-- A form has room for what an operand of a kind sets. -/
structure HasRoom (form : InstructionForm) (kind : OperandKind) (role : List Char) : Prop where
  own : ∀ field ∈ kind.ownWidths role, form.pattern.width? field.1 = some field.2
  single : kind = .immediate ∨ kind = .shiftAmount → role.length = 1

instance (form : InstructionForm) (kind : OperandKind) (role : List Char) :
    Decidable (form.HasRoom kind role) :=
  decidable_of_iff (_ ∧ _)
    ⟨fun ⟨own, single⟩ => ⟨own, single⟩, fun ⟨own, single⟩ => ⟨own, single⟩⟩

/-- A field of a form is set to a value that it has room for. -/
def Fills (form : InstructionForm) (draft : Draft) (letter : Char) : Prop :=
  ∃ width, form.pattern.width? letter = some width ∧ draft.Holds letter width

/-- Fields of known widths are filled by values of these widths. -/
theorem fills_of_widths {form : InstructionForm} {draft : Draft} {widths : List (Char × Nat)}
    (known : ∀ field ∈ widths, form.pattern.width? field.1 = some field.2)
    (holds : ∀ field ∈ widths, draft.Holds field.1 field.2) :
    ∀ letter ∈ widths.map Prod.fst, form.Fills draft letter := by
  intro letter inside
  obtain ⟨field, among, rfl⟩ := List.mem_map.mp inside
  exact ⟨field.2, known field among, holds field among⟩

end InstructionForm

namespace Encode

open InstructionForm (HasRoom Fills fills_of_widths)

variable {form : InstructionForm} {here : Int} {evaluate : Evaluator} {kind : OperandKind}
  {role : List Char} {before after : Draft}

/-- The width of a field that a form is asked for is that of its pattern. -/
theorem fieldWidth_eq_ok {letter : Char} {width : Nat} :
    fieldWidth form [letter] = .ok width ↔ form.pattern.width? letter = some width := by
  rw [fieldWidth]
  cases form.pattern.width? letter <;> simp

/-- A register fills its fields. -/
theorem fills_register {given : RegisterOperand} (room : form.HasRoom kind role)
    (regular : given.Regular) (fits : kind.fitsRegister given = true)
    (encoded : register kind role given evaluate before = .ok after) :
    ∀ letter ∈ kind.letters role, form.Fills after letter := by
  have number := regular.slot_lt
  have size := before.size_le
  have plain (own : kind.letters role = role)
      (widths : ∀ field ∈ role.map (·, 5), form.pattern.width? field.1 = some field.2)
      (draft : Draft) :
      ∀ letter ∈ kind.letters role, form.Fills (draft.setAll role given.register.slot) letter := by
    intro letter inside
    rw [own] at inside
    exact ⟨5, widths _ (List.mem_map_of_mem inside),
      Draft.holds_setAll inside (by omega) (by omega)⟩
  cases kind with
  | register =>
    obtain ⟨_, known, encoded⟩ := bind_eq_ok.mp encoded
    obtain ⟨_, rfl⟩ := registerNumber_eq_ok.mp known
    obtain rfl := Except.ok.inj encoded
    exact plain rfl room.own _
  | wideRegister | halfRegister =>
    obtain ⟨_, known, encoded⟩ := bind_eq_ok.mp encoded
    obtain ⟨_, rfl⟩ := registerNumber_eq_ok.mp known
    obtain rfl := Except.ok.inj encoded
    exact plain rfl room.own _
  | extended =>
    obtain ⟨_, known, encoded⟩ := bind_eq_ok.mp encoded
    obtain ⟨_, rfl⟩ := registerNumber_eq_ok.mp known
    obtain ⟨amount, _, encoded⟩ := bind_eq_ok.mp encoded
    obtain ⟨range, encoded⟩ := require_bind_eq_ok.mp encoded
    obtain rfl := Except.ok.inj encoded
    have range := of_decide_eq_true range
    have code : (given.modifier.bind Modifier.extendCode?).getD 0 < 8 := by
      cases given.modifier with
      | none => decide
      | some modifier => cases modifier <;> decide
    exact fills_of_widths room.own
      (Draft.holds_triple (by decide) (by omega) (by omega) (by omega))
  | shifted | arithmeticShifted =>
    obtain ⟨_, known, encoded⟩ := bind_eq_ok.mp encoded
    obtain ⟨_, rfl⟩ := registerNumber_eq_ok.mp known
    obtain ⟨amount, _, encoded⟩ := bind_eq_ok.mp encoded
    obtain ⟨range, encoded⟩ := require_bind_eq_ok.mp encoded
    obtain rfl := Except.ok.inj encoded
    have range := isBelow_iff.mp range
    have code : (given.modifier.bind Modifier.shiftCode?).getD 0 < 4 := by
      cases given.modifier with
      | none => decide
      | some modifier => cases modifier <;> decide
    exact fills_of_widths room.own
      (Draft.holds_triple (by decide) (by omega) (by omega) (by omega))
  | _ => contradiction

/-- The immediate of an addition fills its fields. -/
theorem fills_arithmeticImmediate {given : ImmediateOperand} {value : Int}
    (encoded : arithmeticImmediate given value evaluate before = .ok after) :
    ∀ field ∈ [('s', 1), ('i', 12)], after.Holds field.1 field.2 := by
  obtain ⟨amount, _, encoded⟩ := bind_eq_ok.mp encoded
  obtain ⟨_, _, encoded⟩ := bind_eq_ok.mp encoded
  split at encoded
  · obtain ⟨range, encoded⟩ := require_bind_eq_ok.mp encoded
    obtain rfl := Except.ok.inj encoded
    have range := isBelow_iff.mp range
    exact Draft.holds_pair (by decide) (by omega) (by omega)
  · split at encoded
    · rename_i range
      obtain rfl := Except.ok.inj encoded
      have range := isBelow_iff.mp range
      exact Draft.holds_pair (by decide) (by omega) (by omega)
    · obtain ⟨range, encoded⟩ := require_bind_eq_ok.mp encoded
      obtain rfl := Except.ok.inj encoded
      have range := of_decide_eq_true range
      exact Draft.holds_pair (by decide) (by omega) (by omega)

/-- A logical immediate fills its fields. -/
theorem fills_bitmask {span : Span} {value : Int} (encoded : bitmask span value before = .ok after) :
    ∀ field ∈ [('N', 1), ('r', 6), ('s', 6)], after.Holds field.1 field.2 := by
  obtain ⟨_, _, encoded⟩ := bind_eq_ok.mp encoded
  split at encoded
  · contradiction
  · rename_i n immr imms packed
    obtain rfl := Except.ok.inj encoded
    obtain ⟨whole, long, short, size⟩ : ∃ whole, 1 ≤ whole ∧ whole < 7 ∧ before.size = 2 ^ whole := by
      rcases InstructionForm.size_draft before with size | size
      · exact ⟨5, by decide, by decide, size⟩
      · exact ⟨6, by decide, by decide, size⟩
    obtain ⟨smallN, smallR, smallS, _⟩ := LogicalImmediate.decode_encode long short (size ▸ packed)
    exact Draft.holds_triple (by decide) (by omega) (by omega) (by omega)

/-- A half-word at a position fills its fields. -/
theorem fills_wideImmediate {span : Span} {value : Int}
    (encoded : wideImmediate span value before = .ok after) :
    ∀ field ∈ [('h', 2), ('j', 16)], after.Holds field.1 field.2 := by
  obtain ⟨_, _, encoded⟩ := bind_eq_ok.mp encoded
  split at encoded
  · contradiction
  · rename_i position found
    obtain rfl := Except.ok.inj encoded
    obtain ⟨below, fits, _⟩ := WideImmediate.position?_eq_some found
    have size := before.size_le
    have half : value.toNat >>> (16 * position) < 65536 := by
      rw [WideImmediate.fitsAt, beq_iff_eq] at fits
      rw [fits, WideImmediate.shiftRight_shiftLeft]
      exact Nat.mod_lt _ (by decide)
    generalize value.toNat >>> (16 * position) = half at half ⊢
    exact Draft.holds_pair (by decide) (by omega) (by omega)

/-- A distance that is split fills its fields. -/
theorem fills_splitOffset {span : Span} {value : Int}
    (encoded : splitOffset span value before = .ok after) :
    ∀ field ∈ [('I', 19), ('i', 2)], after.Holds field.1 field.2 := by
  obtain ⟨_, _, encoded⟩ := bind_eq_ok.mp encoded
  obtain rfl := Except.ok.inj encoded
  have below := Bits.wrap_lt 21 value
  exact Draft.holds_pair (by decide) (by omega) (by omega)

/-- An immediate fills its fields, if the lowest bit of a bitfield is not negative. -/
theorem fills_immediate (room : form.HasRoom kind role) {given : ImmediateOperand} {value : Int}
    (isImmediate : kind.isImmediate = true) (lowest : 0 ≤ before.lowest)
    (encoded : immediate form here kind role given value evaluate before = .ok after) :
    ∀ letter ∈ kind.letters role, form.Fills after letter := by
  have size := before.size_le
  have positive : (0 : Int) < before.size := by omega
  -- the rotation that moves a bit to the lowest place is one within the data size
  have least := Int.emod_nonneg (-value) (Int.ne_of_gt positive)
  have most := Int.emod_lt_of_pos (-value) positive
  cases kind with
  | immediate =>
    obtain ⟨letter, rfl⟩ := List.length_eq_one_iff.mp (room.single (.inl rfl))
    obtain ⟨width, asked, encoded⟩ := bind_eq_ok.mp encoded
    obtain ⟨range, encoded⟩ := require_bind_eq_ok.mp encoded
    obtain rfl := Except.ok.inj encoded
    have range := isBelow_iff.mp range
    refine List.forall_mem_singleton.mpr ⟨width, fieldWidth_eq_ok.mp asked, ?_⟩
    exact Draft.holds_set.mpr (by rw [if_pos rfl]; exact range)
  | shiftAmount =>
    obtain ⟨letter, rfl⟩ := List.length_eq_one_iff.mp (room.single (.inr rfl))
    obtain ⟨range, encoded⟩ := require_bind_eq_ok.mp encoded
    obtain rfl := Except.ok.inj encoded
    have range := isBelow_iff.mp range
    exact fills_of_widths room.own (Draft.holds_single (by omega))
  | arithmeticImmediate => exact fills_of_widths room.own (fills_arithmeticImmediate encoded)
  | bitmask => exact fills_of_widths room.own (fills_bitmask encoded)
  | wide => exact fills_of_widths room.own (fills_wideImmediate encoded)
  | invertedWide =>
    exact fills_of_widths room.own (fills_wideImmediate (require_bind_eq_ok.mp encoded).2)
  | branchTarget =>
    obtain ⟨_, _, encoded⟩ := bind_eq_ok.mp encoded
    obtain ⟨width, asked, encoded⟩ := bind_eq_ok.mp encoded
    obtain ⟨_, _, encoded⟩ := bind_eq_ok.mp encoded
    obtain rfl := Except.ok.inj encoded
    refine List.forall_mem_singleton.mpr ⟨width, fieldWidth_eq_ok.mp asked, ?_⟩
    refine Draft.holds_set.mpr ?_
    rw [if_pos rfl]
    exact ⟨Int.natCast_nonneg _, Int.ofNat_lt.mpr (Bits.wrap_lt width _)⟩
  | byteTarget | pageTarget => exact fills_of_widths room.own (fills_splitOffset encoded)
  | leftShift =>
    obtain ⟨range, encoded⟩ := require_bind_eq_ok.mp encoded
    obtain rfl := Except.ok.inj encoded
    have range := isBelow_iff.mp range
    exact fills_of_widths room.own (Draft.holds_pair (by decide) (by omega) (by omega))
  | insertLow =>
    obtain rfl := Except.ok.inj (require_bind_eq_ok.mp encoded).2
    exact fills_of_widths room.own (Draft.holds_single (by omega))
  | extractLow | bitNumber =>
    obtain ⟨range, encoded⟩ := require_bind_eq_ok.mp encoded
    obtain rfl := Except.ok.inj encoded
    have range := isBelow_iff.mp range
    exact fills_of_widths room.own (Draft.holds_single (by omega))
  | insertWidth | extractWidth =>
    obtain ⟨range, encoded⟩ := require_bind_eq_ok.mp encoded
    obtain rfl := Except.ok.inj encoded
    have range := of_decide_eq_true range
    exact fills_of_widths room.own (Draft.holds_single (by omega))
  | _ => contradiction

/-- The offset of an address fills its field. -/
theorem fills_offset {span : Span} {scaled : Bool} {value : Int}
    (encoded : offset form span scaled value before = .ok after) :
    form.Fills after 'I' ∧ ∀ letter, letter ≠ 'I' → form.Fills before letter →
      form.Fills after letter := by
  obtain ⟨width, asked, encoded⟩ := bind_eq_ok.mp encoded
  obtain ⟨_, _, encoded⟩ := bind_eq_ok.mp encoded
  obtain ⟨_, _, encoded⟩ := bind_eq_ok.mp encoded
  obtain rfl := Except.ok.inj encoded
  refine ⟨⟨width, fieldWidth_eq_ok.mp asked, Draft.holds_set.mpr ?_⟩,
    fun letter other filled => ?_⟩
  · rw [if_pos rfl]
    exact ⟨Int.natCast_nonneg _, Int.ofNat_lt.mpr (Bits.wrap_lt width _)⟩
  · obtain ⟨width, known, holds⟩ := filled
    exact ⟨width, known, Draft.holds_set.mpr (by rwa [if_neg other])⟩

/-- An address fills its fields. -/
theorem fills_address {given : AddressOperand} (room : form.HasRoom kind role)
    (regular : ∀ part ∈ given.parts, part.Regular)
    (based : (OperandKind.base? given).any OperandKind.isPlain = true)
    (fits : kind.fitsAddress given = true)
    (encoded : address form kind given evaluate before = .ok after) :
    ∀ letter ∈ kind.letters role, form.Fills after letter := by
  obtain ⟨base, rest, parts⟩ := exists_base based
  rw [parts] at regular
  obtain ⟨named, others⟩ := List.forall_mem_cons.mp regular
  have number := RegisterOperand.Regular.slot_lt named
  rw [address, parts] at encoded
  obtain ⟨_, _, encoded⟩ := bind_eq_ok.mp encoded
  have distance {scaled : Bool} {value : Int} (room : ∀ field ∈ [('n', 5)],
        form.pattern.width? field.1 = some field.2)
      (encoded : offset form given.span scaled value (before.set 'n' base.register.slot) =
        .ok after) : ∀ letter ∈ ['n', 'I'], form.Fills after letter := by
    obtain ⟨filled, kept⟩ := fills_offset encoded
    have held := @Draft.holds_set before 'n' 'n' 5 base.register.slot
    rw [if_pos rfl] at held
    have own : form.Fills after 'n' := kept 'n' (by decide)
      ⟨5, room _ List.mem_cons_self, held.mpr (by omega)⟩
    simp [own, filled]
  cases kind with
  | postIndexed =>
    obtain ⟨_, _, encoded⟩ := bind_eq_ok.mp encoded
    exact distance room.own encoded
  | registerIndexed =>
    obtain ⟨part, rfl⟩ := exists_indexRegister parts fits
    have index := RegisterOperand.Regular.slot_lt (others _ List.mem_cons_self)
    obtain ⟨_, shifted, _, _, choice, rfl⟩ := index_of_amount encoded
    have code : indexCode part < 8 := by
      have among := indexCode?_mem part.modifier
      simp only [List.mem_cons, List.not_mem_nil, or_false] at among
      unfold indexCode
      omega
    refine fills_of_widths room.own ?_
    simp [OperandKind.ownWidths, Draft.holds_set]
    omega
  | scaledAddress | unscaledAddress | preIndexed =>
    cases rest with
    | nil => exact distance room.own encoded
    | cons part later =>
      cases part with
      | register part => exact distance room.own encoded
      | immediate part =>
        obtain ⟨_, _, encoded⟩ := bind_eq_ok.mp encoded
        exact distance room.own encoded
  | _ => contradiction

/-- An operand that was read and fits its kind fills its fields, and the lowest bit of a bitfield
stays one. -/
theorem fills_operand {given : Operand} (room : form.HasRoom kind role) (regular : given.Regular)
    (fits : OperandKind.fits kind.code given = .ok true) (lowest : 0 ≤ before.lowest)
    (encoded : operand form here evaluate before kind.code role given = .ok after) :
    (∀ letter ∈ kind.letters role, form.Fills after letter) ∧ 0 ≤ after.lowest := by
  have known := OperandKind.ofChar?_code kind
  obtain ⟨extended, settled⟩ := operand_spec known fits encoded
  constructor
  · cases given with
    | register given =>
      simp only [OperandKind.fits, known, operand] at fits encoded
      exact fills_register room regular (Except.ok.inj fits) encoded
    | immediate given =>
      simp only [OperandKind.fits, known, operand, Except.ok.injEq, Bool.and_eq_true] at fits encoded
      obtain ⟨value, _, encoded⟩ := bind_eq_ok.mp encoded
      exact fills_immediate room fits.1 lowest encoded
    | address given =>
      simp only [OperandKind.fits, known, operand, Except.ok.injEq, Bool.and_eq_true] at fits encoded
      exact fills_address room regular fits.1 fits.2 encoded
  · cases sets : kind.setsLowest with
    | false => rwa [extended.lowest sets]
    | true =>
      cases kind with
      | insertLow | extractLow => exact settled.2.1
      | _ => contradiction

/-- Operands that were read and fit their kinds fill all their fields. -/
theorem fills_allOperands {operands : List (OperandKind × List Char)} {list : List Operand}
    (room : ∀ operand ∈ operands, form.HasRoom operand.1 operand.2)
    (apart : operands.Pairwise OperandKind.Apart) (regular : ∀ given ∈ list, given.Regular)
    (same : operands.length = list.length)
    (fits : OperandKind.fitsEach ((operands.map fun operand => operand.1.code).zip list) = .ok true)
    (lowest : 0 ≤ before.lowest)
    (encoded : allOperands form here evaluate before
      (operands.map fun operand => (operand.1.code, operand.2)) list = .ok after) :
    ∀ operand ∈ operands, ∀ letter ∈ operand.1.letters operand.2, form.Fills after letter := by
  induction operands generalizing before list with
  | nil => exact fun operand absent => by contradiction
  | cons operand operands ih =>
    cases list with
    | nil => contradiction
    | cons given list =>
      obtain ⟨roomHere, room⟩ := List.forall_mem_cons.mp room
      obtain ⟨apartHere, apart⟩ := List.pairwise_cons.mp apart
      obtain ⟨regularHere, regular⟩ := List.forall_mem_cons.mp regular
      obtain ⟨fitsHere, fits⟩ := OperandKind.fitsEach_cons.mp fits
      rw [List.map_cons, allOperands] at encoded
      obtain ⟨middle, first, encoded⟩ := bind_eq_ok.mp encoded
      obtain ⟨filled, lowest⟩ := fills_operand roomHere regularHere fitsHere lowest first
      refine List.forall_mem_cons.mpr ⟨fun letter inside => ?_,
        ih room apart regular (Nat.succ.inj same) fits lowest encoded⟩
      -- the later operands set other fields
      obtain ⟨width, known, value, held, below⟩ := filled letter inside
      refine ⟨width, known, value, ?_, below⟩
      rw [(allOperands_frame fits encoded).1 letter fun other among =>
        (apartHere other among).letters letter inside]
      exact held

end Encode

namespace InstructionSet

variable {form : InstructionForm} {here : Int} {evaluate : Evaluator} {list : List Operand}

/-- Every form has room for what its operands set. -/
theorem hasRoom : ∀ form ∈ forms, ∀ operand ∈ form.operands,
    form.HasRoom operand.1 operand.2 := by
  decide +kernel

/-- A form makes a word of all operands that fit it, were read and are encoded. -/
theorem exists_formWord_of_allOperands (member : form ∈ forms)
    (regular : ∀ given ∈ list, given.Regular) {draft : Draft}
    (fits : OperandKind.fitsAll form.shape list = .ok true)
    (gathered :
      Encode.allOperands form here evaluate .empty (form.shape.zip form.roles) list = .ok draft) :
    ∃ word, Encode.formWord form here evaluate list = .ok word := by
  have check := checked member
  have sound := sound form member
  refine Encode.exists_formWord sound check.wellFormed check.roles fits gathered ?_
  intro field inside notFlag
  obtain ⟨among, plain, positions⟩ := BitPattern.mem_fieldsOf.mp (check.wellFormed ▸ inside)
  obtain ⟨operand, isOperand, sets⟩ :=
    (((reprintable form member).covered _ among).resolve_left (by simp [plain])).resolve_left notFlag
  rw [sound.codes check.roles, OperandKind.fitsAll_eq_true] at fits
  obtain ⟨same, fits⟩ := fits
  rw [sound.shape] at gathered
  obtain ⟨width, known, value, held, below⟩ :=
    Encode.fills_allOperands (hasRoom form member) sound.apart regular (by simpa using same) fits
      (Int.le_refl 0) gathered operand isOperand _ sets
  refine ⟨value, held, ?_⟩
  rw [BitPattern.width?, check.wellFormed.positions?_eq, if_pos ⟨among, plain⟩] at known
  rw [positions, Option.some.inj known]
  exact below

end InstructionSet

end A64Machine
