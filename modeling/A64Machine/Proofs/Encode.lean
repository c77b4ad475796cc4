import A64Machine.Encode
import A64Machine.Proofs.OpcodeTable

/-!
# What an encoding gathers

An operand sets the fields of its kind and role, and nothing else: fields set by other operands,
the width and the lowest bit of a bitfield stay as they were. What it establishes about its own
fields therefore still holds when all operands are encoded. Together these facts say which values
a form is encoded with.
-/

namespace A64Machine

namespace OperandKind

/-- The field letters that an operand of a kind sets in a role. -/
def letters (kind : OperandKind) (role : List Char) : List Char := kind.fieldLetters.getD role

/-- Whether the fields of the kind are bounded by the width of the instruction. -/
def dependsOnSize : OperandKind → Bool
  | .shifted | .arithmeticShifted | .shiftAmount | .bitmask | .wide | .invertedWide | .leftShift
  | .insertLow | .insertWidth | .extractLow | .extractWidth => true
  | _ => false

/-- Whether the kind is one of a bitfield with a lowest bit and a width. -/
def usesLowest : OperandKind → Bool
  | .insertLow | .insertWidth | .extractLow | .extractWidth => true
  | _ => false

/-- Whether the kind sets the lowest bit of a bitfield. -/
def setsLowest : OperandKind → Bool
  | .insertLow | .extractLow => true
  | _ => false

/-- The code of a kind stands for the kind. -/
theorem ofChar?_code (kind : OperandKind) : ofChar? kind.code = some kind := by
  cases kind <;> decide

/-- An operand fits a kind or it does not. -/
theorem exists_fits (kind : OperandKind) (operand : Operand) :
    ∃ fits, OperandKind.fits kind.code operand = .ok fits := by
  cases operand <;> simp [OperandKind.fits, ofChar?_code]

/-- Operands fit kinds one by one or they do not. -/
theorem exists_fitsEach (kinds : List OperandKind) (list : List Operand) :
    ∃ fits, fitsEach ((kinds.map code).zip list) = .ok fits := by
  induction kinds generalizing list with
  | nil => exact ⟨true, rfl⟩
  | cons kind kinds ih =>
    cases list with
    | nil => exact ⟨true, rfl⟩
    | cons operand list =>
      obtain ⟨here, fits⟩ := exists_fits kind operand
      obtain ⟨later, fits'⟩ := ih list
      rw [List.map_cons, List.zip_cons_cons, fitsEach, ok_bind fits]
      cases here with
      | true => exact ⟨later, fits'⟩
      | false => exact ⟨false, rfl⟩

/-- Operands fit kinds or they do not. -/
theorem exists_fitsAll (kinds : List OperandKind) (list : List Operand) :
    ∃ fits, fitsAll (kinds.map code) list = .ok fits := by
  rw [fitsAll]
  split
  · exact exists_fitsEach kinds list
  · exact ⟨false, rfl⟩

/-- Operands fit kinds when the first one does and the others do. -/
theorem fitsEach_cons {code : Char} {operand : Operand} {rest : List (Char × Operand)} :
    fitsEach ((code, operand) :: rest) = .ok true ↔
      fits code operand = .ok true ∧ fitsEach rest = .ok true := by
  rw [fitsEach, bind_eq_ok]
  constructor
  · rintro ⟨fit, here, later⟩
    cases fit with
    | true => exact ⟨here, later⟩
    | false => exact absurd (Except.ok.inj later) (by simp)
  · rintro ⟨here, later⟩
    exact ⟨true, here, later⟩

/-- Operands fit kinds when the first ones do and the others do. -/
theorem fitsEach_append_eq_true {first rest : List (Char × Operand)} :
    fitsEach (first ++ rest) = .ok true ↔ fitsEach first = .ok true ∧ fitsEach rest = .ok true := by
  induction first with
  | nil => exact (and_iff_right rfl).symm
  | cons pair first ih =>
    obtain ⟨code, operand⟩ := pair
    rw [List.cons_append, fitsEach_cons, fitsEach_cons, ih, and_assoc]

/-- Operands fit a shape when there are as many and each of them fits its kind. -/
theorem fitsAll_eq_true {shape : List Char} {list : List Operand} :
    fitsAll shape list = .ok true ↔
      shape.length = list.length ∧ fitsEach (shape.zip list) = .ok true := by
  rw [fitsAll]
  split
  · rename_i count
    exact (and_iff_right count).symm
  · rename_i count
    exact iff_of_false (by simp) fun both => count both.1

/-- Operands fit a shape when the first one fits its first kind and the others fit the others. -/
theorem fitsAll_cons {code : Char} {shape : List Char} {given : Operand} {rest : List Operand} :
    fitsAll (code :: shape) (given :: rest) = .ok true ↔
      fits code given = .ok true ∧ fitsAll shape rest = .ok true := by
  rw [fitsAll_eq_true, fitsAll_eq_true, List.zip_cons_cons, fitsEach_cons, List.length_cons,
    List.length_cons, Nat.add_right_cancel_iff]
  exact and_left_comm

/-- Operands fit kinds when the last one fits the last kind and the others fit the others. -/
theorem fitsAll_concat {kinds : List OperandKind} {front : List Operand} {last : Operand} :
    fitsAll (kinds.map code) (front ++ [last]) = .ok true ↔
      ∃ before kind, kinds = before ++ [kind] ∧ before.length = front.length ∧
        fitsEach ((before.map code).zip front) = .ok true ∧ fits kind.code last = .ok true := by
  have apart {before : List OperandKind} {kind : OperandKind} (count : before.length = front.length) :
      fitsEach (((before ++ [kind]).map code).zip (front ++ [last])) = .ok true ↔
        fitsEach ((before.map code).zip front) = .ok true ∧ fits kind.code last = .ok true := by
    have alone : fitsEach [(kind.code, last)] = .ok true ↔ fits kind.code last = .ok true :=
      fitsEach_cons.trans (and_iff_left rfl)
    rw [List.map_append, List.zip_append (by simpa using count), fitsEach_append_eq_true]
    exact and_congr_right' alone
  rw [fitsAll_eq_true]
  constructor
  · rintro ⟨same, fit⟩
    rcases List.eq_nil_or_concat kinds with rfl | ⟨before, kind, rfl⟩
    · simp at same
    · rw [List.concat_eq_append] at same fit ⊢
      have count : before.length = front.length := by simpa using same
      exact ⟨before, kind, rfl, count, (apart count).mp fit⟩
  · rintro ⟨before, kind, rfl, count, fit⟩
    exact ⟨by simp [count], (apart count).mpr fit⟩

/-- Two operands, one behind the other, that set different fields and of which the second does not
move the lowest bit that the first relies on. -/
structure Apart (first second : OperandKind × List Char) : Prop where
  letters : ∀ letter ∈ first.1.letters first.2, letter ∉ second.1.letters second.2
  lowest : first.1.usesLowest = true → second.1.setsLowest = false

/-- The width of the instruction is set before an operand depends on it, or none does. -/
def SizeKnown (operands : List (OperandKind × List Char)) : Prop :=
  (operands.head?.any fun operand => operand.1 == .register) = true ∨
    ∀ operand ∈ operands, operand.1.dependsOnSize = false

end OperandKind

namespace Draft

/-- A field that is set has its value. -/
theorem lookup_set (draft : Draft) (letter other : Char) (value : Int) :
    (draft.set letter value).values.lookup other =
      if other = letter then some value else draft.values.lookup other := by
  rw [set, List.lookup_cons]
  by_cases same : other = letter
  · simp [same]
  · simp [same, beq_false_of_ne same]

@[simp] theorem wide_set (draft : Draft) (letter : Char) (value : Int) :
    (draft.set letter value).wide = draft.wide := rfl

@[simp] theorem lowest_set (draft : Draft) (letter : Char) (value : Int) :
    (draft.set letter value).lowest = draft.lowest := rfl

@[simp] theorem size_set (draft : Draft) (letter : Char) (value : Int) :
    (draft.set letter value).size = draft.size := rfl

/-- All fields of a role that is set have the value. -/
theorem lookup_setAll (draft : Draft) (role : List Char) (other : Char) (value : Int) :
    (draft.setAll role value).values.lookup other =
      if other ∈ role then some value else draft.values.lookup other := by
  induction role generalizing draft with
  | nil => simp [setAll]
  | cons letter rest ih =>
    rw [setAll, List.foldl_cons, ← setAll, ih, lookup_set]
    by_cases first : other = letter <;> by_cases later : other ∈ rest <;> simp [first, later]

/-- Setting the fields of a role changes neither the width nor the lowest bit. -/
theorem setAll_rest (draft : Draft) (role : List Char) (value : Int) :
    (draft.setAll role value).wide = draft.wide ∧
      (draft.setAll role value).lowest = draft.lowest := by
  induction role generalizing draft with
  | nil => exact ⟨rfl, rfl⟩
  | cons letter rest ih => exact ih (draft.set letter value)

/-- The field of a role with one letter has its value when it is set. -/
theorem lookup_setRole (draft : Draft) (role : List Char) (other : Char) (value : Int) :
    (draft.setRole role value).values.lookup other =
      if role = [other] then some value else draft.values.lookup other := by
  unfold setRole
  split
  · rename_i letter
    rw [lookup_set]
    by_cases same : other = letter
    · simp [same]
    · simp [same, eq_comm]
  · rename_i several
    rw [if_neg fun single => several other single]

/-- Setting the field of a role changes neither the width nor the lowest bit. -/
theorem setRole_rest (draft : Draft) (role : List Char) (value : Int) :
    (draft.setRole role value).wide = draft.wide ∧
      (draft.setRole role value).lowest = draft.lowest := by
  unfold setRole
  split <;> exact ⟨rfl, rfl⟩

end Draft

namespace Encode

/-- A required condition that is met holds. -/
theorem require_eq_ok {condition : Bool} {complaint : Complaint} {span : Span} {u : Unit} :
    require condition complaint span = .ok u ↔ condition = true := by
  unfold require
  split <;> simp_all

/-- What is behind a required condition is done when the condition is met. -/
theorem require_bind_eq_ok {α : Type} {condition : Bool} {complaint : Complaint} {span : Span}
    {next : Except EncodeFailure α} {answer : α} :
    (do require condition complaint span; next) = .ok answer ↔
      condition = true ∧ next = .ok answer := by
  rw [bind_eq_ok]
  simp only [require_eq_ok, exists_const]

/-- An encoded register has the width that was asked for. -/
theorem registerNumber_eq_ok {operand : RegisterOperand} {wide : Bool} {number : Int} :
    registerNumber operand wide = .ok number ↔
      operand.register.wide = wide ∧ number = operand.register.slot := by
  rw [registerNumber, bind_eq_ok]
  simp only [require_eq_ok, beq_iff_eq, pure, Except.pure, Except.ok.injEq]
  constructor
  · rintro ⟨_, same, rfl⟩; exact ⟨same, rfl⟩
  · rintro ⟨same, rfl⟩; exact ⟨(), same, rfl⟩

/-- A number is below a limit. -/
theorem isBelow_iff {value : Int} {limit : Nat} :
    isBelow value limit = true ↔ 0 ≤ value ∧ value < limit := by
  simp [isBelow]

/-- The condition that a value is below a limit is met. -/
theorem require_isBelow {given : Nat} {limit : Nat} {complaint : Complaint} {span : Span}
    (below : given < limit) : require (isBelow given limit) complaint span = .ok () := by
  rw [require_eq_ok, isBelow_iff]
  omega

/-- The change that an operand of a kind in a role makes to a draft. -/
structure Extends (kind : OperandKind) (role : List Char) (before after : Draft) : Prop where
  /-- Fields that the operand does not set keep their values. -/
  frame : ∀ letter, letter ∉ kind.letters role →
    after.values.lookup letter = before.values.lookup letter
  /-- A width that is set stays. -/
  kept : before.wide.isSome = true → after.wide = before.wide
  /-- Only a register sets the width. -/
  wide : if kind = .register then after.wide.isSome = true else after.wide = before.wide
  /-- Only the first operand of a bitfield sets its lowest bit. -/
  lowest : kind.setsLowest = false → after.lowest = before.lowest

/-- What an operand of a kind in a role establishes of the fields that it sets. -/
def Settled (kind : OperandKind) (role : List Char) (draft : Draft) : Prop :=
  match kind with
  | .register | .wideRegister | .halfRegister =>
    ∃ number : Int, ∀ letter ∈ role, draft.values.lookup letter = some number
  | .extended => ∃ amount, draft.values.lookup 'i' = some amount ∧ 0 ≤ amount ∧ amount ≤ 4
  | .shifted =>
    ∃ amount, draft.values.lookup 'i' = some amount ∧ 0 ≤ amount ∧ amount < draft.size
  | .arithmeticShifted =>
    (∃ code : Nat, draft.values.lookup 's' = some (code : Int) ∧ code < 3) ∧
      ∃ amount, draft.values.lookup 'i' = some amount ∧ 0 ≤ amount ∧ amount < draft.size
  | .shiftAmount =>
    ∀ letter, role = [letter] →
      ∃ amount, draft.values.lookup letter = some amount ∧ 0 ≤ amount ∧ amount < draft.size
  | .bitmask =>
    ∃ value n immr imms, LogicalImmediate.encode value draft.size = some (n, immr, imms) ∧
      draft.values.lookup 'N' = some (n : Int) ∧ draft.values.lookup 'r' = some (immr : Int) ∧
      draft.values.lookup 's' = some (imms : Int)
  | .wide | .invertedWide =>
    ∃ value position, WideImmediate.position? value draft.size = some position ∧
      draft.values.lookup 'h' = some (position : Int) ∧
      draft.values.lookup 'j' = some ((value >>> (16 * position) : Nat) : Int)
  | .leftShift =>
    ∃ amount : Int, 0 ≤ amount ∧ amount < draft.size ∧
      draft.values.lookup 'r' = some (-amount % draft.size) ∧
      draft.values.lookup 's' = some (draft.size - 1 - amount)
  | .insertLow =>
    draft.values.lookup 'r' = some (-draft.lowest % draft.size) ∧
      0 ≤ draft.lowest ∧ draft.lowest < draft.size
  | .extractLow =>
    draft.values.lookup 'r' = some draft.lowest ∧ 0 ≤ draft.lowest ∧ draft.lowest < draft.size
  | .insertWidth =>
    ∃ width, draft.values.lookup 's' = some (width - 1) ∧ 1 ≤ width ∧
      width ≤ draft.size - draft.lowest
  | .extractWidth =>
    ∃ width, draft.values.lookup 's' = some (draft.lowest + width - 1) ∧ 1 ≤ width ∧
      width ≤ draft.size - draft.lowest
  | .registerIndexed =>
    ∃ code : Nat, draft.values.lookup 'o' = some (code : Int) ∧ code ∈ [2, 3, 6, 7]
  | _ => True

/-- A draft is extended by setting nothing, unless the operand has to set the width. -/
theorem Extends.refl {kind : OperandKind} (plain : kind ≠ .register) (role : List Char)
    (draft : Draft) : Extends kind role draft draft :=
  ⟨fun _ _ => rfl, fun _ => rfl, by rw [if_neg plain], fun _ => rfl⟩

/-- One more field of the operand may be set. -/
theorem Extends.set {kind : OperandKind} {role : List Char} {before after : Draft} {letter : Char}
    (extended : Extends kind role before after) (own : letter ∈ kind.letters role) (value : Int) :
    Extends kind role before (after.set letter value) where
  frame := fun other outside => by
    rw [Draft.lookup_set, if_neg (by rintro rfl; exact outside own)]
    exact extended.frame other outside
  kept := extended.kept
  wide := extended.wide
  lowest := extended.lowest

/-- The first operand of a bitfield may set its lowest bit. -/
theorem Extends.setLowest {kind : OperandKind} {role : List Char} {before after : Draft}
    (extended : Extends kind role before after) (first : kind.setsLowest = true) (value : Int) :
    Extends kind role before { after with lowest := value } :=
  { extended with lowest := fun other => absurd (first.symm.trans other) (by simp) }

/-- Setting a whole role extends a draft by an operand that sets its role. -/
theorem extends_setAll {kind : OperandKind} {role : List Char} {before : Draft} {value : Int}
    (plain : kind ≠ .register) (own : kind.letters role = role) :
    Extends kind role before (before.setAll role value) := by
  obtain ⟨wide, lowest⟩ := Draft.setAll_rest before role value
  refine ⟨fun letter outside => ?_, fun _ => wide, by rw [if_neg plain, wide], fun _ => lowest⟩
  rw [Draft.lookup_setAll, if_neg (own ▸ outside)]

/-- Setting the field of a role extends a draft by an operand that sets its role. -/
theorem extends_setRole {kind : OperandKind} {role : List Char} {before : Draft} {value : Int}
    (plain : kind ≠ .register) (own : kind.letters role = role) :
    Extends kind role before (before.setRole role value) := by
  unfold Draft.setRole
  split
  · exact (Extends.refl plain _ before).set (own.symm ▸ .head _) value
  · exact .refl plain role before

/-- Setting both fields of an operand that has two. -/
theorem extends_pair {kind : OperandKind} {role : List Char} {before : Draft} {first second : Char}
    (plain : kind ≠ .register) (own : kind.letters role = [first, second]) (one two : Int) :
    Extends kind role before ((before.set first one).set second two) :=
  ((Extends.refl plain role before).set (own ▸ .head _) one).set (own ▸ .tail _ (.head _)) two

/-- Setting the three fields of an operand that has three. -/
theorem extends_triple {kind : OperandKind} {role : List Char} {before : Draft}
    {first second third : Char} (plain : kind ≠ .register)
    (own : kind.letters role = [first, second, third]) (one two three : Int) :
    Extends kind role before (((before.set first one).set second two).set third three) :=
  (((Extends.refl plain role before).set (own ▸ .head _) one).set (own ▸ .tail _ (.head _)) two).set
    (own ▸ .tail _ (.tail _ (.head _))) three

/-- The code of an arithmetic shift is none of a rotation. -/
theorem shiftCode_of_fits {operand : RegisterOperand}
    (fits : OperandKind.arithmeticShifted.fitsRegister operand = true) :
    (operand.modifier.bind Modifier.shiftCode?).getD 0 < 3 := by
  cases given : operand.modifier with
  | none => simp
  | some modifier =>
    simp only [OperandKind.fitsRegister, given, Option.all_some] at fits
    cases code : modifier.shiftCode? with
    | none => simp [code] at fits
    | some code' => simpa [code] using fits

/-- What a register operand does to a draft. -/
theorem register_spec {kind : OperandKind} {role : List Char} {operand : RegisterOperand}
    {evaluate : Evaluator} {before after : Draft} (fits : kind.fitsRegister operand = true)
    (encoded : register kind role operand evaluate before = .ok after) :
    Extends kind role before after ∧ Settled kind role after := by
  cases kind with
  | register =>
    obtain ⟨number, _, encoded⟩ := bind_eq_ok.mp encoded
    obtain rfl := Except.ok.inj encoded
    have rest := Draft.setAll_rest
      { before with wide := some (before.wide.getD operand.register.wide) } role number
    refine ⟨⟨fun letter outside => ?_, fun known => ?_, ?_, fun _ => rest.2⟩, number,
      fun letter inside => ?_⟩
    · rw [Draft.lookup_setAll]
      exact if_neg outside
    · obtain ⟨wide, known⟩ := Option.isSome_iff_exists.mp known
      rw [rest.1, known]
      rfl
    · rw [if_pos rfl, rest.1]
      rfl
    · rw [Draft.lookup_setAll, if_pos inside]
  | wideRegister =>
    obtain ⟨number, _, encoded⟩ := bind_eq_ok.mp encoded
    obtain rfl := Except.ok.inj encoded
    exact ⟨extends_setAll (by simp) rfl, number, fun letter inside => by
      rw [Draft.lookup_setAll, if_pos inside]⟩
  | halfRegister =>
    obtain ⟨number, _, encoded⟩ := bind_eq_ok.mp encoded
    obtain rfl := Except.ok.inj encoded
    exact ⟨extends_setAll (by simp) rfl, number, fun letter inside => by
      rw [Draft.lookup_setAll, if_pos inside]⟩
  | extended =>
    obtain ⟨number, _, encoded⟩ := bind_eq_ok.mp encoded
    obtain ⟨amount, _, encoded⟩ := bind_eq_ok.mp encoded
    obtain ⟨range, encoded⟩ := require_bind_eq_ok.mp encoded
    obtain rfl := Except.ok.inj encoded
    exact ⟨extends_triple (by simp) rfl _ _ _, amount, rfl, of_decide_eq_true range⟩
  | shifted =>
    obtain ⟨number, _, encoded⟩ := bind_eq_ok.mp encoded
    obtain ⟨amount, _, encoded⟩ := bind_eq_ok.mp encoded
    obtain ⟨range, encoded⟩ := require_bind_eq_ok.mp encoded
    obtain rfl := Except.ok.inj encoded
    exact ⟨extends_triple (by simp) rfl _ _ _, amount, rfl, isBelow_iff.mp range⟩
  | arithmeticShifted =>
    obtain ⟨number, _, encoded⟩ := bind_eq_ok.mp encoded
    obtain ⟨amount, _, encoded⟩ := bind_eq_ok.mp encoded
    obtain ⟨range, encoded⟩ := require_bind_eq_ok.mp encoded
    obtain rfl := Except.ok.inj encoded
    exact ⟨extends_triple (by simp) rfl _ _ _, ⟨_, rfl, shiftCode_of_fits fits⟩, amount, rfl,
      isBelow_iff.mp range⟩
  | immediate | shiftAmount | arithmeticImmediate | bitmask | wide | invertedWide | branchTarget
  | byteTarget | pageTarget | leftShift | insertLow | insertWidth | extractLow | extractWidth
  | bitNumber | scaledAddress | unscaledAddress | preIndexed | postIndexed | registerIndexed =>
    contradiction

/-- What the immediate of an addition does to a draft. -/
theorem arithmeticImmediate_spec {operand : ImmediateOperand} {value : Int} {evaluate : Evaluator}
    {before after : Draft} {role : List Char}
    (encoded : arithmeticImmediate operand value evaluate before = .ok after) :
    Extends .arithmeticImmediate role before after := by
  have extended (shift value : Int) :
      Extends .arithmeticImmediate role before ((before.set 's' shift).set 'i' value) :=
    extends_pair (by simp) rfl shift value
  obtain ⟨amount, _, encoded⟩ := bind_eq_ok.mp encoded
  obtain ⟨_, encoded⟩ := require_bind_eq_ok.mp encoded
  split at encoded
  · obtain ⟨_, encoded⟩ := require_bind_eq_ok.mp encoded
    obtain rfl := Except.ok.inj encoded
    exact extended _ _
  · split at encoded
    · obtain rfl := Except.ok.inj encoded
      exact extended _ _
    · obtain ⟨_, encoded⟩ := require_bind_eq_ok.mp encoded
      obtain rfl := Except.ok.inj encoded
      exact extended _ _

/-- An immediate of an addition with a written shift by twelve is encoded with that shift. -/
theorem arithmeticImmediate_of_shifted {operand : ImmediateOperand} {given : Nat}
    {evaluate : Evaluator} (below : given < 4096)
    (twelve : amount evaluate operand.amount = .ok 12) (draft : Draft) :
    arithmeticImmediate operand given evaluate draft =
      .ok ((draft.set 's' 1).set 'i' given) := by
  have allowed : require (operand.modifier.isNone || (12 : Int) == 0 || (12 : Int) == 12)
      .shiftAmountZeroOrTwelve operand.span = .ok () := require_eq_ok.mpr (by simp)
  rw [arithmeticImmediate, ok_bind twelve, ok_bind allowed, if_pos rfl,
    ok_bind (require_isBelow below)]
  rfl

/-- An immediate of an addition without a shift is encoded as it is when it fits, and otherwise as
a multiple of 4096. -/
theorem arithmeticImmediate_of_plain {operand : ImmediateOperand} {field shifted : Nat}
    {evaluate : Evaluator} (below : field < 4096) (proper : shifted = 0 ∨ shifted = 1 ∧ 0 < field)
    (zero : amount evaluate operand.amount = .ok 0) (draft : Draft) :
    arithmeticImmediate operand (field <<< (12 * shifted) : Nat) evaluate draft =
      .ok ((draft.set 's' shifted).set 'i' field) := by
  have allowed : require (operand.modifier.isNone || (0 : Int) == 0 || (0 : Int) == 12)
      .shiftAmountZeroOrTwelve operand.span = .ok () := require_eq_ok.mpr (by simp)
  rw [arithmeticImmediate, ok_bind zero, ok_bind allowed, if_neg (by omega)]
  rcases proper with rfl | ⟨rfl, some⟩
  · rw [if_pos (isBelow_iff.mpr (by simp; omega))]
    rfl
  · have multiple : field <<< (12 * 1) = field * 4096 := by rw [Nat.shiftLeft_eq]
    have quotient : ((field * 4096 : Nat) : Int) / 4096 = field := by omega
    have large : ¬isBelow (field * 4096 : Nat) 4096 = true := by
      rw [isBelow_iff]
      omega
    have fits : require (decide (0 < ((field * 4096 : Nat) : Int) ∧
        ((field * 4096 : Nat) : Int) % 4096 = 0 ∧ ((field * 4096 : Nat) : Int) / 4096 < 4096))
        .immediateRange operand.span = .ok () := by
      rw [require_eq_ok, decide_eq_true_eq]
      omega
    rw [multiple, if_neg large, ok_bind fits, quotient]
    rfl

/-- What a logical immediate does to a draft. -/
theorem bitmask_spec {span : Span} {value : Int} {before after : Draft} {role : List Char}
    (encoded : bitmask span value before = .ok after) :
    Extends .bitmask role before after ∧ Settled .bitmask role after := by
  obtain ⟨_, encoded⟩ := require_bind_eq_ok.mp encoded
  split at encoded
  · contradiction
  · rename_i n immr imms packed
    obtain rfl := Except.ok.inj encoded
    exact ⟨extends_triple (by simp) rfl _ _ _, value, n, immr, imms, packed, rfl, rfl, rfl⟩

/-- What a half-word at a position does to a draft. -/
theorem wideImmediate_spec {span : Span} {value : Int} {before after : Draft} {kind : OperandKind}
    {role : List Char} (isWide : kind = .wide ∨ kind = .invertedWide)
    (encoded : wideImmediate span value before = .ok after) :
    Extends kind role before after ∧ Settled kind role after := by
  obtain ⟨_, encoded⟩ := require_bind_eq_ok.mp encoded
  have own : kind.letters role = ['h', 'j'] := by rcases isWide with rfl | rfl <;> rfl
  have plain : kind ≠ .register := by rcases isWide with rfl | rfl <;> simp
  split at encoded
  · contradiction
  · rename_i position found
    obtain rfl := Except.ok.inj encoded
    have settled : Settled .wide role
        ((before.set 'h' position).set 'j' (value.toNat >>> (16 * position) : Nat)) :=
      ⟨value.toNat, position, found, rfl, rfl⟩
    exact ⟨extends_pair plain own _ _, by rcases isWide with rfl | rfl <;> exact settled⟩

/-- What a distance split into words and bytes does to a draft. -/
theorem splitOffset_spec {span : Span} {offset : Int} {before after : Draft} {kind : OperandKind}
    {role : List Char} (isTarget : kind = .byteTarget ∨ kind = .pageTarget)
    (encoded : splitOffset span offset before = .ok after) : Extends kind role before after := by
  obtain ⟨_, encoded⟩ := require_bind_eq_ok.mp encoded
  obtain rfl := Except.ok.inj encoded
  have own : kind.letters role = ['I', 'i'] := by rcases isTarget with rfl | rfl <;> rfl
  have plain : kind ≠ .register := by rcases isTarget with rfl | rfl <;> simp
  exact extends_pair plain own _ _

/-- What an immediate operand does to a draft. -/
theorem immediate_spec {form : InstructionForm} {here value : Int} {kind : OperandKind}
    {role : List Char} {operand : ImmediateOperand} {evaluate : Evaluator} {before after : Draft}
    (fits : kind.isImmediate = true)
    (encoded : immediate form here kind role operand value evaluate before = .ok after) :
    Extends kind role before after ∧ Settled kind role after := by
  cases kind with
  | immediate =>
    obtain ⟨_, _, encoded⟩ := bind_eq_ok.mp encoded
    obtain ⟨_, encoded⟩ := require_bind_eq_ok.mp encoded
    obtain rfl := Except.ok.inj encoded
    exact ⟨extends_setRole (by simp) rfl, trivial⟩
  | shiftAmount =>
    obtain ⟨range, encoded⟩ := require_bind_eq_ok.mp encoded
    obtain rfl := Except.ok.inj encoded
    rw [isBelow_iff] at range
    refine ⟨extends_setRole (by simp) rfl, fun letter single => ⟨value, ?_, range.1, ?_⟩⟩
    · rw [Draft.lookup_setRole, if_pos single]
    · rw [Draft.size, (Draft.setRole_rest before role value).1]
      exact range.2
  | arithmeticImmediate => exact ⟨arithmeticImmediate_spec encoded, trivial⟩
  | bitmask => exact bitmask_spec encoded
  | wide => exact wideImmediate_spec (.inl rfl) encoded
  | invertedWide => exact wideImmediate_spec (.inr rfl) (require_bind_eq_ok.mp encoded).2
  | branchTarget =>
    obtain ⟨_, encoded⟩ := require_bind_eq_ok.mp encoded
    obtain ⟨_, _, encoded⟩ := bind_eq_ok.mp encoded
    obtain ⟨_, encoded⟩ := require_bind_eq_ok.mp encoded
    obtain rfl := Except.ok.inj encoded
    exact ⟨(Extends.refl (by simp) role before).set (.head _) _, trivial⟩
  | byteTarget => exact ⟨splitOffset_spec (.inl rfl) encoded, trivial⟩
  | pageTarget => exact ⟨splitOffset_spec (.inr rfl) encoded, trivial⟩
  | leftShift =>
    obtain ⟨range, encoded⟩ := require_bind_eq_ok.mp encoded
    obtain rfl := Except.ok.inj encoded
    obtain ⟨least, most⟩ := isBelow_iff.mp range
    exact ⟨extends_pair (by simp) rfl _ _, value, least, most, rfl, rfl⟩
  | insertLow =>
    obtain ⟨range, encoded⟩ := require_bind_eq_ok.mp encoded
    obtain rfl := Except.ok.inj encoded
    exact ⟨((Extends.refl (by simp) role before).setLowest rfl value).set (.head _) _, rfl,
      isBelow_iff.mp range⟩
  | extractLow =>
    obtain ⟨range, encoded⟩ := require_bind_eq_ok.mp encoded
    obtain rfl := Except.ok.inj encoded
    exact ⟨((Extends.refl (by simp) role before).setLowest rfl value).set (.head _) _, rfl,
      isBelow_iff.mp range⟩
  | insertWidth =>
    obtain ⟨range, encoded⟩ := require_bind_eq_ok.mp encoded
    obtain rfl := Except.ok.inj encoded
    exact ⟨(Extends.refl (by simp) role before).set (.head _) _, value, rfl,
      of_decide_eq_true range⟩
  | extractWidth =>
    obtain ⟨range, encoded⟩ := require_bind_eq_ok.mp encoded
    obtain rfl := Except.ok.inj encoded
    exact ⟨(Extends.refl (by simp) role before).set (.head _) _, value, rfl,
      of_decide_eq_true range⟩
  | bitNumber =>
    obtain ⟨_, encoded⟩ := require_bind_eq_ok.mp encoded
    obtain rfl := Except.ok.inj encoded
    exact ⟨(Extends.refl (by simp) role before).set (.head _) _, trivial⟩
  | register | wideRegister | halfRegister | extended | shifted | arithmeticShifted
  | scaledAddress | unscaledAddress | preIndexed | postIndexed | registerIndexed => contradiction

/-- What the offset of an address does to a draft: it sets one field. -/
theorem offset_spec {form : InstructionForm} {span : Span} {scaled : Bool} {value : Int}
    {before after : Draft} (encoded : offset form span scaled value before = .ok after) :
    ∃ field : Int, after = before.set 'I' field := by
  obtain ⟨_, _, encoded⟩ := bind_eq_ok.mp encoded
  obtain ⟨_, _, encoded⟩ := bind_eq_ok.mp encoded
  obtain ⟨_, _, encoded⟩ := bind_eq_ok.mp encoded
  obtain rfl := Except.ok.inj encoded
  exact ⟨_, rfl⟩

/-- The codes of index registers. -/
theorem indexCode?_mem (modifier : Option Modifier) :
    (Modifier.indexCode? modifier).getD 3 ∈ [2, 3, 6, 7] := by
  cases modifier with
  | none => decide
  | some modifier => cases modifier <;> decide

/-- What an index register does to a draft: it sets three fields, one of them to a code of an
index. -/
theorem index_spec {form : InstructionForm} {operand : RegisterOperand} {evaluate : Evaluator}
    {before after : Draft} (encoded : index form operand evaluate before = .ok after) :
    ∃ shifted number : Int, ∃ code : Nat, code ∈ [2, 3, 6, 7] ∧
      after = ((before.set 'S' shifted).set 'm' number).set 'o' code := by
  obtain ⟨number, _, encoded⟩ := bind_eq_ok.mp encoded
  cases given : operand.amount with
  | none =>
    simp only [given] at encoded
    obtain ⟨shifted, _, encoded⟩ := bind_eq_ok.mp encoded
    obtain rfl := Except.ok.inj encoded
    exact ⟨shifted, number, _, indexCode?_mem _, rfl⟩
  | some expression =>
    simp only [given] at encoded
    obtain ⟨_, _, encoded⟩ := bind_eq_ok.mp encoded
    obtain ⟨_, _, encoded⟩ := bind_eq_ok.mp encoded
    obtain ⟨shifted, _, encoded⟩ := bind_eq_ok.mp encoded
    obtain rfl := Except.ok.inj encoded
    exact ⟨shifted, number, _, indexCode?_mem _, rfl⟩

/-- An address with a plain base begins with a register. -/
theorem exists_base {operand : AddressOperand}
    (based : (OperandKind.base? operand).any OperandKind.isPlain = true) :
    ∃ base rest, operand.parts = .register base :: rest := by
  rw [OperandKind.base?] at based
  split at based
  · rename_i base rest parts
    exact ⟨base, rest, parts⟩
  · contradiction

/-- An address with an index has an index register behind its base. -/
theorem exists_indexRegister {operand : AddressOperand} {base : RegisterOperand} {rest : List AddressPart}
    (parts : operand.parts = .register base :: rest)
    (fits : OperandKind.registerIndexed.fitsAddress operand = true) :
    ∃ part, rest = [.register part] := by
  simp only [OperandKind.fitsAddress, parts, List.tail_cons, Bool.and_eq_true,
    decide_eq_true_eq] at fits
  obtain ⟨⟨_, single⟩, indices⟩ := fits
  obtain ⟨part, rfl⟩ := List.length_eq_one_iff.mp single
  cases part with
  | register part => exact ⟨part, rfl⟩
  | immediate part => simp [OperandKind.isIndex] at indices

/-- What an address operand does to a draft. -/
theorem address_spec {form : InstructionForm} {kind : OperandKind} {role : List Char}
    {operand : AddressOperand} {evaluate : Evaluator} {before after : Draft}
    (based : (OperandKind.base? operand).any OperandKind.isPlain = true)
    (fits : kind.fitsAddress operand = true)
    (encoded : address form kind operand evaluate before = .ok after) :
    Extends kind role before after ∧ Settled kind role after := by
  obtain ⟨base, rest, parts⟩ := exists_base based
  rw [address, parts] at encoded
  obtain ⟨_, _, encoded⟩ := bind_eq_ok.mp encoded
  cases kind with
  | postIndexed =>
    obtain ⟨_, _, encoded⟩ := bind_eq_ok.mp encoded
    obtain ⟨field, rfl⟩ := offset_spec encoded
    exact ⟨extends_pair (by simp) rfl _ field, trivial⟩
  | registerIndexed =>
    obtain ⟨part, rfl⟩ := exists_indexRegister parts fits
    obtain ⟨shifted, number, code, known, rfl⟩ := index_spec encoded
    have based : Extends .registerIndexed role before (before.set 'n' base.register.slot) :=
      (Extends.refl (by simp) role before).set (.head _) _
    exact ⟨((based.set (.tail _ (.tail _ (.tail _ (.head _)))) _).set (.tail _ (.head _)) _).set
      (.tail _ (.tail _ (.head _))) _, code, rfl, known⟩
  | scaledAddress | unscaledAddress | preIndexed =>
    cases rest with
    | nil =>
      obtain ⟨field, rfl⟩ := offset_spec encoded
      exact ⟨extends_pair (by simp) rfl _ field, trivial⟩
    | cons part later =>
      cases part with
      | register part =>
        obtain ⟨field, rfl⟩ := offset_spec encoded
        exact ⟨extends_pair (by simp) rfl _ field, trivial⟩
      | immediate part =>
        obtain ⟨_, _, encoded⟩ := bind_eq_ok.mp encoded
        obtain ⟨field, rfl⟩ := offset_spec encoded
        exact ⟨extends_pair (by simp) rfl _ field, trivial⟩
  | register | wideRegister | halfRegister | extended | shifted | arithmeticShifted | immediate
  | shiftAmount | arithmeticImmediate | bitmask | wide | invertedWide | branchTarget | byteTarget
  | pageTarget | leftShift | insertLow | insertWidth | extractLow | extractWidth | bitNumber =>
    contradiction

section Operand

variable {form : InstructionForm} {here : Int} {evaluate : Evaluator} {before after : Draft}
  {letter : Char} {given : RegisterOperand}

/-- A register is taken at the width of the first one, which it tells if it is the first itself. -/
theorem operand_register_eq_ok :
    operand form here evaluate before OperandKind.register.code [letter] (.register given) =
        .ok after ↔
      given.register.wide = before.wide.getD given.register.wide ∧
        after = { before with wide := some given.register.wide }.set letter given.register.slot := by
  simp only [operand, OperandKind.ofChar?_code, register, bind_eq_ok, registerNumber_eq_ok, pure,
    Except.pure, Except.ok.injEq]
  constructor
  · rintro ⟨_, ⟨same, rfl⟩, rfl⟩
    exact ⟨same, by rw [← same]; rfl⟩
  · rintro ⟨same, rfl⟩
    exact ⟨_, ⟨same, rfl⟩, by rw [← same]; rfl⟩

/-- A full register is taken at full width. -/
theorem operand_wideRegister_eq_ok :
    operand form here evaluate before OperandKind.wideRegister.code [letter] (.register given) =
        .ok after ↔
      given.register.wide = true ∧ after = before.set letter given.register.slot := by
  simp only [operand, OperandKind.ofChar?_code, register, bind_eq_ok, registerNumber_eq_ok, pure,
    Except.pure, Except.ok.injEq]
  constructor
  · rintro ⟨_, ⟨same, rfl⟩, rfl⟩
    exact ⟨same, rfl⟩
  · rintro ⟨same, rfl⟩
    exact ⟨_, ⟨same, rfl⟩, rfl⟩

/-- A half register is taken at half width. -/
theorem operand_halfRegister_eq_ok :
    operand form here evaluate before OperandKind.halfRegister.code [letter] (.register given) =
        .ok after ↔
      given.register.wide = false ∧ after = before.set letter given.register.slot := by
  simp only [operand, OperandKind.ofChar?_code, register, bind_eq_ok, registerNumber_eq_ok, pure,
    Except.pure, Except.ok.injEq]
  constructor
  · rintro ⟨_, ⟨same, rfl⟩, rfl⟩
    exact ⟨same, rfl⟩
  · rintro ⟨same, rfl⟩
    exact ⟨_, ⟨same, rfl⟩, rfl⟩

/-- The number of a bit is taken if it lies within the data size. -/
theorem operand_bitNumber_eq_ok {role : List Char} {given : ImmediateOperand} {position : Int}
    (known : evaluate given.value = .ok position) :
    operand form here evaluate before OperandKind.bitNumber.code role (.immediate given) =
        .ok after ↔
      (0 ≤ position ∧ position < before.size) ∧ after = before.set 'b' position := by
  have read : value evaluate given.value = .ok position := by rw [value, known]; rfl
  simp only [operand, OperandKind.ofChar?_code, ok_bind read, immediate, bind_eq_ok, require_eq_ok,
    isBelow_iff, exists_const, pure, Except.pure, Except.ok.injEq, eq_comm (a := after)]

end Operand

/-- What an operand that fits its kind does to a draft. -/
theorem operand_spec {form : InstructionForm} {here : Int} {evaluate : Evaluator}
    {before after : Draft} {code : Char} {kind : OperandKind} {role : List Char}
    {given : Operand} (known : OperandKind.ofChar? code = some kind)
    (fits : OperandKind.fits code given = .ok true)
    (encoded : operand form here evaluate before code role given = .ok after) :
    Extends kind role before after ∧ Settled kind role after := by
  cases given with
  | register given =>
    simp only [OperandKind.fits, known, operand] at fits encoded
    exact register_spec (Except.ok.inj fits) encoded
  | immediate given =>
    simp only [OperandKind.fits, known, operand, Except.ok.injEq, Bool.and_eq_true] at fits encoded
    obtain ⟨value, _, encoded⟩ := bind_eq_ok.mp encoded
    exact immediate_spec fits.1 encoded
  | address given =>
    simp only [OperandKind.fits, known, operand, Except.ok.injEq, Bool.and_eq_true] at fits encoded
    exact address_spec fits.1 fits.2 encoded

/-- What an operand has established holds of every draft with the same fields, and with the same
width and lowest bit as far as its kind depends on them. -/
theorem Settled.congr {kind : OperandKind} {role : List Char} {draft other : Draft}
    (settled : Settled kind role draft)
    (fields : ∀ letter ∈ kind.letters role,
      other.values.lookup letter = draft.values.lookup letter)
    (size : kind.dependsOnSize = true → other.size = draft.size)
    (lowest : kind.usesLowest = true → other.lowest = draft.lowest) : Settled kind role other := by
  cases kind with
  | register | wideRegister | halfRegister =>
    obtain ⟨number, same⟩ := settled
    exact ⟨number, fun letter inside => (fields letter inside).trans (same letter inside)⟩
  | shiftAmount =>
    intro letter single
    obtain ⟨amount, here, range⟩ := settled letter single
    refine ⟨amount, (fields letter ?_).trans here, ?_⟩
    · rw [show OperandKind.letters .shiftAmount role = role from rfl, single]
      exact List.mem_cons_self
    · rw [size rfl]
      exact range
  | extended | shifted | arithmeticShifted | bitmask | wide | invertedWide | leftShift | insertLow
  | insertWidth | extractLow | extractWidth | registerIndexed =>
    simp only [OperandKind.letters, OperandKind.fieldLetters, Option.getD_some,
      List.forall_mem_cons, List.not_mem_nil, false_implies, implies_true, and_true] at fields
    simp only [OperandKind.dependsOnSize, OperandKind.usesLowest, true_implies, reduceCtorEq,
      false_implies] at size lowest
    simp only [Settled, fields, size, lowest] at settled ⊢
    exact settled
  | immediate | arithmeticImmediate | branchTarget | byteTarget | pageTarget | bitNumber
  | scaledAddress | unscaledAddress | preIndexed | postIndexed => trivial

/-- Operands are encoded one after the other. -/
theorem allOperands_append {form : InstructionForm} {here : Int} {evaluate : Evaluator}
    (draft : Draft) {kinds : List (Char × List Char)} {list : List Operand}
    (count : kinds.length = list.length) (later : List (Char × List Char)) (rest : List Operand) :
    allOperands form here evaluate draft (kinds ++ later) (list ++ rest) =
      allOperands form here evaluate draft kinds list >>= fun draft =>
        allOperands form here evaluate draft later rest := by
  induction kinds generalizing draft list with
  | nil =>
    obtain rfl := List.length_eq_zero_iff.mp count.symm
    rfl
  | cons kind kinds ih =>
    cases list with
    | nil => contradiction
    | cons next list =>
      rw [List.cons_append, List.cons_append, allOperands, allOperands]
      cases operand form here evaluate draft kind.1 kind.2 next with
      | error failure => rfl
      | ok draft => exact ih draft (Nat.succ.inj count)

/-- What an encoding gathers from all operands: each of them has established its fields in the end,
and all other fields are as before. -/
theorem allOperands_spec {form : InstructionForm} {here : Int} {evaluate : Evaluator}
    {operands : List (OperandKind × List Char)} {list : List Operand} {before after : Draft}
    (fits : OperandKind.fitsEach ((operands.map fun operand => operand.1.code).zip list) = .ok true)
    (same : operands.length = list.length)
    (encoded : allOperands form here evaluate before
      (operands.map fun operand => (operand.1.code, operand.2)) list = .ok after)
    (apart : operands.Pairwise OperandKind.Apart)
    (sized : before.wide.isSome = true ∨ OperandKind.SizeKnown operands) :
    (∀ letter, (∀ operand ∈ operands, letter ∉ operand.1.letters operand.2) →
      after.values.lookup letter = before.values.lookup letter) ∧
    (before.wide.isSome = true → after.wide = before.wide) ∧
    ((∀ operand ∈ operands, operand.1.setsLowest = false) → after.lowest = before.lowest) ∧
    ∀ operand ∈ operands, Settled operand.1 operand.2 after := by
  induction operands generalizing before list with
  | nil =>
    obtain rfl := Except.ok.inj encoded
    exact ⟨fun _ _ => rfl, fun _ => rfl, fun _ => rfl, fun _ member => by contradiction⟩
  | cons first rest ih =>
    obtain ⟨kind, role⟩ := first
    cases list with
    | nil => contradiction
    | cons next later =>
      obtain ⟨fitsHere, fits⟩ := OperandKind.fitsEach_cons.mp fits
      rw [List.map_cons, allOperands] at encoded
      obtain ⟨middle, first, encoded⟩ := bind_eq_ok.mp encoded
      obtain ⟨extended, settled⟩ := operand_spec (OperandKind.ofChar?_code kind) fitsHere first
      obtain ⟨apartFirst, apart⟩ := List.pairwise_cons.mp apart
      have sized' : middle.wide.isSome = true ∨
          (kind.dependsOnSize = false ∧ ∀ operand ∈ rest, operand.1.dependsOnSize = false) := by
        rcases sized with set | first | none
        · exact .inl (extended.kept set ▸ set)
        · have isRegister : kind = .register := by simpa using first
          have set := extended.wide
          rw [if_pos isRegister] at set
          exact .inl set
        · exact .inr (List.forall_mem_cons.mp none)
      obtain ⟨frame, kept, lowest, later⟩ := ih fits (Nat.succ.inj same) encoded apart
        (sized'.imp_right fun none => .inr none.2)
      refine ⟨fun letter outside => ?_, fun set => ?_, fun none => ?_,
        List.forall_mem_cons.mpr ⟨?_, later⟩⟩
      · obtain ⟨here, there⟩ := List.forall_mem_cons.mp outside
        rw [frame letter there, extended.frame letter here]
      · rw [kept (extended.kept set ▸ set), extended.kept set]
      · obtain ⟨here, there⟩ := List.forall_mem_cons.mp none
        rw [lowest there, extended.lowest here]
      · refine settled.congr (fun letter inside => frame letter fun operand member =>
          (apartFirst operand member).letters letter inside) (fun depends => ?_)
          fun uses => lowest fun operand member => (apartFirst operand member).lowest uses
        rcases sized' with set | ⟨independent, _⟩
        · rw [Draft.size, Draft.size, kept set]
        · rw [independent] at depends
          contradiction

end Encode

end A64Machine
