import A64Machine.Proofs.AliasForms

/-!
# Aliases with a zero register

A comparison is a subtraction into the zero register, a negation is a subtraction from it, and a
multiplication is one that adds it. The alias leaves the zero register out, and its forms have the
number of the zero register in the place of the field. Between the other operands the zero register
sets that field and nothing else, so an alias and its general instruction make the same word, or
neither makes one.
-/

namespace A64Machine

/-- The operand is a plain zero register. -/
structure RegisterOperand.IsZero (operand : RegisterOperand) (wide : Bool) : Prop where
  register : operand.register = ⟨Register.zeroSlot, wide⟩
  plain : operand.modifier = none

namespace InstructionSet

/-- An alias for a general instruction that has a zero register as one more operand, which stands
behind the given number of others. -/
structure ZeroAlias where
  name : String
  general : String
  place : Nat
  deriving DecidableEq, Repr

/-- The aliases for instructions with a zero register. -/
def zeroAliases : List ZeroAlias :=
  [⟨"cmp", "subs", 0⟩, ⟨"cmn", "adds", 0⟩, ⟨"tst", "ands", 0⟩,
    ⟨"neg", "sub", 1⟩, ⟨"negs", "subs", 1⟩, ⟨"ngc", "sbc", 1⟩, ⟨"ngcs", "sbcs", 1⟩,
    ⟨"mvn", "orn", 1⟩, ⟨"bfc", "bfi", 1⟩, ⟨"mul", "madd", 3⟩, ⟨"mneg", "msub", 3⟩,
    ⟨"smull", "smaddl", 3⟩, ⟨"umull", "umaddl", 3⟩, ⟨"smnegl", "smsubl", 3⟩,
    ⟨"umnegl", "umsubl", 3⟩]

/-- The fields that the operands of a form set. -/
def operandLetters (form : InstructionForm) : List Char :=
  form.operands.flatMap fun operand => operand.1.letters operand.2

/-- The general form of an alias has its operands and a register like the first one among them; the
form of the alias fixes that register to zero. -/
structure ZeroForm (special general : InstructionForm) (aliased : ZeroAlias) (kind : OperandKind)
    (letter : Char) : Prop where
  specialUnrivalled : Unrivalled special aliased.name
  generalUnrivalled : Unrivalled general aliased.general
  isRegister : kind = .register ∨ kind = .wideRegister ∧ 0 < aliased.place
  first : (special.operands.head?.any fun operand =>
    operand.1 == kind && operand.2.length == 1) = true
  enough : aliased.place ≤ special.operands.length
  operands : general.operands =
    special.operands.take aliased.place ++ (kind, [letter]) :: special.operands.drop aliased.place
  blind : ∀ operand ∈ special.operands, operand.1.readsForm = false
  apart : letter ∉ operandLetters special
  specialises : ∀ wide,
    Specialises special general wide wide (operandLetters special) [(letter, 31)]
  fields : ∀ field ∈ special.pattern.fields,
    field.1 = 'z' ∨ field.1 ∈ operandLetters special ∧ field ∈ general.pattern.fields

instance (special general : InstructionForm) (aliased : ZeroAlias) (kind : OperandKind)
    (letter : Char) : Decidable (ZeroForm special general aliased kind letter) :=
  decidable_of_iff (_ ∧ _ ∧ _ ∧ _ ∧ _ ∧ _ ∧ _ ∧ _ ∧ _ ∧ _)
    ⟨fun ⟨special, general, isRegister, first, enough, operands, blind, apart, specialises,
        fields⟩ => ⟨special, general, isRegister, first, enough, operands, blind, apart,
        specialises, fields⟩,
      fun ⟨special, general, isRegister, first, enough, operands, blind, apart, specialises,
        fields⟩ => ⟨special, general, isRegister, first, enough, operands, blind, apart,
        specialises, fields⟩⟩

/-- Every form of an alias with a zero register has its general form. -/
theorem exists_general : ∀ aliased ∈ zeroAliases, ∀ special ∈ formsOf aliased.name,
    ∃ general ∈ formsOf aliased.general, ∃ kind ∈ [OperandKind.register, .wideRegister],
      ∃ letter ∈ ['d', 'n', 'a'], ZeroForm special general aliased kind letter := by
  decide +kernel

/-- Every general form of an alias with a zero register has its special form, but a negation has
neither an extended register nor an immediate. -/
theorem exists_special : ∀ aliased ∈ zeroAliases, ∀ general ∈ formsOf aliased.general,
    (∃ special ∈ formsOf aliased.name, ∃ kind ∈ [OperandKind.register, .wideRegister],
      ∃ letter ∈ ['d', 'n', 'a'], ZeroForm special general aliased kind letter) ∨
    (aliased.name = "neg" ∨ aliased.name = "negs") ∧ (general.operands.getLast?.any fun operand =>
      operand.1 == .extended || operand.1.sort == .immediate) = true := by
  decide +kernel

section ZeroForm

variable {special general : InstructionForm} {aliased : ZeroAlias} {kind : OperandKind}
  {letter role : Char} {here : Int} {evaluate : Evaluator} {front back : List Operand}
  {first zero : RegisterOperand} {draft : Draft} {word : Nat}

/-- What the first register tells of the width, as long as operands are gathered behind it. -/
theorem wide_of_first {form : InstructionForm} {operands : List FormOperand} {list : List Operand}
    (isRegister : kind = .register ∨ kind = .wideRegister)
    (fits : OperandKind.fitsEach ((operands.map fun operand => operand.1.code).zip list) = .ok true)
    (gathered : Encode.allOperands form here evaluate .empty
      ((kind.code, [role]) :: operands.map fun operand => (operand.1.code, operand.2))
      (.register first :: list) = .ok draft) :
    (kind = .register → draft.wide = some first.register.wide) ∧
      (kind = .wideRegister → first.register.wide = true) := by
  obtain ⟨middle, head, gathered⟩ := bind_eq_ok.mp gathered
  obtain ⟨_, kept⟩ := Encode.allOperands_frame fits gathered
  rcases isRegister with rfl | rfl
  · obtain ⟨_, rfl⟩ := Encode.operand_register_eq_ok.mp head
    exact ⟨fun _ => kept rfl, fun isWide => by contradiction⟩
  · obtain ⟨wide, _⟩ := Encode.operand_wideRegister_eq_ok.mp head
    exact ⟨fun isRegister => by contradiction, fun _ => wide⟩

/-- A zero register of the width of the first register sets its field and nothing else. -/
theorem operand_zero {form : InstructionForm} (isRegister : kind = .register ∨ kind = .wideRegister)
    (isZero : zero.IsZero first.register.wide)
    (width : (kind = .register → draft.wide = some first.register.wide) ∧
      (kind = .wideRegister → first.register.wide = true)) :
    Encode.operand form here evaluate draft kind.code [letter] (.register zero) =
      .ok (draft.set letter 31) := by
  rcases isRegister with rfl | rfl
  · have known := width.1 rfl
    refine Encode.operand_register_eq_ok.mpr ⟨by rw [known, isZero.register]; rfl, ?_⟩
    rw [isZero.register, ← known]
    rfl
  · refine Encode.operand_wideRegister_eq_ok.mpr ⟨?_, ?_⟩
    · rw [isZero.register]
      exact width.2 rfl
    · rw [isZero.register]
      rfl

/-- More operands gather the same fields and just one field more, which the others do not set. -/
def AddsField (form : InstructionForm) (here : Int) (evaluate : Evaluator) (letter : Char)
    (value : Int) (operands : List FormOperand) (list : List Operand)
    (operands' : List FormOperand) (list' : List Operand) : Prop :=
  ∃ (later : Except EncodeFailure Draft) (earlier : List (Char × Int)),
    Encode.allOperands form here evaluate .empty
      (operands.map fun operand => (operand.1.code, operand.2)) list =
        later.map (·.onto earlier) ∧
    Encode.allOperands form here evaluate .empty
      (operands'.map fun operand => (operand.1.code, operand.2)) list' =
        later.map (·.onto ((letter, value) :: earlier)) ∧
    ∀ draft, later = .ok draft → draft.values.lookup letter = none

/-- A zero register in front of the first register only adds its field. -/
theorem addsField_first {form : InstructionForm} {operands : List FormOperand} {list : List Operand}
    (isZero : zero.IsZero first.register.wide)
    (fits : OperandKind.fitsEach ((((OperandKind.register, [role]) :: operands).map
      fun operand => operand.1.code).zip (.register first :: list)) = .ok true)
    (apart : ∀ operand ∈ (OperandKind.register, [role]) :: operands,
      letter ∉ operand.1.letters operand.2) :
    AddsField form here evaluate letter 31 ((.register, [role]) :: operands)
      (.register first :: list) ((.register, [letter]) :: (.register, [role]) :: operands)
      (.register zero :: .register first :: list) := by
  have head : Encode.operand form here evaluate .empty OperandKind.register.code [letter]
      (.register zero) = .ok ⟨[(letter, 31)], some first.register.wide, 0⟩ :=
    Encode.operand_register_eq_ok.mpr ⟨rfl, by rw [isZero.register]; rfl⟩
  have next (draft : Draft) (known : draft.wide.getD first.register.wide = first.register.wide) :
      Encode.operand form here evaluate draft OperandKind.register.code [role] (.register first) =
        .ok ({ draft with wide := some first.register.wide }.set role first.register.slot) :=
    Encode.operand_register_eq_ok.mpr ⟨known.symm, rfl⟩
  refine ⟨_, [], Encode.allOperands_eq_onto _, ?_, fun draft gathered => ?_⟩
  · rw [List.map_cons, List.map_cons, Encode.allOperands, ok_bind head, Encode.allOperands,
      Encode.allOperands, ok_bind (next _ rfl), ok_bind (next _ rfl)]
    exact Encode.allOperands_onto form here evaluate
      ⟨[(role, first.register.slot)], some first.register.wide, 0⟩ [(letter, 31)] _ list
  · rw [(Encode.allOperands_frame fits gathered).1 letter apart]
    rfl

/-- A zero register behind the first register only adds its field. -/
theorem addsField_behind {form : InstructionForm} {ahead behind : List FormOperand}
    {before after : List Operand} (isRegister : kind = .register ∨ kind = .wideRegister)
    (isZero : zero.IsZero first.register.wide) (count : ahead.length = before.length)
    (fits : OperandKind.fitsEach ((ahead.map fun operand => operand.1.code).zip before) = .ok true)
    (fits' : OperandKind.fitsEach ((behind.map fun operand => operand.1.code).zip after) = .ok true)
    (apart : ∀ operand ∈ behind, letter ∉ operand.1.letters operand.2) :
    AddsField form here evaluate letter 31 ((kind, [role]) :: ahead ++ behind)
      (.register first :: before ++ after) ((kind, [role]) :: ahead ++ (kind, [letter]) :: behind)
      (.register first :: before ++ .register zero :: after) := by
  unfold AddsField
  rw [List.map_append, List.map_append, Encode.allOperands_append _ (by simpa using count),
    Encode.allOperands_append _ (by simpa using count)]
  cases gathered : Encode.allOperands form here evaluate .empty
      (((kind, [role]) :: ahead).map fun operand => (operand.1.code, operand.2))
      (.register first :: before) with
  | error failure => exact ⟨.error failure, [], rfl, rfl, fun draft made => by contradiction⟩
  | ok draft =>
    refine ⟨_, draft.values, Encode.allOperands_eq_onto _, ?_, fun middle gathered => ?_⟩
    · rw [List.map_cons, ok_bind rfl, Encode.allOperands,
        ok_bind (operand_zero isRegister isZero (wide_of_first isRegister fits gathered))]
      exact Encode.allOperands_eq_onto _
    · rw [(Encode.allOperands_frame fits' gathered).1 letter apart]
      rfl

namespace ZeroForm

/-- The kinds of a special form are those of its operands. -/
theorem shape (zeroForm : ZeroForm special general aliased kind letter) :
    special ∈ forms ∧ general ∈ forms ∧
      special.shape = special.operands.map (fun operand => operand.1.code) ∧
      general.shape = general.operands.map (fun operand => operand.1.code) := by
  have member := mem_forms_of_mem_formsOf (mem_formsOf.mpr zeroForm.specialUnrivalled.listed)
  have member' := mem_forms_of_mem_formsOf (mem_formsOf.mpr zeroForm.generalUnrivalled.listed)
  exact ⟨member, member', (sound _ member).codes (checked member).roles,
    (sound _ member').codes (checked member').roles⟩

/-- The first operand of a special form is a register. -/
theorem exists_first (zeroForm : ZeroForm special general aliased kind letter) :
    ∃ role rest, special.operands = (kind, [role]) :: rest := by
  have first := zeroForm.first
  cases operands : special.operands with
  | nil => simp [operands] at first
  | cons operand rest =>
    obtain ⟨kind', roles⟩ := operand
    simp only [operands, List.head?_cons, Option.any_some, Bool.and_eq_true, beq_iff_eq] at first
    obtain ⟨rfl, single⟩ := first
    obtain ⟨role, rfl⟩ := List.length_eq_one_iff.mp single
    exact ⟨role, rest, rfl⟩

/-- The zero register only adds its field to what the operands of an alias gather. -/
theorem addsField (zeroForm : ZeroForm special general aliased kind letter)
    (fits : OperandKind.fitsAll special.shape (front ++ back) = .ok true)
    (place : front.length = aliased.place)
    (leads : (front ++ back).head? = some (.register first))
    (isZero : zero.IsZero first.register.wide) :
    AddsField general here evaluate letter 31 special.operands (front ++ back) general.operands
      (front ++ .register zero :: back) := by
  obtain ⟨_, _, shape, _⟩ := zeroForm.shape
  obtain ⟨role, rest, operands⟩ := zeroForm.exists_first
  have apart : ∀ operand ∈ special.operands, letter ∉ operand.1.letters operand.2 :=
    fun operand inside sets => zeroForm.apart (List.mem_flatMap.mpr ⟨operand, inside, sets⟩)
  rw [shape] at fits
  obtain ⟨count, fits⟩ := OperandKind.fitsAll_eq_true.mp fits
  rw [zeroForm.operands, ← place]
  rw [operands] at apart fits count ⊢
  cases front with
  | nil =>
    obtain ⟨list, rfl⟩ : ∃ list, back = .register first :: list := by
      cases back with
      | nil => contradiction
      | cons given list =>
        obtain rfl := Option.some.inj leads
        exact ⟨list, rfl⟩
    have isRegister : kind = .register :=
      zeroForm.isRegister.resolve_right fun both => absurd both.2 (by simp [← place])
    subst isRegister
    exact addsField_first isZero fits apart
  | cons given front =>
    obtain rfl := Option.some.inj leads
    obtain ⟨ahead, behind, rfl, split⟩ : ∃ ahead behind, rest = ahead ++ behind ∧
        ahead.length = front.length := by
      refine ⟨_, _, (List.take_append_drop front.length rest).symm, ?_⟩
      simp only [List.length_map, List.length_cons, List.length_append] at count
      rw [List.length_take]
      omega
    rw [List.map_cons, List.map_append, List.cons_append, List.zip_cons_cons,
      List.zip_append (by simpa using split), OperandKind.fitsEach_cons] at fits
    obtain ⟨fits, fits'⟩ := OperandKind.fitsEach_append_eq_true.mp fits.2
    rw [List.length_cons, List.take_succ_cons, List.drop_succ_cons, List.take_left' split,
      List.drop_left' split]
    exact addsField_behind (zeroForm.isRegister.imp_right And.left) isZero split fits fits'
      fun operand inside => apart operand (List.mem_cons_of_mem _ (List.mem_append_right _ inside))

/-- The operands with a zero register fit the general form when the others fit the special form. -/
theorem fitsAll_iff (zeroForm : ZeroForm special general aliased kind letter)
    (place : front.length = aliased.place) {wide : Bool} (isZero : zero.IsZero wide) :
    OperandKind.fitsAll general.shape (front ++ .register zero :: back) = .ok true ↔
      OperandKind.fitsAll special.shape (front ++ back) = .ok true := by
  obtain ⟨_, _, shape, shape'⟩ := zeroForm.shape
  have count : ((special.operands.take aliased.place).map fun operand => operand.1.code).length =
      front.length := by
    rw [List.length_map, List.length_take, Nat.min_eq_left zeroForm.enough, place]
  have fitsZero : OperandKind.fits kind.code (.register zero) = .ok true := by
    simp only [OperandKind.fits, OperandKind.ofChar?_code]
    rcases zeroForm.isRegister with rfl | ⟨rfl, _⟩ <;>
      simp [OperandKind.fitsRegister, OperandKind.isPlain, isZero.plain]
  rw [shape, shape', zeroForm.operands, List.map_append, List.map_cons,
    OperandKind.fitsAll_insert count, and_iff_right fitsZero, ← List.map_append,
    List.take_append_drop]

/-- What both forms gather: the same, but for the field of the zero register. -/
theorem gathered (zeroForm : ZeroForm special general aliased kind letter)
    (fits : OperandKind.fitsAll special.shape (front ++ back) = .ok true)
    (place : front.length = aliased.place)
    (leads : (front ++ back).head? = some (.register first))
    (isZero : zero.IsZero first.register.wide) :
    ∃ (later : Except EncodeFailure Draft) (earlier : List (Char × Int)),
      Encode.allOperands special here evaluate .empty (special.shape.zip special.roles)
        (front ++ back) = later.map (·.onto earlier) ∧
      Encode.allOperands general here evaluate .empty (general.shape.zip general.roles)
        (front ++ .register zero :: back) = later.map (·.onto ((letter, 31) :: earlier)) ∧
      ∀ draft, later = .ok draft → draft.values.lookup letter = none := by
  obtain ⟨member, member', shape, _⟩ := zeroForm.shape
  have fitsEach := (OperandKind.fitsAll_eq_true.mp (shape ▸ fits)).2
  rw [(sound _ member).shape, (sound _ member').shape,
    @Encode.allOperands_of_blind special general here evaluate _ zeroForm.blind _ fitsEach]
  exact zeroForm.addsField fits place leads isZero

/-- The general form makes the word that the special form makes. -/
theorem formWord_general (zeroForm : ZeroForm special general aliased kind letter)
    (fits : OperandKind.fitsAll special.shape (front ++ back) = .ok true)
    (place : front.length = aliased.place)
    (leads : (front ++ back).head? = some (.register first))
    (isZero : zero.IsZero first.register.wide)
    (made : Encode.formWord special here evaluate (front ++ back) = .ok word) :
    Encode.formWord general here evaluate (front ++ .register zero :: back) = .ok word := by
  obtain ⟨member, member', _⟩ := zeroForm.shape
  have check := checked member
  obtain ⟨draft, drawn, drafted⟩ := Encode.drafted_of_formWord (sound _ member) check.wellFormed
    check.bits check.roles fits made
  obtain ⟨later, earlier, drawn', added, unset⟩ :=
    @gathered _ _ _ _ _ here evaluate _ _ _ _ zeroForm fits place leads isZero
  rw [drawn] at drawn'
  cases later with
  | error failure => contradiction
  | ok rest =>
    obtain rfl : draft = rest.onto earlier := Except.ok.inj drawn'
    have wide : ((rest.onto ((letter, 31) :: earlier)).wide != some false) =
        ((rest.onto earlier).wide != some false) := rfl
    refine (zeroForm.specialises _).formWord_eq_ok member member' drafted rfl wide
      ((zeroForm.fitsAll_iff place isZero).mpr fits) added (fun other sets => ?_) fun code among => ?_
    · have different : other ≠ letter := fun same => zeroForm.apart (same ▸ sets)
      rw [Draft.lookup_onto, Draft.lookup_onto, List.lookup_cons, beq_false_of_ne different]
    · obtain rfl := List.mem_singleton.mp among
      rw [Draft.lookup_onto, unset rest rfl, List.lookup_cons_self]
      rfl

/-- The special form makes the word that the general form makes. -/
theorem formWord_special (zeroForm : ZeroForm special general aliased kind letter)
    (fits : OperandKind.fitsAll special.shape (front ++ back) = .ok true)
    (place : front.length = aliased.place)
    (leads : (front ++ back).head? = some (.register first))
    (isZero : zero.IsZero first.register.wide)
    (made : Encode.formWord general here evaluate (front ++ .register zero :: back) = .ok word) :
    Encode.formWord special here evaluate (front ++ back) = .ok word := by
  obtain ⟨member, member', _⟩ := zeroForm.shape
  have check := checked member
  have check' := checked member'
  obtain ⟨draft, drawn, drafted⟩ := Encode.drafted_of_formWord (sound _ member') check'.wellFormed
    check'.bits check'.roles ((zeroForm.fitsAll_iff place isZero).mpr fits) made
  obtain ⟨later, earlier, drawn', added, unset⟩ :=
    @gathered _ _ _ _ _ here evaluate _ _ _ _ zeroForm fits place leads isZero
  rw [drawn] at added
  cases later with
  | error failure => contradiction
  | ok rest =>
    obtain rfl : draft = rest.onto ((letter, 31) :: earlier) := Except.ok.inj added
    obtain ⟨word', made'⟩ := Encode.exists_formWord (sound _ member) check.wellFormed check.roles
      fits drawn' fun field inside notFlag => by
        obtain ⟨sets, inside'⟩ := (zeroForm.fields field inside).resolve_left notFlag
        have different : field.1 ≠ letter := fun same => zeroForm.apart (same ▸ sets)
        refine ⟨_, ?_, BitPattern.gather_lt word field.2⟩
        rw [← lookup_of_drafted member' drafted inside' notFlag, Draft.lookup_onto,
          Draft.lookup_onto, List.lookup_cons, beq_false_of_ne different]
    have same := zeroForm.formWord_general fits place leads isZero made'
    rw [made] at same
    rw [made', Except.ok.inj same]

end ZeroForm

/-- What an alias with a zero register encodes, the general instruction encodes to the same word. -/
theorem encode_general_of_zero (listed : aliased ∈ zeroAliases) (place : front.length = aliased.place)
    (leads : (front ++ back).head? = some (.register first))
    (isZero : zero.IsZero first.register.wide)
    (encoded : Codec.a64.encode aliased.name (front ++ back) here evaluate = .ok word) :
    Codec.a64.encode aliased.general (front ++ .register zero :: back) here evaluate = .ok word := by
  obtain ⟨special, member, fits, made⟩ := exists_fitting_of_encode encoded
  obtain ⟨general, _, kind, _, letter, _, zeroForm⟩ := exists_general aliased listed special member
  exact (zeroForm.generalUnrivalled.encode_iff ((zeroForm.fitsAll_iff place isZero).mpr fits)).mpr
    (zeroForm.formWord_general fits place leads isZero made)

/-- An alias with a zero register takes what the general instruction takes, but a negation takes
neither an extended register nor an immediate. -/
def TakesAll (mnemonic : String) (list : List Operand) : Prop :=
  mnemonic = "neg" ∨ mnemonic = "negs" → ∃ given : RegisterOperand,
    list.getLast? = some (.register given) ∧
      ∀ modifier ∈ given.modifier, modifier.extendCode? = none

/-- A register without an extension fits neither an extended register nor an immediate. -/
theorem misfit_of_unextended {given : RegisterOperand} {kind : OperandKind}
    (unextended : ∀ modifier ∈ given.modifier, modifier.extendCode? = none)
    (excluded : (kind == .extended || kind.sort == .immediate) = true) :
    OperandKind.fits kind.code (.register given) ≠ .ok true := by
  intro fits
  have sort := OperandKind.sort_of_fits fits
  rcases Bool.or_eq_true_iff.mp excluded with same | same
  · obtain rfl := eq_of_beq same
    simp only [OperandKind.fits, OperandKind.ofChar?_code, OperandKind.fitsRegister,
      Except.ok.injEq, Option.any_eq_true] at fits
    obtain ⟨modifier, inside, extended⟩ := fits
    rw [unextended modifier inside] at extended
    contradiction
  · rw [eq_of_beq same] at sort
    contradiction

/-- What the general instruction encodes with a zero register, the alias encodes to the same word, if
it takes the operands. -/
theorem encode_zero_of_general (listed : aliased ∈ zeroAliases) (place : front.length = aliased.place)
    (leads : (front ++ back).head? = some (.register first))
    (isZero : zero.IsZero first.register.wide) (takesAll : TakesAll aliased.name (front ++ back))
    (encoded : Codec.a64.encode aliased.general (front ++ .register zero :: back) here evaluate =
      .ok word) :
    Codec.a64.encode aliased.name (front ++ back) here evaluate = .ok word := by
  obtain ⟨general, member, fits, made⟩ := exists_fitting_of_encode encoded
  rcases exists_special aliased listed general member with
    ⟨special, _, kind, _, letter, _, zeroForm⟩ | ⟨negates, excluded⟩
  · have fits := (zeroForm.fitsAll_iff place isZero).mp fits
    exact (zeroForm.specialUnrivalled.encode_iff fits).mpr
      (zeroForm.formWord_special fits place leads isZero made)
  · obtain ⟨given, last, unextended⟩ := takesAll negates
    have inside := mem_forms_of_mem_formsOf member
    obtain ⟨before, final, split, plain⟩ : ∃ before final,
        front ++ .register zero :: back = before ++ [.register final] ∧
          ∀ modifier ∈ final.modifier, modifier.extendCode? = none := by
      rcases List.eq_nil_or_concat back with rfl | ⟨middle, final, rfl⟩
      · exact ⟨front, zero, rfl, by simp [isZero.plain]⟩
      · rw [List.concat_eq_append, ← List.append_assoc, List.getLast?_concat] at last
        obtain rfl := Option.some.inj last
        exact ⟨front ++ .register zero :: middle, given, by simp, unextended⟩
    rw [(sound _ inside).codes (checked inside).roles, split,
      show (general.operands.map fun operand => operand.1.code) =
        (general.operands.map Prod.fst).map OperandKind.code by simp] at fits
    obtain ⟨kinds, kind, operands, _, _, fitsLast⟩ := OperandKind.fitsAll_concat.mp fits
    refine absurd fitsLast (misfit_of_unextended plain ?_)
    have ends : general.operands.getLast?.map Prod.fst = some kind := by
      rw [← List.getLast?_map, operands, List.getLast?_concat]
    obtain ⟨operand, final, rfl⟩ := Option.map_eq_some_iff.mp ends
    rw [final, Option.any_some] at excluded
    exact excluded

end ZeroForm

end InstructionSet

end A64Machine
