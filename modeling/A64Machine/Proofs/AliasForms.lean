import A64Machine.Proofs.DraftFrame
import A64Machine.Proofs.ExecutedFields

/-!
# Forms that specialise others

A form specialises another one when its template fixes some of the fields of the other and keeps
the rest where they are. Then every word of it is a word of the other form, and the other form makes
the word too, once its operands set the kept fields to the same values and the fixed fields to the
values that the template has in their places. The operands reach the other form if no other entry of
its mnemonic fits them, which can be told from the kinds.
-/

namespace A64Machine

/-! ### Kinds that are rivals -/

/-- What an operand looks like. -/
inductive OperandSort where
  | register
  | immediate
  | address
  deriving DecidableEq, Repr

namespace OperandKind

/-- What an operand of the kind looks like. -/
def sort (kind : OperandKind) : OperandSort :=
  if kind.isImmediate then .immediate else if kind.isAddress then .address else .register

end OperandKind

namespace Operand

/-- What the operand looks like. -/
def sort : Operand → OperandSort
  | .register _ => .register
  | .immediate _ => .immediate
  | .address _ => .address

end Operand

namespace OperandKind

variable {one other kind : OperandKind} {given : Operand}

/-- An operand looks like the kind that it fits. -/
theorem sort_of_fits (fit : fits kind.code given = .ok true) : given.sort = kind.sort := by
  cases given with
  | register given =>
    simp only [fits, ofChar?_code, Except.ok.injEq] at fit
    cases kind <;> first | rfl | simp [fitsRegister] at fit
  | immediate given =>
    simp only [fits, ofChar?_code, Except.ok.injEq, Bool.and_eq_true] at fit
    rw [sort, if_pos fit.1]
    rfl
  | address given =>
    simp only [fits, ofChar?_code, Except.ok.injEq, Bool.and_eq_true] at fit
    cases kind <;> first | rfl | simp [fitsAddress] at fit

/-- Operands look like the kinds that they fit. -/
theorem sorts_of_fitsAll {kinds : List OperandKind} {list : List Operand}
    (fit : fitsAll (kinds.map code) list = .ok true) : list.map Operand.sort = kinds.map sort := by
  induction kinds generalizing list with
  | nil =>
    obtain ⟨count, _⟩ := fitsAll_eq_true.mp fit
    rw [List.length_eq_zero_iff.mp count.symm]
    rfl
  | cons kind kinds ih =>
    cases list with
    | nil => exact absurd (fitsAll_eq_true.mp fit).1 (by simp)
    | cons given rest =>
      obtain ⟨here, later⟩ := fitsAll_cons.mp fit
      rw [List.map_cons, List.map_cons, sort_of_fits here, ih later]

/-- Whether no operand fits both kinds: their operands look different, or just one of the kinds is
a register with an extension. -/
def rivals (one other : OperandKind) : Bool :=
  one.sort != other.sort || (one == .extended) != (other == .extended)

/-- A register with an extension fits no other kind. -/
theorem fitsRegister_of_extended {given : RegisterOperand}
    (extended : fitsRegister .extended given = true) (different : kind ≠ .extended) :
    fitsRegister kind given = false := by
  simp only [fitsRegister] at extended
  cases modified : given.modifier with
  | none => simp [modified] at extended
  | some modifier =>
    rw [modified] at extended
    cases kind <;> simp only [fitsRegister, isPlain, modified, Option.isNone_some, Option.all_some]
      <;> first | contradiction | (cases modifier <;> first | contradiction | rfl)

/-- An operand that fits a kind does not fit a rival. -/
theorem fits_of_rivals (apart : rivals one other = true)
    (fit : fits one.code given = .ok true) : fits other.code given = .ok false := by
  obtain ⟨fit', decided⟩ := exists_fits other given
  cases fit' with
  | false => exact decided
  | true =>
    have same : one.sort = other.sort := (sort_of_fits fit).symm.trans (sort_of_fits decided)
    have apart : ¬(one = .extended ↔ other = .extended) := by
      rw [rivals, same, bne_self_eq_false, Bool.false_or, bne_iff_ne] at apart
      exact fun alike => apart (Bool.eq_iff_iff.mpr (by rwa [beq_iff_eq, beq_iff_eq]))
    cases given with
    | register given =>
      simp only [fits, ofChar?_code, Except.ok.injEq] at fit decided
      by_cases first : one = .extended
      · have second : other ≠ .extended := fun second => apart (iff_of_true first second)
        rw [fitsRegister_of_extended (first ▸ fit) second] at decided
        contradiction
      · have second : other = .extended :=
          Decidable.by_contra fun second => apart (iff_of_false first second)
        rw [fitsRegister_of_extended (second ▸ decided) first] at fit
        contradiction
    | immediate given =>
      simp only [fits, ofChar?_code, Except.ok.injEq, Bool.and_eq_true] at fit decided
      exact absurd (iff_of_false (by rintro rfl; exact absurd fit.1 (by decide))
        (by rintro rfl; exact absurd decided.1 (by decide))) apart
    | address given =>
      simp only [fits, ofChar?_code, Except.ok.injEq, Bool.and_eq_true] at fit decided
      exact absurd (iff_of_false (by rintro rfl; exact absurd fit.2 (by simp [fitsAddress]))
        (by rintro rfl; exact absurd decided.2 (by simp [fitsAddress]))) apart

/-- Whether no operands fit both lists of kinds. -/
def rivalsAll : (kinds others : List OperandKind) → Bool
  | [], [] => false
  | kind :: kinds, other :: others => rivals kind other || rivalsAll kinds others
  | _, _ => true

/-- Operands that fit kinds do not fit rivals. -/
theorem fitsAll_of_rivalsAll {kinds others : List OperandKind} {list : List Operand}
    (apart : rivalsAll kinds others = true) (fit : fitsAll (kinds.map code) list = .ok true) :
    fitsAll (others.map code) list = .ok false := by
  obtain ⟨fit', decided⟩ := exists_fitsAll others list
  cases fit' with
  | false => exact decided
  | true =>
    have count := (fitsAll_eq_true.mp fit).1.trans (fitsAll_eq_true.mp decided).1.symm
    induction kinds generalizing others list with
    | nil =>
      cases others with
      | nil => contradiction
      | cons other others => contradiction
    | cons kind kinds ih =>
      cases others with
      | nil => contradiction
      | cons other others =>
        cases list with
        | nil => exact absurd (fitsAll_eq_true.mp fit).1 (by simp)
        | cons given list =>
          obtain ⟨here, later⟩ := fitsAll_cons.mp fit
          obtain ⟨here', later'⟩ := fitsAll_cons.mp decided
          rw [rivalsAll, Bool.or_eq_true] at apart
          rcases apart with apart | apart
          · have misfit := fits_of_rivals apart here
            rw [here'] at misfit
            exact absurd (Except.ok.inj misfit) (by simp)
          · have misfit := ih apart later later' (by simpa using count)
            rw [later'] at misfit
            exact absurd (Except.ok.inj misfit) (by simp)

end OperandKind

namespace InstructionSet

open BitPattern (knownBit knownValue)

/-! ### Forms without rivals -/

/-- The forms of a mnemonic. -/
def formsOf (mnemonic : String) : List InstructionForm :=
  (entriesOf mnemonic).filterMap OpcodeEntry.form?

/-- The forms of a mnemonic are among its entries. -/
theorem mem_formsOf {mnemonic : String} {form : InstructionForm} :
    form ∈ formsOf mnemonic ↔ .implemented form ∈ entriesOf mnemonic := by
  rw [formsOf, List.mem_filterMap]
  constructor
  · rintro ⟨entry, inside, same⟩
    cases entry with
    | declared head => contradiction
    | implemented other => exact Option.some.inj same ▸ inside
  · exact fun inside => ⟨_, inside, rfl⟩

/-- The forms of a mnemonic are forms of the instruction set. -/
theorem mem_forms_of_mem_formsOf {mnemonic : String} {form : InstructionForm}
    (member : form ∈ formsOf mnemonic) : form ∈ forms := by
  rw [mem_formsOf, ← entries_a64, table_a64] at member
  exact decodeOrder_table ▸ (builtFrom_table.of_mem_entries member).1

/-- All other entries of the mnemonic have kinds that are rivals of those of the form. -/
structure Unrivalled (form : InstructionForm) (mnemonic : String) : Prop where
  listed : .implemented form ∈ entriesOf mnemonic
  rivals : ∀ entry ∈ entriesOf mnemonic, entry = .implemented form ∨
    (entry.head.shape =
        (entry.head.shape.filterMap OperandKind.ofChar?).map OperandKind.code ∧
      OperandKind.rivalsAll (form.operands.map Prod.fst)
        (entry.head.shape.filterMap OperandKind.ofChar?) = true)

instance (form : InstructionForm) (mnemonic : String) : Decidable (Unrivalled form mnemonic) :=
  decidable_of_iff (_ ∧ _)
    ⟨fun ⟨listed, rivals⟩ => ⟨listed, rivals⟩, fun ⟨listed, rivals⟩ => ⟨listed, rivals⟩⟩

section Encode

variable {form : InstructionForm} {mnemonic : String} {here : Int} {evaluate : Evaluator}
  {list : List Operand} {word : Nat}

/-- What is encoded is the word of a form of the mnemonic that the operands fit. -/
theorem exists_fitting_of_encode
    (encoded : Codec.a64.encode mnemonic list here evaluate = .ok word) :
    ∃ form ∈ formsOf mnemonic, OperandKind.fitsAll form.shape list = .ok true ∧
      Encode.formWord form here evaluate list = .ok word := by
  obtain ⟨form, earlier, later, split, _, fits, made⟩ := Codec.encode_eq_ok.mp encoded
  refine ⟨form, mem_formsOf.mpr ?_, fits, made⟩
  rw [← entries_a64, split]
  simp

/-- The operands of a form without rivals do not fit the other entries. -/
theorem Unrivalled.misfit (unrivalled : Unrivalled form mnemonic)
    (fits : OperandKind.fitsAll form.shape list = .ok true) {entry : OpcodeEntry}
    (member : entry ∈ entriesOf mnemonic) (other : entry ≠ .implemented form) :
    OperandKind.fitsAll entry.head.shape list = .ok false := by
  obtain ⟨same, apart⟩ := (unrivalled.rivals entry member).resolve_left other
  have inside := mem_forms_of_mem_formsOf (mem_formsOf.mpr unrivalled.listed)
  have shape : form.shape = (form.operands.map Prod.fst).map OperandKind.code := by
    rw [(sound form inside).codes (checked inside).roles, List.map_map]
    rfl
  rw [same]
  exact OperandKind.fitsAll_of_rivalsAll apart (shape ▸ fits)

/-- Operands that fit a form without rivals are encoded by it. -/
theorem Unrivalled.encode_iff (unrivalled : Unrivalled form mnemonic)
    (fits : OperandKind.fitsAll form.shape list = .ok true) :
    Codec.a64.encode mnemonic list here evaluate = .ok word ↔
      Encode.formWord form here evaluate list = .ok word := by
  constructor
  · intro encoded
    obtain ⟨other, member, fits', made⟩ := exists_fitting_of_encode encoded
    by_cases same : OpcodeEntry.implemented other = .implemented form
    · exact OpcodeEntry.implemented.inj same ▸ made
    · have misfit := unrivalled.misfit fits (mem_formsOf.mp member) same
      rw [OpcodeEntry.head, fits'] at misfit
      exact absurd (Except.ok.inj misfit) (by simp)
  · intro made
    obtain ⟨earlier, later, split, first⟩ := List.eq_append_cons_of_mem unrivalled.listed
    refine Codec.encode_eq_ok.mpr ⟨form, earlier, later, ?_, fun entry inside => .inl ?_, fits, made⟩
    · rw [entries_a64, split]
    · refine unrivalled.misfit fits (split ▸ List.mem_append_left _ inside) ?_
      rintro rfl
      exact first inside

end Encode

/-! ### Forms of fewer words -/

/-- A form specialises another one, at the given settings of both width flags: it fixes what the
other one fixes, and of the fields of the other one it has some itself and fixes the rest to
codes. -/
structure Specialises (special general : InstructionForm) (wide wide' : Bool) (shared : List Char)
    (codes : List (Char × Nat)) : Prop where
  known : ∀ position < 32, knownBit general.pattern.template wide' position = none ∨
    knownBit special.pattern.template wide position =
      knownBit general.pattern.template wide' position
  fields : ∀ field ∈ general.pattern.fields, field.1 = 'z' ∨
    (field.1 ∈ shared ∧ field ∈ special.pattern.fields) ∨
    ∃ code ∈ codes, code.1 = field.1 ∧
      knownValue special.pattern.template wide field.2 = some code.2

/-- Whether a field is one of others is decided field by field. -/
instance decidableMemFields (field : Char × List Nat) (fields : List (Char × List Nat)) :
    Decidable (field ∈ fields) :=
  List.instDecidableMemOfLawfulBEq field fields

instance (special general : InstructionForm) (wide wide' : Bool) (shared : List Char)
    (codes : List (Char × Nat)) :
    Decidable (Specialises special general wide wide' shared codes) :=
  decidable_of_iff (_ ∧ _)
    ⟨fun ⟨known, fields⟩ => ⟨known, fields⟩, fun ⟨known, fields⟩ => ⟨known, fields⟩⟩

section Specialises

variable {special general : InstructionForm} {wide wide' : Bool} {shared : List Char}
  {codes : List (Char × Nat)} {here : Int} {evaluate : Evaluator} {list : List Operand}
  {draft draft' : Draft} {word : Nat}

/-- A field of a drafted word, the width flag apart, holds what was gathered for it. -/
theorem lookup_of_drafted (member : special ∈ forms) (drafted : Encode.Drafted special draft word)
    {letter : Char} {positions : List Nat} (field : (letter, positions) ∈ special.pattern.fields)
    (notFlag : letter ≠ 'z') :
    draft.values.lookup letter = some (BitPattern.gather word positions : Int) := by
  have compiled := (checked member).wellFormed
  obtain ⟨present, symbolic, located⟩ := BitPattern.mem_fieldsOf.mp (compiled ▸ field)
  refine drafted.held letter _ notFlag ?_
  rw [InstructionForm.lookup_decode compiled, if_pos ⟨present, symbolic⟩, located]

/-- A position with a character is one of a word. -/
theorem position_lt_of_charAt? (member : general ∈ forms) {position : Nat} {c : Char}
    (found : BitPattern.charAt? general.pattern.template position = some c) : position < 32 := by
  refine Nat.lt_of_not_le fun beyond => ?_
  rw [← (checked member).bits] at beyond
  rw [BitPattern.charAt?_of_le beyond] at found
  contradiction

namespace Specialises

/-- A word of the special form has the bits that the general form knows. -/
theorem testBit (specialises : Specialises special general wide wide' shared codes)
    (member : special ∈ forms) (member' : general ∈ forms)
    (drafted : Encode.Drafted special draft word) (flag : (draft.wide != some false) = wide)
    {position : Nat} {c : Char}
    (found : BitPattern.charAt? general.pattern.template position = some c) {bit : Bool}
    (known : knownBit general.pattern.template wide' position = some bit) :
    word.testBit position = bit := by
  have same := (specialises.known position (position_lt_of_charAt? member' found)).resolve_left
    (by simp [known])
  exact BitPattern.testBit_of_knownBit (checked member).wellFormed drafted.accepted
    (flag ▸ drafted.flags) (same.trans known)

/-- The general form accepts the words of the special form. -/
theorem accepts (specialises : Specialises special general wide wide' shared codes)
    (member : special ∈ forms) (member' : general ∈ forms)
    (drafted : Encode.Drafted special draft word) (flag : (draft.wide != some false) = wide) :
    general.pattern.accepts word = true := by
  refine (checked member').wellFormed.accepts_iff.mpr fun position c found literal => ?_
  refine specialises.testBit member member' drafted flag found ?_
  unfold knownBit
  rcases Bool.or_eq_true_iff.mp literal with zero | one
  · obtain rfl := eq_of_beq zero
    simp only [found]
    rfl
  · obtain rfl := eq_of_beq one
    simp only [found]
    rfl

/-- A field of the general form that an operand has set holds in a word of the special form what was
set. -/
theorem lookup_eq_gather (specialises : Specialises special general wide wide' shared codes)
    (member : special ∈ forms) (drafted : Encode.Drafted special draft word)
    (flag : (draft.wide != some false) = wide)
    (same : ∀ letter ∈ shared, draft'.values.lookup letter = draft.values.lookup letter)
    (set : ∀ code ∈ codes, draft'.values.lookup code.1 = some (code.2 : Int))
    {letter : Char} {positions : List Nat} (field : (letter, positions) ∈ general.pattern.fields)
    (notFlag : letter ≠ 'z') :
    draft'.values.lookup letter = some (BitPattern.gather word positions : Int) := by
  have compiled := (checked member).wellFormed
  rcases (specialises.fields _ field).resolve_left notFlag with
    ⟨among, inside⟩ | ⟨code, among, named, known⟩
  · rw [same letter among]
    exact lookup_of_drafted member drafted inside notFlag
  · obtain rfl : code.1 = letter := named
    rw [BitPattern.gather_of_knownValue compiled drafted.accepted (flag ▸ drafted.flags) known]
    exact set code among

/-- The general form makes the word of the special form, if its operands set the shared fields to the
same values and the other fields to the codes. -/
theorem formWord_eq_ok (specialises : Specialises special general wide wide' shared codes)
    (member : special ∈ forms) (member' : general ∈ forms)
    (drafted : Encode.Drafted special draft word) (flag : (draft.wide != some false) = wide)
    (flag' : (draft'.wide != some false) = wide')
    (fits : OperandKind.fitsAll general.shape list = .ok true)
    (gathered : Encode.allOperands general here evaluate .empty (general.shape.zip general.roles)
      list = .ok draft')
    (same : ∀ letter ∈ shared, draft'.values.lookup letter = draft.values.lookup letter)
    (set : ∀ code ∈ codes, draft'.values.lookup code.1 = some (code.2 : Int)) :
    Encode.formWord general here evaluate list = .ok word := by
  have check := checked member'
  obtain ⟨_, unset⟩ := Encode.settled_of_allOperands (sound general member') check.roles fits gathered
  refine Encode.formWord_eq_ok.mpr ⟨draft', gathered, BitPattern.encode_gather check.wellFormed
    (check.bits ▸ drafted.bounded) (specialises.accepts member member' drafted flag) ?_⟩
  intro letter positions placed
  rw [check.wellFormed.positions?_eq] at placed
  split at placed
  · rename_i present
    obtain rfl := Option.some.inj placed
    rw [Encode.lookup_withFlag check.wellFormed unset]
    by_cases isFlag : letter = 'z'
    · subst isFlag
      have flags : ∀ bit ∈ general.flagBits, word.testBit bit = wide' := fun bit inside => by
        have found := BitPattern.mem_positionsOf.mp inside
        refine specialises.testBit member member' drafted flag found ?_
        unfold knownBit
        simp only [found]
      rw [if_pos ⟨rfl, present.1⟩]
      cases wide' with
      | false =>
        rw [if_pos (by simpa using flag')]
        exact congrArg (some ∘ Int.ofNat) (BitPattern.gather_eq_zero_iff.mpr flags).symm
      | true =>
        rw [if_neg (by simpa using flag')]
        exact congrArg (some ∘ Int.ofNat) (BitPattern.gather_eq_max_iff.mpr flags).symm
    · rw [if_neg fun both => isFlag both.1]
      exact specialises.lookup_eq_gather member drafted flag same set
        (check.wellFormed ▸ BitPattern.mem_fieldsOf.mpr ⟨present.1, present.2, rfl⟩) isFlag
  · contradiction

end Specialises

end Specialises

end InstructionSet

end A64Machine
