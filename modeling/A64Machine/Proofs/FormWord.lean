import A64Machine.Proofs.Admission

/-!
# The word of a form

The word that a form makes of its operands is one of its pattern: every field holds what the
operands have gathered, and the bits of the width flag say whether the first register was narrow.
An instruction is encoded by a form of its mnemonic when the entries before it do not fit the
operands or complain about them.
-/

namespace A64Machine

namespace Encode

variable {form : InstructionForm} {here : Int} {evaluate : Evaluator} {list : List Operand}

/-- The draft in which the width flag is set: by an operand, or else by the first register. -/
def withFlag (form : InstructionForm) (draft : Draft) : Draft :=
  match form.pattern.width? 'z', draft.values.lookup 'z' with
  | some width, none => draft.set 'z' (if draft.wide = some false then 0 else Bits.mask width)
  | _, _ => draft

/-- The word of a form is what its pattern makes of the gathered fields. -/
theorem formWord_eq_ok {word : Nat} :
    formWord form here evaluate list = .ok word ↔
      ∃ draft, allOperands form here evaluate .empty (form.shape.zip form.roles) list = .ok draft ∧
        form.pattern.encode (fun letter => (withFlag form draft).values.lookup letter) =
          .ok word := by
  rw [formWord, bind_eq_ok]
  refine exists_congr fun draft => and_congr_right fun _ => ?_
  extract_lets flagged
  change _ ↔ form.pattern.encode (fun letter => flagged.values.lookup letter) = .ok word
  split
  · rename_i made
    rw [made]
    exact ⟨fun same => congrArg Except.ok (Except.ok.inj same),
      fun same => congrArg Except.ok (Except.ok.inj same)⟩
  · rename_i failed
    rw [failed]
    exact ⟨fun same => by contradiction, fun same => by contradiction⟩

/-- What the draft of a form says of the word that it makes. -/
structure Drafted (form : InstructionForm) (draft : Draft) (word : Nat) : Prop where
  /-- Every operand has set its fields. -/
  settled : ∀ operand ∈ form.operands, Settled operand.1 operand.2 draft
  /-- The word has 32 bits. -/
  bounded : word < 2 ^ 32
  /-- The word is one of the pattern. -/
  accepted : form.pattern.accepts word = true
  /-- Every field but the width flag holds what was gathered for it. -/
  held : ∀ letter value, letter ≠ 'z' →
    (form.pattern.decode word).lookup letter = some value →
      draft.values.lookup letter = some (value : Int)
  /-- The bits of the width flag are clear when the first register was narrow. -/
  flags : ∀ bit ∈ form.flagBits, word.testBit bit = (draft.wide != some false)

/-- The width flag of a form is set when no operand has set it, and nothing else is. -/
theorem lookup_withFlag (compiled : form.pattern.WellFormed) {draft : Draft}
    (unset : draft.values.lookup 'z' = none) (letter : Char) :
    (withFlag form draft).values.lookup letter =
      if letter = 'z' ∧ 'z' ∈ form.pattern.template then
        some (if draft.wide = some false then 0 else (Bits.mask form.flagBits.length : Int))
      else draft.values.lookup letter := by
  have width : form.pattern.width? 'z' =
      if 'z' ∈ form.pattern.template then some form.flagBits.length else none := by
    rw [BitPattern.width?, compiled.positions?_eq]
    by_cases flag : 'z' ∈ form.pattern.template
    · rw [if_pos flag, if_pos ⟨flag, by decide⟩]
      rfl
    · rw [if_neg flag, if_neg fun both => flag both.1]
      rfl
  rw [withFlag, width, unset]
  by_cases flag : 'z' ∈ form.pattern.template
  · rw [if_pos flag]
    simp only [Draft.lookup_set, flag, and_true]
  · simp [flag]

/-- The fitting operands of a sound form have all established their fields in the end, and none has
set the width flag. -/
theorem settled_of_allOperands (sound : form.Sound)
    (roles : form.roles.length = form.shape.length) {draft : Draft}
    (fits : OperandKind.fitsAll form.shape list = .ok true)
    (gathered :
      allOperands form here evaluate .empty (form.shape.zip form.roles) list = .ok draft) :
    (∀ operand ∈ form.operands, Settled operand.1 operand.2 draft) ∧
      draft.values.lookup 'z' = none := by
  have codes := sound.codes roles
  rw [OperandKind.fitsAll] at fits
  split at fits
  · rename_i same
    rw [codes] at fits
    rw [codes, List.length_map] at same
    obtain ⟨frame, _, _, settled⟩ :=
      allOperands_spec fits same (sound.shape ▸ gathered) sound.apart (.inr sound.sizeKnown)
    exact ⟨settled,
      frame 'z' fun operand member inside => (sound.letters operand member 'z' inside).2 rfl⟩
  · exact absurd (Except.ok.inj fits) (by simp)

/-- The word of a form comes from the draft that its operands make. -/
theorem drafted_of_formWord (sound : form.Sound) (compiled : form.pattern.WellFormed)
    (bits : form.pattern.bits = 32) (roles : form.roles.length = form.shape.length) {word : Nat}
    (fits : OperandKind.fitsAll form.shape list = .ok true)
    (encoded : formWord form here evaluate list = .ok word) :
    ∃ draft, allOperands form here evaluate .empty (form.shape.zip form.roles) list = .ok draft ∧
      Drafted form draft word := by
  obtain ⟨draft, gathered, made⟩ := formWord_eq_ok.mp encoded
  obtain ⟨settled, unset⟩ := settled_of_allOperands sound roles fits gathered
  obtain ⟨bounded, accepted, holds⟩ := BitPattern.gather_of_encode compiled made
  simp only [lookup_withFlag compiled unset] at holds
  refine ⟨draft, gathered, settled, bits ▸ bounded, accepted,
    fun letter value notFlag known => ?_, fun bit inside => ?_⟩
  · rw [BitPattern.lookup_decode] at known
    obtain ⟨positions, here, rfl⟩ := Option.map_eq_some_iff.mp known
    have set := holds letter positions here
    rwa [if_neg fun both => notFlag both.1] at set
  · have flag : 'z' ∈ form.pattern.template :=
      List.mem_reverse.mp (List.mem_of_getElem? (BitPattern.mem_positionsOf.mp inside))
    have set := holds 'z' form.flagBits (by
      rw [compiled.positions?_eq, if_pos ⟨flag, by decide⟩]
      rfl)
    rw [if_pos ⟨rfl, flag⟩] at set
    have set := Option.some.inj set
    cases narrow : draft.wide != some false with
    | false =>
      have narrow : draft.wide = some false := by simpa using narrow
      rw [if_pos narrow] at set
      exact BitPattern.gather_eq_zero_iff.mp (Int.ofNat.inj set.symm) bit inside
    | true =>
      have wide : draft.wide ≠ some false := by simpa using narrow
      rw [if_neg wide] at set
      exact BitPattern.gather_eq_max_iff.mp (Int.ofNat.inj set.symm) bit inside

/-- A form makes a word of operands that have gathered a fitting value for every field but the width
flag. -/
theorem exists_formWord (sound : form.Sound) (compiled : form.pattern.WellFormed)
    (roles : form.roles.length = form.shape.length) {draft : Draft}
    (fits : OperandKind.fitsAll form.shape list = .ok true)
    (gathered : allOperands form here evaluate .empty (form.shape.zip form.roles) list = .ok draft)
    (held : ∀ field ∈ form.pattern.fields, field.1 ≠ 'z' → ∃ value : Nat,
      draft.values.lookup field.1 = some (value : Int) ∧ value < 2 ^ field.2.length) :
    ∃ word, formWord form here evaluate list = .ok word := by
  obtain ⟨_, unset⟩ := settled_of_allOperands sound roles fits gathered
  suffices made : ∃ word,
      form.pattern.encode (fun letter => (withFlag form draft).values.lookup letter) = .ok word by
    obtain ⟨word, made⟩ := made
    exact ⟨word, formWord_eq_ok.mpr ⟨draft, gathered, made⟩⟩
  rw [BitPattern.encode, BitPattern.encodeFields_eq_ok.mpr ⟨?_, rfl⟩]
  · exact ⟨_, rfl⟩
  · rintro ⟨letter, positions⟩ member
    by_cases flag : letter = 'z'
    · subst flag
      obtain ⟨present, _, rfl⟩ := BitPattern.mem_fieldsOf.mp (compiled ▸ member)
      have most : Bits.mask form.flagBits.length < 2 ^ form.flagBits.length :=
        Bits.mask_add_one _ ▸ Nat.lt_succ_self _
      dsimp only
      rw [lookup_withFlag compiled unset, if_pos ⟨rfl, present⟩]
      split
      · exact ⟨0, rfl, Nat.two_pow_pos _⟩
      · exact ⟨_, rfl, most⟩
    · obtain ⟨value, known, small⟩ := held _ member flag
      refine ⟨value, ?_, small⟩
      rw [lookup_withFlag compiled unset, if_neg fun both => flag both.1]
      exact known

/-- The word of a form comes from a draft. -/
theorem formWord_spec (sound : form.Sound) (compiled : form.pattern.WellFormed)
    (bits : form.pattern.bits = 32) (roles : form.roles.length = form.shape.length) {word : Nat}
    (fits : OperandKind.fitsAll form.shape list = .ok true)
    (encoded : formWord form here evaluate list = .ok word) :
    ∃ draft, Drafted form draft word :=
  (drafted_of_formWord sound compiled bits roles fits encoded).imp fun _ made => made.2

/-- An entry leaves the operands to the later ones: it does not fit them, or its form complains
about them. -/
def Passes (here : Int) (evaluate : Evaluator) (list : List Operand) (entry : OpcodeEntry) : Prop :=
  OperandKind.fitsAll entry.head.shape list = .ok false ∨
    OperandKind.fitsAll entry.head.shape list = .ok true ∧
      ∃ form error, entry = .implemented form ∧
        formWord form here evaluate list = .error (.refused (.assembly error))

/-- A form is the first of some entries that takes the operands, and it makes the word of them. -/
def Takes (here : Int) (evaluate : Evaluator) (list : List Operand) (entries : List OpcodeEntry)
    (form : InstructionForm) (word : Nat) : Prop :=
  ∃ earlier later, entries = earlier ++ .implemented form :: later ∧
    (∀ entry ∈ earlier, Passes here evaluate list entry) ∧
    OperandKind.fitsAll form.shape list = .ok true ∧ formWord form here evaluate list = .ok word

/-- The word of some entries is that of the first form that takes the operands. -/
theorem firstEntry_eq_ok {mnemonic : String} {complaint : Option AssemblyError}
    {entries : List OpcodeEntry} {word : Nat} :
    firstEntry mnemonic here evaluate list complaint entries = .ok word ↔
      ∃ form, Takes here evaluate list entries form word := by
  constructor
  · intro found
    induction entries generalizing complaint with
    | nil => contradiction
    | cons entry rest ih =>
      have further {complaint : Option AssemblyError}
          (found : firstEntry mnemonic here evaluate list complaint rest = .ok word)
          (passed : Passes here evaluate list entry) :
          ∃ form, Takes here evaluate list (entry :: rest) form word := by
        obtain ⟨form, earlier, later, rfl, before, taken⟩ := ih found
        exact ⟨form, entry :: earlier, later, rfl, List.forall_mem_cons.mpr ⟨passed, before⟩, taken⟩
      cases entry with
      | declared head =>
        rw [firstEntry] at found
        obtain ⟨fits, decided, found⟩ := bind_eq_ok.mp found
        cases fits with
        | false => exact further found (.inl (mapError_eq_ok.mp decided))
        | true => contradiction
      | implemented candidate =>
        rw [firstEntry] at found
        obtain ⟨fits, decided, found⟩ := bind_eq_ok.mp found
        rw [mapError_eq_ok] at decided
        cases fits with
        | false => exact further found (.inl decided)
        | true =>
          rw [if_pos rfl] at found
          split at found
          · rename_i error complained
            exact further found (.inr ⟨decided, candidate, error, rfl, complained⟩)
          · exact ⟨candidate, [], rest, rfl, by simp, decided, found⟩
  · rintro ⟨form, earlier, later, rfl, passed, fits, made⟩
    induction earlier generalizing complaint with
    | nil =>
      rw [List.nil_append, firstEntry, OpcodeEntry.head, ok_bind (mapError_eq_ok.mpr fits)]
      simp only [if_true, made]
    | cons entry earlier ih =>
      obtain ⟨passes, before⟩ := List.forall_mem_cons.mp passed
      rw [List.cons_append]
      rcases passes with apart | ⟨fits, form, error, rfl, complained⟩
      · cases entry <;>
        · rw [firstEntry, ok_bind (mapError_eq_ok.mpr apart)]
          exact ih before
      · rw [firstEntry, ok_bind (mapError_eq_ok.mpr fits)]
        simp only [if_true, complained]
        exact ih before

end Encode

/-- An instruction is encoded by the first form of its mnemonic that takes the operands. -/
theorem Codec.encode_eq_ok {codec : Codec} {mnemonic : String} {operands : List Operand}
    {address : Int} {evaluate : Evaluator} {word : Nat} :
    codec.encode mnemonic operands address evaluate = .ok word ↔
      ∃ form, Encode.Takes address evaluate operands (codec.table.entries mnemonic) form word := by
  rw [Codec.encode]
  split
  · rename_i empty
    refine iff_of_false (by simp) ?_
    rintro ⟨form, earlier, later, entries, _⟩
    rw [empty] at entries
    simp at entries
  · exact Encode.firstEntry_eq_ok

end A64Machine
