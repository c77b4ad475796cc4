import A64Machine.Proofs.AliasExpansion
import A64Machine.Proofs.FieldBounds
import A64Machine.Proofs.StateRange

/-!
# Steps of assembled instructions

What an instruction computes is told of the text that is written for it: the operands are encoded,
the word is decoded, and the instruction is executed. All three go through the form that takes the
operands. Its operands set fields of the instruction, its template fixes the other ones, and what the
execution ensures from these fields is what the step does.
-/

namespace A64Machine

/-- A plain register, as it is read from a text. -/
structure RegisterOperand.Plain (operand : RegisterOperand) : Prop where
  regular : operand.Regular
  plain : operand.modifier = none

theorem RegisterOperand.Plain.slot_lt {operand : RegisterOperand} (given : operand.Plain) :
    operand.register.slot < 32 :=
  given.regular.slot_lt

/-- A register that is written by its name alone is plain. -/
theorem RegisterOperand.plain_of_ofName? {name : String} {register : Register}
    (named : Register.ofName? name = some register) (span : Span) :
    RegisterOperand.Plain ⟨name, register, none, none, span⟩ :=
  ⟨⟨named, fun _ => rfl⟩, rfl⟩

/-- A step leaves a value in a register, with zeros above its width, leaves a status, and keeps the
other registers and the memory. The zero register takes no value. -/
structure CoreState.Receives (before after : CoreState) (register : Register) (value : Int)
    (status : Status) : Prop where
  result : register.slot ≠ Register.zeroSlot →
    after.registers.value register.slot =
      Bits.wrap (InstructionForm.dataSize register.wide) value
  zero : after.registers.value Register.zeroSlot = 0
  others : ∀ slot < Register.zeroSlot, slot ≠ register.slot →
    after.registers.value slot = before.registers.value slot
  status : after.status = status
  memory : after.memory = before.memory

namespace CoreState

variable {before after : CoreState} {register : Register} {value : Int} {status : Status}

/-- A register of a state has as many bits as its width. -/
theorem contents_lt (state : CoreState) (register : Register) :
    state.contents register < 2 ^ InstructionForm.dataSize register.wide :=
  Nat.mod_lt _ (Nat.two_pow_pos _)

/-- The register that was written holds the value. -/
theorem Receives.contents (receives : before.Receives after register value status)
    (general : register.slot ≠ Register.zeroSlot) :
    after.contents register = Bits.wrap (InstructionForm.dataSize register.wide) value := by
  rw [CoreState.contents, receives.result general, Nat.mod_eq_of_lt (Bits.wrap_lt _ _)]

/-- A register that was not written keeps its value. -/
theorem Receives.contents_of_ne (receives : before.Receives after register value status)
    {other : Register} (general : other.slot < Register.zeroSlot)
    (apart : other.slot ≠ register.slot) : after.contents other = before.contents other := by
  rw [CoreState.contents, CoreState.contents, receives.others _ general apart]

/-- A register that was not written keeps its value, also if it is the zero register and held zero. -/
theorem Receives.contents_of_apart (receives : before.Receives after register value status)
    (zero : before.registers.value Register.zeroSlot = 0) {other : Register}
    (named : other.slot < 32) (apart : other.slot ≠ register.slot) :
    after.contents other = before.contents other := by
  by_cases general : other.slot = Register.zeroSlot
  · rw [CoreState.contents, CoreState.contents, general, zero, receives.zero]
  · have below : other.slot < Register.zeroSlot := by
      have last : Register.zeroSlot = 31 := rfl
      omega
    exact receives.contents_of_ne below apart

/-- Only the value at the width of the register counts. -/
theorem Receives.congr (receives : before.Receives after register value status) {other : Int}
    (same : Bits.wrap (InstructionForm.dataSize register.wide) value =
      Bits.wrap (InstructionForm.dataSize register.wide) other) :
    before.Receives after register other status :=
  { receives with result := fun general => (receives.result general).trans same }

/-- Writing a register behind steps that only read makes it receive the value. -/
theorem receives_of_write {registers : RegisterFile} {slot : Nat} (wide : Bool)
    (same : ∀ slot : Nat, registers.value slot = before.registers.value slot)
    (named : slot < 32) (status : Status) (value : Int) :
    before.Receives
      ⟨registers.afterWrite slot (Bits.wrap (InstructionForm.dataSize wide) value), status,
        before.memory⟩ ⟨slot, wide⟩ value status := by
  have short : Bits.wrap (InstructionForm.dataSize wide) value < 2 ^ 64 :=
    Nat.lt_of_lt_of_le (Bits.wrap_lt _ _)
      (Nat.pow_le_pow_right (by decide) (InstructionSet.dataSize_range _).2)
  refine ⟨fun general => ?_, ?_, fun other small apart => ?_, rfl, rfl⟩
  · show (registers.afterWrite slot _).value slot = _
    rw [RegisterFile.value_afterWrite _ _ named named, if_neg general, if_pos rfl,
      Bits.wrap_of_lt short]
  · exact (RegisterFile.value_afterWrite _ _ named (by decide)).trans (if_pos rfl)
  · show (registers.afterWrite slot _).value other = _
    rw [RegisterFile.value_afterWrite _ _ named (Nat.lt_succ_of_lt small),
      if_neg (Nat.ne_of_lt small), if_neg apart, same]

/-- An execution that ensures an effect without a branch or a fault takes the state to one with that
effect. -/
theorem exists_execute {instruction : Instruction} {effect : CoreState → Prop}
    (ensured : Execution.Ensures (fun _ => False) (Execution.perform instruction)
      (fun branched after => branched = none ∧ effect after) before) :
    ∃ after, before.execute instruction = (.ok none, after) ∧ effect after := by
  have executed := CoreState.execute_iff.mp ensured
  split at executed
  · rename_i branched after done
    obtain ⟨rfl, effected⟩ := executed
    exact ⟨after, done, effected⟩
  · exact executed.elim

/-- The zero register holds zero in a state in range. -/
theorem InRange.contents_zero (inRange : before.InRange) (wide : Bool) :
    before.contents ⟨Register.zeroSlot, wide⟩ = 0 := by
  rw [CoreState.contents, RegisterFile.value_of_lt _ (show Register.zeroSlot < 32 by decide),
    inRange.registers.zero, Nat.zero_mod]

end CoreState

/-- A register is the one with its slot at its width. -/
theorem Register.eta {register : Register} {wide : Bool} (same : register.wide = wide) :
    (⟨register.slot, wide⟩ : Register) = register := by
  rw [← same]

namespace Draft

/-- Sets fields one after the other. -/
def setEach (draft : Draft) (fields : List (Char × Nat)) : Draft :=
  fields.foldl (fun draft field => draft.set field.1 field.2) draft

theorem setEach_append (draft : Draft) (fields later : List (Char × Nat)) :
    draft.setEach (fields ++ later) = (draft.setEach fields).setEach later :=
  List.foldl_append

/-- The width flag plays no part in setting fields. -/
theorem setEach_withWide (draft : Draft) (fields : List (Char × Nat)) (flag after : Option Bool) :
    { ({ draft with wide := flag } : Draft).setEach fields with wide := after } =
      { draft.setEach fields with wide := after } := by
  induction fields generalizing draft with
  | nil => rfl
  | cons field rest ih => exact ih (draft.set field.1 field.2)

/-- Setting fields keeps the width flag. -/
theorem withWide_setEach {draft : Draft} {flag : Option Bool} (known : draft.wide = flag)
    (fields : List (Char × Nat)) :
    { draft.setEach fields with wide := flag } = draft.setEach fields := by
  induction fields generalizing draft with
  | nil => rw [← known]; rfl
  | cons field rest ih => exact @ih (draft.set field.1 field.2) known

/-- A field that is not set keeps its value. -/
theorem lookup_setEach_of_notMem (draft : Draft) {fields : List (Char × Nat)} {letter : Char}
    (apart : letter ∉ fields.map Prod.fst) :
    (draft.setEach fields).values.lookup letter = draft.values.lookup letter := by
  induction fields generalizing draft with
  | nil => rfl
  | cons field rest ih =>
    rw [List.map_cons, List.mem_cons, not_or] at apart
    rw [setEach, List.foldl_cons, ← setEach, ih _ apart.2, lookup_set, if_neg apart.1]

/-- Fields of different names are all set. -/
theorem lookup_setEach (draft : Draft) {fields : List (Char × Nat)}
    (distinct : (fields.map Prod.fst).Nodup) :
    ∀ field ∈ fields, (draft.setEach fields).values.lookup field.1 = some (field.2 : Int) := by
  induction fields generalizing draft with
  | nil => simp
  | cons first rest ih =>
    obtain ⟨apart, distinct⟩ := List.nodup_cons.mp distinct
    refine List.forall_mem_cons.mpr ⟨?_, ih (draft.set first.1 first.2) distinct⟩
    rw [setEach, List.foldl_cons, ← setEach, lookup_setEach_of_notMem _ apart, lookup_set,
      if_pos rfl]

end Draft

namespace InstructionSet

open BitPattern (positionsOf isLiteral knownValue)

/-- An instruction is assembled at an address and decoded there, and it takes one state to another
without a branch. -/
def AssembledStep (here : Int) (evaluate : Evaluator) (mnemonic : String) (operands : List Operand)
    (before after : CoreState) : Prop :=
  ∃ word instruction, Codec.a64.encode mnemonic operands here evaluate = .ok word ∧
    Codec.a64.decode word here = .ok (some instruction) ∧
    before.execute instruction = (.ok none, after)

/-- An assembled instruction takes a state to one other only. -/
theorem AssembledStep.unique {here : Int} {evaluate : Evaluator} {mnemonic : String}
    {operands : List Operand} {before after other : CoreState}
    (step : AssembledStep here evaluate mnemonic operands before after)
    (step' : AssembledStep here evaluate mnemonic operands before other) : after = other := by
  obtain ⟨word, instruction, encoded, decoded, executed⟩ := step
  obtain ⟨word', instruction', encoded', decoded', executed'⟩ := step'
  obtain rfl := Except.ok.inj (encoded.symm.trans encoded')
  obtain rfl := Option.some.inj (Except.ok.inj (decoded.symm.trans decoded'))
  exact congrArg Prod.snd (executed.symm.trans executed')

/-- Instructions are assembled one behind the other, and each takes the state that the one before it
has left. -/
inductive AssembledRun (evaluate : Evaluator) :
    (here : Int) → List (String × List Operand) → (before after : CoreState) → Prop where
  | nil {here : Int} {state : CoreState} : AssembledRun evaluate here [] state state
  | cons {here : Int} {mnemonic : String} {operands : List Operand}
      {rest : List (String × List Operand)} {before middle after : CoreState}
      (step : AssembledStep here evaluate mnemonic operands before middle)
      (run : AssembledRun evaluate (here + Instruction.byteLength) rest middle after) :
      AssembledRun evaluate here ((mnemonic, operands) :: rest) before after

/-- A plain register fits the kinds of one. -/
theorem fits_plain {kind : OperandKind}
    (isRegister : kind ∈ [OperandKind.register, .wideRegister, .halfRegister])
    {given : RegisterOperand} (plain : given.Plain) :
    OperandKind.fits kind.code (.register given) = .ok true := by
  simp only [List.mem_cons, List.not_mem_nil, or_false] at isRegister
  simp only [OperandKind.fits, OperandKind.ofChar?_code]
  rcases isRegister with rfl | rfl | rfl <;>
    exact congrArg Except.ok (Option.isNone_iff_eq_none.mpr plain.plain)

/-- The data size behind a register that told the width. -/
theorem size_of_wide {draft : Draft} {wide : Bool} (known : draft.wide = some wide) :
    draft.size = InstructionForm.dataSize wide := by
  rw [Draft.size, known]
  cases wide <;> rfl

/-- Three registers of one width at the beginning set their fields. -/
theorem allOperands_triple {form : InstructionForm} {here : Int} {evaluate : Evaluator}
    {operands : List FormOperand} {list : List Operand} {d n m : RegisterOperand} {draft : Draft}
    (same : n.register.wide = d.register.wide) (same' : m.register.wide = d.register.wide)
    (gathered : Encode.allOperands form here evaluate ((pairDraft d n).set 'm' m.register.slot)
      (operands.map fun operand => (operand.1.code, operand.2)) list = .ok draft) :
    Encode.allOperands form here evaluate .empty
        (([reg 'd', reg 'n'] ++ reg 'm' :: operands).map fun operand => (operand.1.code, operand.2))
        (.register d :: .register n :: .register m :: list) = .ok draft := by
  refine allOperands_pair_eq_ok.mpr ⟨same, bind_eq_ok.mpr ⟨_,
    Encode.operand_register_eq_ok.mpr ⟨same', ?_⟩, gathered⟩⟩
  rw [same']
  rfl

/-! ### Operands that set fields of their own -/

/-- An operand fits its place in a form, and it sets fields whatever else has been set. It may ask for
a width flag and change it. -/
structure Sets (evaluate : Evaluator) (before after : Option Bool) (operand : FormOperand)
    (given : Operand) (fields : List (Char × Nat)) : Prop where
  regular : given.Regular
  fits : OperandKind.fits operand.1.code given = .ok true
  letters : ∀ field ∈ fields, field.1 ∈ operand.1.letters operand.2
  gathered : ∀ (form : InstructionForm) (here : Int) (draft : Draft), draft.wide = before →
    Encode.operand form here evaluate draft operand.1.code operand.2 given =
      .ok { draft.setEach fields with wide := after }

/-- Operands set their fields one after the other. -/
inductive SetsAll (evaluate : Evaluator) :
    (before after : Option Bool) → List FormOperand → List Operand → List (Char × Nat) → Prop where
  | nil {flag : Option Bool} : SetsAll evaluate flag flag [] [] []
  | cons {before middle after : Option Bool} {operand : FormOperand} {given : Operand}
      {operands : List FormOperand} {list : List Operand} {fields fields' : List (Char × Nat)}
      (first : Sets evaluate before middle operand given fields)
      (rest : SetsAll evaluate middle after operands list fields') :
      SetsAll evaluate before after (operand :: operands) (given :: list) (fields ++ fields')

section SetsAll

variable {evaluate : Evaluator} {before after : Option Bool} {operands : List FormOperand}
  {list : List Operand} {fields : List (Char × Nat)}

theorem SetsAll.regular (sets : SetsAll evaluate before after operands list fields) :
    ∀ given ∈ list, given.Regular := by
  induction sets with
  | nil => simp
  | cons first _ ih => exact List.forall_mem_cons.mpr ⟨first.regular, ih⟩

theorem SetsAll.fits (sets : SetsAll evaluate before after operands list fields) :
    OperandKind.fitsAll (operands.map fun operand => operand.1.code) list = .ok true := by
  induction sets with
  | nil => rfl
  | cons first _ ih => exact OperandKind.fitsAll_cons.mpr ⟨first.fits, ih⟩

theorem SetsAll.letters (sets : SetsAll evaluate before after operands list fields) :
    ∀ field ∈ fields, field.1 ∈ operands.flatMap fun operand => operand.1.letters operand.2 := by
  induction sets with
  | nil => simp
  | cons first _ ih =>
    intro field inside
    rw [List.flatMap_cons, List.mem_append]
    exact (List.mem_append.mp inside).imp (first.letters field) (ih field)

theorem SetsAll.gathered (sets : SetsAll evaluate before after operands list fields)
    (form : InstructionForm) (here : Int) (draft : Draft) (flag : draft.wide = before) :
    Encode.allOperands form here evaluate draft
        (operands.map fun operand => (operand.1.code, operand.2)) list =
      .ok { draft.setEach fields with wide := after } := by
  induction sets generalizing draft with
  | nil => rw [← flag]; rfl
  | cons first _ ih =>
    refine (ok_bind (first.gathered form here draft flag)).trans ((ih _ rfl).trans ?_)
    rw [Draft.setEach_append, Draft.setEach_withWide]

/-- One more operand sets its fields behind the other ones. -/
theorem SetsAll.concat (sets : SetsAll evaluate before after operands list fields)
    {later : Option Bool} {operand : FormOperand} {last : Operand} {fields' : List (Char × Nat)}
    (sets' : Sets evaluate after later operand last fields') :
    SetsAll evaluate before later (operands ++ [operand]) (list ++ [last]) (fields ++ fields') := by
  induction sets with
  | nil => simpa using SetsAll.cons sets' .nil
  | cons first _ ih => exact List.append_assoc .. ▸ SetsAll.cons first (ih sets')

/-- The first register tells the width flag. -/
theorem sets_first {given : RegisterOperand} (plain : given.Plain) {letter : Char} :
    Sets evaluate none (some given.register.wide) (reg letter) (.register given)
      [(letter, given.register.slot)] where
  regular := plain.regular
  fits := fits_plain (List.mem_cons_self) plain
  letters := List.forall_mem_singleton.mpr (List.mem_singleton_self letter)
  gathered form here draft flag := Encode.operand_register_eq_ok.mpr ⟨by rw [flag]; rfl, rfl⟩

/-- A further register has the width of the first one. -/
theorem sets_register {given : RegisterOperand} (plain : given.Plain) {wide : Bool}
    (same : given.register.wide = wide) {letter : Char} :
    Sets evaluate (some wide) (some wide) (reg letter) (.register given)
      [(letter, given.register.slot)] where
  regular := plain.regular
  fits := fits_plain (List.mem_cons_self) plain
  letters := List.forall_mem_singleton.mpr (List.mem_singleton_self letter)
  gathered form here draft flag :=
    Encode.operand_register_eq_ok.mpr ⟨by rw [flag]; exact same, by rw [same]; rfl⟩

/-- A full register has nothing to do with the width flag. -/
theorem sets_wideRegister {given : RegisterOperand} (plain : given.Plain)
    (full : given.register.wide = true) {flag : Option Bool} {letter : Char} :
    Sets evaluate flag flag (xreg letter) (.register given) [(letter, given.register.slot)] where
  regular := plain.regular
  fits := fits_plain (by simp [xreg]) plain
  letters := List.forall_mem_singleton.mpr (List.mem_singleton_self letter)
  gathered form here draft known :=
    Encode.operand_wideRegister_eq_ok.mpr ⟨full, by rw [← known]; rfl⟩

/-- A half register has nothing to do with the width flag. -/
theorem sets_halfRegister {given : RegisterOperand} (plain : given.Plain)
    (half : given.register.wide = false) {flag : Option Bool} {letter : Char} :
    Sets evaluate flag flag (wreg letter) (.register given) [(letter, given.register.slot)] where
  regular := plain.regular
  fits := fits_plain (by simp [wreg]) plain
  letters := List.forall_mem_singleton.mpr (List.mem_singleton_self letter)
  gathered form here draft known :=
    Encode.operand_halfRegister_eq_ok.mpr ⟨half, by rw [← known]; rfl⟩

end SetsAll

/-! ### Forms with known fields -/

/-- The form that takes operands of some kinds for a mnemonic, with its operation. Fields of the
operation that no operand sets have codes that are known from the width flag. -/
structure CodedForm (form : InstructionForm) (mnemonic : String) (op : Operation)
    (operands : List FormOperand) (codes : Bool → List (Char × Nat)) : Prop where
  unrivalled : Unrivalled form mnemonic
  operands : form.operands = operands
  bounded : form.operands ≠ bitfieldMove
  op : form.op = op
  codes : ∀ wide, ∀ code ∈ codes wide, code.1 ∈ baseForm form.op ∧ isLiteral code.1 = false ∧
    knownValue form.pattern.template wide (positionsOf code.1 (baseForm form.op)) = some code.2

instance (form : InstructionForm) (mnemonic : String) (op : Operation)
    (operands : List FormOperand) (codes : Bool → List (Char × Nat)) :
    Decidable (CodedForm form mnemonic op operands codes) :=
  decidable_of_iff (_ ∧ _ ∧ _ ∧ _ ∧ _)
    ⟨fun ⟨unrivalled, operands, bounded, op, codes⟩ => ⟨unrivalled, operands, bounded, op, codes⟩,
      fun ⟨unrivalled, operands, bounded, op, codes⟩ => ⟨unrivalled, operands, bounded, op, codes⟩⟩

/-- A form with operands of some kinds and an operation. Fields of the operation that no operand sets
have codes that are known from the width flag. -/
structure FixedForm (form : InstructionForm) (op : Operation) (operands : List FormOperand)
    (codes : Bool → List (Char × Nat)) : Prop where
  operands : form.operands = operands
  bounded : form.operands ≠ bitfieldMove
  op : form.op = op
  codes : ∀ wide, ∀ code ∈ codes wide, code.1 ∈ baseForm form.op ∧ isLiteral code.1 = false ∧
    knownValue form.pattern.template wide (positionsOf code.1 (baseForm form.op)) = some code.2

instance (form : InstructionForm) (op : Operation) (operands : List FormOperand)
    (codes : Bool → List (Char × Nat)) : Decidable (FixedForm form op operands codes) :=
  decidable_of_iff (_ ∧ _ ∧ _ ∧ _)
    ⟨fun ⟨operands, bounded, op, codes⟩ => ⟨operands, bounded, op, codes⟩,
      fun ⟨operands, bounded, op, codes⟩ => ⟨operands, bounded, op, codes⟩⟩

theorem CodedForm.fixed {form : InstructionForm} {mnemonic : String} {op : Operation}
    {operands : List FormOperand} {codes : Bool → List (Char × Nat)}
    (coded : CodedForm form mnemonic op operands codes) : FixedForm form op operands codes :=
  ⟨coded.operands, coded.bounded, coded.op, coded.codes⟩

/-- A mnemonic has a form for operands of some kinds. -/
def HasForm (mnemonic : String) (op : Operation) (operands : List FormOperand)
    (codes : Bool → List (Char × Nat)) : Prop :=
  ∃ form ∈ formsOf mnemonic, CodedForm form mnemonic op operands codes

instance (mnemonic : String) (op : Operation) (operands : List FormOperand)
    (codes : Bool → List (Char × Nat)) : Decidable (HasForm mnemonic op operands codes) :=
  inferInstanceAs (Decidable (∃ form ∈ formsOf mnemonic, _))

/-- An instruction of an operation whose fields have some codes. -/
structure Coded (instruction : Instruction) (op : Operation) (codes : List (Char × Nat)) : Prop where
  offers : ∀ letters, (∀ letter ∈ letters, letter ∈ baseForm op ∧ isLiteral letter = false) →
    instruction.Offers letters
  op : instruction.form.op = op
  codes : ∀ code ∈ codes, instruction.value code.1 = code.2

/-- The width flag tells the data size. -/
theorem Coded.dataSize {instruction : Instruction} {op : Operation} {codes : List (Char × Nat)}
    (coded : Coded instruction op codes) {wide : Bool} (flag : ('z', wide.toNat) ∈ codes)
    (present : 'z' ∈ baseForm op) :
    Execution.dataSize instruction = InstructionForm.dataSize wide := by
  have read := (coded.offers ['z'] (List.forall_mem_singleton.mpr ⟨present, by decide⟩)).present
    'z' (List.mem_singleton_self _)
  rw [coded.codes _ flag] at read
  exact Executes.dataSize_of_flag read

/-- Fewer codes are known too. -/
theorem Coded.mono {instruction : Instruction} {op : Operation} {codes fewer : List (Char × Nat)}
    (coded : Coded instruction op codes) (among : fewer ⊆ codes) : Coded instruction op fewer :=
  ⟨coded.offers, coded.op, fun code inside => coded.codes code (among inside)⟩

/-- A field that operands have set in a draft, or that has a code, with its value. -/
def Known (operands : List FormOperand) (codes : Bool → List (Char × Nat)) (draft : Draft)
    (field : Char × Nat) : Prop :=
  (operands.flatMap fun operand => operand.1.letters operand.2).contains field.1 = true ∧
      draft.values.lookup field.1 = some (field.2 : Int) ∨
    field ∈ codes (draft.wide != some false)

/-- The width flag is that of the first register. -/
@[simp] theorem flag_some (wide : Bool) : (some wide != some false) = wide := by
  cases wide <;> rfl

/-- What operands have set and what the form fixes is known. -/
theorem SetsAll.known {evaluate : Evaluator} {flag : Option Bool} {operands : List FormOperand}
    {list : List Operand} {fields : List (Char × Nat)}
    (sets : SetsAll evaluate none flag operands list fields) (distinct : (fields.map Prod.fst).Nodup)
    (codes : Bool → List (Char × Nat)) :
    ∀ field ∈ fields ++ codes (flag != some false),
      Known operands codes { Draft.empty.setEach fields with wide := flag } field := by
  intro field inside
  rcases List.mem_append.mp inside with own | fixed
  · exact .inl ⟨List.contains_iff_mem.mpr (sets.letters field own),
      Draft.lookup_setEach .empty distinct field own⟩
  · exact .inr fixed

section Assembled

variable {mnemonic : String} {op : Operation} {operands : List FormOperand}
  {codes : Bool → List (Char × Nat)} {here : Int} {evaluate : Evaluator} {list : List Operand}
  {draft : Draft}

/-- A word that a form makes of operands is decoded to an instruction with the known fields. -/
theorem FixedForm.exists_coded {form : InstructionForm} {word : Nat}
    (fixed : FixedForm form op operands codes) (member : form ∈ forms)
    (fits : OperandKind.fitsAll form.shape list = .ok true)
    (gathered : Encode.allOperands form here evaluate .empty (form.shape.zip form.roles) list =
      .ok draft)
    (made : Encode.formWord form here evaluate list = .ok word) :
    ∃ instruction, Codec.a64.decode word here = .ok (some instruction) ∧
      ∀ fields, (∀ field ∈ fields, Known operands codes draft field) →
        Coded instruction op fields := by
  have check := checked member
  obtain ⟨draft', again, drafted⟩ := Encode.drafted_of_formWord (sound form member)
    check.wellFormed check.bits check.roles fits made
  obtain rfl := Except.ok.inj (gathered.symm.trans again)
  have within : ¬BeyondWidth form.op word := fun beyond =>
    fixed.bounded (operands_of_beyondWidth member drafted beyond)
  obtain ⟨instruction, decoded, _, executes⟩ := exists_decode member drafted within here
  refine ⟨instruction, decoded, fun fields sources =>
    ⟨fun letters present => executes.offers (fixed.op ▸ present), executes.op.trans fixed.op,
      fun field among => ?_⟩⟩
  rcases sources field among with ⟨sets, set⟩ | among
  · obtain ⟨operand, inside, sets⟩ := List.mem_flatMap.mp (List.contains_iff_mem.mp sets)
    exact (Int.ofNat.inj
      (executes.value_of_drafted drafted (fixed.operands ▸ inside) sets set)).symm
  · obtain ⟨present, symbolic, value⟩ := fixed.codes _ field among
    rw [Instruction.value, executes.lookup_of_known present symbolic value]
    rfl

/-- Operands that fit the form and gather a draft are assembled to an instruction with the known
fields. -/
theorem HasForm.exists_coded (has : HasForm mnemonic op operands codes)
    (regular : ∀ given ∈ list, given.Regular)
    (fits : OperandKind.fitsAll (operands.map fun operand => operand.1.code) list = .ok true)
    (gathered : ∀ form, Encode.allOperands form here evaluate .empty
      (operands.map fun operand => (operand.1.code, operand.2)) list = .ok draft) :
    ∃ word instruction, Codec.a64.encode mnemonic list here evaluate = .ok word ∧
      Codec.a64.decode word here = .ok (some instruction) ∧
      ∀ fields, (∀ field ∈ fields, Known operands codes draft field) →
        Coded instruction op fields := by
  obtain ⟨form, inside, coded⟩ := has
  have member := mem_forms_of_mem_formsOf inside
  have fits' : OperandKind.fitsAll form.shape list = .ok true := by
    rw [(sound form member).codes (checked member).roles, coded.operands]
    exact fits
  have gathered' : Encode.allOperands form here evaluate .empty (form.shape.zip form.roles) list =
      .ok draft := by
    rw [(sound form member).shape, coded.operands]
    exact gathered form
  obtain ⟨word, made⟩ := exists_formWord_of_allOperands member regular fits' gathered'
  obtain ⟨instruction, decoded, sources⟩ := coded.fixed.exists_coded member fits' gathered' made
  exact ⟨word, instruction, (coded.unrivalled.encode_iff fits').mpr made, decoded, sources⟩

/-- A state is taken to the one that the execution ensures from the known fields. -/
theorem HasForm.exists_step (has : HasForm mnemonic op operands codes)
    (regular : ∀ given ∈ list, given.Regular)
    (fits : OperandKind.fitsAll (operands.map fun operand => operand.1.code) list = .ok true)
    (gathered : ∀ form, Encode.allOperands form here evaluate .empty
      (operands.map fun operand => (operand.1.code, operand.2)) list = .ok draft)
    (fields : List (Char × Nat)) (known : ∀ field ∈ fields, Known operands codes draft field)
    {before : CoreState} {effect : CoreState → Prop}
    (ensured : ∀ instruction, Coded instruction op fields →
      Execution.Ensures (fun _ => False) (Execution.perform instruction)
        (fun branched after => branched = none ∧ effect after) before) :
    ∃ after, AssembledStep here evaluate mnemonic list before after ∧ effect after := by
  obtain ⟨word, instruction, encoded, decoded, coded⟩ := has.exists_coded regular fits gathered
  obtain ⟨after, done, effected⟩ :=
    CoreState.exists_execute (ensured instruction (coded fields known))
  exact ⟨after, ⟨word, instruction, encoded, decoded, done⟩, effected⟩

/-- Operands that set fields of their own take a state to the one that the execution ensures from these
fields and from the codes of the form. -/
theorem HasForm.exists_step_of_setsAll {fields : List (Char × Nat)} {flag : Option Bool}
    (has : HasForm mnemonic op operands codes)
    (sets : SetsAll evaluate none flag operands list fields) (distinct : (fields.map Prod.fst).Nodup)
    {before : CoreState} {effect : CoreState → Prop}
    (ensured : ∀ instruction, Coded instruction op (fields ++ codes (flag != some false)) →
      Execution.Ensures (fun _ => False) (Execution.perform instruction)
        (fun branched after => branched = none ∧ effect after) before) :
    ∃ after, AssembledStep here evaluate mnemonic list before after ∧ effect after := by
  exact has.exists_step sets.regular sets.fits (fun form => sets.gathered form here .empty rfl) _
    (sets.known distinct codes) ensured

/-- An instruction of three registers of one width has the effect that its execution ensures for the
registers of its fields. -/
theorem HasForm.exists_triple {d n m : RegisterOperand} {before : CoreState}
    (has : HasForm mnemonic op [reg 'd', reg 'n', reg 'm'] codes)
    (plain : d.Plain) (plain' : n.Plain) (plain'' : m.Plain)
    (same : n.register.wide = d.register.wide) (same' : m.register.wide = d.register.wide)
    (effect : (d n m : Register) → CoreState → Prop)
    (ensured : ∀ instruction, Coded instruction op (codes d.register.wide) →
      Execution.Ensures (fun _ => False) (Execution.perform instruction)
        (fun branched after => branched = none ∧ effect ⟨instruction.value 'd', d.register.wide⟩
          ⟨instruction.value 'n', d.register.wide⟩ ⟨instruction.value 'm', d.register.wide⟩ after)
        before) :
    ∃ after, AssembledStep here evaluate mnemonic [.register d, .register n, .register m] before
      after ∧ effect d.register n.register m.register after := by
  have sets : SetsAll evaluate none (some d.register.wide) [reg 'd', reg 'n', reg 'm']
      [.register d, .register n, .register m] _ :=
    .cons (sets_first plain) (.cons (sets_register plain' same)
      (.cons (sets_register plain'' same') .nil))
  refine has.exists_step_of_setsAll sets (by simp) fun instruction coded => ?_
  rw [flag_some] at coded
  have values := coded.codes
  simp only [List.cons_append, List.nil_append, List.forall_mem_cons] at values
  obtain ⟨isTarget, isFirst, isSecond, fixed⟩ := values
  have done := ensured instruction ⟨coded.offers, coded.op, fixed⟩
  rwa [isTarget, isFirst, isSecond, Register.eta rfl, Register.eta same, Register.eta same'] at done

end Assembled

end InstructionSet

end A64Machine
