import A64Machine.Proofs.CompletedStep
import A64Machine.Proofs.FaultedStep
import A64Machine.Proofs.FormEffects

/-!
# Instructions change only what they name

The entry that an instruction is displayed with tells what the instruction may change: the
destination of data processing, the registers of a load, the base of an address that is written back
and the link register of a branch with link. It tells too whether the flags or bytes of memory may
change. The execution takes its fields from the base form of the operation, so that each entry is
compared with what its instructions write. Where the destination of an entry is fixed to the zero
register, the result is dropped.
-/

namespace A64Machine

/-! ### What an entry names -/

namespace Operation

/-- Whether an operation computes a value for a destination. -/
def isDataProcessing : Operation → Bool
  | .addSubExtended | .addSubShifted | .addSubImmediate | .addSubCarry | .logicShifted
  | .logicImmediate | .moveWide | .bitfield | .extract | .oneSource | .twoSource | .threeSource
  | .pcRelative => true
  | _ => false

/-- Whether an operation is an addition or a subtraction. -/
def isAddSub : Operation → Bool
  | .addSubExtended | .addSubShifted | .addSubImmediate | .addSubCarry => true
  | _ => false

/-- Whether an operation is a logical one. -/
def isLogic : Operation → Bool
  | .logicShifted | .logicImmediate => true
  | _ => false

/-- Whether an operation may branch. -/
def isBranch : Operation → Bool
  | .branchImmediate | .branchConditional | .compareBranch | .testBranch | .branchRegister => true
  | _ => false

end Operation

/-- The mnemonics that load one register. -/
def loadMnemonics : List String :=
  ["ldr", "ldur", "ldrb", "ldurb", "ldrh", "ldurh", "ldrsw", "ldursw"]

/-- The mnemonics that set the flags. -/
def flagMnemonics : List String :=
  ["cmp", "cmn", "tst", "adds", "subs", "adcs", "sbcs", "ands", "bics", "negs", "ngcs"]

/-- The mnemonics that leave the address of the next instruction in the link register. -/
def linkMnemonics : List String := ["bl", "blr"]

namespace InstructionForm

/-- Whether an address of the form changes its base. -/
def changesBase (form : InstructionForm) : Bool :=
  (form.operands.map Prod.fst).any fun kind => kind == .preIndexed || kind == .postIndexed

/-- The registers that the instructions of a form may change, by the letters of their fields. -/
def changes (form : InstructionForm) : List Char :=
  (if form.op.isDataProcessing then ['d']
    else if form.mnemonic ∈ loadMnemonics then ['t']
    else if form.mnemonic = "ldp" then ['t', 'u']
    else []) ++
  if form.changesBase then ['n'] else []

end InstructionForm

namespace Instruction

/-- The registers that an instruction may change. -/
def changeable (instruction : Instruction) : List Nat :=
  instruction.form.changes.map instruction.value ++
    if instruction.form.mnemonic ∈ linkMnemonics then [Register.linkSlot] else []

open Transfer in
/-- The addresses and widths of the accesses that an instruction makes from some registers. -/
def accessed (instruction : Instruction) (registers : RegisterFile) : List (Nat × Nat) :=
  let value := instruction.value
  let base := registers.value (value 'n') % 2 ^ 64
  let width := 2 ^ value 'x'
  match instruction.form.op with
  | .transferScaled => [(Bits.wrap 64 (base + value 'I' * width : Nat), width)]
  | .transferNear => [(indexedAddress (value 'w') base (Bits.signExtend (value 'I') 9), width)]
  | .transferIndexed =>
    let shift := if value 'S' ≠ 0 then value 'x' else 0
    let offset := extendValue (registers.value (value 'm') % 2 ^ 64) (value 'o') shift 64
    [(Bits.wrap 64 (base + offset : Nat), width)]
  | .transferPair =>
    [(firstAddress instruction registers, pairWidth instruction),
      (secondAddress instruction registers, pairWidth instruction)]
  | _ => []

end Instruction

namespace CoreState

/-- The bytes that differ lie within some ranges, given by their addresses and widths. -/
def WritesWithin (before after : CoreState) (ranges : List (Nat × Nat)) : Prop :=
  ∀ place, after.memory.bytes[place]? ≠ before.memory.bytes[place]? →
    ∃ range ∈ ranges, range.1 ≤ place ∧ place < range.1 + range.2

namespace WritesWithin

variable {before middle after : CoreState} {ranges later : List (Nat × Nat)}

/-- Where no bytes differ, any ranges do. -/
theorem of_same (same : after.memory.bytes = before.memory.bytes) :
    before.WritesWithin after ranges :=
  fun _ changed => absurd (by rw [same]) changed

theorem trans (first : before.WritesWithin middle ranges)
    (second : middle.WritesWithin after later) :
    before.WritesWithin after (ranges ++ later) := by
  intro place changed
  by_cases kept : middle.memory.bytes[place]? = before.memory.bytes[place]?
  · obtain ⟨range, inside, within⟩ := second place (kept ▸ changed)
    exact ⟨range, List.mem_append_right _ inside, within⟩
  · obtain ⟨range, inside, within⟩ := first place kept
    exact ⟨range, List.mem_append_left _ inside, within⟩

/-- A store changes only the bytes that it accesses. -/
theorem of_transfers {width address slot : Nat}
    (transfers : before.Transfers after false width address slot) :
    before.WritesWithin after [(address, width)] := by
  intro place changed
  rw [transfers.bytes place] at changed
  split at changed
  · rename_i within
    exact ⟨_, List.mem_singleton_self _, within.2⟩
  · exact absurd rfl changed

end WritesWithin

end CoreState

/-! ### The bytes that stores change -/

namespace Execution

open Transfer

variable {instruction : Instruction} {state : CoreState}

theorem ends_sequential {steps : Execution Unit} {completed : Option Nat → CoreState → Prop}
    {faulted : ExecutionFault → CoreState → Prop} :
    Ends (sequential steps) completed faulted state ↔
      Ends steps (fun _ after => completed none after) faulted state :=
  ends_bind

/-- A store changes only the bytes that it accesses. -/
theorem ends_store {before : CoreState} (same : before.Same state) {width address slot : Nat}
    (named : slot < 32) (narrow : width ≤ 8) :
    Ends (transfer 0 width address slot)
      (fun _ after => before.WritesWithin after [(address, width)]) (fun _ _ => True) state :=
  (ends_transfer_store named narrow).imp
    (fun _ after done => .of_transfers (done.2.congr same (.refl after))) fun _ _ _ => trivial

/-- A base is written back without an access. -/
theorem ends_writeBack {mode base : Nat} {offset : Int} (offers : instruction.Offers ['n']) :
    Ends (writeBack instruction mode base offset)
      (fun _ after => after.memory.bytes = state.memory.bytes) (fun _ _ => True) state := by
  refine ends_of_ensures ?_
  unfold writeBack
  split
  · rw [ensures_writeField_offered (offers.present 'n' (by decide))
      (offers.registers 'n' (by decide))]
  · exact ensures_pure.mpr rfl

theorem writesWithin_scaled (offers : instruction.Offers ['x', 'n', 'I', 'c', 't'])
    (size : instruction.value 'x' < 4) (isStore : instruction.value 'c' = 0)
    (op : instruction.form.op = .transferScaled) :
    Ends (scaled instruction)
      (fun _ after => state.WritesWithin after (instruction.accessed state.registers))
      (fun _ _ => True) state := by
  simp only [scaled, ends_bind, ends_field, ends_readField, offers.present, offers.registers,
    List.mem_cons, true_or, or_true, isStore]
  simp only [Instruction.accessed, op]
  exact ends_store (state.same_afterRead _) (offers.registers 't' (by decide)) (width_le size)

theorem writesWithin_near (offers : instruction.Offers ['x', 'n', 'I', 'w', 'c', 't'])
    (size : instruction.value 'x' < 4) (isStore : instruction.value 'c' = 0)
    (op : instruction.form.op = .transferNear) :
    Ends (near instruction)
      (fun _ after => state.WritesWithin after (instruction.accessed state.registers))
      (fun _ _ => True) state := by
  simp only [near, ends_bind, ends_field, ends_readField, offers.present, offers.registers,
    List.mem_cons, true_or, or_true, isStore]
  simp only [Instruction.accessed, op]
  refine (ends_store (state.same_afterRead _) (offers.registers 't' (by decide))
    (width_le size)).imp (fun _ middle within => ?_) fun _ _ _ => trivial
  exact (ends_writeBack (offers.mono (by decide))).imp
    (fun _ after same place changed => within place (same ▸ changed)) fun _ _ _ => trivial

theorem writesWithin_indexed (offers : instruction.Offers ['x', 'S', 'm', 'o', 'n', 'c', 't'])
    (size : instruction.value 'x' < 4) (isStore : instruction.value 'c' = 0)
    (op : instruction.form.op = .transferIndexed) :
    Ends (indexed instruction)
      (fun _ after => state.WritesWithin after (instruction.accessed state.registers))
      (fun _ _ => True) state := by
  simp only [indexed, ends_bind, ends_field, ends_readField, offers.present, offers.registers,
    List.mem_cons, true_or, or_true, isStore, RegisterFile.value_afterRead]
  simp only [Instruction.accessed, op]
  refine ends_store ?_ (offers.registers 't' (by decide)) (width_le size)
  exact (state.same_afterRead _).trans (CoreState.same_afterRead _ _)

theorem writesWithin_pair (offers : instruction.Offers ['c', 'n', 'I', 'w', 'L', 't', 'u'])
    (isStore : instruction.value 'L' = 0) (op : instruction.form.op = .transferPair) :
    Ends (pair instruction)
      (fun _ after => state.WritesWithin after (instruction.accessed state.registers))
      (fun _ _ => True) state := by
  simp only [pair, ends_bind, ends_field, ends_readField, offers.present, offers.registers,
    List.mem_cons, true_or, or_true, isStore]
  simp only [Instruction.accessed, op]
  have narrow := pairWidth_le instruction
  refine (ends_store (state.same_afterRead _) (offers.registers 't' (by decide)) narrow).imp
    (fun _ middle first => ?_) fun _ _ _ => trivial
  refine (ends_store (.refl middle) (offers.registers 'u' (by decide)) narrow).imp
    (fun _ last second => ?_) fun _ _ _ => trivial
  exact (ends_writeBack (offers.mono (by decide))).imp
    (fun _ after same place changed => first.trans second place (same ▸ changed))
    fun _ _ _ => trivial

end Execution

/-! ### What instructions change -/

namespace Instruction

/-- Between two states only that has changed which the instruction names: the registers of its
entry, the flags if its entry sets them, and the accessed bytes if its entry stores. The zero
register still holds zero. -/
structure ChangesOnlyNamed (instruction : Instruction) (before after : CoreState) : Prop where
  registers : ∀ slot < Register.zeroSlot,
    after.registers.value slot ≠ before.registers.value slot → slot ∈ instruction.changeable
  zero : before.registers.value Register.zeroSlot = 0 →
    after.registers.value Register.zeroSlot = 0
  status : after.status ≠ before.status → instruction.form.mnemonic ∈ flagMnemonics ∧
    (instruction.form.op.isAddSub = true ∧ instruction.value 'f' = 1 ∨
      instruction.form.op.isLogic = true ∧ instruction.value 'c' = 3)
  bytes : before.WritesWithin after
    (if instruction.form.mnemonic ∈ storeMnemonics then instruction.accessed before.registers
      else [])

/-- What changed between two states changed between states that hold the same. -/
theorem ChangesOnlyNamed.congr {instruction : Instruction} {before before' after after' : CoreState}
    (changes : instruction.ChangesOnlyNamed before after) (same : before'.Same before)
    (same' : after.Same after') : instruction.ChangesOnlyNamed before' after' where
  registers slot general changed :=
    changes.registers slot general (by rwa [← same'.value, same.value])
  zero clear := by rw [same'.value]; exact changes.zero (by rw [same.value]; exact clear)
  status changed := changes.status (by rwa [← same'.status, same.status])
  bytes := by
    have accessed :
        instruction.accessed before.registers = instruction.accessed before'.registers := by
      simp only [accessed, Transfer.firstAddress, Transfer.secondAddress, same.value]
    rw [← accessed]
    intro place changed
    exact changes.bytes place (by rwa [← same'.bytes, same.bytes])

end Instruction

namespace InstructionSet

/-- Every form names the registers that it writes. -/
theorem changes_targets : ∀ form ∈ forms, ∀ wide, ∀ target ∈ knownTargets form wide,
    target.1 ∈ form.changes := by
  decide +kernel

/-- The forms that write the link register are those of the branches with link. -/
theorem mnemonic_of_links : ∀ form ∈ forms, ∀ wide, knownLinks form wide = true →
    form.mnemonic ∈ linkMnemonics := by
  decide +kernel

/-- The forms that set the flags are additions with the bit `f` and logical operations of code 3. -/
theorem mnemonic_of_setsFlags : ∀ form ∈ forms, ∀ wide, knownSetsFlags form wide = true →
    form.mnemonic ∈ flagMnemonics ∧
      (form.op.isAddSub = true ∧ knownField form wide 'f' = some 1 ∨
        form.op.isLogic = true ∧ knownField form wide 'c' = some 3) := by
  decide +kernel

/-- The forms that write to memory are those of the stores. -/
theorem mnemonic_of_stores : ∀ form ∈ forms, ∀ wide, knownStores form wide = true →
    form.mnemonic ∈ storeMnemonics := by
  decide +kernel

variable {instruction : Instruction} {word address : Int} {state : CoreState}

open Execution in
/-- A decoded store changes only the bytes that it accesses. -/
theorem ends_perform_store (decoded : Codec.a64.decode word address = .ok (some instruction))
    (stores : instruction.stores = true) :
    Ends (perform instruction)
      (fun _ after => state.WritesWithin after (instruction.accessed state.registers))
      (fun _ _ => True) state := by
  obtain ⟨executes, _⟩ := executes_of_decode decoded
  have offers {letters : List Char} := @Executes.offers _ _ _ _ executes letters
  have size : instruction.value 'x' < 2 ^ 2 := executes.value_lt (by decide)
  unfold Instruction.stores at stores
  unfold perform
  cases op : instruction.form.op <;> rw [op] at offers stores <;>
    simp only [Operation.stores, beq_iff_eq, Bool.false_eq_true] at stores <;>
    simp only [ends_sequential]
  case transferScaled => exact writesWithin_scaled (offers (by decide)) size stores op
  case transferNear => exact writesWithin_near (offers (by decide)) size stores op
  case transferIndexed => exact writesWithin_indexed (offers (by decide)) size stores op
  case transferPair => exact writesWithin_pair (offers (by decide)) stores op

/-- An instruction that completes changes only what it names. -/
theorem changesOnlyNamed_of_execute
    (decoded : Codec.a64.decode word address = .ok (some instruction)) {target : Option Nat}
    {after : CoreState} (completes : state.execute instruction = (.ok target, after)) :
    instruction.ChangesOnlyNamed state after := by
  obtain ⟨executes, _⟩ := executes_of_decode decoded
  obtain ⟨targets, links, setsFlags, stores⟩ := executes.effects_eq
  obtain ⟨allowed, _⟩ := (Execution.does_perform instruction).allows state
  rw [CoreState.left_perform, completes] at allowed
  refine ⟨fun slot general changed => ?_, fun clear => ?_, fun changed => ?_, ?_⟩
  · have leaves := (allowed.registers slot (Nat.lt_succ_of_lt general)).resolve_left changed
    rw [Execution.Effects.Leaves, if_neg (Nat.ne_of_lt general)] at leaves
    obtain ⟨bits, ⟨letter, target, rfl⟩ | ⟨isLink, rfl, _⟩, _⟩ := leaves
    · refine List.mem_append_left _ (List.mem_map_of_mem ?_)
      exact changes_targets _ executes.member _ _ (targets ▸ target)
    · have mnemonic := mnemonic_of_links _ executes.member _ (links ▸ isLink)
      rw [Instruction.changeable, if_pos mnemonic]
      exact List.mem_append_right _ (List.mem_singleton_self _)
  · rcases allowed.registers Register.zeroSlot (by decide) with same | leaves
    · exact same.trans clear
    · rwa [Execution.Effects.Leaves, if_pos rfl] at leaves
  · have set := allowed.status.resolve_left changed
    obtain ⟨mnemonic, known⟩ := mnemonic_of_setsFlags _ executes.member _ (setsFlags.symm.trans set)
    rcases known with ⟨op, f⟩ | ⟨op, c⟩
    · exact ⟨mnemonic, .inl ⟨op, executes.value_of_known (by decide) f⟩⟩
    · exact ⟨mnemonic, .inr ⟨op, executes.value_of_known (by decide) c⟩⟩
  · cases isStore : instruction.stores with
    | false =>
      refine .of_same (allowed.bytes.resolve_right fun set => ?_)
      exact Bool.false_ne_true (isStore.symm.trans set)
    | true =>
      rw [if_pos (mnemonic_of_stores _ executes.member _ (stores ▸ isStore))]
      have ends := @ends_perform_store _ _ _ state decoded isStore
      rw [Execution.Ends, CoreState.execute_eq_ok.mp completes] at ends
      exact ends

/-- An instruction that is no branch has no target. -/
theorem target_of_execute {target : Option Nat} {after : CoreState}
    (straight : instruction.form.op.isBranch = false)
    (completes : state.execute instruction = (.ok target, after)) : target = none := by
  have sequential (steps : Execution Unit) :
      Execution.Ensures (fun _ => True) (Execution.sequential steps)
        (fun value _ => value = none) state := by
    rw [Execution.ensures_sequential]
    unfold Execution.Ensures
    cases steps state <;> trivial
  have ensured : Execution.Ensures (fun _ => True) (Execution.perform instruction)
      (fun value _ => value = none) state := by
    unfold Execution.perform
    cases op : instruction.form.op <;> rw [op] at straight <;>
      first | contradiction | exact sequential _ | trivial
  rw [CoreState.execute_iff, completes] at ensured
  exact ensured

end InstructionSet

namespace Machine

open InstructionSet

variable {machine : Machine} {notify : Bool} {snapshot : Snapshot} {word address : Int}

/-- A step that completes changes only what its instruction names, and goes on to the next
instruction unless this one may branch. -/
theorem step_changes_only_named
    (decoded : Codec.a64.decode word address = .ok (some snapshot.instruction))
    (done : (machine.step notify).1 = .ok snapshot) :
    snapshot.instruction.ChangesOnlyNamed machine.core (machine.step notify).2.core ∧
      (snapshot.instruction.form.op.isBranch = false →
        (machine.step notify).2.pc = (machine.pc + 4) % 2 ^ 64) := by
  obtain ⟨fetched, target, core, _, executed, completed⟩ := exists_completed done
  have before : machine.core.Same (machine.core.withoutRecords.track notify) :=
    machine.core.same_withoutRecords.trans (CoreState.same_track _ notify)
  have after : core.Same (machine.step notify).2.core := by
    rw [completed.core]
    exact (core.same_track false).trans (CoreState.same_withoutRecords _)
  refine ⟨?_, fun straight => ?_⟩
  · exact (changesOnlyNamed_of_execute decoded executed).congr before after
  · obtain rfl := target_of_execute straight executed
    rw [completed.pc, completed.newPc, Bits.wrap_natCast]
    rfl

/-- A machine with a `strb w1, [x0, #1]!` at the start of its memory, which clears a byte of its own
word. -/
def changedBase : Machine := ofMemory (.ofBytes .little #[0x01, 0x1c, 0x00, 0x38])

/-- The store changes its base and one byte, and goes on. -/
theorem step_changes_only_named_changedBase :
    ∃ snapshot, (changedBase.step false).1 = .ok snapshot ∧
      snapshot.instruction.ChangesOnlyNamed changedBase.core (changedBase.step false).2.core ∧
      (changedBase.step false).2.core.registers.value 0 = 1 ∧
      (changedBase.step false).2.core.memory.bytes = #[0x01, 0x00, 0x00, 0x38] ∧
      (changedBase.step false).2.pc = 4 := by
  obtain ⟨instruction, decoded, op, read⟩ :=
    @exists_decode_fields 0x38001c01 0 .transferNear "strb"
      [('x', 0), ('c', 0), ('I', 1), ('w', 3), ('n', 0), ('t', 1)] (by decide +kernel)
      (by decide +kernel)
  have fetched := @fetch_of_decode changedBase 0x38001c01 instruction (by decide) rfl rfl decoded
  have executed :
      ((changedBase.core.withoutRecords.track false).execute instruction).1 = .ok none ∧
        ((changedBase.core.withoutRecords.track false).execute instruction).2.registers.value 0 =
          1 ∧
        ((changedBase.core.withoutRecords.track false).execute instruction).2.memory.bytes =
          #[0x01, 0x00, 0x00, 0x38] := by
    obtain ⟨address, word, form, fields, bound⟩ := instruction
    simp only at op read
    subst read
    simp only [CoreState.execute, Execution.perform, op]
    exact ⟨rfl, rfl, rfl⟩
  obtain ⟨snapshot, done, rfl, completed⟩ := exists_snapshot decoded fetched executed.1
  obtain ⟨changes, next⟩ := step_changes_only_named decoded done
  refine ⟨snapshot, done, changes, ?_, ?_, next (by rw [op]; rfl)⟩
  · rw [completed.core]
    exact executed.2.1
  · rw [completed.core]
    exact executed.2.2

end Machine

end A64Machine
