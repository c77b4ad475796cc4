import A64Machine.Proofs.CompletedStep
import A64Machine.Proofs.InstructionEffects

/-!
# Accesses on record

A step that notifies gives out the accesses that were made. They are a complete record of what the
step did to registers and memory: taken one after the other, every access shows the value that
stands at its location at that moment, and the writes among them lead from what registers and memory
held before the step to what they hold after it. So whatever has changed was written on record.
-/

namespace A64Machine

/-! ### Replaying accesses -/

/-- What the general registers and the memory hold. -/
structure Holdings where
  registers : List Nat
  bytes : Array UInt8

/-- What the general registers and the memory of a state hold. -/
def CoreState.holdings (state : CoreState) : Holdings :=
  ⟨state.registers.generalValues, state.memory.bytes⟩

namespace Access

/-- The value at the location of an access, if there is one. -/
def current? (order : Endianness) (access : Access) (holdings : Holdings) : Option Nat :=
  match access.location with
  | .register (.ofNat slot) => holdings.registers[slot]?
  | .register (.negSucc _) => none
  | .memory address =>
    if Memory.holds holdings.bytes.size address access.width then
      some (order.valueOf (Memory.stretch holdings.bytes address access.width))
    else none

/-- What is held after an access. A read changes nothing, and a write puts its value in the place of
the one at its location. -/
def replay (order : Endianness) (access : Access) (holdings : Holdings) : Holdings :=
  match access.kind, access.location with
  | .read, _ => holdings
  | .write, .register number =>
    { holdings with registers := holdings.registers.set number.toNat access.after }
  | .write, .memory address =>
    { holdings with
      bytes := Memory.overwrite holdings.bytes address
        (order.bytesOf access.width.toNat access.after) }

/-- An access shows the value at its location, and a read shows nothing else. -/
structure Shows (order : Endianness) (access : Access) (holdings : Holdings) : Prop where
  before : access.current? order holdings = some access.before
  unchanged : access.kind = .read → access.after = access.before

end Access

/-- Accesses lead from what is held to what is held after them, and each of them shows what is held
at its moment. -/
inductive Replays (order : Endianness) : List Access → Holdings → Holdings → Prop
  | nil (holdings : Holdings) : Replays order [] holdings holdings
  | cons {access : Access} {rest : List Access} {before after : Holdings}
      (shown : access.Shows order before)
      (later : Replays order rest (access.replay order before) after) :
      Replays order (access :: rest) before after

namespace Replays

variable {order : Endianness}

/-- One access leads to what is held after it. -/
theorem single {access : Access} {holdings : Holdings} (shown : access.Shows order holdings) :
    Replays order [access] holdings (access.replay order holdings) :=
  .cons shown (.nil _)

theorem append {first second : List Access} {before middle after : Holdings}
    (one : Replays order first before middle) (other : Replays order second middle after) :
    Replays order (first ++ second) before after := by
  induction one with
  | nil => exact other
  | cons shown _ ih => exact .cons shown (ih other)

/-- There are as many registers and bytes after an access as before. -/
theorem length_replay (access : Access) (holdings : Holdings) :
    (access.replay order holdings).registers.length = holdings.registers.length := by
  unfold Access.replay
  split
  · rfl
  · exact List.length_set
  · rfl

/-- The accesses of registers are accesses of registers that there are. -/
theorem exists_register {accesses : List Access} {before after : Holdings}
    (replays : Replays order accesses before after) :
    ∀ access ∈ accesses, ∀ number, access.location = .register number →
      ∃ slot < before.registers.length, number = (slot : Int) := by
  induction replays with
  | nil => simp
  | @cons access rest before after shown _ ih =>
    refine List.forall_mem_cons.mpr ⟨fun number here => ?_, fun other inside number there => ?_⟩
    · have known := shown.before
      simp only [Access.current?, here] at known
      cases number with
      | ofNat slot => exact ⟨slot, (List.getElem?_eq_some_iff.mp known).1, rfl⟩
      | negSucc below => contradiction
    · have reached := ih other inside number there
      rwa [length_replay] at reached

/-- A register that has changed was written. -/
theorem exists_write_register {accesses : List Access} {before after : Holdings}
    (replays : Replays order accesses before after) {slot : Nat}
    (changed : after.registers[slot]? ≠ before.registers[slot]?) :
    ∃ access ∈ accesses, access.kind = .write ∧ access.location = .register slot := by
  induction replays with
  | nil => exact absurd rfl changed
  | @cons access rest before after shown _ ih =>
    by_cases here : access.kind = .write ∧ access.location = .register slot
    · exact ⟨access, List.mem_cons_self, here⟩
    · have kept : (access.replay order before).registers[slot]? = before.registers[slot]? := by
        unfold Access.replay
        split
        · rfl
        · rename_i number isWrite isRegister
          have known := shown.before
          simp only [Access.current?, isRegister] at known
          cases number with
          | ofNat other =>
            refine List.getElem?_set_ne fun same => here ⟨isWrite, ?_⟩
            rw [isRegister, ← same]
            rfl
          | negSucc below => contradiction
        · rfl
      obtain ⟨other, inside, written⟩ := ih (kept.symm ▸ changed)
      exact ⟨other, .tail _ inside, written⟩

/-- A byte that has changed was written. -/
theorem exists_write_byte {accesses : List Access} {before after : Holdings}
    (replays : Replays order accesses before after) {place : Nat}
    (changed : after.bytes[place]? ≠ before.bytes[place]?) :
    ∃ access ∈ accesses, access.kind = .write ∧ access.touches place = true := by
  induction replays with
  | nil => exact absurd rfl changed
  | @cons access rest before after shown _ ih =>
    by_cases here : access.kind = .write ∧ access.touches place = true
    · exact ⟨access, List.mem_cons_self, here⟩
    · have kept : (access.replay order before).bytes[place]? = before.bytes[place]? := by
        unfold Access.replay
        split
        · rfl
        · rfl
        · rename_i address isWrite isMemory
          have known := shown.before
          simp only [Access.current?, isMemory, Option.ite_none_right_eq_some, Memory.holds,
            decide_eq_true_eq] at known
          simp only [Access.touches, isMemory, isWrite, true_and, decide_eq_true_eq] at here
          rcases Int.lt_or_le access.width 0 with negative | positive
          · rw [Int.toNat_of_nonpos (Int.le_of_lt negative)]
            cases order <;> rfl
          · have length : (order.bytesOf access.width.toNat access.after).length =
                access.width.toNat := Endianness.length_bytesOf ..
            rw [Memory.getElem?_overwrite _ (by omega), if_neg (by omega)]
      obtain ⟨other, inside, written⟩ := ih (kept.symm ▸ changed)
      exact ⟨other, .tail _ inside, written⟩

end Replays

/-! ### Primitive steps -/

namespace RegisterFile

@[simp] theorem length_generalValues (file : RegisterFile) :
    file.generalValues.length = Register.zeroSlot := by
  simp [generalValues, Register.zeroSlot]

/-- A general register holds what stands in its slot. -/
theorem getElem?_generalValues (file : RegisterFile) {slot : Nat}
    (general : slot < Register.zeroSlot) : file.generalValues[slot]? = some (file.value slot) := by
  have small : slot < 32 := Nat.lt_succ_of_lt general
  rw [generalValues, List.getElem?_take, if_pos general, value_of_lt file small]
  simp

/-- A write replaces the value of its register, and none if it is the zero register. -/
theorem generalValues_afterWrite (file : RegisterFile) {slot : Nat} (value : Int)
    (small : slot < 32) :
    (file.afterWrite slot value).generalValues =
      file.generalValues.set slot (Bits.wrap 64 value) := by
  apply List.ext_getElem?
  intro place
  by_cases general : place < Register.zeroSlot
  · have apart : place ≠ Register.zeroSlot := Nat.ne_of_lt general
    rw [getElem?_generalValues _ general, value_afterWrite file value small
      (Nat.lt_succ_of_lt general), if_neg apart, List.getElem?_set, length_generalValues,
      getElem?_generalValues _ general]
    simp only [eq_comm (b := place)]
    split
    · rename_i here
      rw [if_pos (here ▸ general)]
    · rfl
  · rw [List.getElem?_eq_none (by simpa using general),
      List.getElem?_eq_none (by simpa using general)]

/-- Registers that are the same have the same general values. -/
theorem generalValues_recorded (file : RegisterFile) (kind : AccessKind) (number : Int)
    (before after : Nat) :
    (file.recorded kind number before after).generalValues = file.generalValues := by
  rw [recorded_eq]
  rfl

end RegisterFile

/-- A change of a state that is on record: it was made by accesses that lead from what was held to
what is held, and where accesses are tracked, the record has grown by them. -/
structure CoreState.OnRecord (before after : CoreState) : Prop where
  endianness : after.memory.endianness = before.memory.endianness
  trackingRegisters : after.registers.tracking = before.registers.tracking
  trackingMemory : after.memory.tracking = before.memory.tracking
  registers : ∃ accesses,
    after.registers.log =
        before.registers.log ++ (if before.registers.tracking then accesses else []) ∧
      (∀ access ∈ accesses, access.isMemory = false) ∧
      ∀ order bytes, Replays order accesses ⟨before.registers.generalValues, bytes⟩
        ⟨after.registers.generalValues, bytes⟩
  memory : ∃ accesses,
    after.memory.log = before.memory.log ++ (if before.memory.tracking then accesses else []) ∧
      (∀ access ∈ accesses, access.isMemory = true) ∧
      ∀ registers, Replays before.memory.endianness accesses ⟨registers, before.memory.bytes⟩
        ⟨registers, after.memory.bytes⟩

namespace CoreState.OnRecord

/-- Registers that are as they were have no access. -/
theorem noRegisters {before after : CoreState} (same : after.registers = before.registers) :
    ∃ accesses,
      after.registers.log =
          before.registers.log ++ (if before.registers.tracking then accesses else []) ∧
        (∀ access ∈ accesses, access.isMemory = false) ∧
        ∀ order bytes, Replays order accesses ⟨before.registers.generalValues, bytes⟩
          ⟨after.registers.generalValues, bytes⟩ :=
  ⟨[], by simp [same], by simp, fun _ _ => same ▸ .nil _⟩

/-- Memory that is as it was has no access. -/
theorem noMemory {before after : CoreState} (same : after.memory = before.memory) :
    ∃ accesses,
      after.memory.log = before.memory.log ++ (if before.memory.tracking then accesses else []) ∧
        (∀ access ∈ accesses, access.isMemory = true) ∧
        ∀ registers, Replays before.memory.endianness accesses ⟨registers, before.memory.bytes⟩
          ⟨registers, after.memory.bytes⟩ :=
  ⟨[], by simp [same], by simp, fun _ => same ▸ .nil _⟩

/-- A change of something else needs no record. -/
theorem of_same {before after : CoreState} (registers : after.registers = before.registers)
    (memory : after.memory = before.memory) : before.OnRecord after where
  endianness := by rw [memory]
  trackingRegisters := by rw [registers]
  trackingMemory := by rw [memory]
  registers := noRegisters registers
  memory := noMemory memory

/-- Records that grow one after the other. -/
theorem append_ite {tracking : Bool} {log middle last accesses more : List Access}
    (one : middle = log ++ (if tracking then accesses else []))
    (other : last = middle ++ (if tracking then more else [])) :
    last = log ++ (if tracking then accesses ++ more else []) := by
  rw [other, one]
  cases tracking <;> simp

theorem trans {first second third : CoreState} (one : first.OnRecord second)
    (other : second.OnRecord third) : first.OnRecord third where
  endianness := other.endianness.trans one.endianness
  trackingRegisters := other.trackingRegisters.trans one.trackingRegisters
  trackingMemory := other.trackingMemory.trans one.trackingMemory
  registers := by
    obtain ⟨accesses, log, plain, replays⟩ := one.registers
    obtain ⟨more, log', plain', replays'⟩ := other.registers
    rw [one.trackingRegisters] at log'
    exact ⟨accesses ++ more, append_ite log log', List.forall_mem_append.mpr ⟨plain, plain'⟩,
      fun order bytes => (replays order bytes).append (replays' order bytes)⟩
  memory := by
    obtain ⟨accesses, log, plain, replays⟩ := one.memory
    obtain ⟨more, log', plain', replays'⟩ := other.memory
    rw [one.trackingMemory] at log'
    exact ⟨accesses ++ more, append_ite log log', List.forall_mem_append.mpr ⟨plain, plain'⟩,
      fun registers => (replays registers).append (one.endianness ▸ replays' registers)⟩

/-- A change of registers by an access that goes on record, unless it is one of the zero register.
-/
theorem of_recorded (state : CoreState) {file : RegisterFile} {kind : AccessKind} {slot : Nat}
    {value result : Nat} (tracking : file.tracking = state.registers.tracking)
    (log : file.log = state.registers.log)
    (general : slot ≠ Register.zeroSlot → ∀ order bytes,
      Replays order [⟨kind, .register slot, value, result, 8⟩]
        ⟨state.registers.generalValues, bytes⟩ ⟨file.generalValues, bytes⟩)
    (zero : slot = Register.zeroSlot →
      file.generalValues = state.registers.generalValues) :
    state.OnRecord { state with registers := file.recorded kind slot value result } where
  endianness := rfl
  trackingRegisters := by rw [RegisterFile.recorded_eq, tracking]
  trackingMemory := rfl
  registers := by
    rw [RegisterFile.recorded_eq, log, tracking]
    by_cases isZero : slot = Register.zeroSlot
    · refine ⟨[], by simp [isZero], by simp, fun order bytes => ?_⟩
      rw [← zero isZero]
      exact .nil _
    · have named : (slot : Int) ≠ Register.zeroSlot := by omega
      exact ⟨_, by simp only [ne_eq, named, not_false_eq_true, and_true], by simp [Access.isMemory],
        general isZero⟩
  memory := noMemory rfl

/-- A read of a register is on record. -/
theorem readRegister (state : CoreState) {slot : Nat} (small : slot < 32) :
    state.OnRecord { state with registers := state.registers.afterRead slot } := by
  refine of_recorded state rfl rfl (fun general order bytes => ?_) fun _ => rfl
  refine .single ⟨?_, fun _ => rfl⟩
  exact RegisterFile.getElem?_generalValues _ (Nat.lt_of_le_of_ne (Nat.le_of_lt_succ small) general)

/-- A write of a register is on record. -/
theorem writeRegister (state : CoreState) {slot : Nat} (value : Int) (small : slot < 32) :
    state.OnRecord { state with registers := state.registers.afterWrite slot value } := by
  have values := state.registers.generalValues_afterWrite value small
  rw [RegisterFile.afterWrite_eq _ _ small, RegisterFile.generalValues_recorded] at values
  rw [RegisterFile.afterWrite_eq _ _ small]
  refine of_recorded state rfl rfl (fun general order bytes => ?_) fun isZero => ?_
  · rw [values]
    refine .single ⟨?_, fun impossible => by contradiction⟩
    rw [← RegisterFile.value_of_lt _ small]
    exact RegisterFile.getElem?_generalValues _
      (Nat.lt_of_le_of_ne (Nat.le_of_lt_succ small) general)
  · rw [values]
    exact List.set_eq_of_length_le (by simp [isZero])

/-- A change of memory by an access that goes on record. -/
theorem of_memory (state : CoreState) {kind : AccessKind} {address width value result : Nat}
    {bytes : Array UInt8}
    (replays : ∀ registers, Replays state.memory.endianness
      [⟨kind, .memory address, value, result, width⟩] ⟨registers, state.memory.bytes⟩
      ⟨registers, bytes⟩) :
    state.OnRecord { state with
      memory :=
        { state.memory.recorded kind address value result width with bytes := bytes } } where
  endianness := Memory.endianness_recorded ..
  trackingRegisters := rfl
  trackingMemory := Memory.tracking_recorded ..
  registers := noRegisters rfl
  memory := by
    refine ⟨_, ?_, ?_, replays⟩
    · cases tracked : state.memory.tracking <;> simp [Memory.recorded, tracked]
    · simp [Access.isMemory]

/-- A read of memory is on record. -/
theorem load (state : CoreState) {address width : Nat}
    (fits : address + width ≤ state.memory.size) :
    state.OnRecord { state with memory := state.memory.afterLoad address width } := by
  have same : state.memory.afterLoad address width =
      { state.memory.recorded .read address (state.memory.valueAt address width)
          (state.memory.valueAt address width) width with bytes := state.memory.bytes } := by
    rw [Memory.afterLoad, ← Memory.bytes_recorded]
  rw [same]
  refine of_memory state fun registers => .single ⟨?_, fun _ => rfl⟩
  exact if_pos (Memory.holds_iff.mpr fits)

/-- A write of memory is on record. -/
theorem store (state : CoreState) {address width : Nat} (value : Nat)
    (fits : address + width ≤ state.memory.size) :
    state.OnRecord { state with memory := state.memory.afterStore address width value } := by
  refine of_memory state fun registers => ?_
  have shown : Access.Shows state.memory.endianness
      ⟨.write, .memory address, state.memory.valueAt address width, value % 2 ^ (8 * width), width⟩
      ⟨registers, state.memory.bytes⟩ :=
    ⟨if_pos (Memory.holds_iff.mpr fits), fun impossible => by contradiction⟩
  have replays := Replays.single shown
  simp only [Access.replay, Int.toNat_natCast, Endianness.bytesOf_mod] at replays
  exact replays

end CoreState.OnRecord

open Execution in
/-- Every primitive step of an execution is on record. -/
instance : HoldsOverSteps CoreState.OnRecord where
  refl state := .of_same rfl rfl
  trans := .trans
  readRegister slot size state := by
    rw [readRegister_eq]
    split
    · rename_i small
      exact .readRegister state small
    · exact .of_same rfl rfl
  writeRegister slot value size state := by
    rw [writeRegister_eq]
    split
    · rename_i small
      exact .writeRegister state _ small
    · exact .of_same rfl rfl
  setFlags flags state := .of_same rfl rfl
  load address width state := by
    rw [load_eq]
    split
    · rename_i fits
      exact .load state fits
    · exact .of_same rfl rfl
  store address width value state := by
    rw [store_eq]
    split
    · rename_i fits
      exact .store state value fits
    · exact .of_same rfl rfl

/-! ### Steps -/

/-- A register that an access names is a general one. -/
def Access.IsGeneral (access : Access) : Prop :=
  ∀ number, access.location = .register number → 0 ≤ number ∧ number < Register.zeroSlot

namespace Machine

open InstructionSet

/-- The accesses of a step that notifies are a complete and faithful record of it. One after the
other they show what stands at their locations and lead from what registers and memory held before
the step to what they hold after it. Those of registers come first, and none is of the zero
register. Whatever register or byte the step has changed was written by one of them. -/
theorem replays_accesses {machine : Machine} {snapshot : Snapshot}
    (done : (machine.step true).1 = .ok snapshot) :
    Replays machine.core.memory.endianness snapshot.accesses machine.core.holdings
        (machine.step true).2.core.holdings ∧
      snapshot.accesses = snapshot.registerAccesses ++ snapshot.memoryAccesses ∧
      (∀ access ∈ snapshot.accesses, access.IsGeneral) ∧
      (∀ slot : Nat, slot < Register.zeroSlot →
        (machine.step true).2.core.registers.value slot ≠ machine.core.registers.value slot →
        ∃ access ∈ snapshot.accesses, access.kind = .write ∧ access.location = .register slot) ∧
      ∀ place : Nat,
        (machine.step true).2.core.memory.bytes[place]? ≠ machine.core.memory.bytes[place]? →
        ∃ access ∈ snapshot.accesses, access.kind = .write ∧ access.touches place = true := by
  obtain ⟨fetched, target, core, _, executed, completed⟩ := exists_completed done
  have recorded := CoreState.holds_execute CoreState.OnRecord
    (machine.core.withoutRecords.track true) snapshot.instruction
  rw [executed] at recorded
  obtain ⟨registers, log, plain, replays⟩ := recorded.registers
  obtain ⟨memory, log', isMemory, replays'⟩ := recorded.memory
  have accesses : snapshot.accesses = registers ++ memory := by
    rw [completed.accesses, CoreState.accesses, log, log']
    rfl
  have whole : Replays machine.core.memory.endianness snapshot.accesses machine.core.holdings
      (machine.step true).2.core.holdings := by
    rw [accesses, completed.core]
    exact (replays _ _).append (replays' _)
  refine ⟨whole, ?_, fun access inside number named => ?_, fun slot general changed => ?_,
    fun place changed => whole.exists_write_byte changed⟩
  · have none : registers.filter Access.isMemory = [] :=
      List.filter_eq_nil_iff.mpr fun access inside => by simp [plain access inside]
    have all : registers.filter (fun access => !access.isMemory) = registers :=
      List.filter_eq_self.mpr fun access inside => by simp [plain access inside]
    have none' : memory.filter (fun access => !access.isMemory) = [] :=
      List.filter_eq_nil_iff.mpr fun access inside => by simp [isMemory access inside]
    have all' : memory.filter Access.isMemory = memory := List.filter_eq_self.mpr isMemory
    rw [Snapshot.registerAccesses, Snapshot.memoryAccesses, accesses, List.filter_append,
      List.filter_append, none, all, none', all', List.append_nil, List.nil_append]
  · obtain ⟨slot, small, rfl⟩ := whole.exists_register access inside number named
    rw [CoreState.holdings, RegisterFile.length_generalValues] at small
    omega
  · refine whole.exists_write_register ?_
    rw [CoreState.holdings, CoreState.holdings, RegisterFile.getElem?_generalValues _ general,
      RegisterFile.getElem?_generalValues _ general]
    exact fun same => changed (Option.some.inj same)

/-- A machine with an `ldr x0, [x0], #8` at the start of its memory, which loads the register that
it then writes back. -/
def reloadedBase : Machine :=
  ofMemory (.ofBytes .little #[0x00, 0x84, 0x40, 0xf8, 1, 2, 3, 4])

/-- The record has the loaded value both as what is written over the base and as what the base is
written back over. -/
theorem replays_accesses_reloadedBase :
    ∃ snapshot, (reloadedBase.step true).1 = .ok snapshot ∧
      snapshot.accesses =
        [⟨.read, .register 0, 0, 0, 8⟩, ⟨.write, .register 0, 0, 0x04030201f8408400, 8⟩,
          ⟨.write, .register 0, 0x04030201f8408400, 8, 8⟩,
          ⟨.read, .memory 0, 0x04030201f8408400, 0x04030201f8408400, 8⟩] ∧
      Replays .little snapshot.accesses reloadedBase.core.holdings
        (reloadedBase.step true).2.core.holdings := by
  obtain ⟨instruction, decoded, op, read⟩ :=
    @exists_decode_fields 0xf8408400 0 .transferNear "ldr"
      [('x', 3), ('c', 1), ('I', 8), ('w', 1), ('n', 0), ('t', 0)] (by decide +kernel)
      (by decide +kernel)
  have fetched := @fetch_of_decode reloadedBase 0xf8408400 instruction (by decide) rfl rfl decoded
  have executed : ((reloadedBase.core.withoutRecords.track true).execute instruction).1 = .ok none ∧
      ((reloadedBase.core.withoutRecords.track true).execute instruction).2.accesses =
        [⟨.read, .register 0, 0, 0, 8⟩, ⟨.write, .register 0, 0, 0x04030201f8408400, 8⟩,
          ⟨.write, .register 0, 0x04030201f8408400, 8, 8⟩,
          ⟨.read, .memory 0, 0x04030201f8408400, 0x04030201f8408400, 8⟩] := by
    obtain ⟨address, word, form, fields, bound⟩ := instruction
    simp only at op read
    subst read
    simp only [CoreState.execute, Execution.perform, op]
    exact ⟨rfl, rfl⟩
  obtain ⟨snapshot, done, _, completed⟩ := exists_snapshot decoded fetched executed.1
  exact ⟨snapshot, done, completed.accesses.trans executed.2, (replays_accesses done).1⟩

end Machine

end A64Machine
