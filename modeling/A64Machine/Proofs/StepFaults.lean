import A64Machine.Proofs.DecodeCache
import A64Machine.Proofs.Executable

/-!
# The faults of a step

A step fails only where memory is accessed out of bounds or where no instruction is found. That
the instruction at hand was decoded from some word is an invariant of the machine: what is kept of
earlier steps was decoded, and nothing but decoding adds to it. So the defects that other tables
could have never show, neither while an instruction is executed nor when its text is made.
-/

namespace A64Machine

/-- Whether a fault is one that a step may have: an access of memory out of bounds, or a word
without an instruction. -/
def StepFault.IsExpected : StepFault → Prop
  | .memory fault => fault.isAccessFault = true
  | .undecodable _ _ => True
  | .defective _ => False

namespace Machine

open InstructionSet

/-- Every instruction that a machine has kept was decoded from a word. -/
def KeepsDecoded (machine : Machine) : Prop :=
  ∀ (index : Nat) instruction, machine.decoded[index]? = some (some instruction) →
    ∃ word address : Int, Codec.a64.decode word address = .ok (some instruction)

/-- A machine that has kept nothing has kept decoded instructions only. -/
theorem keepsDecoded_of_undecoded {machine : Machine} {size : Nat}
    (fresh : machine.decoded = undecoded size) : machine.KeepsDecoded := by
  intro index instruction known
  rw [fresh, undecoded, Array.getElem?_replicate] at known
  split at known
  · exact absurd (Option.some.inj known) (by simp)
  · contradiction

/-- A word has an instruction, or its fault is an expected one. -/
theorem instructionOf_cases (address word : Nat) :
    (∃ instruction, instructionOf address word = .ok instruction ∧
      Codec.a64.decode word address = .ok (some instruction)) ∨
      ∃ fault, instructionOf address word = .error fault ∧ fault.IsExpected := by
  obtain ⟨found, decoded⟩ := exists_decode_eq_ok word address
  rw [instructionOf, decoded]
  cases found with
  | none => exact .inr ⟨.undecodable address word, rfl, trivial⟩
  | some instruction => exact .inl ⟨instruction, rfl, rfl⟩

/-- Keeping a decoded instruction keeps the invariant. -/
theorem KeepsDecoded.keep {machine : Machine} (kept : machine.KeepsDecoded) (index : Nat)
    {word address : Int} {instruction : Instruction}
    (decoded : Codec.a64.decode word address = .ok (some instruction)) :
    KeepsDecoded { machine with
      decoded := machine.decoded.setIfInBounds index (some instruction) } := by
  intro other instruction' known
  rw [Array.getElem?_setIfInBounds] at known
  split at known
  · split at known
    · obtain rfl := Option.some.inj (Option.some.inj known)
      exact ⟨word, address, decoded⟩
    · exact absurd known (by simp)
  · exact kept other instruction' known

/-- A fetch gives a decoded instruction and keeps the invariant, or its fault is an expected one. -/
theorem fetch_cases {machine : Machine} (kept : machine.KeepsDecoded) :
    (∃ instruction fetched, machine.fetch = .ok (instruction, fetched) ∧ fetched.KeepsDecoded ∧
      ∃ word address : Int, Codec.a64.decode word address = .ok (some instruction)) ∨
      ∃ fault, machine.fetch = .error fault ∧ fault.IsExpected := by
  rw [fetch]
  split
  · exact .inr ⟨.memory (.misaligned machine.pc Instruction.byteLength), rfl, rfl⟩
  · cases known : machine.decoded[machine.pc / Instruction.byteLength]? with
    | none =>
      simp only [known]
      exact .inr ⟨.memory (.pcOutside machine.pc machine.core.memory.size), rfl, rfl⟩
    | some slot =>
      cases slot with
      | some instruction =>
        simp only [known]
        exact .inl ⟨instruction, machine, rfl, kept, kept _ _ known⟩
      | none =>
        simp only [known]
        cases peeked : machine.core.memory.peekOrigin machine.pc Instruction.byteLength with
        | error fault =>
          exact .inr ⟨.memory fault, rfl, MemoryFault.isAccessFault_of_peekOrigin peeked⟩
        | ok word =>
          simp only
          rcases instructionOf_cases machine.pc word with
            ⟨instruction, read, decoded⟩ | ⟨fault, read, expected⟩
          · rw [read]
            exact .inl ⟨instruction, _, rfl, kept.keep _ decoded, word, machine.pc, decoded⟩
          · rw [read]
            exact .inr ⟨fault, rfl, expected⟩

/-- Executing an instruction that was fetched keeps what is decoded, and its fault is an expected
one if the instruction was decoded from a word. -/
theorem executeFetched_cases {machine : Machine} (notify : Bool) {word address : Int}
    {instruction : Instruction}
    (decoded : Codec.a64.decode word address = .ok (some instruction)) :
    (machine.executeFetched notify instruction).2.decoded = machine.decoded ∧
      ∀ fault, (machine.executeFetched notify instruction).1 = .error fault → fault.IsExpected := by
  have performed := CoreState.execute_iff.mp (ensures_perform decoded (machine.core.track notify))
  obtain ⟨text, written⟩ := exists_text decoded
  unfold executeFetched
  revert performed
  rcases (machine.core.track notify).execute instruction with ⟨outcome, core⟩
  intro performed
  cases outcome with
  | error fault =>
    obtain ⟨_, access, rfl, isAccess⟩ := performed
    refine ⟨rfl, fun fault same => ?_⟩
    rw [← Except.error.inj same]
    exact isAccess
  | ok target =>
    cases notify <;> simp [complete, symbolInfo, written, Except.map, tellObserver]

/-- A step keeps the invariant, and its fault is an expected one. -/
theorem step_cases {machine : Machine} (kept : machine.KeepsDecoded) (notify : Bool) :
    (machine.step notify).2.KeepsDecoded ∧
      ∀ fault, (machine.step notify).1 = .error fault → fault.IsExpected := by
  let quiet : Machine := { machine with core := machine.core.withoutRecords }
  have quietKept : quiet.KeepsDecoded := kept
  rw [step]
  rcases fetch_cases quietKept with
    ⟨instruction, fetched, found, fetchedKept, word, address, decoded⟩ | ⟨fault, failed, expected⟩
  · obtain ⟨same, faults⟩ := @executeFetched_cases fetched notify _ _ _ decoded
    simp only [quiet] at found
    simp only [found]
    exact ⟨by rw [KeepsDecoded, same]; exact fetchedKept, faults⟩
  · simp only [quiet] at failed
    simp only [failed]
    exact ⟨quietKept, fun other same => Except.error.inj same ▸ expected⟩

/-- A reset keeps the invariant. -/
theorem KeepsDecoded.reset {machine : Machine} (kept : machine.KeepsDecoded) :
    machine.reset.KeepsDecoded := by
  unfold Machine.reset
  simp only
  split
  · exact keepsDecoded_of_undecoded rfl
  · exact kept

/-- Every command keeps the invariant, and a step that it asks for has expected faults only. -/
theorem obey_cases {machine : Machine} (kept : machine.KeepsDecoded) (command : Command) :
    (machine.obey step command).2.KeepsDecoded ∧
      ∀ fault, (machine.obey step command).1 = .stepped (.error fault) → fault.IsExpected := by
  cases command with
  | loadOrigin image =>
    rw [obey, loadOrigin]
    cases machine.core.memory.loadOrigin image with
    | error error => exact ⟨kept, fun fault same => by contradiction⟩
    | ok memory =>
      have dropped : (dropDecoded
          { machine with core := { machine.core with memory := memory } }).KeepsDecoded :=
        keepsDecoded_of_undecoded rfl
      exact ⟨dropped.reset, fun fault same => by contradiction⟩
  | reset => exact ⟨kept.reset, fun fault same => by contradiction⟩
  | step notify =>
    obtain ⟨keeps, faults⟩ := step_cases kept notify
    exact ⟨keeps, fun fault same => faults fault (Response.stepped.inj same)⟩
  | writeRegister name value =>
    rw [obey, writeRegister?]
    cases NamedRegister.ofName? name with
    | none => exact ⟨kept, fun fault same => by contradiction⟩
    | some register =>
      refine ⟨?_, fun fault same => by contradiction⟩
      cases register <;> exact kept
  | writeMemory address width value =>
    rw [obey]
    cases machine.core.memory.write address width value <;>
      exact ⟨kept, fun fault same => by contradiction⟩

/-- Commands keep the invariant, and the steps that they ask for have expected faults only. -/
theorem run_cases {machine : Machine} (kept : machine.KeepsDecoded) (commands : List Command) :
    (machine.run commands).2.KeepsDecoded ∧
      ∀ fault, .stepped (.error fault) ∈ (machine.run commands).1 → fault.IsExpected := by
  induction commands generalizing machine with
  | nil => exact ⟨kept, fun fault among => by contradiction⟩
  | cons command rest ih =>
    obtain ⟨keptHere, here⟩ := obey_cases kept command
    obtain ⟨keptLater, later⟩ := ih keptHere
    refine ⟨keptLater, fun fault among => ?_⟩
    rcases List.mem_cons.mp among with first | among
    · exact here fault first.symm
    · exact later fault among

/-- Every decoded instruction can be executed: from any state it completes, or it accesses memory
out of bounds, which only loads and stores do. And whatever a machine is asked to do, its steps have
no other faults than accesses of memory out of bounds and words without an instruction, as long as
what it has kept was decoded, which is so at the beginning. -/
theorem decoded_executes :
    (∀ (word address : Int) (instruction : Instruction),
      Codec.a64.decode word address = .ok (some instruction) → ∀ state : CoreState,
        (∃ target after, state.execute instruction = (.ok target, after)) ∨
        ∃ fault after, state.execute instruction = (.error (.memory fault), after) ∧
          fault.isAccessFault = true ∧ instruction.form.op.isTransfer = true) ∧
    (∀ machine : Machine, machine.KeepsDecoded → ∀ (commands : List Command) (fault : StepFault),
      .stepped (.error fault) ∈ (machine.run commands).1 →
        (∃ access, fault = .memory access ∧ access.isAccessFault = true) ∨
          ∃ address word, fault = .undecodable address word) ∧
    ∀ (memory : Memory) (symbols : SymbolMap) (observer : Option Observer),
      KeepsDecoded { ofMemory memory with symbols := symbols, observer := observer } := by
  refine ⟨fun word address instruction decoded state => ?_,
    fun machine kept commands fault among => ?_,
    fun memory symbols observer => keepsDecoded_of_undecoded rfl⟩
  · have performed := CoreState.execute_iff.mp (ensures_perform decoded state)
    revert performed
    rcases state.execute instruction with ⟨outcome, after⟩
    intro performed
    cases outcome with
    | ok target => exact .inl ⟨target, after, rfl⟩
    | error fault =>
      obtain ⟨transfers, access, rfl, isAccess⟩ := performed
      exact .inr ⟨access, after, rfl, isAccess, transfers⟩
  · have expected := (run_cases kept commands).2 fault among
    cases fault with
    | memory access => exact .inl ⟨access, rfl, expected⟩
    | undecodable address word => exact .inr ⟨address, word, rfl⟩
    | defective fault => contradiction

/-- A machine at `ldr x0, [x0, #8]`, which is all of its memory. -/
def loadBehindEnd : Machine := ofMemory (.ofBytes .little #[0x00, 0x04, 0x40, 0xf9])

/-- The access of the load is out of bounds, and so is that of the step. -/
theorem decoded_executes_loadBehindEnd :
    loadBehindEnd.KeepsDecoded ∧
      (∃ instruction, Codec.a64.decode 0xf9400400 0 = .ok (some instruction) ∧
        ((loadBehindEnd.core.withoutRecords.track false).execute instruction).1 =
          .error (.memory (.outside 8 8 4)) ∧
        instruction.form.op.isTransfer = true) ∧
      .stepped (.error (.memory (.outside 8 8 4))) ∈ (loadBehindEnd.run [.step false]).1 ∧
      (MemoryFault.outside 8 8 4).isAccessFault = true := by
  obtain ⟨executes, expected, initial⟩ := decoded_executes
  have kept : loadBehindEnd.KeepsDecoded := initial _ [] none
  obtain ⟨instruction, decoded, op, read⟩ :=
    @exists_decode_fields 0xf9400400 0 .transferScaled "ldr"
      [('x', 3), ('c', 1), ('I', 1), ('n', 0), ('t', 0)] (by decide +kernel) (by decide +kernel)
  have fetched := @fetch_of_decode loadBehindEnd 0xf9400400 instruction rfl rfl rfl decoded
  have failed : ((loadBehindEnd.core.withoutRecords.track false).execute instruction).1 =
      .error (.memory (.outside 8 8 4)) := by
    obtain ⟨address, word, form, fields, bound⟩ := instruction
    simp only at op read
    subst read
    simp only [CoreState.execute, Execution.perform, op]
    rfl
  have transfers : instruction.form.op.isTransfer = true := by
    rcases executes _ _ instruction decoded (loadBehindEnd.core.withoutRecords.track false) with
      ⟨target, after, completed⟩ | ⟨fault, after, _, _, transfers⟩
    · rw [completed] at failed
      cases failed
    · exact transfers
  have stepped :
      .stepped (.error (.memory (.outside 8 8 4))) ∈ (loadBehindEnd.run [.step false]).1 := by
    have single (machine : Machine) :
      (machine.run [.step false]).1 = [.stepped (machine.step false).1] := rfl
    have faulted : (loadBehindEnd.step false).1 = .error (.memory (.outside 8 8 4)) :=
      congrArg Prod.fst (step_of_execute_error fetched failed)
    rw [single, faulted]
    exact List.mem_cons_self
  rcases expected loadBehindEnd kept [.step false] _ stepped with
    ⟨access, same, isAccess⟩ | ⟨address, word, same⟩
  · cases same
    exact ⟨kept, ⟨instruction, decoded, failed, transfers⟩, stepped, isAccess⟩
  · cases same

end Machine

end A64Machine
