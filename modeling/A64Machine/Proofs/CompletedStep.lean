import A64Machine.Machine
import A64Machine.Proofs.ExecutedFields

/-!
# What a step that completes does

A step that completes has fetched an instruction, which changes at most what is decoded, and executed
it from the state of the machine. It moves the program counter to the target of the branch that was
taken or to the next instruction, counts one step, and shows what it did together with the accesses
that were recorded meanwhile.
-/

namespace A64Machine

namespace Machine

open InstructionSet

/-! ### Fetching -/

/-- What is fetched does not depend on the records of accesses. -/
theorem fetch_withoutRecords (machine : Machine) :
    fetch { machine with core := machine.core.withoutRecords } =
      machine.fetch.map fun (instruction, fetched) =>
        (instruction, { fetched with core := fetched.core.withoutRecords }) := by
  have origin : machine.core.withoutRecords.memory.peekOrigin machine.pc Instruction.byteLength =
      machine.core.memory.peekOrigin machine.pc Instruction.byteLength := rfl
  unfold fetch
  simp only [origin]
  split
  · rfl
  · cases machine.decoded[machine.pc / Instruction.byteLength]? with
    | none => rfl
    | some slot =>
      cases slot with
      | some instruction => rfl
      | none =>
        cases machine.core.memory.peekOrigin machine.pc Instruction.byteLength with
        | error fault => rfl
        | ok word =>
          cases read : instructionOf machine.pc word <;> simp only [read] <;> rfl

/-- Where nothing is decoded yet, a fetch decodes what the origin holds. -/
theorem fetch_of_decode {machine : Machine} {word : Nat} {instruction : Instruction}
    (aligned : machine.pc % Instruction.byteLength = 0)
    (unknown : machine.decoded[machine.pc / Instruction.byteLength]? = some none)
    (peeked : machine.core.memory.peekOrigin machine.pc Instruction.byteLength = .ok word)
    (decoded : Codec.a64.decode word machine.pc = .ok (some instruction)) :
    machine.fetch = .ok (instruction,
      { machine with
        decoded := machine.decoded.setIfInBounds (machine.pc / Instruction.byteLength)
          (some instruction) }) := by
  unfold fetch
  simp only [aligned, unknown, peeked, instructionOf, decoded]
  rfl

/-- A step without an instruction has the fault of its fetch. -/
theorem step_of_fetch_error {machine : Machine} {fault : StepFault}
    (failed : machine.fetch = .error fault) (notify : Bool) :
    machine.step notify =
      (.error fault, { machine with core := machine.core.withoutRecords }) := by
  have sameFetch := machine.fetch_withoutRecords
  rw [failed] at sameFetch
  simp only [step, sameFetch, Except.map]

/-- A step executes the instruction that it fetches. -/
theorem step_of_fetch {machine fetched : Machine} {instruction : Instruction}
    (found : machine.fetch = .ok (instruction, fetched)) (notify : Bool) :
    machine.step notify =
      executeFetched { fetched with core := fetched.core.withoutRecords } notify instruction := by
  have sameFetch := machine.fetch_withoutRecords
  rw [found] at sameFetch
  simp only [step, sameFetch, Except.map]

/-- A fetch changes at most what is decoded. -/
theorem fetch_keeps {machine fetched : Machine} {instruction : Instruction}
    (found : machine.fetch = .ok (instruction, fetched)) :
    fetched.pc = machine.pc ∧ fetched.steps = machine.steps ∧ fetched.core = machine.core := by
  unfold fetch at found
  simp only at found
  split at found
  · contradiction
  · split at found
    · contradiction
    · obtain ⟨_, rfl⟩ := Prod.mk.inj (Except.ok.inj found)
      exact ⟨rfl, rfl, rfl⟩
    · split at found
      · contradiction
      · rename_i word _
        cases read : instructionOf machine.pc word with
        | error fault =>
          rw [read] at found
          contradiction
        | ok decoded =>
          rw [read] at found
          obtain ⟨_, rfl⟩ := Prod.mk.inj (Except.ok.inj found)
          exact ⟨rfl, rfl, rfl⟩

/-- A step fails as the instruction that it fetches does. -/
theorem step_of_execute_error {machine fetched : Machine} {notify : Bool}
    {instruction : Instruction} {fault : ExecutionFault}
    (found : machine.fetch = .ok (instruction, fetched))
    (failed : ((machine.core.withoutRecords.track notify).execute instruction).1 = .error fault) :
    machine.step notify = (.error (.ofExecution fault),
      { fetched with
        core := ((machine.core.withoutRecords.track notify).execute instruction).2.track false }) := by
  obtain ⟨_, _, sameCore⟩ := fetch_keeps found
  rw [step_of_fetch found, executeFetched]
  simp only [sameCore]
  revert failed
  rcases (machine.core.withoutRecords.track notify).execute instruction with ⟨outcome, core⟩
  rintro rfl
  rfl

/-! ### Completing -/

/-- How a step ends after an instruction with the given target, and from the given state. -/
structure Completed (before : Machine) (core : CoreState) (target : Option Nat)
    (snapshot : Snapshot) (after : Machine) : Prop where
  oldPc : snapshot.oldPc = before.pc
  newPc : snapshot.newPc = Bits.wrap 64 (target.getD (before.pc + Instruction.byteLength) : Nat)
  stepCount : snapshot.stepCount = before.steps + 1
  accesses : snapshot.accesses = core.accesses
  pc : after.pc = snapshot.newPc
  steps : after.steps = snapshot.stepCount
  core : after.core = (core.track false).withoutRecords

/-- The end of a step with a result. -/
theorem completed_of_complete {machine : Machine} {core : CoreState} {notify : Bool}
    {instruction : Instruction} {target : Option Nat} {snapshot : Snapshot}
    (done : (complete { machine with core := core.track false } notify instruction target).1 =
      .ok snapshot) :
    snapshot.instruction = instruction ∧ machine.Completed core target snapshot
      (complete { machine with core := core.track false } notify instruction target).2 := by
  unfold complete at *
  cases notify <;>
  · simp only [if_true, if_false, Bool.false_eq_true, symbolInfo, tellObserver] at *
    cases written : instruction.text with
    | error defect =>
      rw [written] at done
      contradiction
    | ok text =>
      rw [written] at done
      obtain rfl := Except.ok.inj done
      exact ⟨rfl, rfl, rfl, rfl, rfl, rfl, rfl, rfl⟩

/-- A step with a result has executed the instruction that it fetched. -/
theorem exists_completed {machine : Machine} {notify : Bool} {snapshot : Snapshot}
    (done : (machine.step notify).1 = .ok snapshot) :
    ∃ fetched target core, machine.fetch = .ok (snapshot.instruction, fetched) ∧
      (machine.core.withoutRecords.track notify).execute snapshot.instruction = (.ok target, core) ∧
      machine.Completed core target snapshot (machine.step notify).2 := by
  cases found : machine.fetch with
  | error fault =>
    rw [step_of_fetch_error found] at done
    contradiction
  | ok both =>
    obtain ⟨instruction, fetched⟩ := both
    obtain ⟨samePc, sameSteps, sameCore⟩ := fetch_keeps found
    rw [step_of_fetch found, executeFetched] at done ⊢
    simp only [sameCore] at done ⊢
    rcases executed : (machine.core.withoutRecords.track notify).execute instruction with
      ⟨_ | target, core⟩
    · rw [executed] at done
      contradiction
    · rw [executed] at done
      obtain ⟨rfl, completed⟩ := completed_of_complete done
      refine ⟨fetched, target, core, rfl, executed, ?_⟩
      exact ⟨completed.oldPc.trans samePc, samePc ▸ completed.newPc,
        sameSteps ▸ completed.stepCount, completed.accesses, completed.pc, completed.steps,
        completed.core⟩

/-- A step completes if the instruction that it fetches was decoded and its execution completes. -/
theorem exists_snapshot {machine fetched : Machine} {notify : Bool} {word address : Int}
    {instruction : Instruction}
    (decoded : Codec.a64.decode word address = .ok (some instruction))
    (found : machine.fetch = .ok (instruction, fetched)) {target : Option Nat}
    (executed : ((machine.core.withoutRecords.track notify).execute instruction).1 = .ok target) :
    ∃ snapshot, (machine.step notify).1 = .ok snapshot ∧ snapshot.instruction = instruction ∧
      machine.Completed ((machine.core.withoutRecords.track notify).execute instruction).2 target
        snapshot (machine.step notify).2 := by
  obtain ⟨text, written⟩ := exists_text decoded
  obtain ⟨_, _, sameCore⟩ := fetch_keeps found
  have done : ∃ snapshot, (machine.step notify).1 = .ok snapshot := by
    rw [step_of_fetch found, executeFetched]
    simp only [sameCore]
    revert executed
    rcases (machine.core.withoutRecords.track notify).execute instruction with ⟨outcome, core⟩
    rintro rfl
    simp only [complete]
    cases notify <;> simp [symbolInfo, tellObserver, written, Except.map]
  obtain ⟨snapshot, done⟩ := done
  obtain ⟨fetched', target', core, found', executed', completed⟩ := exists_completed done
  rw [found] at found'
  obtain ⟨rfl, _⟩ := Prod.mk.inj (Except.ok.inj found')
  rw [executed'] at executed ⊢
  obtain rfl := Except.ok.inj executed
  exact ⟨snapshot, done, rfl, completed⟩

/-- There is an instruction that leaves every state as it is. -/
theorem exists_decode_nop (address : Int) :
    ∃ instruction, Codec.a64.decode 0xd503201f address = .ok (some instruction) ∧
      instruction.form.mnemonic = "nop" ∧
      ∀ state : CoreState, state.execute instruction = (.ok none, state) := by
  obtain ⟨instruction, decoded, op, name⟩ :=
    @exists_decode_of_first 0xd503201f address .hint "nop" (by decide +kernel)
  refine ⟨instruction, decoded, name, fun state => ?_⟩
  simp only [CoreState.execute, Execution.perform, op]
  rfl

end Machine

end A64Machine
