import A64Machine.Proofs.AccessLog
import A64Machine.Proofs.FaultedStep

/-!
# Observing a machine

Whether a step notifies decides only whether its accesses are recorded and given out. Two machines
that differ in nothing but records, tracking and observers stay so whatever they are told to do,
also when one of them notifies at steps where the other does not, and also where steps fault and
leave unfinished records behind. Nothing of such a record shows up later: the accesses that a step
gives out are the ones that it made itself, and a step that does not notify gives out none.
-/

namespace A64Machine

/-! ### Executions -/

namespace CoreState

open Execution

/-- Reading memory changes the record at most. -/
theorem same_afterLoad (state : CoreState) (address width : Nat) :
    state.Same { state with memory := state.memory.afterLoad address width } :=
  ⟨rfl, rfl, Memory.endianness_recorded .., Memory.origin_recorded .., Memory.bytes_recorded ..⟩

/-- States that hold the same are kept so by every primitive step. -/
theorem holdsOverBoth_same (reads : (slot bits : Nat) → Prop) : HoldsOverBoth reads Same where
  agree same _ _ := by rw [same.value]
  readRegister {one other slot} same _ :=
    (one.same_afterRead slot).symm.trans (same.trans (other.same_afterRead slot))
  writeRegister value same small := by
    refine ⟨?_, same.status, same.endianness, same.origin, same.bytes⟩
    simp only [RegisterFile.afterWrite_eq _ _ small, RegisterFile.recorded_eq, same.registers]
  flags same := by rw [same.status]
  setFlags flags same := ⟨same.registers, rfl, same.endianness, same.origin, same.bytes⟩
  size same := same.size.symm
  valueAt address width same := by
    rw [Memory.valueAt, Memory.valueAt, same.endianness, same.bytes]
  load {one other} address width same :=
    (one.same_afterLoad address width).symm.trans (same.trans (other.same_afterLoad address width))
  store address width value same := by
    refine ⟨same.registers, same.status, ?_, ?_, ?_⟩
    · simp only [Memory.afterStore, Memory.endianness_recorded, same.endianness]
    · simp only [Memory.afterStore, Memory.origin_recorded, same.origin]
    · simp only [Memory.afterStore, same.endianness, same.bytes]

/-- States that hold the same before an instruction do so after it, and the instruction ends in the
same way. -/
theorem Same.execute {one other : CoreState} (same : one.Same other) (instruction : Instruction) :
    (one.execute instruction).1 = (other.execute instruction).1 ∧
      (one.execute instruction).2.Same (other.execute instruction).2 :=
  execute_alike (holdsOverBoth_same _) same

/-- What states that hold the same hold is all that is left of them without records. -/
theorem Same.withoutRecords {one other : CoreState} (same : one.Same other) (on : Bool) :
    one.withoutRecords.track on = other.withoutRecords.track on := by
  obtain ⟨⟨slots, tracking, log⟩, status, ⟨order, origin, bytes, tracking', log'⟩⟩ := one
  obtain ⟨⟨slots, tracking, log⟩, status, ⟨order, origin, bytes, tracking', log'⟩⟩ := other
  obtain ⟨rfl, rfl, rfl, rfl, rfl⟩ := same
  rfl

end CoreState

/-! ### What is left without accesses -/

/-- A snapshot without its accesses. -/
def Snapshot.withoutAccesses (snapshot : Snapshot) : Snapshot := { snapshot with accesses := [] }

/-- A response without the accesses of a step. -/
def Response.withoutAccesses : Response → Response
  | .stepped result => .stepped (result.map Snapshot.withoutAccesses)
  | response => response

/-- A command whose step does not notify. -/
def Command.silent : Command → Command
  | .step _ => .step false
  | command => command

namespace Machine

/-- Two machines differ at most in records of accesses, in whether accesses are tracked, and in
their observers. -/
structure Mirrors (one other : Machine) : Prop where
  pc : other.pc = one.pc
  steps : other.steps = one.steps
  core : one.core.Same other.core
  symbols : other.symbols = one.symbols
  decoded : other.decoded = one.decoded
  decodedSize : other.decodedSize = one.decodedSize

namespace Mirrors

variable {one other : Machine}

/-- The same instruction is fetched, or the fetch has the same fault. -/
theorem fetch (mirrors : one.Mirrors other) :
    (∃ fault, one.fetch = .error fault ∧ other.fetch = .error fault) ∨
      ∃ instruction next next', one.fetch = .ok (instruction, next) ∧
        other.fetch = .ok (instruction, next') ∧ next.Mirrors next' := by
  have origin : other.core.memory.peekOrigin one.pc Instruction.byteLength =
      one.core.memory.peekOrigin one.pc Instruction.byteLength := by
    rw [Memory.peekOrigin, Memory.peekOrigin, mirrors.core.origin, mirrors.core.endianness]
  unfold Machine.fetch
  simp only [mirrors.pc, mirrors.decoded, mirrors.core.size, origin]
  split
  · exact .inl ⟨_, rfl, rfl⟩
  · split
    · exact .inl ⟨_, rfl, rfl⟩
    · exact .inr ⟨_, one, other, rfl, rfl, mirrors⟩
    · split
      · exact .inl ⟨_, rfl, rfl⟩
      · rename_i word _
        cases instructionOf one.pc word with
        | error fault => exact .inl ⟨fault, rfl, rfl⟩
        | ok instruction =>
          exact .inr ⟨instruction, _, _, rfl, rfl,
            ⟨rfl, mirrors.steps, mirrors.core, mirrors.symbols, rfl, mirrors.decodedSize⟩⟩

/-- The end of a step shows the same up to its accesses. -/
theorem complete (mirrors : one.Mirrors other) (notify notify' : Bool) (instruction : Instruction)
    (target : Option Nat) :
    (one.complete notify instruction target).1.map Snapshot.withoutAccesses =
        (other.complete notify' instruction target).1.map Snapshot.withoutAccesses ∧
      (one.complete notify instruction target).2.Mirrors
        (other.complete notify' instruction target).2 ∧
      (one.core.accesses = other.core.accesses →
        (one.complete notify instruction target).1 =
          (other.complete notify' instruction target).1) := by
  have core : one.core.withoutRecords.Same other.core.withoutRecords :=
    (one.core.same_withoutRecords.symm.trans mirrors.core).trans other.core.same_withoutRecords
  unfold Machine.complete
  cases notify <;> cases notify' <;>
  · simp only [if_true, if_false, Bool.false_eq_true, symbolInfo, tellObserver, mirrors.pc,
      mirrors.steps, mirrors.symbols]
    cases instruction.text with
    | error defect =>
      exact ⟨rfl, ⟨rfl, rfl, core, rfl, mirrors.decoded, mirrors.decodedSize⟩, fun _ => rfl⟩
    | ok text =>
      refine ⟨rfl, ⟨rfl, rfl, core, rfl, mirrors.decoded, mirrors.decodedSize⟩, fun same => ?_⟩
      simp only [Except.map, same]

/-- An instruction that is executed ends in the same way, and shows the same up to its accesses. -/
theorem executeFetched (mirrors : one.Mirrors other) (notify notify' : Bool)
    (instruction : Instruction) :
    (one.executeFetched notify instruction).1.map Snapshot.withoutAccesses =
        (other.executeFetched notify' instruction).1.map Snapshot.withoutAccesses ∧
      (one.executeFetched notify instruction).2.Mirrors
        (other.executeFetched notify' instruction).2 ∧
      (one.core.track notify = other.core.track notify' →
        (one.executeFetched notify instruction).1 =
          (other.executeFetched notify' instruction).1) := by
  obtain ⟨sameOutcome, sameCore⟩ := ((one.core.same_track notify).symm.trans
    (mirrors.core.trans (other.core.same_track notify'))).execute instruction
  unfold Machine.executeFetched
  rcases first : (one.core.track notify).execute instruction with ⟨outcome, core⟩
  rcases second : (other.core.track notify').execute instruction with ⟨outcome', core'⟩
  rw [first, second] at sameOutcome sameCore
  obtain rfl : outcome = outcome' := sameOutcome
  have untracked : (core.track false).Same (core'.track false) :=
    (core.same_track false).symm.trans (sameCore.trans (core'.same_track false))
  cases outcome with
  | error fault =>
    exact ⟨rfl, ⟨mirrors.pc, mirrors.steps, untracked, mirrors.symbols, mirrors.decoded,
      mirrors.decodedSize⟩, fun _ => rfl⟩
  | ok target =>
    have executed : Machine.Mirrors { one with core := core.track false }
        { other with core := core'.track false } :=
      ⟨mirrors.pc, mirrors.steps, untracked, mirrors.symbols, mirrors.decoded, mirrors.decodedSize⟩
    obtain ⟨shown, after, accesses⟩ := executed.complete notify notify' instruction target
    refine ⟨shown, after, fun same => accesses ?_⟩
    rw [same, second] at first
    rw [(Prod.mk.inj first).2]

/-- A step ends in the same way, and shows the same up to its accesses. If it notifies on both sides
or on neither, it shows the same accesses too. -/
theorem step (mirrors : one.Mirrors other) (notify notify' : Bool) :
    (one.step notify).1.map Snapshot.withoutAccesses =
        (other.step notify').1.map Snapshot.withoutAccesses ∧
      (one.step notify).2.Mirrors (other.step notify').2 ∧
      (notify = notify' → (one.step notify).1 = (other.step notify').1) := by
  rcases mirrors.fetch with
    ⟨fault, failed, failed'⟩ | ⟨instruction, next, next', found, found', following⟩
  · rw [step_of_fetch_error failed, step_of_fetch_error failed']
    refine ⟨rfl, ⟨mirrors.pc, mirrors.steps, ?_, mirrors.symbols, mirrors.decoded,
      mirrors.decodedSize⟩, fun _ => rfl⟩
    exact (one.core.same_withoutRecords.symm.trans mirrors.core).trans
      other.core.same_withoutRecords
  · rw [step_of_fetch found, step_of_fetch found']
    have blank : Machine.Mirrors { next with core := next.core.withoutRecords }
        { next' with core := next'.core.withoutRecords } :=
      ⟨following.pc, following.steps,
        (next.core.same_withoutRecords.symm.trans following.core).trans
          next'.core.same_withoutRecords,
        following.symbols, following.decoded, following.decodedSize⟩
    obtain ⟨shown, after, accesses⟩ := blank.executeFetched notify notify' instruction
    refine ⟨shown, after, ?_⟩
    rintro rfl
    exact accesses (following.core.withoutRecords notify)

/-! ### Other commands -/

/-- A reset puts both machines at their start. -/
theorem reset (mirrors : one.Mirrors other) : one.reset.Mirrors other.reset := by
  have core : one.core.reset.Same other.core.reset :=
    ⟨rfl, rfl, mirrors.core.endianness, mirrors.core.origin, mirrors.core.origin⟩
  unfold Machine.reset
  simp only [core.size, mirrors.decodedSize]
  split
  · refine ⟨rfl, rfl, core, mirrors.symbols, ?_, ?_⟩
    · simp only [dropDecoded, core.size]
    · simp only [dropDecoded, core.size]
  · exact ⟨rfl, rfl, core, mirrors.symbols, mirrors.decoded, rfl⟩

/-- An image is loaded or refused on both sides. -/
theorem loadOrigin (mirrors : one.Mirrors other) (image : Array UInt8) :
    (∃ error, one.loadOrigin image = .error error ∧ other.loadOrigin image = .error error) ∨
      ∃ after after', one.loadOrigin image = .ok after ∧ other.loadOrigin image = .ok after' ∧
        after.Mirrors after' := by
  unfold Machine.loadOrigin Memory.loadOrigin
  split
  · exact .inl ⟨_, rfl, rfl⟩
  · refine .inr ⟨_, _, rfl, rfl, reset ⟨mirrors.pc, mirrors.steps, ?_, mirrors.symbols, rfl, rfl⟩⟩
    exact ⟨mirrors.core.registers, mirrors.core.status, mirrors.core.endianness, rfl, rfl⟩

/-- A register that is set by name is set on both sides. -/
theorem assign (mirrors : one.Mirrors other) (value : Int) (register : NamedRegister) :
    (one.assign value register).Mirrors (other.assign value register) := by
  have same := mirrors.core
  cases register with
  | pc => exact ⟨rfl, mirrors.steps, same, mirrors.symbols, mirrors.decoded, mirrors.decodedSize⟩
  | nzcv =>
    exact ⟨mirrors.pc, mirrors.steps, ⟨same.registers, rfl, same.endianness, same.origin,
      same.bytes⟩, mirrors.symbols, mirrors.decoded, mirrors.decodedSize⟩
  | general register =>
    refine ⟨mirrors.pc, mirrors.steps, ⟨?_, same.status, same.endianness, same.origin,
      same.bytes⟩, mirrors.symbols, mirrors.decoded, mirrors.decodedSize⟩
    simp only [Machine.assign, RegisterFile.poke?, RegisterFile.write?, RegisterFile.recorded_eq]
    cases RegisterFile.slot? register.slot with
    | none => exact same.registers
    | some slot =>
      simp only [Option.map_some, Option.getD_some, same.registers]

end Mirrors

end Machine

/-- Bytes are written or refused on both sides. -/
theorem CoreState.Same.write {one other : CoreState} (same : one.Same other)
    (address width value : Int) :
    (∃ fault, one.memory.write address width value = .error fault ∧
        other.memory.write address width value = .error fault) ∨
      ∃ memory memory', one.memory.write address width value = .ok memory ∧
        other.memory.write address width value = .ok memory' ∧
        Same { one with memory := memory } { other with memory := memory' } := by
  have peeked : other.memory.peek address width = one.memory.peek address width := by
    rw [Memory.peek, Memory.peek, Memory.readBytes, Memory.readBytes, same.size, same.bytes,
      same.endianness]
  unfold Memory.write
  rw [peeked]
  cases one.memory.peek address width with
  | error fault => exact .inl ⟨fault, rfl, rfl⟩
  | ok before =>
    rw [ok_bind rfl, ok_bind rfl]
    split
    · exact .inl ⟨_, rfl, rfl⟩
    · refine .inr ⟨_, _, rfl, rfl, same.registers, same.status, ?_, ?_, ?_⟩
      · simp only [Memory.endianness_recorded, same.endianness]
      · simp only [Memory.origin_recorded, same.origin]
      · simp only [Memory.bytes_recorded, Memory.endianness_recorded, same.endianness, same.bytes]

namespace Machine

/-- Commands that are the same but for notifying are the same or two steps. -/
theorem eq_or_step_of_silent {command observed : Command}
    (alike : command.silent = observed.silent) :
    command = observed ∨ ∃ notify notify', command = .step notify ∧ observed = .step notify' := by
  cases command <;> cases observed <;> simp_all [Command.silent]

/-- A command is answered alike up to the accesses of a step, whether it notifies or not. -/
theorem Mirrors.obey {one other : Machine} (mirrors : one.Mirrors other)
    {command observed : Command} (alike : command.silent = observed.silent) :
    (one.obey Machine.step command).1.withoutAccesses =
        (other.obey Machine.step observed).1.withoutAccesses ∧
      (one.obey Machine.step command).2.Mirrors (other.obey Machine.step observed).2 := by
  rcases eq_or_step_of_silent alike with rfl | ⟨notify, notify', rfl, rfl⟩
  · cases command with
    | step notify =>
      obtain ⟨shown, after, _⟩ := mirrors.step notify notify
      exact ⟨congrArg Response.stepped shown, after⟩
    | reset => exact ⟨rfl, mirrors.reset⟩
    | loadOrigin image =>
      rcases mirrors.loadOrigin image with
        ⟨error, refused, refused'⟩ | ⟨after, after', loaded, loaded', following⟩
      · simp only [Machine.obey, refused, refused']
        exact ⟨trivial, mirrors⟩
      · simp only [Machine.obey, loaded, loaded']
        exact ⟨trivial, following⟩
    | writeRegister name value =>
      simp only [Machine.obey, writeRegister?]
      cases NamedRegister.ofName? name with
      | none => exact ⟨rfl, mirrors⟩
      | some register => exact ⟨rfl, mirrors.assign value register⟩
    | writeMemory address width value =>
      rcases mirrors.core.write address width value with
        ⟨fault, refused, refused'⟩ | ⟨memory, memory', written, written', same⟩
      · simp only [Machine.obey, refused, refused']
        exact ⟨trivial, mirrors⟩
      · simp only [Machine.obey, written, written']
        exact ⟨trivial, mirrors.pc, mirrors.steps, same, mirrors.symbols, mirrors.decoded,
          mirrors.decodedSize⟩
  · obtain ⟨shown, after, _⟩ := mirrors.step notify notify'
    exact ⟨congrArg Response.stepped shown, after⟩

/-! ### Runs -/

open InstructionSet

/-- A step that does not notify gives out no accesses, whatever was left on record before it. -/
theorem accesses_of_silent {machine : Machine} {snapshot : Snapshot}
    (done : (machine.step false).1 = .ok snapshot) : snapshot.accesses = [] := by
  obtain ⟨_, _, core, _, executed, completed⟩ := exists_completed done
  have recorded := CoreState.holds_execute CoreState.OnRecord
    (machine.core.withoutRecords.track false) snapshot.instruction
  rw [executed] at recorded
  obtain ⟨_, log, _⟩ := recorded.registers
  obtain ⟨_, log', _⟩ := recorded.memory
  rw [completed.accesses, CoreState.accesses, log, log']
  rfl

/-- Commands are answered alike up to the accesses of their steps. -/
theorem Mirrors.run {one other : Machine} (mirrors : one.Mirrors other)
    {commands observed : List Command}
    (alike : commands.map Command.silent = observed.map Command.silent) :
    (one.run commands).1.map Response.withoutAccesses =
        (other.run observed).1.map Response.withoutAccesses ∧
      (one.run commands).2.Mirrors (other.run observed).2 := by
  induction commands generalizing one other observed with
  | nil =>
    obtain rfl := List.map_eq_nil_iff.mp alike.symm
    exact ⟨rfl, mirrors⟩
  | cons command rest ih =>
    obtain ⟨command', rest', rfl, first, later⟩ := List.map_eq_cons_iff.mp alike.symm
    obtain ⟨answered, following⟩ := mirrors.obey first.symm
    obtain ⟨answers, last⟩ := ih following later.symm
    exact ⟨List.cons_eq_cons.mpr ⟨answered, answers⟩, last⟩

/-- Observing a machine changes nothing that it does. Take two machines that differ at most in their
observers and in what is on record, and give them commands that differ at most in which steps
notify. Their answers are the same up to accesses, faults included, and behind them the registers,
the flags, the memory, the program counter and the number of steps are the same. Nor do records
leak: a step that does not notify then gives out no accesses, and one that notifies gives out the
same accesses on both sides, however many steps were recorded before it and however those ended. -/
theorem run_observed {one other : Machine} (mirrors : one.Mirrors other)
    {commands observed : List Command}
    (alike : commands.map Command.silent = observed.map Command.silent) :
    (one.run commands).1.map Response.withoutAccesses =
        (other.run observed).1.map Response.withoutAccesses ∧
      (one.run commands).2.Mirrors (other.run observed).2 ∧
      (∀ snapshot, ((one.run commands).2.step false).1 = .ok snapshot → snapshot.accesses = []) ∧
      ((one.run commands).2.step true).1 = ((other.run observed).2.step true).1 := by
  obtain ⟨answered, following⟩ := mirrors.run alike
  exact ⟨answered, following, fun _ done => accesses_of_silent done,
    (following.step true true).2.2 rfl⟩

/-- The machine whose `ldp` faults after its first access, with an observer. -/
def watchedPairAtEnd : Machine := { pairAtEnd with observer := some (.fresh none) }

/-- The step that faults halfway leaves three accesses on record. None of them shows in what comes
after it, and the machine goes on as the one that neither notifies nor has an observer. -/
theorem run_observed_pairAtEnd :
    pairAtEnd.Mirrors watchedPairAtEnd ∧
      [Command.step false].map Command.silent = [Command.step true].map Command.silent ∧
      (watchedPairAtEnd.run [.step true]).2.core.accesses.length = 3 ∧
      (pairAtEnd.run [.step false]).1.map Response.withoutAccesses =
        (watchedPairAtEnd.run [.step true]).1.map Response.withoutAccesses ∧
      ((pairAtEnd.run [.step false]).2.step true).1 =
        ((watchedPairAtEnd.run [.step true]).2.step true).1 := by
  have mirrors : pairAtEnd.Mirrors watchedPairAtEnd := ⟨rfl, rfl, .refl _, rfl, rfl, rfl⟩
  obtain ⟨answered, _, _, shown⟩ :=
    @run_observed _ _ mirrors [.step false] [.step true] rfl
  refine ⟨mirrors, rfl, ?_, answered, shown⟩
  obtain ⟨instruction, decoded, op, read⟩ :=
    @exists_decode_fields 0xa9400440 0 .transferPair "ldp"
      [('c', 2), ('w', 2), ('L', 1), ('I', 0), ('u', 1), ('n', 2), ('t', 0)] (by decide +kernel)
      (by decide +kernel)
  have executed :
      ((watchedPairAtEnd.core.withoutRecords.track true).execute instruction).1 =
          .error (.memory (.outside 8 8 12)) ∧
        ((watchedPairAtEnd.core.withoutRecords.track true).execute instruction).2.accesses.length =
          3 := by
    obtain ⟨address, word, form, fields, bound⟩ := instruction
    simp only at op read
    subst read
    simp only [CoreState.execute, Execution.perform, op]
    exact ⟨rfl, rfl⟩
  have fetched := @fetch_of_decode watchedPairAtEnd 0xa9400440 instruction (by decide) rfl rfl
    decoded
  have single (machine : Machine) : (machine.run [.step true]).2 = (machine.step true).2 := rfl
  rw [single, step_of_execute_error fetched executed.1]
  exact executed.2

end Machine

end A64Machine
