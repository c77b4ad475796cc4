import A64Machine.NamedRegister
import A64Machine.Proofs.CompletedStep
import A64Machine.Proofs.InstructionEffects
import A64Machine.Proofs.Memory
import A64Machine.Proofs.OpcodeTable

/-!
# Decoded instructions are as good as fresh ones

A machine keeps the instructions that it has decoded. Every one of them is what the origin of the
memory holds at its address: programs and direct writes change the working copy only, and a new
origin drops everything that was kept. So a machine that keeps nothing and decodes the origin
afresh at every step does the same, over any sequence of commands and whether steps fault or not.
-/

namespace A64Machine

/-! ### What programs leave alone -/

namespace Memory

/-- Two states of a memory that agree in all that instructions are decoded from: the byte order,
the origin and the size. Tracking is off in both or on in both. -/
structure SameCode (before after : Memory) : Prop where
  endianness : after.endianness = before.endianness
  origin : after.origin = before.origin
  size : after.size = before.size
  tracking : after.tracking = before.tracking

theorem SameCode.refl (memory : Memory) : SameCode memory memory := ⟨rfl, rfl, rfl, rfl⟩

theorem SameCode.trans {first second third : Memory} (one : SameCode first second)
    (other : SameCode second third) : SameCode first third where
  endianness := other.endianness.trans one.endianness
  origin := other.origin.trans one.origin
  size := other.size.trans one.size
  tracking := other.tracking.trans one.tracking

/-- A record of an access changes nothing else. -/
theorem sameCode_recorded (memory : Memory) (kind : AccessKind) (address before after : Nat)
    (width : Int) : SameCode memory (memory.recorded kind address before after width) := by
  unfold recorded
  split <;> exact ⟨rfl, rfl, rfl, rfl⟩

/-- Reading changes the record at most. -/
theorem sameCode_read {memory after : Memory} {address width : Int} {value : Nat}
    (read : memory.read address width = .ok (value, after)) : SameCode memory after := by
  unfold Memory.read at read
  cases peeked : memory.peek address width with
  | error fault => rw [peeked] at read; contradiction
  | ok value =>
    rw [peeked] at read
    obtain ⟨rfl, rfl⟩ := Prod.mk.inj (Except.ok.inj read)
    exact sameCode_recorded _ _ _ _ _ _

/-- Writing changes bytes of the working copy and the record. -/
theorem sameCode_write {memory after : Memory} {address width value : Int}
    (written : memory.write address width value = .ok after) : SameCode memory after := by
  unfold Memory.write at written
  obtain ⟨before, _, written⟩ := bind_eq_ok.mp written
  split at written
  · exact absurd written (by simp [throw, throwThe, MonadExceptOf.throw, bind, Except.bind])
  · obtain rfl := Except.ok.inj written
    refine .trans (sameCode_recorded memory .write address.toNat before _ width) ⟨rfl, rfl, ?_, rfl⟩
    exact size_overwrite _ _ _

end Memory

/-- Two states whose memories agree in what instructions are decoded from. -/
def CoreState.SameCode (before after : CoreState) : Prop := before.memory.SameCode after.memory

open Execution in
/-- No primitive step of an execution changes what instructions are decoded from. -/
instance : HoldsOverSteps CoreState.SameCode where
  refl state := .refl state.memory
  trans := .trans
  readRegister slot size state := by
    unfold readRegister
    split <;> exact .refl state.memory
  writeRegister slot value size state := by
    unfold writeRegister
    split <;> exact .refl state.memory
  setFlags flags state := .refl state.memory
  load address width state := by
    unfold load
    split
    · rename_i read
      exact Memory.sameCode_read read
    · exact .refl state.memory
  store address width value state := by
    unfold store
    split
    · rename_i written
      exact Memory.sameCode_write written
    · exact .refl state.memory

/-! ### Commands -/

/-- What can be asked of a machine: to load an origin, to be reset, to make a step, and to have a
named register or bytes of the working memory set. -/
inductive Command where
  | loadOrigin (image : Array UInt8)
  | reset
  | step (notify : Bool)
  | writeRegister (name : String) (value : Int)
  | writeMemory (address width value : Int)

/-- What a machine answers to a command. -/
inductive Response where
  | done
  | refused (error : SetupError)
  | stepped (result : Except StepFault Snapshot)
  | unknownRegister
  | memoryFault (fault : MemoryFault)

namespace Machine

/-- Carries out a command, given what a step is. A command that fails leaves the machine as it
is, except that a step leaves what it has done. -/
def obey (stepping : Machine → Bool → Except StepFault Snapshot × Machine) (machine : Machine) :
    Command → Response × Machine
  | .loadOrigin image =>
    match machine.loadOrigin image with
    | .ok machine => (.done, machine)
    | .error error => (.refused error, machine)
  | .reset => (.done, machine.reset)
  | .step notify =>
    let (result, machine) := stepping machine notify
    (.stepped result, machine)
  | .writeRegister name value =>
    match machine.writeRegister? name value with
    | some machine => (.done, machine)
    | none => (.unknownRegister, machine)
  | .writeMemory address width value =>
    match machine.core.memory.write address width value with
    | .ok memory => (.done, { machine with core := { machine.core with memory := memory } })
    | .error fault => (.memoryFault fault, machine)

/-- Carries out commands one after the other. -/
def obeyAll (obeying : Machine → Command → Response × Machine) (machine : Machine) :
    List Command → List Response × Machine
  | [] => ([], machine)
  | command :: rest =>
    let (response, machine) := obeying machine command
    let (responses, machine) := obeyAll obeying machine rest
    (response :: responses, machine)

/-- Carries out commands with the steps of the machine. -/
def run : Machine → List Command → List Response × Machine := obeyAll (obey step)

/-! ### The machine that keeps nothing -/

/-- The machine without room for decoded instructions. -/
def forget (machine : Machine) : Machine := { machine with decoded := #[], decodedSize := 0 }

/-- The machine that moreover has no observer. -/
def unobserved (machine : Machine) : Machine := { machine.forget with observer := none }

/-- The instruction that the origin holds at the program counter. -/
def decodeOrigin (machine : Machine) : Except StepFault Instruction :=
  let pc := machine.pc
  if pc % Instruction.byteLength ≠ 0 then .error (.memory (.misaligned pc Instruction.byteLength))
  else
    match machine.core.memory.peekOrigin pc Instruction.byteLength with
    | .error _ => .error (.memory (.pcOutside pc machine.core.memory.size))
    | .ok word => instructionOf pc word

/-- A step that decodes the instruction at the program counter from the origin. -/
def stepAfresh (machine : Machine) (notify : Bool) : Except StepFault Snapshot × Machine :=
  let machine := { machine with core := machine.core.withoutRecords }
  match machine.decodeOrigin with
  | .error fault => (.error fault, machine)
  | .ok instruction => machine.executeFetched notify instruction

/-- Carries out a command with steps that decode afresh, and keeps no decoded instruction. -/
def obeyAfresh (machine : Machine) (command : Command) : Response × Machine :=
  let (response, machine) := machine.obey stepAfresh command
  (response, machine.forget)

/-- Carries out commands with steps that decode afresh, on the machine that keeps nothing. -/
def runAfresh (machine : Machine) : List Command → List Response × Machine :=
  obeyAll obeyAfresh machine.forget

/-! ### The invariant -/

/-- The decoded instructions of a machine belong to its origin: there is a slot for every whole
instruction of the memory, and every filled slot holds what the origin has at its address. -/
structure Coherent (machine : Machine) : Prop where
  sizes : machine.core.memory.size = machine.core.memory.origin.size
  decodedSize : machine.decodedSize = machine.core.memory.size
  slots : machine.decoded.size = machine.core.memory.size / Instruction.byteLength
  filled : ∀ (index : Nat) instruction, machine.decoded[index]? = some (some instruction) →
    ∃ word, machine.core.memory.peekOrigin (Instruction.byteLength * index : Nat)
        Instruction.byteLength = .ok word ∧
      instructionOf (Instruction.byteLength * index) word = .ok instruction
  untracked : machine.core.memory.tracking = false

/-- What the origin holds at an address depends on the origin and the byte order. -/
theorem peekOrigin_congr {memory other : Memory} (same : memory.SameCode other)
    (address width : Int) : other.peekOrigin address width = memory.peekOrigin address width := by
  rw [Memory.peekOrigin, Memory.peekOrigin, same.origin, same.endianness]

/-- A change of a machine that leaves alone what instructions are decoded from, the decoded
instructions and the symbols. -/
structure Kept (before after : Machine) : Prop where
  code : before.core.SameCode after.core
  decoded : after.decoded = before.decoded
  decodedSize : after.decodedSize = before.decodedSize
  symbols : after.symbols = before.symbols

/-- Decoded instructions stay right as long as nothing changes what they were decoded from. -/
theorem Coherent.congr {machine other : Machine} (coherent : machine.Coherent)
    (kept : machine.Kept other) : other.Coherent where
  sizes := by rw [kept.code.size, kept.code.origin, coherent.sizes]
  decodedSize := by rw [kept.decodedSize, kept.code.size, coherent.decodedSize]
  slots := by rw [kept.decoded, kept.code.size, coherent.slots]
  filled index instruction known := by
    rw [kept.decoded] at known
    obtain ⟨word, peeked, read⟩ := coherent.filled index instruction known
    exact ⟨word, by rw [peekOrigin_congr kept.code, peeked], read⟩
  untracked := by rw [kept.code.tracking, coherent.untracked]

/-- A machine without decoded instructions is coherent. -/
theorem coherent_dropDecoded {machine : Machine}
    (sizes : machine.core.memory.size = machine.core.memory.origin.size)
    (untracked : machine.core.memory.tracking = false) : machine.dropDecoded.Coherent where
  sizes := sizes
  decodedSize := rfl
  slots := Array.size_replicate
  filled index instruction known := by
    rw [show machine.dropDecoded.decoded = undecoded machine.core.memory.size from rfl, undecoded,
      Array.getElem?_replicate] at known
    split at known
    · exact absurd (Option.some.inj known) (by simp)
    · contradiction
  untracked := untracked

/-- Keeping an instruction that the origin holds at its address leaves a machine coherent. -/
theorem Coherent.keep {machine : Machine} (coherent : machine.Coherent) {index word : Nat}
    {instruction : Instruction}
    (peeked : machine.core.memory.peekOrigin (Instruction.byteLength * index : Nat)
      Instruction.byteLength = .ok word)
    (decoded : instructionOf (Instruction.byteLength * index) word = .ok instruction) :
    Coherent { machine with
      decoded := machine.decoded.setIfInBounds index (some instruction) } where
  sizes := coherent.sizes
  decodedSize := coherent.decodedSize
  slots := by rw [Array.size_setIfInBounds, coherent.slots]
  filled other instruction' known := by
    rw [Array.getElem?_setIfInBounds] at known
    split at known
    · rename_i here
      subst here
      split at known
      · obtain rfl := Option.some.inj (Option.some.inj known)
        exact ⟨word, peeked, decoded⟩
      · exact absurd known (by simp)
    · exact coherent.filled other instruction' known
  untracked := coherent.untracked

/-- The origin has a word at an aligned address just when there is a slot for it. -/
theorem peekOrigin_eq_ok_iff {memory : Memory} {pc : Nat}
    (aligned : pc % Instruction.byteLength = 0) :
    (∃ word, memory.peekOrigin pc Instruction.byteLength = .ok word) ↔
      pc / Instruction.byteLength < memory.origin.size / Instruction.byteLength := by
  have bound : Memory.holds memory.origin.size pc Instruction.byteLength = true ↔
      pc / Instruction.byteLength < memory.origin.size / Instruction.byteLength := by
    simp only [Memory.holds, decide_eq_true_eq]
    unfold Instruction.byteLength at *
    omega
  rw [← bound, Memory.peekOrigin]
  split <;> simp_all

/-- A word has an instruction just when it decodes to one. -/
theorem instructionOf_eq_ok {address word : Nat} {instruction : Instruction} :
    instructionOf address word = .ok instruction ↔
      Codec.a64.decode word address = .ok (some instruction) := by
  unfold instructionOf
  generalize Codec.a64.decode word address = decoded
  cases decoded with
  | error defect => simp [outcomeOf]
  | ok found => cases found <;> simp [outcomeOf]

/-- Fetching from a coherent machine gives what its origin holds, and changes nothing but what is
known of the origin. -/
theorem fetch_of_coherent {machine : Machine} (coherent : machine.Coherent) :
    (∃ fault, machine.decodeOrigin = .error fault ∧ machine.fetch = .error fault) ∨
      ∃ instruction fetched, machine.decodeOrigin = .ok instruction ∧
        machine.fetch = .ok (instruction, fetched) ∧ fetched.forget = machine.forget ∧
        fetched.Coherent := by
  by_cases aligned : machine.pc % Instruction.byteLength = 0
  · have whole : Instruction.byteLength * (machine.pc / Instruction.byteLength) = machine.pc :=
      Nat.mul_div_cancel' (Nat.dvd_of_mod_eq_zero aligned)
    have slot := @peekOrigin_eq_ok_iff machine.core.memory _ aligned
    rw [← coherent.sizes, ← coherent.slots] at slot
    have fresh {word : Nat}
        (peeked : machine.core.memory.peekOrigin machine.pc Instruction.byteLength = .ok word) :
        machine.decodeOrigin = instructionOf machine.pc word := by
      simp [decodeOrigin, aligned, peeked]
    cases known : machine.decoded[machine.pc / Instruction.byteLength]? with
    | none =>
      have absent := Nat.not_lt.mpr (Array.getElem?_eq_none_iff.mp known)
      cases peeked : machine.core.memory.peekOrigin machine.pc Instruction.byteLength with
      | ok word => exact absurd (slot.mp ⟨word, peeked⟩) absent
      | error fault =>
        refine .inl ⟨.memory (.pcOutside machine.pc machine.core.memory.size), ?_, ?_⟩
        · simp [decodeOrigin, aligned, peeked]
        · simp [fetch, aligned, known]
    | some kept =>
      obtain ⟨word, peeked⟩ := slot.mpr (Array.getElem?_eq_some_iff.mp known).1
      cases kept with
      | some instruction =>
        obtain ⟨word', peeked', decoded⟩ := coherent.filled _ _ known
        rw [whole] at peeked' decoded
        refine .inr ⟨instruction, machine, (fresh peeked').trans decoded, ?_, rfl, coherent⟩
        simp [fetch, aligned, known]
      | none =>
        simp only [fetch, aligned, known, peeked, fresh peeked, ne_eq, not_true_eq_false,
          if_false]
        cases decoded : instructionOf machine.pc word with
        | error fault => exact .inl ⟨fault, rfl, rfl⟩
        | ok instruction =>
          refine .inr ⟨instruction, _, rfl, rfl, rfl, ?_⟩
          exact coherent.keep (by rw [whole]; exact peeked) (by rw [whole]; exact decoded)
  · refine .inl ⟨.memory (.misaligned machine.pc Instruction.byteLength), ?_, ?_⟩
    · exact if_pos aligned
    · rw [fetch, if_pos aligned]

/-! ### Steps -/

/-- Executing an instruction that was fetched looks neither at the decoded ones nor at the
observer. -/
theorem executeFetched_view {view : Machine → Machine} (known : view = forget ∨ view = unobserved)
    (machine : Machine) (notify : Bool) (instruction : Instruction) :
    (view machine).executeFetched notify instruction =
      ((machine.executeFetched notify instruction).1,
        view (machine.executeFetched notify instruction).2) := by
  have sameCore : (view machine).core = machine.core := by
    rcases known with rfl | rfl <;> rfl
  unfold executeFetched
  rw [sameCore]
  rcases (machine.core.track notify).execute instruction with ⟨outcome, core⟩
  cases outcome with
  | error fault => rcases known with rfl | rfl <;> rfl
  | ok target =>
    simp only [complete]
    rcases known with rfl | rfl <;> cases notify <;>
    · simp only [if_true, if_false, Bool.false_eq_true, symbolInfo, tellObserver]
      cases instruction.text <;> rfl

/-- The end of a step empties the records, keeps the decoded instructions and shows the instruction
with the place where it stands. -/
theorem complete_keeps {machine other : Machine} (kept : machine.Kept other) (notify : Bool)
    (instruction : Instruction) (target : Option Nat) :
    machine.Kept (other.complete notify instruction target).2 ∧
      ∀ snapshot, (other.complete notify instruction target).1 = .ok snapshot →
        snapshot.instruction = instruction ∧ snapshot.oldPc = other.pc := by
  have same := kept.code
  unfold complete
  cases notify <;>
  · simp only [if_true, if_false, Bool.false_eq_true, symbolInfo, tellObserver]
    cases instruction.text with
    | error defect =>
      exact ⟨⟨⟨same.endianness, same.origin, same.size, same.tracking⟩, kept.decoded,
        kept.decodedSize, kept.symbols⟩, fun snapshot done => absurd done (by simp [Except.map])⟩
    | ok text =>
      refine ⟨⟨⟨same.endianness, same.origin, same.size, same.tracking⟩, kept.decoded,
        kept.decodedSize, kept.symbols⟩, fun snapshot done => ?_⟩
      obtain rfl := Except.ok.inj done
      exact ⟨rfl, rfl⟩

/-- Executing an instruction keeps what is decoded and what it was decoded from, and shows the
instruction with the place where it stands. -/
theorem executeFetched_keeps {machine : Machine}
    (untracked : machine.core.memory.tracking = false) (notify : Bool) (instruction : Instruction) :
    machine.Kept (machine.executeFetched notify instruction).2 ∧
      ∀ snapshot, (machine.executeFetched notify instruction).1 = .ok snapshot →
        snapshot.instruction = instruction ∧ snapshot.oldPc = machine.pc := by
  have executed := CoreState.holds_execute CoreState.SameCode (machine.core.track notify) instruction
  unfold executeFetched
  revert executed
  rcases (machine.core.track notify).execute instruction with ⟨outcome, core⟩
  intro executed
  have kept : machine.Kept { machine with core := core.track false } :=
    ⟨⟨executed.endianness, executed.origin, executed.size, untracked.symm⟩, rfl, rfl, rfl⟩
  cases outcome with
  | error fault => exact ⟨kept, fun snapshot done => absurd done (by simp)⟩
  | ok target => exact complete_keeps kept notify instruction target

/-- A step of a coherent machine is the step that decodes afresh. It leaves the machine coherent
and changes neither what instructions are decoded from nor the symbols. -/
theorem step_of_coherent {machine : Machine} (coherent : machine.Coherent) (notify : Bool) :
    machine.forget.stepAfresh notify =
        ((machine.step notify).1, (machine.step notify).2.forget) ∧
      (machine.step notify).2.Coherent ∧ machine.core.SameCode (machine.step notify).2.core ∧
      (machine.step notify).2.symbols = machine.symbols := by
  let quiet : Machine := { machine with core := machine.core.withoutRecords }
  have emptied : machine.Kept quiet := ⟨⟨rfl, rfl, rfl, rfl⟩, rfl, rfl, rfl⟩
  have quietCoherent : quiet.Coherent := coherent.congr emptied
  have afresh : machine.forget.stepAfresh notify =
      match quiet.decodeOrigin with
      | .error fault => (.error fault, quiet.forget)
      | .ok instruction => quiet.forget.executeFetched notify instruction := rfl
  rw [afresh, step]
  rcases fetch_of_coherent quietCoherent with
    ⟨fault, decoded, fetched⟩ | ⟨instruction, next, decoded, fetched, sameRest, nextCoherent⟩
  · simp only [decoded, quiet, fetched]
    exact ⟨trivial, quietCoherent, emptied.code, trivial⟩
  · have sameCore : next.core = quiet.core := by
      show next.forget.core = quiet.forget.core
      rw [sameRest]
    have sameSymbols : next.symbols = machine.symbols := by
      show next.forget.symbols = quiet.forget.symbols
      rw [sameRest]
    obtain ⟨kept, _⟩ := executeFetched_keeps nextCoherent.untracked notify instruction
    simp only [decoded, quiet, fetched]
    refine ⟨?_, nextCoherent.congr kept, emptied.code.trans (sameCore ▸ kept.code),
      kept.symbols.trans sameSymbols⟩
    rw [← sameRest, executeFetched_view (.inl rfl)]

/-! ### Loading and resetting -/

/-- The machine at the start of an image, with nothing decoded. -/
def start (machine : Machine) (image : Array UInt8) : Machine :=
  { machine with
    pc := 0
    core := ⟨.initial, .clear, .ofBytes machine.core.memory.endianness image⟩
    steps := 0
    decoded := undecoded image.size
    decodedSize := image.size }

/-- Loading an image puts the machine at its start; an empty image is refused. -/
theorem loadOrigin_eq {machine : Machine} (untracked : machine.core.memory.tracking = false)
    (image : Array UInt8) :
    machine.loadOrigin image =
      if image.isEmpty then .error .emptyOrigin else .ok (machine.start image) := by
  unfold loadOrigin Memory.loadOrigin
  split
  · rfl
  · simp [Except.map, reset, dropDecoded, CoreState.reset, Memory.reset, Memory.size, start,
      Memory.ofBytes, untracked]

/-- A machine at the start of an image is coherent. -/
theorem coherent_start (machine : Machine) (image : Array UInt8) :
    (machine.start image).Coherent :=
  @coherent_dropDecoded (machine.start image) rfl rfl

/-- A reset puts a coherent machine at the start of its origin and keeps what is decoded. -/
theorem reset_eq {machine : Machine} (coherent : machine.Coherent) :
    machine.reset =
      { machine.start machine.core.memory.origin with
        decoded := machine.decoded, decodedSize := machine.decodedSize } := by
  have sizes : machine.core.reset.memory.size = machine.decodedSize := by
    rw [coherent.decodedSize, coherent.sizes]
    rfl
  rw [reset, if_neg (fun apart => apart sizes)]
  simp [CoreState.reset, Memory.reset, start, Memory.ofBytes, coherent.untracked]

/-- The origin after a command. -/
def originAfter (origin : Array UInt8) : Command → Array UInt8
  | .loadOrigin image => if image.isEmpty then origin else image
  | _ => origin

/-- A coherent machine obeys a command as the machine that keeps nothing does, and stays coherent.
Only loading a new origin changes what instructions are decoded from. -/
theorem obey_of_coherent {machine : Machine} (coherent : machine.Coherent) (command : Command) :
    machine.forget.obeyAfresh command =
        ((machine.obey step command).1, (machine.obey step command).2.forget) ∧
      (machine.obey step command).2.Coherent ∧
      (machine.obey step command).2.core.memory.endianness = machine.core.memory.endianness ∧
      (machine.obey step command).2.core.memory.origin =
        originAfter machine.core.memory.origin command ∧
      (machine.obey step command).2.symbols = machine.symbols := by
  cases command with
  | loadOrigin image =>
    simp only [obeyAfresh, obey, loadOrigin_eq coherent.untracked,
      @loadOrigin_eq machine.forget coherent.untracked, originAfter]
    cases image.isEmpty with
    | true => exact ⟨rfl, coherent, rfl, rfl, rfl⟩
    | false => exact ⟨rfl, coherent_start machine image, rfl, rfl, rfl⟩
  | reset =>
    have kept : machine.Kept machine.reset := by
      rw [reset_eq coherent]
      exact ⟨⟨rfl, rfl, coherent.sizes.symm, coherent.untracked.symm⟩, rfl, rfl, rfl⟩
    refine ⟨?_, coherent.congr kept, kept.code.endianness, kept.code.origin, kept.symbols⟩
    simp only [obeyAfresh, obey, reset]
    split <;> split <;> rfl
  | step notify =>
    obtain ⟨afresh, stepped, same, symbols⟩ := step_of_coherent coherent notify
    refine ⟨?_, stepped, same.endianness, same.origin, symbols⟩
    simp only [obeyAfresh, obey, afresh]
    rfl
  | writeRegister name value =>
    simp only [obeyAfresh, obey, writeRegister?]
    cases NamedRegister.ofName? name with
    | none => exact ⟨rfl, coherent, rfl, rfl, rfl⟩
    | some register =>
      cases register <;>
        exact ⟨rfl, coherent.congr ⟨.refl machine.core.memory, rfl, rfl, rfl⟩, rfl, rfl, rfl⟩
  | writeMemory address width value =>
    simp only [obeyAfresh, obey, show machine.forget.core = machine.core from rfl]
    cases written : machine.core.memory.write address width value with
    | error fault => exact ⟨rfl, coherent, rfl, rfl, rfl⟩
    | ok memory =>
      have same := Memory.sameCode_write written
      exact ⟨rfl, coherent.congr ⟨same, rfl, rfl, rfl⟩, same.endianness, same.origin, rfl⟩

/-! ### Runs -/

/-- A coherent machine obeys commands as the machine that keeps nothing does, and stays
coherent. -/
theorem run_of_coherent {machine : Machine} (coherent : machine.Coherent)
    (commands : List Command) :
    machine.runAfresh commands = ((machine.run commands).1, (machine.run commands).2.forget) ∧
      (machine.run commands).2.Coherent ∧
      (machine.run commands).2.core.memory.endianness = machine.core.memory.endianness ∧
      (machine.run commands).2.core.memory.origin =
        commands.foldl originAfter machine.core.memory.origin ∧
      (machine.run commands).2.symbols = machine.symbols := by
  induction commands generalizing machine with
  | nil => exact ⟨rfl, coherent, rfl, rfl, rfl⟩
  | cons command rest ih =>
    obtain ⟨afresh, kept, order, origin, symbols⟩ := obey_of_coherent coherent command
    obtain ⟨restAfresh, restKept, restOrder, restOrigin, restSymbols⟩ := ih kept
    refine ⟨?_, restKept, restOrder.trans order, ?_, restSymbols.trans symbols⟩
    · simp only [runAfresh, obeyAll, afresh]
      rw [show obeyAll obeyAfresh _ rest = _ from restAfresh]
      rfl
    · rw [List.foldl_cons, ← origin]
      exact restOrigin

/-- Commands in a row are obeyed one part after the other. -/
theorem run_append (machine : Machine) (commands later : List Command) :
    machine.run (commands ++ later) =
      ((machine.run commands).1 ++ ((machine.run commands).2.run later).1,
        ((machine.run commands).2.run later).2) := by
  induction commands generalizing machine with
  | nil => rfl
  | cons command rest ih =>
    simp only [run, List.cons_append, obeyAll] at ih ⊢
    rw [ih]

/-! ### Traces -/

/-- A step does the same whoever observes it. -/
theorem stepAfresh_unobserved (machine : Machine) (notify : Bool) :
    machine.unobserved.stepAfresh notify =
      ((machine.stepAfresh notify).1, (machine.stepAfresh notify).2.unobserved) := by
  let quiet : Machine := { machine with core := machine.core.withoutRecords }
  have observed : machine.stepAfresh notify =
      match quiet.decodeOrigin with
      | .error fault => (.error fault, quiet)
      | .ok instruction => quiet.executeFetched notify instruction := rfl
  have unobserved : machine.unobserved.stepAfresh notify =
      match quiet.decodeOrigin with
      | .error fault => (.error fault, quiet.unobserved)
      | .ok instruction => quiet.unobserved.executeFetched notify instruction := rfl
  rw [observed, unobserved]
  cases quiet.decodeOrigin with
  | error fault => rfl
  | ok instruction => exact executeFetched_view (.inr rfl) quiet notify instruction

/-- A command is obeyed alike whoever observes it. -/
theorem obeyAfresh_unobserved (machine : Machine) (command : Command) :
    machine.unobserved.obeyAfresh command =
      ((machine.obeyAfresh command).1, (machine.obeyAfresh command).2.unobserved) := by
  cases command with
  | loadOrigin image =>
    simp only [obeyAfresh, obey, loadOrigin,
      show machine.unobserved.core = machine.core from rfl]
    cases machine.core.memory.loadOrigin image with
    | error error => rfl
    | ok memory =>
      simp only [Except.map, reset]
      split <;> split <;> rfl
  | reset =>
    simp only [obeyAfresh, obey, reset]
    split <;> split <;> rfl
  | step notify =>
    simp only [obeyAfresh, obey, stepAfresh_unobserved]
    rfl
  | writeRegister name value =>
    simp only [obeyAfresh, obey, writeRegister?]
    cases NamedRegister.ofName? name with
    | none => rfl
    | some register => cases register <;> rfl
  | writeMemory address width value =>
    simp only [obeyAfresh, obey, show machine.unobserved.core = machine.core from rfl]
    cases machine.core.memory.write address width value <;> rfl

/-- Commands are obeyed alike whoever observes them. -/
theorem obeyAllAfresh_unobserved (machine : Machine) (commands : List Command) :
    obeyAll obeyAfresh machine.unobserved commands =
      ((obeyAll obeyAfresh machine commands).1,
        (obeyAll obeyAfresh machine commands).2.unobserved) := by
  induction commands generalizing machine with
  | nil => rfl
  | cons command rest ih => simp only [obeyAll, obeyAfresh_unobserved, ih]

/-- Coherent machines that differ only in what is decoded and in who observes them answer
commands alike and stay so. -/
theorem run_unobserved {machine other : Machine} (coherent : machine.Coherent)
    (coherent' : other.Coherent) (alike : machine.unobserved = other.unobserved)
    (commands : List Command) :
    (machine.run commands).1 = (other.run commands).1 ∧
      (machine.run commands).2.unobserved = (other.run commands).2.unobserved := by
  have afresh {machine : Machine} (coherent : machine.Coherent) :
      obeyAll obeyAfresh machine.unobserved commands =
        ((machine.run commands).1, (machine.run commands).2.unobserved) := by
    have same := (run_of_coherent coherent commands).1
    have unseen := obeyAllAfresh_unobserved machine.forget commands
    rw [show obeyAll obeyAfresh machine.forget commands = _ from same] at unseen
    exact unseen
  have both := (afresh coherent).symm.trans ((congrArg (obeyAll obeyAfresh · commands) alike).trans
    (afresh coherent'))
  exact Prod.mk.inj both

/-- Commands that load nothing leave the origin alone. -/
theorem foldl_originAfter {history : List Command}
    (loadsNothing : ∀ command ∈ history, ∀ image, command ≠ .loadOrigin image)
    (origin : Array UInt8) : history.foldl originAfter origin = origin := by
  induction history generalizing origin with
  | nil => rfl
  | cons command rest ih =>
    obtain ⟨here, later⟩ := List.forall_mem_cons.mp loadsNothing
    have kept : originAfter origin command = origin := by
      cases command with
      | loadOrigin image => exact absurd rfl (here image)
      | reset | step | writeRegister | writeMemory => rfl
    rw [List.foldl_cons, kept, ih later]

/-- What a step of a coherent machine executes is what the origin holds at the program counter. -/
theorem decodeOrigin_of_step {machine : Machine} (coherent : machine.Coherent) {notify : Bool}
    {snapshot : Snapshot} (done : (machine.step notify).1 = .ok snapshot) :
    ∃ word,
      machine.core.memory.peekOrigin snapshot.oldPc Instruction.byteLength = .ok word ∧
        Codec.a64.decode word snapshot.oldPc = .ok (some snapshot.instruction) := by
  let quiet : Machine := { machine with core := machine.core.withoutRecords }
  have quietCoherent : quiet.Coherent := coherent.congr ⟨⟨rfl, rfl, rfl, rfl⟩, rfl, rfl, rfl⟩
  rcases fetch_of_coherent quietCoherent with
    ⟨fault, _, fetched⟩ | ⟨instruction, next, decoded, fetched, sameRest, nextCoherent⟩
  · simp only [step, quiet, fetched] at done
    exact absurd done (by simp)
  · simp only [step, quiet, fetched] at done
    obtain ⟨_, shown⟩ := executeFetched_keeps nextCoherent.untracked notify instruction
    obtain ⟨rfl, here⟩ := shown snapshot done
    have samePc : next.pc = machine.pc := by
      show next.forget.pc = quiet.forget.pc
      rw [sameRest]
    rw [here, samePc]
    rw [decodeOrigin] at decoded
    split at decoded
    · contradiction
    · split at decoded
      · contradiction
      · rename_i word peeked
        exact ⟨word, peeked, instructionOf_eq_ok.mp decoded⟩

/-- The decoded instructions that a machine keeps cannot be noticed. From any initial memory and
through any commands, the machine answers as the one that keeps nothing and decodes the origin
afresh at every step, and the two agree in everything else. What a step executes is always the
word that the image loaded last has at the program counter, whatever was stored there since. And
whatever happens between loading an image and a reset, the same commands have the same answers
after the reset as right after the loading. -/
theorem run_eq_runAfresh (order : Endianness) (bytes : Array UInt8) (symbols : SymbolMap)
    (observer : Option Observer) (commands : List Command) :
    let machine : Machine :=
      { ofMemory (.ofBytes order bytes) with symbols := symbols, observer := observer }
    machine.runAfresh commands = ((machine.run commands).1, (machine.run commands).2.forget) ∧
    (∀ notify snapshot, ((machine.run commands).2.step notify).1 = .ok snapshot →
      ∃ word,
        (Memory.ofBytes order (commands.foldl originAfter bytes)).peekOrigin snapshot.oldPc
            Instruction.byteLength = .ok word ∧
          Codec.a64.decode word snapshot.oldPc = .ok (some snapshot.instruction)) ∧
    ∀ image history later, image.isEmpty = false →
      (∀ command ∈ history, ∀ other, command ≠ .loadOrigin other) →
      let loaded := (machine.run (commands ++ [.loadOrigin image])).2
      let rewound := (loaded.run (history ++ [.reset])).2
      (rewound.run later).1 = (loaded.run later).1 ∧
        (rewound.run later).2.unobserved = (loaded.run later).2.unobserved := by
  intro machine
  have initial : machine.Coherent := @coherent_dropDecoded machine rfl rfl
  obtain ⟨afresh, coherent, sameOrder, origin, _⟩ := run_of_coherent initial commands
  refine ⟨afresh, fun notify snapshot done => ?_, fun image history later full loadsNothing => ?_⟩
  · obtain ⟨word, peeked, decoded⟩ := decodeOrigin_of_step coherent done
    refine ⟨word, ?_, decoded⟩
    rw [← peeked]
    unfold Memory.peekOrigin
    rw [origin, sameOrder]
    rfl
  · intro loaded rewound
    have started : loaded = (machine.run commands).2.start image := by
      show (machine.run (commands ++ [.loadOrigin image])).2 = _
      rw [run_append]
      show ((machine.run commands).2.obey step (.loadOrigin image)).2 = _
      simp [obey, loadOrigin_eq coherent.untracked, full]
    have loadedCoherent : loaded.Coherent := started ▸ coherent_start _ image
    obtain ⟨_, between, betweenOrder, betweenOrigin, betweenSymbols⟩ :=
      run_of_coherent loadedCoherent history
    rw [foldl_originAfter loadsNothing] at betweenOrigin
    have rewoundIs : rewound = (loaded.run history).2.reset := by
      show (loaded.run (history ++ [.reset])).2 = _
      rw [run_append]
      rfl
    have rewoundCoherent : rewound.Coherent := by
      rw [rewoundIs]
      exact (obey_of_coherent between .reset).2.1
    refine run_unobserved rewoundCoherent loadedCoherent ?_ later
    rw [rewoundIs, reset_eq between]
    simp only [unobserved, forget, start, betweenOrder, betweenOrigin, betweenSymbols]
    rw [started]
    rfl

/-- The image of `mov x0, #33`. -/
def oneMove : Array UInt8 := #[0x20, 0x04, 0x80, 0xd2]

/-- A machine with zeros stored over its only instruction. -/
def overwrittenMove : Machine :=
  ((ofMemory (.ofBytes .little oneMove)).run [.writeMemory 0 4 0]).2

/-- The instruction is executed all the same, and a reset brings its bytes back. -/
theorem run_eq_runAfresh_overwrittenMove :
    overwrittenMove.core.memory.bytes = #[0, 0, 0, 0] ∧
    (∃ snapshot, (overwrittenMove.step false).1 = .ok snapshot ∧
      Codec.a64.decode 0xd2800420 0 = .ok (some snapshot.instruction)) ∧
    let loaded := ((ofMemory (.ofBytes .little oneMove)).run [.loadOrigin oneMove]).2
    ((loaded.run [.writeMemory 0 4 0, .step false, .reset]).2.run [.step true]).1 =
      (loaded.run [.step true]).1 := by
  obtain ⟨_, executes, _⟩ := run_eq_runAfresh .little oneMove [] none [.writeMemory 0 4 0]
  obtain ⟨_, _, resets⟩ := run_eq_runAfresh .little oneMove [] none []
  obtain ⟨instruction, decoded, op, read⟩ :=
    @InstructionSet.exists_decode_fields 0xd2800420 0 .moveWide "mov"
      [('z', 1), ('c', 2), ('h', 0), ('j', 33), ('d', 0)] (by decide +kernel) (by decide +kernel)
  have fetched := @fetch_of_decode overwrittenMove 0xd2800420 instruction rfl rfl rfl decoded
  have executed :
      ((overwrittenMove.core.withoutRecords.track false).execute instruction).1 = .ok none := by
    obtain ⟨address, word, form, fields, bound⟩ := instruction
    simp only at op read
    subst read
    simp only [CoreState.execute, Execution.perform, op]
    rfl
  obtain ⟨snapshot, done, _, completed⟩ := exists_snapshot decoded fetched executed
  obtain ⟨word, peeked, isDecoded⟩ := executes false snapshot done
  have oldPc : snapshot.oldPc = 0 := completed.oldPc
  rw [oldPc] at peeked isDecoded
  have origin : (Memory.ofBytes .little oneMove).peekOrigin 0 Instruction.byteLength =
    .ok 0xd2800420 := rfl
  obtain rfl := Except.ok.inj (origin.symm.trans peeked)
  exact ⟨rfl, ⟨snapshot, done, isDecoded⟩,
    (resets oneMove [.writeMemory 0 4 0, .step false] [.step true] rfl (by simp)).1⟩

end Machine

end A64Machine
