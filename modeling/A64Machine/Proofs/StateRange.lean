import A64Machine.Proofs.DecodeCache

/-!
# The range of the machine's state

What a machine holds stays within its bounds, whatever it is asked to do and whether its steps
complete or not: registers are numbers of 64 bits and the zero register is zero, nothing stands
above the four flags, the program counter is a number of 64 bits, the working memory is as long as
the origin and has a slot for the decoding of each of its whole words, and nothing is tracked
between commands. The results that instructions compute need not fit: it is the writing of a
register, of the flags and of the program counter that brings them into range. So the registers and
the flags stay in range over every primitive step of an execution, whatever the instruction is.
-/

namespace A64Machine

/-! ### Registers and flags -/

namespace RegisterFile

/-- Every register holds a number of 64 bits, and the zero register holds zero. -/
structure InRange (file : RegisterFile) : Prop where
  slots : ∀ slot (small : slot < 32), file.slots[slot] < 2 ^ 64
  zero : file.slots[Register.zeroSlot] = 0

theorem inRange_initial : initial.InRange where
  slots slot small := by
    rw [initial, Vector.getElem_replicate]
    exact Nat.two_pow_pos 64
  zero := Vector.getElem_replicate _

/-- What is on record and whether accesses are tracked does not matter for the range. -/
theorem InRange.congr {file other : RegisterFile} (inRange : file.InRange)
    (same : other.slots = file.slots) : other.InRange := by
  obtain ⟨slots, zero⟩ := inRange
  rw [← same] at slots zero
  exact ⟨slots, zero⟩

/-- A record of an access leaves the registers alone. -/
@[simp] theorem slots_recorded (file : RegisterFile) (kind : AccessKind) (number : Int)
    (before after : Nat) : (file.recorded kind number before after).slots = file.slots := by
  rw [recorded_eq]

/-- Reading keeps the registers in range. -/
theorem InRange.read? {file after : RegisterFile} (inRange : file.InRange) {number : Int}
    {value : Nat} (read : file.read? number = some (value, after)) : after.InRange := by
  obtain ⟨value', _, same⟩ := Option.map_eq_some_iff.mp read
  obtain ⟨_, rfl⟩ := Prod.mk.inj same
  exact inRange.congr (slots_recorded ..)

/-- Writing brings any value into range, and the zero register stays zero. -/
theorem InRange.write? {file after : RegisterFile} (inRange : file.InRange) {number value : Int}
    (written : file.write? number value = some after) : after.InRange := by
  obtain ⟨slot, _, rfl⟩ := Option.map_eq_some_iff.mp written
  let slots := (file.slots.set slot (Bits.wrap 64 value)).set Register.zeroSlot 0
  suffices written : InRange { file with slots := slots } from written.congr (slots_recorded ..)
  refine ⟨?_, Vector.getElem_set_self _⟩
  intro other small
  simp only [slots, Vector.getElem_set]
  split
  · exact Nat.two_pow_pos 64
  · split
    · exact Bits.wrap_lt 64 value
    · exact inRange.slots other small

/-- Writing without a record brings any value into range as well. -/
theorem InRange.poke? {file after : RegisterFile} (inRange : file.InRange) {number value : Int}
    (written : file.poke? number value = some after) : after.InRange := by
  obtain ⟨untracked, unrecorded, rfl⟩ := Option.map_eq_some_iff.mp written
  have quiet : InRange { file with tracking := false } := inRange.congr rfl
  exact (quiet.write? unrecorded).congr rfl

/-- Writing without a record does not change whether accesses are tracked. -/
theorem tracking_poke? {file after : RegisterFile} {number value : Int}
    (written : file.poke? number value = some after) : after.tracking = file.tracking := by
  obtain ⟨untracked, _, rfl⟩ := Option.map_eq_some_iff.mp written
  rfl

end RegisterFile

namespace Status

/-- Nothing stands above the flags. -/
def InRange (status : Status) : Prop := status.above = 0

/-- Flags make a number of four bits. -/
theorem toNat_flags_lt (flags : Flags) : flags.toNat < 16 := by
  obtain ⟨n, z, c, v⟩ := flags
  revert n z c v
  decide

/-- A status with nothing above its flags is a number of four bits. -/
theorem InRange.toInt {status : Status} (inRange : status.InRange) :
    0 ≤ status.toInt ∧ status.toInt < 16 := by
  have small := toNat_flags_lt status.flags
  unfold InRange at inRange
  rw [Status.toInt, inRange]
  omega

/-- The status of four bits has nothing above its flags. -/
theorem inRange_ofInt_wrap (value : Int) : (ofInt (Bits.wrap 4 value)).InRange := by
  have small := Bits.wrap_lt 4 value
  show ((Bits.wrap 4 value : Nat) : Int) / 16 = 0
  omega

end Status

namespace CoreState

/-- Registers and flags are in range. -/
structure InRange (state : CoreState) : Prop where
  registers : state.registers.InRange
  status : state.status.InRange

/-- The second of two states is in range if the first one is. -/
def KeepsRange (before after : CoreState) : Prop := before.InRange → after.InRange

open Execution in
/-- Every primitive step of an execution keeps registers and flags in range. -/
instance : HoldsOverSteps KeepsRange where
  refl state := id
  trans one other inRange := other (one inRange)
  readRegister slot size state inRange := by
    unfold readRegister
    split
    · rename_i read
      exact ⟨inRange.registers.read? read, inRange.status⟩
    · exact inRange
  writeRegister slot value size state inRange := by
    unfold writeRegister
    split
    · rename_i written
      exact ⟨inRange.registers.write? written, inRange.status⟩
    · exact inRange
  setFlags flags state inRange := ⟨inRange.registers, rfl⟩
  load address width state inRange := by
    unfold load
    split <;> exact ⟨inRange.registers, inRange.status⟩
  store address width value state inRange := by
    unfold store
    split <;> exact ⟨inRange.registers, inRange.status⟩

end CoreState

/-! ### Commands -/

namespace Machine

/-- Registers, flags and the program counter are in range, and registers are not tracked. -/
structure InRange (machine : Machine) : Prop where
  core : machine.core.InRange
  pc : machine.pc < 2 ^ 64
  untracked : machine.core.registers.tracking = false

/-- The second of two machines is in range if the first one is and both have the same registers,
flags and program counter. -/
theorem InRange.congr {machine other : Machine} (inRange : machine.InRange)
    (registers : other.core.registers = machine.core.registers)
    (status : other.core.status = machine.core.status) (pc : other.pc = machine.pc) :
    other.InRange where
  core := ⟨registers ▸ inRange.core.registers, status ▸ inRange.core.status⟩
  pc := pc ▸ inRange.pc
  untracked := registers ▸ inRange.untracked

/-- All registers zero, all flags clear and the program counter zero are in range. -/
theorem inRange_of_initial {machine : Machine} (registers : machine.core.registers = .initial)
    (status : machine.core.status = .clear) (pc : machine.pc = 0) : machine.InRange where
  core := ⟨registers ▸ RegisterFile.inRange_initial, status ▸ rfl⟩
  pc := pc ▸ Nat.two_pow_pos 64
  untracked := registers ▸ rfl

/-- A reset puts everything to zero. -/
theorem inRange_reset (machine : Machine) : machine.reset.InRange := by
  unfold reset
  simp only
  split <;> exact inRange_of_initial rfl rfl rfl

/-- The end of a step wraps the program counter, whichever target the instruction has computed. -/
theorem InRange.complete {machine : Machine} (inRange : machine.InRange) (notify : Bool)
    (instruction : Instruction) (target : Option Nat) :
    (machine.complete notify instruction target).2.InRange := by
  let next := Bits.wrap 64 (target.getD (machine.pc + Instruction.byteLength) : Nat)
  have wrapped : next < 2 ^ 64 := Bits.wrap_lt 64 _
  have moved : InRange { machine with pc := next, core := machine.core.withoutRecords } :=
    ⟨⟨inRange.core.registers.congr rfl, inRange.core.status⟩, wrapped, inRange.untracked⟩
  unfold Machine.complete
  cases notify <;>
  · simp only [if_true, if_false, Bool.false_eq_true, symbolInfo, tellObserver]
    cases instruction.text <;> exact moved.congr rfl rfl rfl

/-- Executing an instruction that was fetched keeps a machine in range, whether it completes or
not. -/
theorem InRange.executeFetched {machine : Machine} (inRange : machine.InRange) (notify : Bool)
    (instruction : Instruction) : (machine.executeFetched notify instruction).2.InRange := by
  have tracked : (machine.core.track notify).InRange :=
    ⟨inRange.core.registers.congr rfl, inRange.core.status⟩
  have executed :=
    CoreState.holds_execute CoreState.KeepsRange (machine.core.track notify) instruction tracked
  unfold Machine.executeFetched
  revert executed
  rcases (machine.core.track notify).execute instruction with ⟨outcome, core⟩
  intro executed
  have left : InRange { machine with core := core.track false } :=
    ⟨⟨executed.registers.congr rfl, executed.status⟩, inRange.pc, rfl⟩
  cases outcome with
  | error fault => exact left
  | ok target => exact left.complete notify instruction target

/-- Fetching an instruction changes nothing but what is decoded. -/
theorem forget_of_fetch {machine fetched : Machine} {instruction : Instruction}
    (found : machine.fetch = .ok (instruction, fetched)) : fetched.forget = machine.forget := by
  unfold fetch at found
  simp only at found
  split at found
  · contradiction
  · split at found
    · contradiction
    · obtain ⟨_, rfl⟩ := Prod.mk.inj (Except.ok.inj found)
      rfl
    · split at found
      · contradiction
      · obtain ⟨decoded, _, same⟩ := map_eq_ok.mp found
        obtain ⟨_, rfl⟩ := Prod.mk.inj same
        rfl

/-- A step keeps a machine in range, whether it completes or not. -/
theorem InRange.step {machine : Machine} (inRange : machine.InRange) (notify : Bool) :
    (machine.step notify).2.InRange := by
  let quiet : Machine := { machine with core := machine.core.withoutRecords }
  have quietInRange : quiet.InRange :=
    ⟨⟨inRange.core.registers.congr rfl, inRange.core.status⟩, inRange.pc, inRange.untracked⟩
  simp only [Machine.step]
  split
  · exact quietInRange
  · rename_i instruction fetched found
    have same := @forget_of_fetch quiet _ _ found
    have sameCore : fetched.core = quiet.core := congrArg (fun machine => machine.core) same
    have samePc : fetched.pc = quiet.pc := congrArg (fun machine => machine.pc) same
    have fetchedInRange : fetched.InRange :=
      quietInRange.congr (sameCore ▸ rfl) (sameCore ▸ rfl) samePc
    exact fetchedInRange.executeFetched notify instruction

/-- A named register is set to a value in range. -/
theorem InRange.assign {machine : Machine} (inRange : machine.InRange) (value : Int)
    (register : NamedRegister) : (machine.assign value register).InRange := by
  cases register with
  | pc => exact ⟨inRange.core, Bits.wrap_lt 64 value, inRange.untracked⟩
  | nzcv =>
    exact ⟨⟨inRange.core.registers, Status.inRange_ofInt_wrap value⟩, inRange.pc,
      inRange.untracked⟩
  | general register =>
    rw [Machine.assign]
    cases written : machine.core.registers.poke? register.slot
        (Bits.wrap (NamedRegister.bitsOf register) value) with
    | none => exact inRange.congr rfl rfl rfl
    | some registers =>
      exact ⟨⟨inRange.core.registers.poke? written, inRange.core.status⟩, inRange.pc,
        (RegisterFile.tracking_poke? written).trans inRange.untracked⟩

/-- Every command keeps a machine in range, whether it fails or not. -/
theorem InRange.obey {machine : Machine} (inRange : machine.InRange) (command : Command) :
    (machine.obey Machine.step command).2.InRange := by
  cases command with
  | loadOrigin image =>
    simp only [Machine.obey, loadOrigin]
    cases machine.core.memory.loadOrigin image with
    | error error => exact inRange
    | ok memory => exact inRange_reset _
  | reset => exact inRange_reset machine
  | step notify => exact inRange.step notify
  | writeRegister name value =>
    simp only [Machine.obey, writeRegister?]
    cases NamedRegister.ofName? name with
    | none => exact inRange
    | some register => exact inRange.assign value register
  | writeMemory address width value =>
    simp only [Machine.obey]
    cases machine.core.memory.write address width value with
    | error fault => exact inRange
    | ok memory => exact inRange.congr rfl rfl rfl

/-- Commands keep a machine in range. -/
theorem InRange.run {machine : Machine} (inRange : machine.InRange) (commands : List Command) :
    (machine.run commands).2.InRange := by
  induction commands generalizing machine with
  | nil => exact inRange
  | cons command rest ih => exact ih (inRange.obey command)

/-! ### The image loaded last -/

/-- The image that a command loads, if it loads one. An empty image is refused. -/
def loaded? : Command → Option (Array UInt8)
  | .loadOrigin image => if image.isEmpty then none else some image
  | _ => none

/-- The image that was loaded last by some commands, or the origin before them if none was. -/
def lastLoaded (origin : Array UInt8) (commands : List Command) : Array UInt8 :=
  (commands.reverse.findSome? loaded?).getD origin

/-- The origin after some commands is the image that was loaded last. -/
theorem foldl_originAfter_eq_lastLoaded (commands : List Command) (origin : Array UInt8) :
    commands.foldl originAfter origin = lastLoaded origin commands := by
  have one (origin : Array UInt8) (command : Command) :
      originAfter origin command = (loaded? command).getD origin := by
    cases command with
    | loadOrigin image =>
      simp only [originAfter, loaded?]
      split <;> rfl
    | reset | step | writeRegister | writeMemory => rfl
  induction commands generalizing origin with
  | nil => rfl
  | cons command rest ih =>
    rw [List.foldl_cons, ih, lastLoaded, lastLoaded, List.reverse_cons, List.findSome?_append, one]
    cases rest.reverse.findSome? loaded? with
    | some image => rfl
    | none => cases loaded : loaded? command <;> simp [loaded]

/-- The bounds of a machine whose origin is an image. -/
structure WithinBounds (machine : Machine) (image : Array UInt8) : Prop where
  /-- Every register holds a number of 64 bits. -/
  registers : ∀ slot (small : slot < 32), machine.core.registers.slots[slot] < 2 ^ 64
  /-- The zero register holds zero. -/
  zero : machine.core.registers.slots[31] = 0
  /-- The flags make a number of four bits. -/
  flags : 0 ≤ machine.core.status.toInt ∧ machine.core.status.toInt < 16
  /-- The program counter is a number of 64 bits. -/
  pc : machine.pc < 2 ^ 64
  /-- The working memory is as long as the origin. -/
  sizes : machine.core.memory.bytes.size = machine.core.memory.origin.size
  /-- The origin is the image. -/
  origin : machine.core.memory.origin = image
  /-- There is a slot for the decoding of every whole word of the memory, and no other slot. -/
  decoded : machine.decoded.size = machine.core.memory.size / 4
  /-- Accesses of registers are not tracked. -/
  registersUntracked : machine.core.registers.tracking = false
  /-- Accesses of memory are not tracked. -/
  memoryUntracked : machine.core.memory.tracking = false

/-- Whatever a machine is asked to do from its construction on, and whether its steps complete or
not, it stays within its bounds, and its origin is the image that was loaded last. -/
theorem run_withinBounds (memory : Memory) (sizes : memory.size = memory.origin.size)
    (untracked : memory.tracking = false) (symbols : SymbolMap) (observer : Option Observer)
    (commands : List Command) :
    let machine : Machine := { ofMemory memory with symbols := symbols, observer := observer }
    (machine.run commands).2.WithinBounds (lastLoaded memory.origin commands) := by
  intro machine
  have coherent : machine.Coherent := @coherent_dropDecoded machine sizes untracked
  have inRange : machine.InRange := inRange_of_initial rfl rfl rfl
  obtain ⟨_, reached, _, origin, _⟩ := run_of_coherent coherent commands
  obtain ⟨⟨registers, status⟩, pc, registersUntracked⟩ := inRange.run commands
  exact
    { registers := registers.slots
      zero := registers.zero
      flags := status.toInt
      pc := pc
      sizes := reached.sizes
      origin := origin.trans (foldl_originAfter_eq_lastLoaded commands memory.origin)
      decoded := reached.slots
      registersUntracked := registersUntracked
      memoryUntracked := reached.untracked }

/-- A memory whose working copy is not its origin. -/
def changedCopy : Memory := { Memory.ofBytes .big #[0, 0, 0, 0] with bytes := #[1, 2, 3, 4] }

/-- Commands that change a named register, load an image whose last byte is no whole word, try to
write past its end, try to load nothing and make a step. -/
def refusedImage : List Command :=
  [.writeRegister "X1" (-1), .loadOrigin #[0xd5, 0x03, 0x20, 0x1f, 9], .writeMemory 3 4 0,
    .loadOrigin #[], .step true]

/-- The image that is refused is not the one that was loaded last. -/
theorem run_withinBounds_refusedImage :
    changedCopy.size = changedCopy.origin.size ∧ changedCopy.tracking = false ∧
      lastLoaded changedCopy.origin refusedImage = #[0xd5, 0x03, 0x20, 0x1f, 9] ∧
      WithinBounds ((ofMemory changedCopy).run refusedImage).2
        (lastLoaded changedCopy.origin refusedImage) :=
  ⟨rfl, rfl, rfl, run_withinBounds changedCopy rfl rfl [] none refusedImage⟩

end Machine

end A64Machine
