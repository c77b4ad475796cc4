import A64Machine.Proofs.Ensures
import A64Machine.Proofs.Memory

/-!
# Effects

What an execution may depend on and what it may change: the registers that it reads and how many of
their bits count, the registers that it writes and how many bits it leaves in them, whether it sets
the flags and whether it writes to memory. An execution that keeps to its effects is built from
primitive steps, so everything else follows once for all executions. What is not among the effects
is left alone. And two states that differ only in what the execution does not depend on are treated
alike: it ends in the same way from both, with the same fault where it faults.
-/

namespace A64Machine

/-! ### The primitive steps -/

namespace RegisterFile

/-- A large number names no slot. -/
theorem slot?_of_not_lt {slot : Nat} (large : ¬ slot < 32) : slot? slot = none := by
  simp only [slot?]
  rw [dif_neg (by omega)]

/-- The access that is put on record. -/
theorem recorded_eq (file : RegisterFile) (kind : AccessKind) (number : Int) (before after : Nat) :
    file.recorded kind number before after =
      { file with
        log := file.log ++
          if file.tracking = true ∧ number ≠ Register.zeroSlot then
            [⟨kind, .register number, before, after, 8⟩]
          else [] } := by
  unfold recorded
  split
  · rfl
  · rw [List.append_nil]

/-- A write replaces the value in its slot, clears the zero register and is put on record. -/
theorem afterWrite_eq (file : RegisterFile) {slot : Nat} (value : Int) (small : slot < 32) :
    file.afterWrite slot value =
      { file with
        slots := (file.slots.set slot (Bits.wrap 64 value)).set Register.zeroSlot 0 }.recorded
          .write slot file.slots[slot] (Bits.wrap 64 value) := by
  rw [afterWrite, write?, slot?_of_lt small]
  rfl

end RegisterFile

namespace Memory

/-- The value of some bytes. -/
def valueAt (memory : Memory) (address width : Nat) : Nat :=
  memory.endianness.valueOf (stretch memory.bytes address width)

/-- The memory after the value of some bytes was read. -/
def afterLoad (memory : Memory) (address width : Nat) : Memory :=
  memory.recorded .read address (memory.valueAt address width) (memory.valueAt address width) width

/-- The memory after the lowest bytes of a value were laid into it. -/
def afterStore (memory : Memory) (address width value : Nat) : Memory :=
  { memory.recorded .write address (memory.valueAt address width) (value % 2 ^ (8 * width))
      width with
    bytes := overwrite memory.bytes address (memory.endianness.bytesOf width value) }

section Recorded

variable (memory : Memory) (kind : AccessKind) (address before after : Nat) (width : Int)

@[simp] theorem bytes_recorded :
    (memory.recorded kind address before after width).bytes = memory.bytes := by
  unfold recorded
  split <;> rfl

@[simp] theorem origin_recorded :
    (memory.recorded kind address before after width).origin = memory.origin := by
  unfold recorded
  split <;> rfl

@[simp] theorem endianness_recorded :
    (memory.recorded kind address before after width).endianness = memory.endianness := by
  unfold recorded
  split <;> rfl

@[simp] theorem tracking_recorded :
    (memory.recorded kind address before after width).tracking = memory.tracking := by
  unfold recorded
  split <;> rfl

end Recorded

/-- Some bytes make a value of their width. -/
theorem valueAt_lt (memory : Memory) (address width : Nat) :
    memory.valueAt address width < 2 ^ (8 * width) :=
  Nat.lt_of_lt_of_le (memory.endianness.valueOf_lt _) (Nat.pow_le_pow_right (by decide)
    (Nat.mul_le_mul_left 8 (length_stretch_le memory.bytes address width)))

end Memory

namespace Execution

variable {α β : Type}

/-- One execution after another. -/
theorem bind_eq (first : Execution α) (next : α → Execution β) (state : CoreState) :
    (first >>= next) state =
      match first state with
      | .ok value after => next value after
      | .error fault after => .error fault after := by
  show EStateM.bind first next state = _
  unfold EStateM.bind
  cases first state <;> rfl

/-- A register is read if there is one in the slot. -/
theorem readRegister_eq (slot size : Nat) (state : CoreState) :
    readRegister slot size state =
      if slot < 32 then
        .ok (state.registers.value slot % 2 ^ size)
          { state with registers := state.registers.afterRead slot }
      else .error (.absentRegister slot) state := by
  unfold readRegister
  by_cases small : slot < 32
  · simp only [if_pos small, state.registers.read?_of_lt small]
  · simp only [if_neg small, RegisterFile.read?, RegisterFile.peek?,
      RegisterFile.slot?_of_not_lt small, Option.map_none]

/-- A register is written if there is one in the slot. -/
theorem writeRegister_eq (slot : Nat) (value : Int) (size : Nat) (state : CoreState) :
    writeRegister slot value size state =
      if slot < 32 then
        .ok () { state with registers := state.registers.afterWrite slot (Bits.wrap size value) }
      else .error (.absentRegister slot) state := by
  unfold writeRegister
  by_cases small : slot < 32
  · simp only [if_pos small, state.registers.write?_of_lt _ small]
  · simp only [if_neg small, RegisterFile.write?, RegisterFile.slot?_of_not_lt small,
      Option.map_none]

/-- Memory is read if the bytes are within bounds. -/
theorem load_eq (address width : Nat) (state : CoreState) :
    load address width state =
      if address + width ≤ state.memory.size then
        .ok (state.memory.valueAt address width)
          { state with memory := state.memory.afterLoad address width }
      else .error (.memory (.outside address width state.memory.size)) state := by
  rw [load, Memory.read, Memory.peek_natCast]
  by_cases fits : address + width ≤ state.memory.size
  · simp only [if_pos fits]
    rfl
  · simp only [if_neg fits]
    rfl

/-- Memory is written if the bytes are within bounds. -/
theorem store_eq (address width value : Nat) (state : CoreState) :
    store address width value state =
      if address + width ≤ state.memory.size then
        .ok () { state with memory := state.memory.afterStore address width value }
      else .error (.memory (.outside address width state.memory.size)) state := by
  rw [store, Memory.write, Memory.peek_natCast]
  by_cases fits : address + width ≤ state.memory.size
  · obtain ⟨log, recorded⟩ := state.memory.recorded_eq .write address
      (state.memory.valueAt address width) (Bits.wrap (8 * width) (value : Int)) width
    have positive : ¬ (width : Int) < 0 := by omega
    simp only [if_pos fits, ok_bind rfl, positive, if_false, Int.toNat_natCast]
    rw [Memory.afterStore, ← Bits.wrap_natCast, recorded]
    simp only [Bits.wrap_natCast, Endianness.bytesOf_mod, Memory.valueAt] at recorded ⊢
    rw [recorded]
    rfl
  · simp only [if_neg fits]
    rfl

/-- The state that an execution leaves, whether it completes or not. -/
def left {ε σ α : Type} : EStateM.Result ε σ α → σ
  | .ok _ state => state
  | .error _ state => state

/-- A relation between states that holds over every primitive step of an execution. -/
class HoldsOverSteps (R : CoreState → CoreState → Prop) : Prop where
  refl : ∀ state, R state state
  trans : ∀ {first second third}, R first second → R second third → R first third
  readRegister : ∀ slot size state, R state (left (readRegister slot size state))
  writeRegister : ∀ slot value size state, R state (left (writeRegister slot value size state))
  setFlags : ∀ flags state, R state (left (setFlags flags state))
  load : ∀ address width state, R state (left (load address width state))
  store : ∀ address width value state, R state (left (store address width value state))

/-! ### Executions within their effects -/

/-- What an execution may depend on and what it may change. -/
structure Effects where
  /-- It may depend on so many of the lowest bits of a register. -/
  reads : (slot bits : Nat) → Prop
  /-- It may leave a value of so many bits in a register. -/
  writes : (slot bits : Nat) → Prop
  /-- It may set the flags. -/
  setsFlags : Prop
  /-- It may write to memory. -/
  stores : Prop

/-- An execution keeps to its effects: it takes primitive steps among them, and what comes after a
read depends only on the bits that the effects allow. If it completes, it has written the registers
on the list. -/
inductive Does (effects : Effects) {α : Type} : (written : List Nat) → Execution α → Prop
  | pure (value : α) : Does effects [] (pure value)
  | throw (fault : ExecutionFault) (written : List Nat) : Does effects written (throw fault)
  | readRegister {slot size bits : Nat} {next : Nat → Execution α} {written : List Nat}
      (allowed : effects.reads slot bits)
      (blind : ∀ one other, one % 2 ^ bits = other % 2 ^ bits →
        next (one % 2 ^ size) = next (other % 2 ^ size))
      (rest : ∀ value, Does effects written (next (value % 2 ^ size))) :
      Does effects written (readRegister slot size >>= next)
  | writeRegister {slot size bits : Nat} {value : Int} {next : Unit → Execution α}
      {written : List Nat} (allowed : effects.writes slot bits)
      (small : Bits.wrap size value < 2 ^ bits) (rest : Does effects written (next ())) :
      Does effects (slot :: written) (writeRegister slot value size >>= next)
  | flags {next : Flags → Execution α} {written : List Nat}
      (rest : ∀ flags, Does effects written (next flags)) : Does effects written (flags >>= next)
  | setFlags {flags : Flags} {next : Unit → Execution α} {written : List Nat}
      (allowed : effects.setsFlags) (rest : Does effects written (next ())) :
      Does effects written (setFlags flags >>= next)
  | load {address width : Nat} {next : Nat → Execution α} {written : List Nat}
      (rest : ∀ value < 2 ^ (8 * width), Does effects written (next value)) :
      Does effects written (load address width >>= next)
  | store {address width value : Nat} {next : Unit → Execution α} {written : List Nat}
      (allowed : effects.stores) (rest : Does effects written (next ())) :
      Does effects written (store address width value >>= next)

namespace Does

variable {effects : Effects} {written others : List Nat} {instruction : Instruction}

/-- One execution after another has the effects of both. -/
theorem bind {first : Execution α} {next : α → Execution β} (one : Does effects written first)
    (other : ∀ value, Does effects others (next value)) :
    Does effects (written ++ others) (first >>= next) := by
  induction one with
  | pure value => exact (pure_bind value next).symm ▸ other value
  | throw fault written => exact .throw fault _
  | readRegister allowed blind _ ih =>
    rw [bind_assoc]
    exact .readRegister allowed (fun one other same => by rw [blind one other same]) ih
  | writeRegister allowed small _ ih =>
    rw [bind_assoc]
    exact .writeRegister allowed small ih
  | flags _ ih =>
    rw [bind_assoc]
    exact .flags ih
  | setFlags allowed _ ih =>
    rw [bind_assoc]
    exact .setFlags allowed ih
  | load _ ih =>
    rw [bind_assoc]
    exact .load ih
  | store allowed _ ih =>
    rw [bind_assoc]
    exact .store allowed ih

/-- A read of which all bits count. -/
theorem read {slot size : Nat} (allowed : effects.reads slot size) :
    Does effects [] (Execution.readRegister slot size) := by
  rw [← bind_pure (Execution.readRegister slot size)]
  exact .readRegister allowed (fun one other same => by rw [same]) fun value => .pure _

/-- A write at the end of an execution. -/
theorem write {slot size bits : Nat} {value : Int} (allowed : effects.writes slot bits)
    (small : Bits.wrap size value < 2 ^ bits) :
    Does effects [slot] (Execution.writeRegister slot value size) := by
  rw [← bind_pure (Execution.writeRegister slot value size)]
  exact .writeRegister allowed small (.pure ())

/-- A check of a width is passed or faults. -/
theorem checkWidth {width : Nat} : Does effects [] (Execution.checkWidth width) := by
  cases checked : Arithmetic.checkLength (8 * width) with
  | ok value =>
    have passed : Execution.checkWidth width = Pure.pure () := by
      funext state
      simp only [Execution.checkWidth, checked]
      rfl
    exact passed ▸ .pure ()
  | error error =>
    have failed : Execution.checkWidth width = MonadExcept.throw (.width error) := by
      funext state
      simp only [Execution.checkWidth, checked]
      rfl
    exact failed ▸ .throw _ _

/-- A field of the instruction is known, or the execution faults. -/
theorem field {letter : Char} {next : Nat → Execution α}
    (rest : ∀ value, instruction.fields.lookup letter = some value →
      Does effects written (next value)) :
    Does effects written (Execution.field instruction letter >>= next) := by
  cases known : instruction.fields.lookup letter with
  | some value =>
    have given : Execution.field instruction letter = Pure.pure value := by
      funext state
      simp only [Execution.field, Fields.read, known]
      rfl
    rw [given, pure_bind]
    exact rest value known
  | none =>
    have failed : Execution.field instruction letter =
        MonadExcept.throw (.defective (.absentField [letter])) := by
      funext state
      simp only [Execution.field, Fields.read, known]
      rfl
    rw [failed]
    exact .throw _ _

/-! ### What follows for one run -/

/-- A relation that holds over every primitive step holds over every execution within effects. -/
theorem holds {R : CoreState → CoreState → Prop} [steps : HoldsOverSteps R]
    {execution : Execution α} (does : Does effects written execution) (state : CoreState) :
    R state (left (execution state)) := by
  induction does generalizing state with
  | pure value => exact steps.refl state
  | throw fault written => exact steps.refl state
  | @readRegister slot size bits next written allowed blind rest ih =>
    have taken := steps.readRegister slot size state
    rw [bind_eq]
    rw [readRegister_eq] at taken ⊢
    by_cases small : slot < 32
    · rw [if_pos small] at taken ⊢
      exact steps.trans taken (ih _ _)
    · rw [if_neg small] at taken ⊢
      exact taken
  | @writeRegister slot size bits value next written allowed fits rest ih =>
    have taken := steps.writeRegister slot value size state
    rw [bind_eq]
    rw [writeRegister_eq] at taken ⊢
    by_cases small : slot < 32
    · rw [if_pos small] at taken ⊢
      exact steps.trans taken (ih _)
    · rw [if_neg small] at taken ⊢
      exact taken
  | flags rest ih => exact ih _ state
  | setFlags allowed rest ih => exact steps.trans (steps.setFlags _ state) (ih _)
  | @load address width next written rest ih =>
    have taken := steps.load address width state
    rw [bind_eq]
    rw [load_eq] at taken ⊢
    by_cases fits : address + width ≤ state.memory.size
    · rw [if_pos fits] at taken ⊢
      exact steps.trans taken (ih _ (Memory.valueAt_lt ..) _)
    · rw [if_neg fits] at taken ⊢
      exact taken
  | @store address width value next written allowed rest ih =>
    have taken := steps.store address width value state
    rw [bind_eq]
    rw [store_eq] at taken ⊢
    by_cases fits : address + width ≤ state.memory.size
    · rw [if_pos fits] at taken ⊢
      exact steps.trans taken (ih _)
    · rw [if_neg fits] at taken ⊢
      exact taken

end Does

/-- What a register may hold that was written: a value of as many bits as the effects allow, or zero
in the zero register. -/
def Effects.Leaves (effects : Effects) (slot value : Nat) : Prop :=
  if slot = Register.zeroSlot then value = 0
  else ∃ bits, effects.writes slot bits ∧ value < 2 ^ bits

/-- A change of a state that the effects allow. -/
structure Effects.Allows (effects : Effects) (before after : CoreState) : Prop where
  registers : ∀ slot : Nat, slot < 32 →
    after.registers.value slot = before.registers.value slot ∨
      effects.Leaves slot (after.registers.value slot)
  status : after.status = before.status ∨ effects.setsFlags
  bytes : after.memory.bytes = before.memory.bytes ∨ effects.stores

namespace Effects.Allows

variable {effects : Effects}

theorem refl (state : CoreState) : effects.Allows state state :=
  ⟨fun _ _ => .inl rfl, .inl rfl, .inl rfl⟩

theorem trans {first second third : CoreState} (one : effects.Allows first second)
    (other : effects.Allows second third) : effects.Allows first third where
  registers slot small := by
    rcases other.registers slot small with same | left
    · rw [same]
      exact one.registers slot small
    · exact .inr left
  status := other.status.elim (fun same => same ▸ one.status) .inr
  bytes := other.bytes.elim (fun same => same ▸ one.bytes) .inr

/-- Writing a register that may be written is allowed, and leaves there what it may hold. -/
theorem writeRegister {slot bits value : Nat} (small : slot < 32)
    (allowed : effects.writes slot bits) (fits : value < 2 ^ bits) (state : CoreState) :
    effects.Allows state
        { state with registers := state.registers.afterWrite slot value } ∧
      effects.Leaves slot ((state.registers.afterWrite slot value).value slot) := by
  have held (other : Nat) (small' : other < 32) :=
    state.registers.value_afterWrite (value : Int) small small'
  have reached : effects.Leaves slot ((state.registers.afterWrite slot value).value slot) := by
    rw [Leaves, held slot small]
    split
    · rfl
    · rw [if_pos rfl, Bits.wrap_natCast]
      exact ⟨bits, allowed, Nat.lt_of_le_of_lt (Nat.mod_le _ _) fits⟩
  refine ⟨⟨fun other small' => ?_, .inl rfl, .inl rfl⟩, reached⟩
  by_cases here : other = slot
  · exact .inr (here ▸ reached)
  · show (state.registers.afterWrite slot value).value other = _ ∨ _
    rw [held other small', if_neg here]
    split
    · rename_i isZero
      exact .inr (by rw [Leaves, if_pos isZero])
    · exact .inl rfl

end Effects.Allows

namespace Does

variable {effects : Effects} {written : List Nat}

/-- An execution changes what its effects allow. If it completes, the registers that it has written
hold what they may. -/
theorem allows {execution : Execution α} (does : Does effects written execution)
    (state : CoreState) :
    effects.Allows state (left (execution state)) ∧
      ∀ value after, execution state = .ok value after → ∀ slot ∈ written,
        slot < 32 ∧ effects.Leaves slot (after.registers.value slot) := by
  induction does generalizing state with
  | pure value => exact ⟨.refl state, by simp⟩
  | throw fault written => exact ⟨.refl state, fun value after done => by cases done⟩
  | @readRegister slot size bits next written allowed blind rest ih =>
    rw [bind_eq, readRegister_eq]
    by_cases small : slot < 32
    · rw [if_pos small]
      have taken : effects.Allows state
          { state with registers := state.registers.afterRead slot } :=
        ⟨fun other _ => .inl (RegisterFile.value_afterRead ..), .inl rfl, .inl rfl⟩
      obtain ⟨kept, done⟩ := ih (state.registers.value slot) _
      exact ⟨taken.trans kept, done⟩
    · rw [if_neg small]
      exact ⟨.refl state, fun value after done => by cases done⟩
  | @writeRegister slot size bits value next written allowed fits rest ih =>
    rw [bind_eq, writeRegister_eq]
    by_cases small : slot < 32
    · rw [if_pos small]
      obtain ⟨kept, reached⟩ := Effects.Allows.writeRegister small allowed fits state
      obtain ⟨kept', done⟩ := ih
        { state with registers := state.registers.afterWrite slot (Bits.wrap size value) }
      refine ⟨kept.trans kept', fun result after ended other inside => ?_⟩
      rcases List.mem_cons.mp inside with rfl | later
      · refine ⟨small, ?_⟩
        -- What comes later leaves the register alone or leaves in it what it may hold.
        have last := kept'.registers other small
        simp only [ended, left] at last
        exact last.elim (fun same => same ▸ reached) id
      · exact done result after ended other later
    · rw [if_neg small]
      exact ⟨.refl state, fun value after done => by cases done⟩
  | flags rest ih => exact ih _ state
  | @setFlags flags next written allowed rest ih =>
    have taken : effects.Allows state { state with status := .ofFlags flags } :=
      ⟨fun _ _ => .inl rfl, .inr allowed, .inl rfl⟩
    obtain ⟨kept, done⟩ := ih _
    exact ⟨taken.trans kept, done⟩
  | @load address width next written rest ih =>
    rw [bind_eq, load_eq]
    by_cases fits : address + width ≤ state.memory.size
    · rw [if_pos fits]
      have taken : effects.Allows state
          { state with memory := state.memory.afterLoad address width } :=
        ⟨fun _ _ => .inl rfl, .inl rfl, .inl (Memory.bytes_recorded ..)⟩
      obtain ⟨kept, done⟩ := ih _ (state.memory.valueAt_lt address width) _
      exact ⟨taken.trans kept, done⟩
    · rw [if_neg fits]
      exact ⟨.refl state, fun value after done => by cases done⟩
  | @store address width value next written allowed rest ih =>
    rw [bind_eq, store_eq]
    by_cases fits : address + width ≤ state.memory.size
    · rw [if_pos fits]
      have taken : effects.Allows state
          { state with memory := state.memory.afterStore address width value } :=
        ⟨fun _ _ => .inl rfl, .inl rfl, .inr allowed⟩
      obtain ⟨kept, done⟩ := ih _
      exact ⟨taken.trans kept, done⟩
    · rw [if_neg fits]
      exact ⟨.refl state, fun value after done => by cases done⟩

end Does

/-! ### What follows for two runs -/

/-- Two outcomes are alike: both completed, with values that are related, or both ended early with
one fault, and the states that they left are related. -/
inductive Alike (values : α → α → Prop) (states : CoreState → CoreState → Prop) :
    EStateM.Result ExecutionFault CoreState α → EStateM.Result ExecutionFault CoreState α → Prop
  | completed {one other : α} {after after' : CoreState} (sameValue : values one other)
      (sameState : states after after') : Alike values states (.ok one after) (.ok other after')
  | faulted {fault : ExecutionFault} {after after' : CoreState} (sameState : states after after') :
      Alike values states (.error fault after) (.error fault after')

/-- A relation between two states that is kept when both take the same primitive step, where a read
may depend on no more than some bits of a register. -/
structure HoldsOverBoth (reads : (slot bits : Nat) → Prop)
    (R : CoreState → CoreState → Prop) : Prop where
  agree : ∀ {one other slot bits}, R one other → slot < 32 → reads slot bits →
    one.registers.value slot % 2 ^ bits = other.registers.value slot % 2 ^ bits
  readRegister : ∀ {one other} {slot : Nat}, R one other → slot < 32 →
    R { one with registers := one.registers.afterRead slot }
      { other with registers := other.registers.afterRead slot }
  writeRegister : ∀ {one other} {slot : Nat} (value : Nat), R one other → slot < 32 →
    R { one with registers := one.registers.afterWrite slot value }
      { other with registers := other.registers.afterWrite slot value }
  flags : ∀ {one other}, R one other → one.status.flags = other.status.flags
  setFlags : ∀ {one other} (flags : Flags), R one other →
    R { one with status := .ofFlags flags } { other with status := .ofFlags flags }
  size : ∀ {one other}, R one other → one.memory.size = other.memory.size
  valueAt : ∀ {one other} (address width : Nat), R one other →
    one.memory.valueAt address width = other.memory.valueAt address width
  load : ∀ {one other} (address width : Nat), R one other →
    R { one with memory := one.memory.afterLoad address width }
      { other with memory := other.memory.afterLoad address width }
  store : ∀ {one other} (address width value : Nat), R one other →
    R { one with memory := one.memory.afterStore address width value }
      { other with memory := other.memory.afterStore address width value }

/-- From two states that agree in what an execution may depend on, it ends alike. -/
theorem Does.alike {effects : Effects} {written : List Nat} {execution : Execution α}
    (does : Does effects written execution) {R : CoreState → CoreState → Prop}
    (both : HoldsOverBoth effects.reads R) {one other : CoreState} (related : R one other) :
    Alike Eq R (execution one) (execution other) := by
  induction does generalizing one other with
  | pure value => exact .completed rfl related
  | throw fault written => exact .faulted related
  | @readRegister slot size bits next written allowed blind rest ih =>
    rw [bind_eq, bind_eq, readRegister_eq, readRegister_eq]
    by_cases small : slot < 32
    · simp only [if_pos small]
      rw [blind _ _ (both.agree related small allowed)]
      exact ih _ (both.readRegister related small)
    · simp only [if_neg small]
      exact .faulted related
  | @writeRegister slot size bits value next written allowed fits rest ih =>
    rw [bind_eq, bind_eq, writeRegister_eq, writeRegister_eq]
    by_cases small : slot < 32
    · simp only [if_pos small]
      exact ih (both.writeRegister _ related small)
    · simp only [if_neg small]
      exact .faulted related
  | @flags next written rest ih =>
    show Alike Eq R (next one.status.flags one) (next other.status.flags other)
    rw [both.flags related]
    exact ih _ related
  | setFlags allowed rest ih => exact ih (both.setFlags _ related)
  | @load address width next written rest ih =>
    rw [bind_eq, bind_eq, load_eq, load_eq, both.size related, both.valueAt address width related]
    by_cases fits : address + width ≤ other.memory.size
    · simp only [if_pos fits]
      exact ih _ (Memory.valueAt_lt ..) (both.load address width related)
    · simp only [if_neg fits]
      exact .faulted related
  | @store address width value next written allowed rest ih =>
    rw [bind_eq, bind_eq, store_eq, store_eq, both.size related]
    by_cases fits : address + width ≤ other.memory.size
    · simp only [if_pos fits]
      exact ih (both.store address width value related)
    · simp only [if_neg fits]
      exact .faulted related

end Execution

end A64Machine
