import A64Machine.Proofs.AddressForms

/-!
# Loads and stores access what was written

A load or a store is described without its word: by the number of bytes of an access, the registers
that are transferred, the base and how the address is made out of it. The assembled and decoded
instruction makes just those accesses, one after the other, and it changes the base just as its
address says. Where an access fails, nothing is written back.
-/

namespace A64Machine

/-- Accesses of some bytes, one after the other. Each names its address and the value that it stores,
if it stores one. -/
def Memory.accessAll (width : Nat) (memory : Memory) :
    List (Nat × Option Nat) → Except MemoryFault Memory
  | [] => .ok memory
  | (address, none) :: rest => do
    let (_, memory) ← memory.read address width
    memory.accessAll width rest
  | (address, some value) :: rest => do
    (← memory.write address width value).accessAll width rest

/-- The first access is made before the others. -/
theorem Memory.accessAll_cons (width : Nat) (memory : Memory) (first : Nat × Option Nat)
    (rest : List (Nat × Option Nat)) :
    memory.accessAll width (first :: rest) =
      memory.accessAll width [first] >>= fun memory => memory.accessAll width rest := by
  obtain ⟨address, stored⟩ := first
  cases stored with
  | none =>
    simp only [accessAll]
    cases memory.read address width <;> rfl
  | some value =>
    simp only [accessAll]
    cases memory.write address width value <;> rfl

namespace Addressing

/-- The value of an index register with its modifier: the sign is extended where the keyword says
so. -/
def extended (modifier : Option Modifier) (value : Nat) : Int :=
  match modifier with
  | some .sxtw => Bits.signExtend value 32
  | some .sxtx => Bits.signExtend value 64
  | _ => value

/-- The address of the access. -/
def address (state : CoreState) (base : Register) : Addressing → Nat
  | .offset distance | .preIndexed distance => Bits.wrap 64 (state.contents base + distance)
  | .postIndexed _ => Bits.wrap 64 (state.contents base)
  | .indexed register modifier amount =>
    Bits.wrap 64
      (state.contents base +
        extended modifier (state.contents register) * (2 ^ amount.toNat : Nat))

/-- The value that is left in the base, if it is changed. -/
def changed? (state : CoreState) (base : Register) : Addressing → Option Nat
  | .preIndexed distance | .postIndexed distance =>
    some (Bits.wrap 64 (state.contents base + distance))
  | .offset _ | .indexed _ _ _ => none

end Addressing

/-- A load or a store as it is written: the number of bytes of an access, whether it stores, the
registers that are transferred, the base, and how the address is made out of the base. -/
structure MemoryTransfer where
  width : Nat
  stores : Bool
  registers : List Register
  base : Register
  addressing : Addressing
  deriving DecidableEq, Repr

namespace MemoryTransfer

/-- The transfer that a mnemonic makes of its registers and of an address. -/
def ofOperands (mnemonic : String) (registers : List RegisterOperand) (base : Register)
    (addressing : Addressing) : MemoryTransfer where
  width := accessWidth mnemonic (registers.all fun operand => operand.register.wide)
  stores := decide (mnemonic ∈ storeMnemonics)
  registers := registers.map RegisterOperand.register
  base := base
  addressing := addressing

/-- The access width of registers that are alike is that of the first one. -/
theorem width_ofOperands {mnemonic : String} {first : RegisterOperand} {rest : List RegisterOperand}
    {base : Register} {addressing : Addressing}
    (alike : ∀ operand ∈ rest, operand.register.wide = first.register.wide) :
    (ofOperands mnemonic (first :: rest) base addressing).width =
      accessWidth mnemonic first.register.wide := by
  have all : (first :: rest).all (fun operand => operand.register.wide) = first.register.wide := by
    cases wide : first.register.wide <;> simp_all
  rw [ofOperands, all]

/-- The address of the first access. -/
def address (transfer : MemoryTransfer) (state : CoreState) : Nat :=
  transfer.addressing.address state transfer.base

/-- The access of one register: a store keeps its lowest bytes. -/
def access (transfer : MemoryTransfer) (state : CoreState) (address : Nat) (register : Register) :
    Nat × Option Nat :=
  (address,
    if transfer.stores then some (state.registers.value register.slot % 2 ^ (8 * transfer.width))
    else none)

/-- The accesses from an address on, of which each comes as many bytes behind the one before it as
one access has. -/
def accessesFrom (transfer : MemoryTransfer) (state : CoreState) (address : Nat) :
    List Register → List (Nat × Option Nat)
  | [] => []
  | register :: rest =>
    transfer.access state address register ::
      transfer.accessesFrom state (Bits.wrap 64 (address + transfer.width : Nat)) rest

/-- The memory that the accesses leave, or the fault of one of them. -/
def outcome (transfer : MemoryTransfer) (state : CoreState) : Except MemoryFault Memory :=
  state.memory.accessAll transfer.width
    (transfer.accessesFrom state (transfer.address state) transfer.registers)

/-- The slots of the registers that are loaded. -/
def loaded (transfer : MemoryTransfer) : List Nat :=
  if transfer.stores then [] else transfer.registers.map Register.slot

/-- What the transfer completes with. A base that is changed holds the new address, unless it is the
zero register; any other base is as before, unless it is loaded. -/
def Completes (transfer : MemoryTransfer) (before : CoreState) (branched : Option Nat)
    (after : CoreState) : Prop :=
  branched = none ∧ transfer.outcome before = .ok after.memory ∧
    match transfer.addressing.changed? before transfer.base with
    | some changed =>
      transfer.base.slot ≠ Register.zeroSlot →
        after.registers.value transfer.base.slot = changed
    | none =>
      transfer.base.slot ∉ transfer.loaded →
        (transfer.base.slot = Register.zeroSlot →
          before.registers.value Register.zeroSlot = 0) →
        after.registers.value transfer.base.slot = before.registers.value transfer.base.slot

/-- The faults of the transfer are those of its accesses. -/
def Fails (transfer : MemoryTransfer) (before : CoreState) (fault : ExecutionFault) : Prop :=
  ∃ access, transfer.outcome before = .error access ∧ fault = .memory access

end MemoryTransfer

/-- One state follows another from which some registers were loaded: all others are as before. Any
load clears the zero register. -/
def CoreState.KeepsAllBut (before after : CoreState) (loaded : List Nat) : Prop :=
  ∀ slot < 32, slot ∉ loaded →
    (slot = Register.zeroSlot → loaded = [] ∨ before.registers.value Register.zeroSlot = 0) →
      after.registers.value slot = before.registers.value slot

/-- What is kept twice is kept. -/
theorem CoreState.KeepsAllBut.trans {before middle after : CoreState} {loaded later : List Nat}
    (first : before.KeepsAllBut middle loaded) (second : middle.KeepsAllBut after later) :
    before.KeepsAllBut after (loaded ++ later) := by
  intro slot small apart zero
  rw [List.mem_append, not_or] at apart
  have same : middle.registers.value slot = before.registers.value slot := by
    refine first slot small apart.1 fun isZero => (zero isZero).imp_left fun none => ?_
    exact (List.append_eq_nil_iff.mp none).1
  refine (second slot small apart.2 fun isZero => (zero isZero).imp (fun none => ?_) fun clear => ?_).trans
    same
  · exact (List.append_eq_nil_iff.mp none).2
  · rw [isZero] at same
    exact same.trans clear

namespace Execution

variable {allowed : ExecutionFault → Prop} {condition : Unit → CoreState → Prop} {state : CoreState}

/-- A transfer makes one access and loads its register, unless it stores it. -/
theorem ensures_transfer {code width address slot : Nat} (named : slot < 32) (narrow : width ≤ 8)
    (accessed :
      match state.memory.accessAll width [(address,
        if code = 0 then some (state.registers.value slot % 2 ^ (8 * width)) else none)] with
      | .ok memory => ∀ after : CoreState, after.memory = memory →
        state.KeepsAllBut after (if code = 0 then [] else [slot]) → condition () after
      | .error fault => allowed (.memory fault)) :
    Ensures allowed (Transfer.transfer code width address slot) condition state := by
  by_cases stores : code = 0
  · subst stores
    rw [ensures_transfer_store named narrow, Nat.min_eq_left (by omega)]
    simp only [if_true, Memory.accessAll] at accessed
    cases written : state.memory.write address width
        (state.registers.value slot % 2 ^ (8 * width) : Nat) with
    | error fault =>
      rw [written] at accessed
      exact accessed
    | ok memory =>
      rw [written] at accessed
      exact accessed _ rfl fun other _ _ _ => RegisterFile.value_afterRead ..
  · rw [ensures_transfer_load stores named]
    simp only [if_neg stores, Memory.accessAll] at accessed
    cases read : state.memory.read address width with
    | error fault =>
      rw [read] at accessed
      exact accessed
    | ok result =>
      obtain ⟨value, memory⟩ := result
      rw [read] at accessed
      refine accessed _ rfl fun other small apart zero => ?_
      rw [RegisterFile.value_afterWrite _ _ named small]
      split
      · rename_i same
        exact same ▸ ((zero same).resolve_left (by simp)).symm
      · rw [if_neg fun same => apart (List.mem_singleton.mpr same)]

/-- States that differ only in the record of accesses to registers. -/
def SameValues (before state : CoreState) : Prop :=
  state.memory = before.memory ∧
    ∀ slot : Nat, state.registers.value slot = before.registers.value slot

/-- Reading a register changes no value. -/
theorem sameValues_afterRead (state : CoreState) (slot : Nat) :
    SameValues state { state with registers := state.registers.afterRead slot } :=
  ⟨rfl, fun _ => RegisterFile.value_afterRead ..⟩

section Transfers

variable {transfer : MemoryTransfer} {before : CoreState} {code address : Nat}

/-- The access of one transfer is that of its register. -/
theorem accessAll_access {register : Register} {memory : Memory}
    (stores : code = 0 ↔ transfer.stores = true)
    (same : state.registers.value register.slot = before.registers.value register.slot ∨
      transfer.stores = false) :
    memory.accessAll transfer.width [(address,
        if code = 0 then some (state.registers.value register.slot % 2 ^ (8 * transfer.width))
        else none)] =
      memory.accessAll transfer.width [transfer.access before address register] := by
  rw [MemoryTransfer.access]
  simp only [stores]
  rcases same with same | loads
  · rw [same]
  · simp [loads]

/-- One transfer makes the access of a load or store of one register. -/
theorem ensures_one {register : Register} (registers : transfer.registers = [register])
    (named : register.slot < 32) (narrow : transfer.width ≤ 8)
    (stores : code = 0 ↔ transfer.stores = true) (same : SameValues before state)
    (there : transfer.address before = address) :
    Ensures (transfer.Fails before) (Transfer.transfer code transfer.width address register.slot)
      (fun _ after => transfer.outcome before = .ok after.memory ∧
        before.KeepsAllBut after transfer.loaded) state := by
  have loaded : (if code = 0 then [] else [register.slot]) = transfer.loaded := by
    rw [MemoryTransfer.loaded, registers]
    simp only [stores]
    rfl
  have outcome : state.memory.accessAll transfer.width [transfer.access before address register] =
      transfer.outcome before := by
    rw [MemoryTransfer.outcome, registers, there, same.1]
    rfl
  refine ensures_transfer named narrow ?_
  rw [accessAll_access stores (.inl (same.2 _)), outcome, loaded]
  cases known : transfer.outcome before with
  | error fault => exact ⟨fault, known, rfl⟩
  | ok memory =>
    intro after left kept
    refine ⟨congrArg Except.ok left.symm, fun slot small apart zero => ?_⟩
    rw [kept slot small apart (by rw [same.2]; exact zero), same.2]

/-- Two transfers make the accesses of a load or store of two registers. -/
theorem ensures_two {first second : Register} (registers : transfer.registers = [first, second])
    (named : first.slot < 32) (named' : second.slot < 32) (narrow : transfer.width ≤ 8)
    (stores : code = 0 ↔ transfer.stores = true) (same : SameValues before state)
    (there : transfer.address before = address) :
    Ensures (transfer.Fails before) (Transfer.transfer code transfer.width address first.slot)
      (fun _ middle => Ensures (transfer.Fails before)
        (Transfer.transfer code transfer.width (Bits.wrap 64 (address + transfer.width : Nat))
          second.slot)
        (fun _ after => transfer.outcome before = .ok after.memory ∧
          before.KeepsAllBut after transfer.loaded) middle) state := by
  have loaded : (if code = 0 then [] else [first.slot]) ++
      (if code = 0 then [] else [second.slot]) = transfer.loaded := by
    rw [MemoryTransfer.loaded, registers]
    simp only [stores]
    split <;> rfl
  have outcome : transfer.outcome before =
      state.memory.accessAll transfer.width [transfer.access before address first] >>=
        fun memory => memory.accessAll transfer.width
          [transfer.access before (Bits.wrap 64 (address + transfer.width : Nat)) second] := by
    rw [MemoryTransfer.outcome, registers, there, same.1, ← Memory.accessAll_cons]
    rfl
  refine ensures_transfer named narrow ?_
  rw [accessAll_access stores (.inl (same.2 _))]
  cases known : state.memory.accessAll transfer.width [transfer.access before address first] with
  | error fault => exact ⟨fault, by rw [outcome, known]; rfl, rfl⟩
  | ok memory =>
    rw [ok_bind known] at outcome
    intro middle left kept
    refine ensures_transfer named' narrow ?_
    have unchanged : middle.registers.value second.slot = before.registers.value second.slot ∨
        transfer.stores = false := by
      cases isStore : transfer.stores with
      | false => exact .inr rfl
      | true =>
        rw [if_pos (stores.mpr isStore)] at kept
        exact .inl ((kept _ named' (by simp) fun _ => .inl rfl).trans (same.2 _))
    rw [accessAll_access stores unchanged, left, ← outcome]
    cases known : transfer.outcome before with
    | error fault => exact ⟨fault, known, rfl⟩
    | ok memory =>
      intro after left kept'
      refine ⟨congrArg Except.ok left.symm, fun slot small apart zero => ?_⟩
      rw [← loaded] at apart zero
      rw [kept.trans kept' slot small apart (by rw [same.2]; exact zero), same.2]

end Transfers

end Execution

namespace MemoryTransfer

variable {transfer : MemoryTransfer} {before middle after : CoreState}

/-- A transfer completes when its accesses are made and its base is left alone. -/
theorem completes_of_kept (named : transfer.base.slot < 32)
    (unchanged : transfer.addressing.changed? before transfer.base = none)
    (outcome : transfer.outcome before = .ok after.memory)
    (kept : before.KeepsAllBut after transfer.loaded) : transfer.Completes before none after := by
  refine ⟨rfl, outcome, ?_⟩
  rw [unchanged]
  exact fun apart zero => kept _ named apart fun isZero => .inr (zero isZero)

/-- A transfer completes when its accesses are made and its base is changed behind them. -/
theorem completes_of_changed {changed : Int} (named : transfer.base.slot < 32)
    (new : transfer.addressing.changed? before transfer.base = some (Bits.wrap 64 changed))
    (outcome : transfer.outcome before = .ok middle.memory) :
    transfer.Completes before none
      { middle with
        registers := middle.registers.afterWrite transfer.base.slot (Bits.wrap 64 changed) } := by
  refine ⟨rfl, outcome, ?_⟩
  rw [new]
  intro general
  rw [RegisterFile.value_written _ _ named, RegisterFile.kept, if_neg general]

end MemoryTransfer

namespace InstructionSet

open Execution

variable {form : InstructionForm} {word : Nat} {wide : Bool} {instruction : Instruction}
  {transfer : MemoryTransfer} {register : Register} {distance : Int}

/-- The fields of an instruction that transfers one register are those of a transfer. -/
structure MatchesOne (instruction : Instruction) (transfer : MemoryTransfer) (register : Register) :
    Prop where
  registers : transfer.registers = [register]
  slot : instruction.value 't' = register.slot
  base : instruction.value 'n' = transfer.base.slot
  full : transfer.base.wide = true
  size : instruction.value 'x' < 4
  width : 2 ^ instruction.value 'x' = transfer.width
  stores : instruction.value 'c' = 0 ↔ transfer.stores = true

/-- A base is a full register. -/
theorem contents_of_wide {state : CoreState} {base : Register} (full : base.wide = true) :
    state.contents base = state.registers.value base.slot % 2 ^ 64 := by
  rw [CoreState.contents, full]
  rfl

/-- A transfer with an unsigned offset accesses the base with its distance. -/
theorem performs_scaled (executes : Executes instruction form word wide)
    (op : instruction.form.op = .transferScaled) (same : MatchesOne instruction transfer register)
    (offset : transfer.addressing = .offset distance)
    (held : (instruction.value 'I' : Int) * transfer.width = distance) (state : CoreState) :
    Ensures (transfer.Fails state) (perform instruction) (transfer.Completes state) state := by
  have offers : instruction.Offers ['x', 'n', 'I', 'c', 't'] :=
    executes.offers (by rw [← executes.op, op]; decide)
  have named := offers.registers 't' (by decide)
  have based := offers.registers 'n' (by decide)
  have narrow := width_le same.size
  simp only [perform, op, ensures_sequential, Transfer.scaled, ensures_bind, ensures_field_offered,
    ensures_readField_offered, offers.present, offers.registers, List.mem_cons, true_or, or_true]
  rw [same.width] at narrow ⊢
  rw [same.slot] at named ⊢
  rw [same.base] at based ⊢
  have there : transfer.address state = Bits.wrap 64
      (state.registers.value transfer.base.slot % 2 ^ 64 + instruction.value 'I' * transfer.width :
        Nat) := by
    rw [MemoryTransfer.address, offset, Addressing.address, contents_of_wide same.full, ← held,
      Int.natCast_add, Int.natCast_mul]
  refine (ensures_one same.registers named narrow same.stores (sameValues_afterRead state _)
    there).imp ?_
  rintro _ after ⟨outcome, kept⟩
  exact MemoryTransfer.completes_of_kept based (by rw [offset]; rfl) outcome kept

/-- The mode of a transfer with a distance that may change the base. -/
def IsMode (mode : Nat) (distance : Int) : Addressing → Prop
  | .offset given => given = distance ∧ mode ≠ 1 ∧ mode ≠ 3
  | .preIndexed given => given = distance ∧ mode = 3
  | .postIndexed given => given = distance ∧ mode = 1
  | .indexed _ _ _ => False

/-- The address in a mode. -/
theorem address_of_mode {mode : Nat} (isMode : IsMode mode distance transfer.addressing)
    (full : transfer.base.wide = true) (state : CoreState) :
    transfer.address state = Transfer.indexedAddress mode
      (state.registers.value transfer.base.slot % 2 ^ 64) distance := by
  rw [MemoryTransfer.address, Transfer.indexedAddress]
  cases made : transfer.addressing with
  | offset given =>
    rw [made] at isMode
    obtain ⟨rfl, notPost, _⟩ := isMode
    rw [if_neg notPost, Addressing.address, contents_of_wide full]
  | preIndexed given =>
    rw [made] at isMode
    obtain ⟨rfl, rfl⟩ := isMode
    rw [if_neg (by decide), Addressing.address, contents_of_wide full]
  | postIndexed given =>
    rw [made] at isMode
    obtain ⟨rfl, rfl⟩ := isMode
    rw [if_pos rfl, Addressing.address, contents_of_wide full]
    exact Bits.wrap_of_lt (Nat.mod_lt _ (Nat.two_pow_pos 64))
  | indexed => rw [made] at isMode; exact isMode.elim

/-- Behind the accesses the base is changed in the modes that say so. -/
theorem ensures_writeBack {mode : Nat} {allowed : ExecutionFault → Prop} {before middle : CoreState}
    (isMode : IsMode mode distance transfer.addressing) (full : transfer.base.wide = true)
    (known : instruction.fields.lookup 'n' = some transfer.base.slot)
    (based : transfer.base.slot < 32) (outcome : transfer.outcome before = .ok middle.memory)
    (kept : before.KeepsAllBut middle transfer.loaded) :
    Ensures allowed
      (Transfer.writeBack instruction mode
        (before.registers.value transfer.base.slot % 2 ^ 64) distance)
      (fun _ after => transfer.Completes before none after) middle := by
  rw [Transfer.writeBack]
  cases made : transfer.addressing with
  | offset given =>
    rw [made] at isMode
    obtain ⟨rfl, notPost, notPre⟩ := isMode
    rw [if_neg (by simp [notPost, notPre])]
    exact MemoryTransfer.completes_of_kept based (by rw [made]; rfl) outcome kept
  | preIndexed given | postIndexed given =>
    rw [made] at isMode
    obtain ⟨rfl, rfl⟩ := isMode
    rw [if_pos (by decide), ensures_writeField known based]
    refine MemoryTransfer.completes_of_changed based ?_ outcome
    rw [made, Addressing.changed?, contents_of_wide full]
  | indexed => rw [made] at isMode; exact isMode.elim

/-- A transfer with a signed offset accesses the base with its distance, or the base itself, and
changes the base if its mode says so. -/
theorem performs_near (executes : Executes instruction form word wide)
    (op : instruction.form.op = .transferNear) (same : MatchesOne instruction transfer register)
    (isMode : IsMode (instruction.value 'w') distance transfer.addressing)
    (held : Bits.signExtend (instruction.value 'I') 9 = distance) (state : CoreState) :
    Ensures (transfer.Fails state) (perform instruction) (transfer.Completes state) state := by
  have offers : instruction.Offers ['x', 'n', 'I', 'w', 'c', 't'] :=
    executes.offers (by rw [← executes.op, op]; decide)
  have named := offers.registers 't' (by decide)
  have based := offers.registers 'n' (by decide)
  have known := offers.present 'n' (by decide)
  have narrow := width_le same.size
  simp only [perform, op, ensures_sequential, Transfer.near, ensures_bind, ensures_field_offered,
    ensures_readField_offered, offers.present, offers.registers, List.mem_cons, true_or, or_true]
  rw [same.width] at narrow ⊢
  rw [same.slot] at named ⊢
  rw [same.base] at based known ⊢
  rw [held, ← address_of_mode isMode same.full]
  refine (ensures_one same.registers named narrow same.stores (sameValues_afterRead state _)
    rfl).imp ?_
  rintro _ middle ⟨outcome, kept⟩
  exact ensures_writeBack isMode same.full known based outcome kept

/-- The fields of an instruction that transfers two registers are those of a transfer. -/
structure MatchesTwo (instruction : Instruction) (transfer : MemoryTransfer)
    (first second : Register) : Prop where
  registers : transfer.registers = [first, second]
  firstSlot : instruction.value 't' = first.slot
  secondSlot : instruction.value 'u' = second.slot
  base : instruction.value 'n' = transfer.base.slot
  full : transfer.base.wide = true
  width : (if (instruction.value 'c').testBit 1 then 8 else 4) = transfer.width
  stores : instruction.value 'L' = 0 ↔ transfer.stores = true

/-- A transfer of two registers accesses the base with its distance, or the base itself, and then the
bytes behind that; it changes the base if its mode says so. -/
theorem performs_pair {first second : Register} (executes : Executes instruction form word wide)
    (op : instruction.form.op = .transferPair)
    (same : MatchesTwo instruction transfer first second)
    (isMode : IsMode (instruction.value 'w') distance transfer.addressing)
    (held : Bits.signExtend (instruction.value 'I') 7 * transfer.width = distance)
    (state : CoreState) :
    Ensures (transfer.Fails state) (perform instruction) (transfer.Completes state) state := by
  have offers : instruction.Offers ['c', 'n', 'I', 'w', 'L', 't', 'u'] :=
    executes.offers (by rw [← executes.op, op]; decide)
  have named := offers.registers 't' (by decide)
  have named' := offers.registers 'u' (by decide)
  have based := offers.registers 'n' (by decide)
  have known := offers.present 'n' (by decide)
  have narrow : transfer.width ≤ 8 := by
    rw [← same.width]
    split <;> decide
  have stores : (if instruction.value 'L' ≠ 0 then 1 else 0) = 0 ↔ transfer.stores = true := by
    rw [← same.stores]
    split <;> simp_all
  simp only [perform, op, ensures_sequential, Transfer.pair, ensures_bind, ensures_field_offered,
    ensures_readField_offered, offers.present, offers.registers, List.mem_cons, true_or, or_true]
  rw [same.width]
  rw [same.firstSlot] at named ⊢
  rw [same.secondSlot] at named' ⊢
  rw [same.base] at based known ⊢
  rw [held, ← address_of_mode isMode same.full]
  refine (ensures_two same.registers named named' narrow stores (sameValues_afterRead state _)
    rfl).imp fun _ _ later => later.imp ?_
  rintro _ middle ⟨outcome, kept⟩
  exact ensures_writeBack isMode same.full known based outcome kept

/-- The execution extends an index register as its modifier says. -/
theorem extendValue_of_index {index : Register} {modifier : Option Modifier} {code shift : Nat}
    (known : Modifier.indexCode? modifier = some code) (width : index.wide = (code % 4 == 3))
    (small : shift < 64) (state : CoreState) :
    extendValue (state.registers.value index.slot % 2 ^ 64) code shift 64 =
      Bits.wrap 64
        (Addressing.extended modifier (state.contents index) * (2 ^ shift : Nat)) := by
  have half (value : Nat) : value % 2 ^ 64 % 2 ^ 32 = value % 2 ^ 32 :=
    Nat.mod_mod_of_dvd _ (by decide)
  have signed (value : Nat) : Bits.signExtend (value % 2 ^ 64 : Nat) 32 =
      Bits.signExtend (value % 2 ^ 32 : Nat) 32 := by
    rw [← half value, Bits.signExtend, Bits.signExtend, Int.natCast_emod (value % 2 ^ 64)]
    exact (Int.emod_bmod _ _).symm
  rw [extendValue, if_neg (Nat.not_le.mpr small)]
  refine congrArg (fun value : Int => Bits.wrap 64 (value * (2 ^ shift : Nat))) ?_
  rw [CoreState.contents, width]
  cases modifier with
  | none =>
    obtain rfl := Option.some.inj known
    exact congrArg Nat.cast (Nat.mod_mod ..)
  | some modifier =>
    cases modifier <;> first | contradiction | obtain rfl := Option.some.inj known
    case lsl => exact congrArg Nat.cast (Nat.mod_mod ..)
    case uxtw =>
      rw [if_neg (by decide), show Modifier.extendWidth 2 = 32 from rfl, half]
      rfl
    case sxtw =>
      rw [if_pos (by decide), show Modifier.extendWidth 6 = 32 from rfl, signed]
      rfl
    case sxtx =>
      rw [if_pos (by decide), show Modifier.extendWidth 7 = 64 from rfl]
      rfl

/-- A transfer with an index register accesses the base with the extended and shifted index. -/
theorem performs_indexed {index : Register} {modifier : Option Modifier} {amount : Int}
    {code : Nat} (executes : Executes instruction form word wide)
    (op : instruction.form.op = .transferIndexed) (same : MatchesOne instruction transfer register)
    (indexed : transfer.addressing = .indexed index modifier amount)
    (slot : instruction.value 'm' = index.slot) (coded : instruction.value 'o' = code)
    (known : Modifier.indexCode? modifier = some code) (width : index.wide = (code % 4 == 3))
    (shift : amount = (if instruction.value 'S' ≠ 0 then instruction.value 'x' else 0 : Nat))
    (state : CoreState) :
    Ensures (transfer.Fails state) (perform instruction) (transfer.Completes state) state := by
  have offers : instruction.Offers ['x', 'S', 'm', 'o', 'n', 'c', 't'] :=
    executes.offers (by rw [← executes.op, op]; decide)
  have named := offers.registers 't' (by decide)
  have based := offers.registers 'n' (by decide)
  have narrow := width_le same.size
  have small : (if instruction.value 'S' ≠ 0 then instruction.value 'x' else 0) < 64 := by
    have size := same.size
    split <;> omega
  simp only [perform, op, ensures_sequential, Transfer.indexed, ensures_bind, ensures_field_offered,
    ensures_readField_offered, offers.present, offers.registers, List.mem_cons, true_or, or_true]
  rw [same.width] at narrow ⊢
  rw [same.slot] at named ⊢
  rw [same.base] at based ⊢
  rw [slot, coded, extendValue_of_index known width small, RegisterFile.value_afterRead]
  have there : transfer.address state = Bits.wrap 64
      (state.registers.value transfer.base.slot % 2 ^ 64 +
        Bits.wrap 64 (Addressing.extended modifier (state.contents index) *
          (2 ^ (if instruction.value 'S' ≠ 0 then instruction.value 'x' else 0) : Nat)) : Nat) := by
    rw [MemoryTransfer.address, indexed, Addressing.address, contents_of_wide same.full, shift,
      Int.natCast_add, Bits.wrap_add_wrap, Int.toNat_natCast]
  have read : SameValues state { state with
      registers := (state.registers.afterRead index.slot).afterRead transfer.base.slot } :=
    ⟨rfl, fun _ => by rw [RegisterFile.value_afterRead, RegisterFile.value_afterRead]⟩
  refine (ensures_one same.registers named narrow same.stores read there).imp ?_
  rintro _ after ⟨outcome, kept⟩
  exact MemoryTransfer.completes_of_kept based (by rw [indexed]; rfl) outcome kept

section Encoded

open Encode (Drafted)

variable {kind : OperandKind} {draft : Draft} {base : Register}
  {mnemonic : String} {front : List Operand} {given : AddressOperand} {here : Int}
  {evaluate : Evaluator}

/-- A field that is known from the width flag has its value. -/
theorem value_of_knownField (executes : Executes instruction form word wide) {letter : Char}
    {value : Nat} (present : letter ∈ baseForm form.op)
    (symbolic : BitPattern.isLiteral letter = false)
    (known : knownField form wide letter = some value) : instruction.value letter = value := by
  rw [Instruction.value, executes.lookup_of_known present symbolic known]
  rfl

/-- The address is the last operand of a form that transfers one register. -/
theorem TransfersOne.mem (one : TransfersOne form kind) : (kind, own) ∈ form.operands := by
  obtain ⟨_, _, operands, _⟩ := one.operands
  exact operands ▸ List.mem_cons_of_mem _ List.mem_cons_self

/-- The address is the last operand of a form that transfers two registers. -/
theorem TransfersTwo.mem (two : TransfersTwo form kind) : (kind, own) ∈ form.operands :=
  two.operands ▸ List.mem_cons_of_mem _ (List.mem_cons_of_mem _ List.mem_cons_self)

/-- The fields of an assembled transfer of one register are those that were written. -/
theorem TransfersOne.matchesOne (one : TransfersOne form kind) (addressing : Addressing)
    (executes : Executes instruction form word (draft.wide != some false))
    (drafted : Drafted form draft word)
    (op : form.op ∈ [.transferScaled, .transferNear, .transferIndexed])
    (sets : 'n' ∈ kind.letters own) {operand : RegisterOperand}
    (transferred : draft.values.lookup 't' = some (operand.register.slot : Int))
    (based : draft.values.lookup 'n' = some (base.slot : Int)) (full : base.wide = true)
    (width : accessWidth form.mnemonic (draft.wide != some false) =
      accessWidth form.mnemonic operand.register.wide) :
    MatchesOne instruction (.ofOperands form.mnemonic [operand] base addressing)
      operand.register := by
  obtain ⟨first, isRegister, operands, _⟩ := one.operands
  have own' : 't' ∈ first.letters ['t'] := by
    simp only [List.mem_cons, List.not_mem_nil, or_false] at isRegister
    rcases isRegister with rfl | rfl | rfl <;> decide
  have present : 'x' ∈ baseForm form.op ∧ 'c' ∈ baseForm form.op := by
    simp only [List.mem_cons, List.not_mem_nil, or_false] at op
    rcases op with op | op | op <;> rw [op] <;> decide
  obtain ⟨x, small, knownX, size⟩ := one.size (draft.wide != some false)
  obtain ⟨c, _, knownC, stores⟩ := one.code (draft.wide != some false)
  have x := value_of_knownField executes present.1 (by decide) knownX
  have c := value_of_knownField executes present.2 (by decide) knownC
  have slot := executes.value_of_drafted drafted (operands ▸ List.mem_cons_self) own' transferred
  have baseSlot := executes.value_of_drafted drafted
    (operands ▸ List.mem_cons_of_mem _ List.mem_cons_self) sets based
  refine ⟨rfl, (Int.ofNat.inj slot).symm, (Int.ofNat.inj baseSlot).symm, full, x ▸ small, ?_, ?_⟩
  · rw [x, size, width, MemoryTransfer.width_ofOperands (by simp)]
  · rw [c, stores, MemoryTransfer.ofOperands, decide_eq_true_eq]

/-- The fields of an assembled transfer of two registers are those that were written. -/
theorem TransfersTwo.matchesTwo (two : TransfersTwo form kind) (addressing : Addressing)
    (executes : Executes instruction form word (draft.wide != some false))
    (drafted : Drafted form draft word) (op : form.op = .transferPair)
    (sets : 'n' ∈ kind.letters own) {first second : RegisterOperand}
    (transferred : draft.values.lookup 't' = some (first.register.slot : Int))
    (transferred' : draft.values.lookup 'u' = some (second.register.slot : Int))
    (based : draft.values.lookup 'n' = some (base.slot : Int)) (full : base.wide = true)
    (alike : second.register.wide = first.register.wide)
    (told : draft.wide = some first.register.wide) :
    MatchesTwo instruction (.ofOperands form.mnemonic [first, second] base addressing)
      first.register second.register := by
  have wide : (draft.wide != some false) = first.register.wide := by
    rw [told]
    cases first.register.wide <;> rfl
  rw [wide] at executes
  obtain ⟨knownC, size⟩ := two.size first.register.wide
  have c := value_of_knownField executes (by rw [op]; decide) (by decide) knownC
  have load := value_of_knownField executes (by rw [op]; decide) (by decide)
    (two.code first.register.wide)
  have slot := executes.value_of_drafted drafted (two.operands ▸ List.mem_cons_self)
    (show 't' ∈ OperandKind.register.letters ['t'] from by decide) transferred
  have slot' := executes.value_of_drafted drafted
    (two.operands ▸ List.mem_cons_of_mem _ List.mem_cons_self)
    (show 'u' ∈ OperandKind.register.letters ['u'] from by decide) transferred'
  have baseSlot := executes.value_of_drafted drafted
    (two.operands ▸ List.mem_cons_of_mem _ (List.mem_cons_of_mem _ List.mem_cons_self)) sets based
  refine ⟨rfl, (Int.ofNat.inj slot).symm, (Int.ofNat.inj slot').symm, (Int.ofNat.inj baseSlot).symm,
    full, ?_, ?_⟩
  · rw [c, MemoryTransfer.width_ofOperands (by simpa using alike), ← size]
    cases first.register.wide <;> rfl
  · rw [load, MemoryTransfer.ofOperands, decide_eq_true_eq]
    split <;> simp [*]

/-- What an instruction does that was assembled from a mnemonic, registers and an address: the
address is made out of a base that is a full register, and in any state the instruction is the
transfer that was written. -/
def Accesses (mnemonic : String) (registers : List RegisterOperand) (given : AddressOperand)
    (evaluate : Evaluator) (instruction : Instruction) : Prop :=
  ∃ base addressing, given.addressing? evaluate = some (base, addressing) ∧ base.wide = true ∧
    ∀ state, Ensures ((MemoryTransfer.ofOperands mnemonic registers base addressing).Fails state)
      (perform instruction)
      ((MemoryTransfer.ofOperands mnemonic registers base addressing).Completes state) state

/-- A signed distance that is placed in a field is read back. -/
theorem signExtend_of_placed {width field : Nat} {units : Int} (positive : 0 < width)
    (range : Encode.isSigned units width = true)
    (same : (Bits.wrap width units : Int) = (field : Int)) : Bits.signExtend field width = units := by
  obtain ⟨least, most⟩ := of_decide_eq_true range
  rw [← same, Bits.signExtend_wrap positive least most]

/-- The mode of an assembled transfer is the one of its form. -/
theorem isMode_of_form {mode : OperandKind × Nat} (distance : Int)
    (isMode : mode ∈ [(OperandKind.scaledAddress, 2), (.unscaledAddress, 0), (.preIndexed, 3),
      (.postIndexed, 1)]) :
    IsMode mode.2 distance (mode.1.addressing distance) := by
  simp only [List.mem_cons, List.not_mem_nil, or_false] at isMode
  rcases isMode with rfl | rfl | rfl | rfl <;> simp [IsMode, OperandKind.addressing]

/-- The amount of an index counts the doublings of an access. -/
theorem accessScale_two_pow {scale : Nat} (small : scale < 4) :
    Encode.accessScale (2 ^ scale : Nat) = scale := by
  obtain rfl | rfl | rfl | rfl : scale = 0 ∨ scale = 1 ∨ scale = 2 ∨ scale = 3 := by omega
  all_goals rfl

section One

variable {operand : RegisterOperand} {middle : Draft}
  (executes : Executes instruction form word (draft.wide != some false))
  (drafted : Drafted form draft word)
  (transferred : middle.values.lookup 't' = some (operand.register.slot : Int))
  (width : accessWidth form.mnemonic (middle.wide != some false) =
    accessWidth form.mnemonic operand.register.wide)
  (based : (OperandKind.base? given).any OperandKind.isPlain = true)

include executes drafted transferred width based

/-- An assembled transfer with an unsigned offset accesses what was written. -/
theorem TransfersOne.accesses_scaled (one : TransfersOne form .scaledAddress)
    (op : form.op = .transferScaled) (hasOffset : HasOffset form 12 none)
    (fits : OperandKind.scaledAddress.fitsAddress given = true)
    (addressed : Encode.address form .scaledAddress given evaluate middle = .ok draft) :
    Accesses form.mnemonic [operand] given evaluate instruction := by
  obtain ⟨base, distance, made, full, sameWide, others, lookupBase, multiple, range, lookupOffset⟩ :=
    Encode.exists_address_distance (by decide) hasOffset.1 based fits addressed
  simp only [one.alone.2, one.counted, width, BEq.rfl, Bool.true_or, Bool.false_or, Bool.not_true,
    Bool.false_eq_true, if_true, if_false] at multiple range lookupOffset
  have same := one.matchesOne (.offset distance) executes drafted (by rw [op]; decide) (by decide)
    ((others 't' (by decide)).trans transferred) lookupBase full (sameWide ▸ width)
  have held := executes.value_of_drafted drafted one.mem (by decide) lookupOffset
  obtain ⟨least, most⟩ := of_decide_eq_true range
  obtain ⟨units, counted⟩ := Int.eq_ofNat_of_zero_le least
  rw [counted] at most held
  rw [Bits.wrap_of_lt (Int.ofNat_lt.mp most)] at held
  refine ⟨base, _, made, full, performs_scaled executes (executes.op.trans op) same rfl ?_⟩
  rw [← held, ← counted, MemoryTransfer.width_ofOperands (by simp)]
  exact Int.ediv_mul_cancel_of_emod_eq_zero multiple

/-- An assembled transfer with a signed offset accesses what was written. -/
theorem TransfersOne.accesses_near {mode : OperandKind × Nat}
    (isMode : mode ∈ [(OperandKind.unscaledAddress, 0), (.preIndexed, 3), (.postIndexed, 1)])
    (one : TransfersOne form mode.1) (op : form.op = .transferNear)
    (hasOffset : HasOffset form 9 (some mode.2))
    (fits : mode.1.fitsAddress given = true)
    (addressed : Encode.address form mode.1 given evaluate middle = .ok draft) :
    Accesses form.mnemonic [operand] given evaluate instruction := by
  have isDistance : mode.1 ∈ [.scaledAddress, .unscaledAddress, .preIndexed, .postIndexed] ∧
      (mode.1 == .scaledAddress) = false ∧ 'I' ∈ mode.1.letters own ∧ 'n' ∈ mode.1.letters own := by
    simp only [List.mem_cons, List.not_mem_nil, or_false] at isMode
    rcases isMode with rfl | rfl | rfl <;> decide
  obtain ⟨inside, unscaled, letter, letter'⟩ := isDistance
  obtain ⟨base, distance, made, full, sameWide, others, lookupBase, _, range, lookupOffset⟩ :=
    Encode.exists_address_distance inside hasOffset.1 based fits addressed
  simp only [one.alone.2, unscaled, Bool.false_or, Bool.or_false, Bool.not_false, if_true,
    Bool.false_eq_true, if_false, Int.ediv_one] at range lookupOffset
  have same := one.matchesOne (mode.1.addressing distance) executes drafted (by rw [op]; decide)
    letter' ((others 't' (by decide)).trans transferred) lookupBase full (sameWide ▸ width)
  have held := executes.value_of_drafted drafted one.mem letter lookupOffset
  have code := value_of_knownField executes (by rw [op]; decide) (by decide)
    ((hasOffset.2 _).resolve_left (by simp))
  have inMode : IsMode (instruction.value 'w') distance (mode.1.addressing distance) :=
    code ▸ isMode_of_form distance (List.mem_cons_of_mem _ isMode)
  exact ⟨base, _, made, full, performs_near executes (executes.op.trans op) same inMode
    (signExtend_of_placed (by decide) range held)⟩

/-- An assembled transfer with an index register accesses what was written. -/
theorem TransfersOne.accesses_indexed (one : TransfersOne form .registerIndexed)
    (op : form.op = .transferIndexed)
    (fits : OperandKind.registerIndexed.fitsAddress given = true)
    (addressed : Encode.address form .registerIndexed given evaluate middle = .ok draft) :
    Accesses form.mnemonic [operand] given evaluate instruction := by
  obtain ⟨base, part, amount, shifted, made, full, known, named, choice, rfl⟩ :=
    Encode.address_of_index based fits addressed
  have lookup {letter : Char} {value : Int} (inside : letter ∈ OperandKind.registerIndexed.letters own)
      (set : ((((middle.set 'n' base.slot).set 'S' shifted).set 'm' part.register.slot).set 'o'
        (Encode.indexCode part)).values.lookup letter = some value) :
      value = instruction.value letter :=
    executes.value_of_drafted drafted one.mem inside set
  have slot := @lookup 'm' part.register.slot (by decide) (by simp [Draft.lookup_set])
  have code := @lookup 'o' (Encode.indexCode part) (by decide) (by simp [Draft.lookup_set])
  have shift := @lookup 'S' shifted (by decide) (by simp [Draft.lookup_set])
  have same := one.matchesOne (.indexed part.register part.modifier amount) executes drafted
    (by rw [op]; decide) (by decide) (by simpa [Draft.lookup_set] using transferred)
    (by simp [Draft.lookup_set]) full width
  refine ⟨base, _, made, full, performs_indexed executes (executes.op.trans op) same rfl
    (Int.ofNat.inj slot).symm (Int.ofNat.inj code).symm ?_ named ?_⟩
  · obtain ⟨code, isCode⟩ := Option.isSome_iff_exists.mp known
    rw [Encode.indexCode, isCode]
    rfl
  · obtain ⟨rfl, rfl⟩ | ⟨rfl, rfl⟩ := choice
    · rw [← Int.ofNat.inj shift]
      rfl
    · have size := same.width
      rw [MemoryTransfer.width_ofOperands (by simp), ← width] at size
      rw [← Int.ofNat.inj shift, one.counted, ← size]
      exact accessScale_two_pow same.size

end One

/-- An assembled transfer of two registers accesses what was written. -/
theorem TransfersTwo.accesses_pair {mode : OperandKind × Nat}
    (isMode : mode ∈ [(OperandKind.scaledAddress, 2), (.preIndexed, 3), (.postIndexed, 1)])
    (two : TransfersTwo form mode.1) (op : form.op = .transferPair)
    (hasOffset : HasOffset form 7 (some mode.2))
    (executes : Executes instruction form word (draft.wide != some false))
    (drafted : Drafted form draft word) {first second : RegisterOperand} {middle : Draft}
    (transferred : middle.values.lookup 't' = some (first.register.slot : Int))
    (transferred' : middle.values.lookup 'u' = some (second.register.slot : Int))
    (alike : second.register.wide = first.register.wide)
    (told : middle.wide = some first.register.wide)
    (based : (OperandKind.base? given).any OperandKind.isPlain = true)
    (fits : mode.1.fitsAddress given = true)
    (addressed : Encode.address form mode.1 given evaluate middle = .ok draft) :
    Accesses form.mnemonic [first, second] given evaluate instruction := by
  have inside : mode.1 ∈ [.scaledAddress, .unscaledAddress, .preIndexed, .postIndexed] ∧
      'I' ∈ mode.1.letters own ∧ 'n' ∈ mode.1.letters own := by
    simp only [List.mem_cons, List.not_mem_nil, or_false] at isMode
    rcases isMode with rfl | rfl | rfl <;> decide
  obtain ⟨inside, letter, letter'⟩ := inside
  obtain ⟨base, distance, made, full, sameWide, others, lookupBase, multiple, range, lookupOffset⟩ :=
    Encode.exists_address_distance inside hasOffset.1 based fits addressed
  have width : accessWidth form.mnemonic (middle.wide != some false) =
      (MemoryTransfer.ofOperands form.mnemonic [first, second] base
        (mode.1.addressing distance)).width := by
    rw [MemoryTransfer.width_ofOperands (by simpa using alike), told]
    cases first.register.wide <;> rfl
  simp only [two.together.2, two.counted, width, Bool.or_true, Bool.true_or,
    if_true] at multiple range lookupOffset
  have same := two.matchesTwo (mode.1.addressing distance) executes drafted op letter'
    ((others 't' (by decide)).trans transferred) ((others 'u' (by decide)).trans transferred')
    lookupBase full alike (sameWide ▸ told)
  have held := executes.value_of_drafted drafted two.mem letter lookupOffset
  have code := value_of_knownField executes (by rw [op]; decide) (by decide)
    ((hasOffset.2 _).resolve_left (by simp))
  have inMode : IsMode (instruction.value 'w') distance (mode.1.addressing distance) :=
    code ▸ isMode_of_form distance
      (List.mem_cons.mpr ((List.mem_cons.mp isMode).imp_right (List.mem_cons_of_mem _)))
  refine ⟨base, _, made, full, performs_pair executes (executes.op.trans op) same inMode ?_⟩
  rw [signExtend_of_placed (by decide) range held]
  exact Int.ediv_mul_cancel_of_emod_eq_zero multiple

/-- Whatever executes the encoded operands of a form with an address accesses what was written. -/
theorem exists_accesses (member : form ∈ forms) {kinds : List OperandKind}
    (split : form.operands.map Prod.fst = kinds ++ [kind]) (isAddress : kind.isAddress = true)
    (count : kinds.length = front.length)
    (fitsFront : OperandKind.fitsEach ((kinds.map OperandKind.code).zip front) = .ok true)
    (based : (OperandKind.base? given).any OperandKind.isPlain = true)
    (fits : kind.fitsAddress given = true)
    (gathered : Encode.allOperands form here evaluate .empty
      (form.operands.map fun operand => (operand.1.code, operand.2))
      (front ++ [.address given]) = .ok draft)
    (drafted : Drafted form draft word) :
    form.op ≠ .bitfield ∧ ∃ registers, front = registers.map Operand.register ∧
      registers.length = (if form.mnemonic ∈ pairMnemonics then 2 else 1) ∧
      ∀ instruction, Executes instruction form word (draft.wide != some false) →
        Accesses form.mnemonic registers given evaluate instruction := by
  have forms := forms_with_address form member (by rw [split, List.getLast?_concat]; exact isAddress)
  rcases forms with ⟨op, one, hasOffset⟩ | ⟨op, mode, isMode, one, hasOffset⟩ | ⟨op, one⟩ |
    ⟨op, mode, isMode, two, hasOffset⟩
  · obtain ⟨rfl, register, middle, rfl, transferred, width, addressed⟩ :=
      one.exists_register split count fitsFront gathered
    exact ⟨by rw [op]; decide, [register], rfl, (if_neg one.alone.1).symm, fun _ executes =>
      one.accesses_scaled executes drafted transferred width based op hasOffset fits addressed⟩
  · obtain ⟨rfl, register, middle, rfl, transferred, width, addressed⟩ :=
      one.exists_register split count fitsFront gathered
    exact ⟨by rw [op]; decide, [register], rfl, (if_neg one.alone.1).symm, fun _ executes =>
      one.accesses_near executes drafted transferred width based isMode op hasOffset fits addressed⟩
  · obtain ⟨rfl, register, middle, rfl, transferred, width, addressed⟩ :=
      one.exists_register split count fitsFront gathered
    exact ⟨by rw [op]; decide, [register], rfl, (if_neg one.alone.1).symm, fun _ executes =>
      one.accesses_indexed executes drafted transferred width based op fits addressed⟩
  · obtain ⟨rfl, first, second, middle, rfl, transferred, transferred', alike, told, addressed⟩ :=
      two.exists_registers split count fitsFront gathered
    exact ⟨by rw [op]; decide, [first, second], rfl, (if_pos two.together.1).symm, fun _ executes =>
      two.accesses_pair isMode op hasOffset executes drafted transferred transferred' alike told
        based fits addressed⟩

end Encoded

/-- An instruction with an address that can be encoded is a load or a store of one register or of
two. The decoded instruction makes the accesses that were written and changes the base as its address
says. -/
theorem encode_addressing {mnemonic : String} {operands : List Operand} {given : AddressOperand}
    {here : Int} {evaluate : Evaluator} {word : Nat} (inside : .address given ∈ operands)
    (encoded : Codec.a64.encode mnemonic operands here evaluate = .ok word) :
    ∃ registers base addressing instruction,
      operands = registers.map Operand.register ++ [.address given] ∧
      registers.length = (if mnemonic ∈ pairMnemonics then 2 else 1) ∧
      given.addressing? evaluate = some (base, addressing) ∧ base.wide = true ∧
      Codec.a64.decode word here = .ok (some instruction) ∧
      ∀ state : CoreState,
        match state.execute instruction with
        | (.ok branched, after) =>
          (MemoryTransfer.ofOperands mnemonic registers base addressing).Completes state branched
            after
        | (.error fault, _) =>
          (MemoryTransfer.ofOperands mnemonic registers base addressing).Fails state fault := by
  obtain ⟨form, member, rfl, front, kinds, kind, draft, rfl, split, isAddress, count, fitsFront,
    based, fits, gathered, drafted⟩ := exists_form_of_encode inside encoded
  obtain ⟨general, registers, rfl, counted, accesses⟩ :=
    exists_accesses member split isAddress count fitsFront based fits gathered drafted
  obtain ⟨instruction, decoded, _, executes⟩ :=
    exists_decode member drafted (fun beyond => general beyond.1) here
  obtain ⟨base, addressing, made, full, ensured⟩ := accesses instruction executes
  exact ⟨registers, base, addressing, instruction, rfl, counted, made, full, decoded,
    fun state => CoreState.execute_iff.mp (ensured state)⟩

/-- A load of `x1` from eight bytes behind itself, with the base changed before the access, leaves the
address in it and not what was loaded. -/
theorem encode_addressing_loaded_base :
    ∃ operands, Operand.parse "x1, [x1, #8]!" 0 = .ok operands ∧
      Codec.a64.encode "ldr" operands 0 (Codec.addressOnly 0) = .ok 0xf8408c21 ∧
      ∃ instruction, Codec.a64.decode 0xf8408c21 0 = .ok (some instruction) ∧
        ∀ state : CoreState,
          let address := Bits.wrap 64 (state.contents ⟨1, true⟩ + 8)
          match state.execute instruction with
          | (.ok _, after) =>
            state.memory.accessAll 8 [(address, none)] = .ok after.memory ∧
              after.registers.value 1 = address
          | (.error fault, _) =>
            ∃ access, state.memory.accessAll 8 [(address, none)] = .error access ∧
              fault = .memory access := by
  have parsed : (Operand.parse "x1, [x1, #8]!" 0).toOption = some
      [.register ⟨"x1", ⟨1, true⟩, none, none, ⟨0, 2⟩⟩,
        .address ⟨[.register ⟨"x1", ⟨1, true⟩, none, none, ⟨5, 7⟩⟩,
          .immediate ⟨⟨[⟨.number, "8", ⟨10, 11⟩⟩], ⟨10, 11⟩⟩, none, none, ⟨9, 11⟩⟩],
          true, none, ⟨4, 13⟩⟩] := by
    decide +kernel
  obtain ⟨operands, read, encoded⟩ :=
    @exists_encode_of_parse "ldr" "x1, [x1, #8]!" 0 0 (Codec.addressOnly 0) 0xf8408c21
      (by decide +kernel)
  obtain rfl := Option.some.inj (parsed.symm.trans (toOption_eq_some.mpr read))
  refine ⟨_, read, encoded, ?_⟩
  obtain ⟨registers, base, addressing, instruction, written, counted, made, _, decoded, executed⟩ :=
    encode_addressing (List.mem_cons_of_mem _ List.mem_cons_self) encoded
  have known := made.symm.trans (by decide +kernel : _ = some (⟨1, true⟩, .preIndexed 8))
  obtain ⟨rfl, rfl⟩ := Prod.mk.inj (Option.some.inj known)
  obtain ⟨loaded, rfl⟩ := List.length_eq_one_iff.mp (counted.trans (if_neg (by decide)))
  obtain ⟨same, _⟩ := List.cons.inj written
  obtain rfl := Operand.register.inj same
  refine ⟨instruction, decoded, fun state => ?_⟩
  have executed := executed state
  revert executed
  rcases state.execute instruction with ⟨outcome, after⟩
  cases outcome with
  | ok branched =>
    rintro ⟨_, outcome, changed⟩
    exact ⟨outcome, changed (by decide)⟩
  | error fault => exact id

end InstructionSet

end A64Machine
