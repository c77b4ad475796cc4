import A64Machine.Proofs.RegisterNames
import A64Machine.Proofs.StateRange
import A64Machine.Startup

/-!
# Initial states

An initial state is a program counter and a list of entries that set registers by name. Names of
different spellings share cells: both widths of a register and its other names stand for one slot.
What a cell holds at the start is told by the last entry that sets it. So the order of entries for
different cells does not matter, nor does what the machine did before: a reset takes everything
back to the origin of the memory.
-/

namespace A64Machine

/-- A part of the state that an entry sets. -/
inductive Cell where
  | pc
  | nzcv
  | slot (number : Nat)
  deriving DecidableEq, Repr

namespace NamedRegister

/-- The cell that a register is kept in. -/
def cell : NamedRegister → Cell
  | .pc => .pc
  | .nzcv => .nzcv
  | .general register => .slot register.slot

/-- Number of bits that a register takes of a value. -/
def bits : NamedRegister → Nat
  | .pc => 64
  | .nzcv => 4
  | .general register => bitsOf register

end NamedRegister

/-- A name stands for a register that is kept in a cell. -/
def Cell.HasName (cell : Cell) (name : String) : Prop :=
  ∃ register, NamedRegister.Denotes name register ∧ register.cell = cell

/-- What entries leave in a cell that holds some value before them: the last entry with a name of the
cell counts, at the width of its name, and without one the value stays. -/
inductive Cell.Leaves (cell : Cell) (start : Int) (entries : List (String × Int)) (value : Int) : Prop
  | last {before after : List (String × Int)} {name : String} {given : Int}
      {register : NamedRegister} (split : entries = before ++ (name, given) :: after)
      (denotes : NamedRegister.Denotes name register) (same : register.cell = cell)
      (silent : ∀ entry ∈ after, ¬cell.HasName entry.1)
      (set : value = given % (2 ^ register.bits : Nat))
  | none (silent : ∀ entry ∈ entries, ¬cell.HasName entry.1) (kept : value = start)

/-- A cell that there is: a slot is one of the register file. -/
def Cell.Proper : Cell → Prop
  | .pc | .nzcv => True
  | .slot number => number < 32

namespace NamedRegister

/-- Every spelling is that of a register that there is. -/
theorem Spelling.proper {word : String} {register : NamedRegister} (spells : Spelling word register) :
    register.cell.Proper := by
  cases spells with
  | pc | nzcv => trivial
  | full general | half general => exact Nat.lt_succ_of_lt general
  | fullZero | halfZero | stack | frame | link => simp [cell, Cell.Proper]

/-- A name stands for a register at all. -/
def IsName (name : String) : Prop := ∃ register, Denotes name register

theorem isName_iff {name : String} : IsName name ↔ (ofName? name).isSome := by
  simp only [IsName, Option.isSome_iff_exists, ofName?_eq_some_iff]

instance (name : String) : Decidable (IsName name) := decidable_of_iff _ isName_iff.symm

end NamedRegister

open NamedRegister (Denotes IsName)

/-! ### Writing a cell -/

/-- A number of four bits is read back from its flags. -/
theorem Status.toInt_ofInt_wrap (value : Int) :
    (ofInt (Bits.wrap 4 value)).toInt = Bits.wrap 4 value := by
  have each : ∀ number < 16, (ofInt (number : Nat)).toInt = (number : Nat) := by decide
  exact each _ (Bits.wrap_lt 4 value)

namespace RegisterFile

variable {slot other : Nat}

theorem zeroSlot_lt : Register.zeroSlot < 32 := by decide

/-- The registers with a value in a slot and the zero register cleared. -/
def poked (file : RegisterFile) (named : slot < 32) (value : Nat) : RegisterFile :=
  { file with
    slots := (file.slots.set slot value named).set Register.zeroSlot 0 zeroSlot_lt }

/-- A slot can be written without a record. -/
theorem poke?_of_lt (file : RegisterFile) (named : slot < 32) {value : Nat} (small : value < 2 ^ 64) :
    file.poke? slot value = some (file.poked named value) := by
  rw [poke?, write?, slot?_of_lt named, Bits.wrap_of_lt small]
  rfl

/-- Writing reaches the slot that it names and clears the zero register. -/
theorem value_poked (file : RegisterFile) (named : slot < 32) (value : Nat) (named' : other < 32) :
    (file.poked named value).value other =
      if other = Register.zeroSlot then 0
      else if other = slot then value
      else file.value other := by
  rw [value_of_lt _ named', value_of_lt _ named']
  simp only [poked, Vector.getElem_set, eq_comm (b := other)]

/-- Writing two slots is done in any order. -/
theorem poked_comm (file : RegisterFile) (named : slot < 32) (named' : other < 32)
    (apart : slot ≠ other) (value value' : Nat) :
    (file.poked named value).poked named' value' = (file.poked named' value').poked named value := by
  have same : ((file.poked named value).poked named' value').slots =
      ((file.poked named' value').poked named value).slots := by
    ext place inside
    simp only [poked, Vector.getElem_set]
    grind
  exact congrArg (fun slots => { file with slots := slots }) same

/-- Writing the zero register does nothing when it is clear. -/
theorem poked_zero (file : RegisterFile) (named : Register.zeroSlot < 32) (value : Nat)
    (zero : file.value Register.zeroSlot = 0) : file.poked named value = file := by
  rw [value_of_lt _ named] at zero
  have same : (file.poked named value).slots = file.slots := by
    ext place inside
    simp only [poked, Vector.getElem_set]
    grind
  exact congrArg (fun slots => { file with slots := slots }) same

end RegisterFile

namespace Machine

/-- The value that a cell holds. -/
def held (machine : Machine) : Cell → Int
  | .pc => machine.pc
  | .nzcv => machine.core.status.toInt
  | .slot number => machine.core.registers.value number

variable {register other : NamedRegister} {cell : Cell}

/-- A general register is written by its slot. -/
theorem assign_general (machine : Machine) (value : Int) {general : Register}
    (named : general.slot < 32) :
    machine.assign value (.general general) =
      { machine with
        core := { machine.core with
          registers := machine.core.registers.poked named
            (Bits.wrap (NamedRegister.bitsOf general) value) } } := by
  have small : Bits.wrap (NamedRegister.bitsOf general) value < 2 ^ 64 := by
    refine Nat.lt_of_lt_of_le (Bits.wrap_lt _ _) (Nat.pow_le_pow_right (by decide) ?_)
    unfold NamedRegister.bitsOf
    split <;> decide
  simp only [assign, RegisterFile.poke?_of_lt _ named small, Option.getD_some]

/-- Writing a register reaches its cell, at the width of the register, and no other cell. -/
theorem held_assign (machine : Machine) (value : Int) (proper : register.cell.Proper)
    (proper' : cell.Proper) (nonzero : cell ≠ .slot Register.zeroSlot) :
    (machine.assign value register).held cell =
      if register.cell = cell then value % (2 ^ register.bits : Nat) else machine.held cell := by
  rw [← Bits.natCast_wrap]
  cases register with
  | pc => cases cell <;> rfl
  | nzcv =>
    cases cell with
    | nzcv => exact Status.toInt_ofInt_wrap value
    | pc | slot => rfl
  | general register =>
    have target : register.slot < 32 := proper
    rw [assign_general machine value target]
    cases cell with
    | pc | nzcv => rfl
    | slot number =>
      have general : number ≠ Register.zeroSlot := fun same => nonzero (same ▸ rfl)
      have named : number < 32 := proper'
      show ((machine.core.registers.poked target _).value number : Int) = _
      rw [RegisterFile.value_poked _ _ _ named, if_neg general]
      simp only [NamedRegister.cell, Cell.slot.injEq, eq_comm (a := number)]
      split <;> rfl

/-- Registers of different cells are written in any order. -/
theorem assign_comm (machine : Machine) (value value' : Int) (proper : register.cell.Proper)
    (proper' : other.cell.Proper) (apart : register.cell ≠ other.cell) :
    (machine.assign value register).assign value' other =
      (machine.assign value' other).assign value register := by
  cases register with
  | pc => cases other with
    | pc => exact absurd rfl apart
    | nzcv => rfl
    | general other => rw [assign_general _ _ proper', assign_general _ _ proper']; rfl
  | nzcv => cases other with
    | nzcv => exact absurd rfl apart
    | pc => rfl
    | general other => rw [assign_general _ _ proper', assign_general _ _ proper']; rfl
  | general register => cases other with
    | pc | nzcv => rw [assign_general _ _ proper, assign_general _ _ proper]; rfl
    | general other =>
      have slots : register.slot ≠ other.slot := fun same => apart (congrArg Cell.slot same)
      simp only [assign_general _ _ proper, assign_general _ _ proper',
        RegisterFile.poked_comm _ proper proper' slots]

/-! ### Entries -/

/-- The machine with the register of an entry set, if the name stands for one. -/
def setEntry (machine : Machine) (entry : String × Int) : Machine :=
  (machine.writeRegister? entry.1 entry.2).getD machine

theorem setEntry_of_denotes (machine : Machine) {entry : String × Int}
    (denotes : Denotes entry.1 register) :
    machine.setEntry entry = machine.assign entry.2 register := by
  rw [setEntry, writeRegister?, NamedRegister.ofName?_eq_some_iff.mpr denotes]
  rfl

theorem setEntry_of_not (machine : Machine) {entry : String × Int} (unknown : ¬IsName entry.1) :
    machine.setEntry entry = machine := by
  rw [setEntry, writeRegister?,
    Option.not_isSome_iff_eq_none.mp (mt NamedRegister.isName_iff.mpr unknown)]
  rfl

/-- An entry sets the register that its name stands for, or nothing. -/
theorem setEntry_cases (machine : Machine) (entry : String × Int) :
    (∃ register, Denotes entry.1 register ∧
        machine.setEntry entry = machine.assign entry.2 register) ∨
      ¬IsName entry.1 ∧ machine.setEntry entry = machine := by
  by_cases known : IsName entry.1
  · obtain ⟨register, denotes⟩ := known
    exact .inl ⟨register, denotes, setEntry_of_denotes machine denotes⟩
  · exact .inr ⟨known, setEntry_of_not machine known⟩

/-- Entries are set one after the other, and the names among them that stand for no register are left
over. -/
theorem applyRegisters_eq (machine : Machine) (entries : List (String × Int)) :
    machine.applyRegisters entries =
      (entries.foldl setEntry machine,
        (entries.map Prod.fst).filter fun name => decide ¬IsName name) := by
  induction entries generalizing machine with
  | nil => rfl
  | cons entry rest ih =>
    obtain ⟨name, value⟩ := entry
    rw [applyRegisters, List.foldl_cons, List.map_cons, List.filter_cons, setEntry]
    cases written : machine.writeRegister? name value with
    | some after =>
      have known : IsName name :=
        NamedRegister.isName_iff.mpr (Option.isSome_map ▸ Option.isSome_of_eq_some written)
      simp [ih, known]
    | none =>
      have unknown : ¬IsName name := by
        rw [NamedRegister.isName_iff, Option.map_eq_none_iff.mp written]
        simp
      simp [ih, unknown]

/-- What entries leave in a cell, from what it held. -/
theorem leaves_foldl (machine : Machine) (entries : List (String × Int)) (proper : cell.Proper)
    (nonzero : cell ≠ .slot Register.zeroSlot) :
    cell.Leaves (machine.held cell) entries ((entries.foldl setEntry machine).held cell) := by
  induction entries generalizing machine with
  | nil => exact .none (by simp) rfl
  | cons entry rest ih =>
    rw [List.foldl_cons]
    cases ih (machine.setEntry entry) with
    | last split denotes same silent set =>
      exact .last (split ▸ (List.cons_append ..).symm) denotes same silent set
    | none silent kept =>
      rw [kept]
      rcases machine.setEntry_cases entry with ⟨register, denotes, written⟩ | ⟨unknown, unchanged⟩
      · rw [written, held_assign machine entry.2 denotes.proper proper nonzero]
        split
        · rename_i same
          exact .last (List.nil_append _).symm denotes same silent rfl
        · rename_i apart
          refine .none (List.forall_mem_cons.mpr ⟨?_, silent⟩) rfl
          rintro ⟨other, denotes', same⟩
          exact apart (denotes.unique denotes' ▸ same)
      · rw [unchanged]
        refine .none (List.forall_mem_cons.mpr ⟨?_, silent⟩) rfl
        rintro ⟨register, denotes, -⟩
        exact unknown ⟨register, denotes⟩

/-- What stands beside the cells: the memory and the number of steps stay, and so does a zero register
that is clear. -/
structure SameBeside (before after : Machine) : Prop where
  memory : after.core.memory = before.core.memory
  steps : after.steps = before.steps
  zero : before.core.registers.value Register.zeroSlot = 0 →
    after.core.registers.value Register.zeroSlot = 0

/-- An entry leaves alone what stands beside the cells. -/
theorem sameBeside_setEntry (machine : Machine) (entry : String × Int) :
    machine.SameBeside (machine.setEntry entry) := by
  rcases machine.setEntry_cases entry with ⟨register, denotes, written⟩ | ⟨-, unchanged⟩
  · rw [written]
    cases register with
    | pc | nzcv => exact ⟨rfl, rfl, id⟩
    | general register =>
      have target : register.slot < 32 := denotes.proper
      rw [assign_general machine entry.2 target]
      exact ⟨rfl, rfl, fun _ =>
        (RegisterFile.value_poked _ target _ RegisterFile.zeroSlot_lt).trans (if_pos rfl)⟩
  · rw [unchanged]
    exact ⟨rfl, rfl, id⟩

/-- Entries leave alone what stands beside the cells. -/
theorem sameBeside_foldl (machine : Machine) (entries : List (String × Int)) :
    machine.SameBeside (entries.foldl setEntry machine) := by
  induction entries generalizing machine with
  | nil => exact ⟨rfl, rfl, id⟩
  | cons entry rest ih =>
    have first := machine.sameBeside_setEntry entry
    have later := ih (machine.setEntry entry)
    exact ⟨later.memory.trans first.memory, later.steps.trans first.steps,
      fun zero => later.zero (first.zero zero)⟩

/-- Entries for different cells are set in any order. -/
theorem setEntry_comm (machine : Machine) {first second : String × Int}
    (apart : ∀ cell : Cell, cell.HasName first.1 → ¬cell.HasName second.1) :
    (machine.setEntry first).setEntry second = (machine.setEntry second).setEntry first := by
  rcases machine.setEntry_cases first with ⟨register, denotes, written⟩ | ⟨unknown, unchanged⟩
  · rcases machine.setEntry_cases second with ⟨other, denotes', written'⟩ | ⟨unknown, unchanged⟩
    · have cells : register.cell ≠ other.cell := fun same =>
        apart register.cell ⟨register, denotes, rfl⟩ ⟨other, denotes', same.symm⟩
      rw [written, written', setEntry_of_denotes _ denotes', setEntry_of_denotes _ denotes,
        assign_comm machine _ _ denotes.proper denotes'.proper cells]
    · rw [unchanged, setEntry_of_not _ unknown]
  · rw [unchanged, setEntry_of_not _ unknown]

/-- An entry for the zero register does nothing when it is clear. -/
theorem setEntry_zero {machine : Machine}
    (zero : machine.core.registers.value Register.zeroSlot = 0) {entry : String × Int}
    (named : (Cell.slot Register.zeroSlot).HasName entry.1) : machine.setEntry entry = machine := by
  obtain ⟨register, denotes, same⟩ := named
  rw [setEntry_of_denotes machine denotes]
  cases register with
  | pc | nzcv => contradiction
  | general register =>
    obtain ⟨slot, wide⟩ := register
    obtain rfl := Cell.slot.inj same
    rw [assign_general machine entry.2 RegisterFile.zeroSlot_lt,
      RegisterFile.poked_zero _ _ _ zero]

/-! ### Applying an initial state -/

/-- The machine that entries are applied to. -/
def rewound (machine : Machine) (pc : Int) : Machine := machine.reset.assign pc .pc

theorem applyInitialState_eq (machine : Machine) (pc : Int) (entries : List (String × Int)) :
    machine.applyInitialState pc entries =
      (entries.foldl setEntry (machine.rewound pc),
        (entries.map Prod.fst).filter fun name => decide ¬IsName name) :=
  applyRegisters_eq _ _

/-- A reset takes the state back, whether decoded instructions are kept or not. -/
theorem core_reset (machine : Machine) :
    machine.reset.core = machine.core.reset ∧ machine.reset.steps = 0 := by
  simp only [reset]
  split <;> exact ⟨rfl, rfl⟩

/-- The cells before the entries: the program counter is as given, and the others are clear. -/
theorem held_rewound (machine : Machine) (pc : Int) (proper : cell.Proper) :
    (machine.rewound pc).held cell = if cell = .pc then pc % (2 ^ 64 : Nat) else 0 := by
  cases cell with
  | pc => exact Bits.natCast_wrap 64 pc
  | nzcv =>
    show machine.reset.core.status.toInt = 0
    rw [machine.core_reset.1]
    rfl
  | slot number =>
    have named : number < 32 := proper
    show (machine.reset.core.registers.value number : Int) = 0
    rw [machine.core_reset.1, RegisterFile.value_of_lt _ named]
    exact congrArg Nat.cast (Vector.getElem_replicate named)

/-- A machine as an initial state describes it: its memory is the origin of another one, it has made no
step, and its cells hold what the entries leave in them. -/
structure StartsAs (machine : Machine) (pc : Int) (entries : List (String × Int))
    (after : Machine) : Prop where
  origin : after.core.memory.origin = machine.core.memory.origin
  memory : after.core.memory.bytes = machine.core.memory.origin
  steps : after.steps = 0
  pc : Cell.pc.Leaves (pc % (2 ^ 64 : Nat)) entries after.pc
  nzcv : Cell.nzcv.Leaves 0 entries after.core.status.toInt
  general : ∀ slot < 31, (Cell.slot slot).Leaves 0 entries (after.core.registers.value slot)
  zero : after.core.registers.value 31 = 0

/-- Applying an initial state gives the machine that it describes. -/
theorem startsAs_applyInitialState (machine : Machine) (pc : Int) (entries : List (String × Int)) :
    machine.StartsAs pc entries (machine.applyInitialState pc entries).1 := by
  rw [applyInitialState_eq]
  have leaves {cell : Cell} (proper : cell.Proper) (nonzero : cell ≠ .slot Register.zeroSlot) :=
    held_rewound machine pc proper ▸ leaves_foldl (machine.rewound pc) entries proper nonzero
  have beside := sameBeside_foldl (machine.rewound pc) entries
  have zero : (machine.rewound pc).held (.slot Register.zeroSlot) = 0 :=
    held_rewound machine pc RegisterFile.zeroSlot_lt
  have memory : (machine.rewound pc).core.memory = machine.core.memory.reset :=
    congrArg CoreState.memory machine.core_reset.1
  refine ⟨?_, ?_, ?_, leaves trivial (by simp), leaves trivial (by simp), fun slot general => ?_, ?_⟩
  · rw [beside.memory, memory]
    rfl
  · rw [beside.memory, memory]
    rfl
  · exact beside.steps.trans machine.core_reset.2
  · exact leaves (show slot < 32 by omega) fun same => Nat.ne_of_lt general (Cell.slot.inj same)
  · exact beside.zero (Int.ofNat.inj zero)

/-- The zero register is clear behind any entries. -/
theorem zero_foldl_rewound (machine : Machine) (pc : Int) (entries : List (String × Int)) :
    (entries.foldl setEntry (machine.rewound pc)).core.registers.value Register.zeroSlot = 0 := by
  have applied := (startsAs_applyInitialState machine pc entries).zero
  rwa [applyInitialState_eq] at applied

/-- An entry whose name stands for nothing or for the zero register may be left out. -/
theorem applyInitialState_idle (machine : Machine) (pc : Int) (front back : List (String × Int))
    {entry : String × Int}
    (idle : ¬IsName entry.1 ∨ (Cell.slot Register.zeroSlot).HasName entry.1) :
    (machine.applyInitialState pc (front ++ entry :: back)).1 =
      (machine.applyInitialState pc (front ++ back)).1 := by
  have unchanged : (front.foldl setEntry (machine.rewound pc)).setEntry entry =
      front.foldl setEntry (machine.rewound pc) := by
    rcases idle with unknown | zero
    · exact setEntry_of_not _ unknown
    · exact setEntry_zero (zero_foldl_rewound machine pc front) zero
  rw [applyInitialState_eq, applyInitialState_eq]
  simp only [List.foldl_append, List.foldl_cons, unchanged]

end Machine

/-- Lists of entries that come from each other by exchanging neighbours that set different cells. -/
inductive Reordered : List (String × Int) → List (String × Int) → Prop
  | refl (entries : List (String × Int)) : Reordered entries entries
  | swap (front back : List (String × Int)) {first second : String × Int}
      (apart : ∀ cell : Cell, cell.HasName first.1 → ¬cell.HasName second.1) :
      Reordered (front ++ first :: second :: back) (front ++ second :: first :: back)
  | trans {entries middle entries' : List (String × Int)} (first : Reordered entries middle)
      (later : Reordered middle entries') : Reordered entries entries'

namespace Machine

/-- The order of entries for different cells does not matter. -/
theorem applyInitialState_reordered (machine : Machine) (pc : Int)
    {entries entries' : List (String × Int)} (reordered : Reordered entries entries') :
    (machine.applyInitialState pc entries).1 = (machine.applyInitialState pc entries').1 := by
  induction reordered with
  | refl => rfl
  | swap front back apart =>
    rw [applyInitialState_eq, applyInitialState_eq]
    simp only [List.foldl_append, List.foldl_cons, setEntry_comm _ apart]
  | trans _ _ one other => exact one.trans other

/-! ### Earlier execution -/

/-- A machine that was made for a memory and has carried out commands. -/
def Reachable (machine : Machine) : Prop :=
  ∃ (memory : Memory) (symbols : SymbolMap) (observer : Option Observer) (commands : List Command),
    memory.size = memory.origin.size ∧ memory.tracking = false ∧
      machine =
        (Machine.run { ofMemory memory with symbols := symbols, observer := observer } commands).2

theorem Reachable.coherent {machine : Machine} (reachable : machine.Reachable) :
    machine.Coherent := by
  obtain ⟨memory, symbols, observer, commands, sizes, untracked, rfl⟩ := reachable
  let initial : Machine := { ofMemory memory with symbols := symbols, observer := observer }
  have coherent : initial.Coherent := @coherent_dropDecoded initial sizes untracked
  exact (run_of_coherent coherent commands).2.1

/-- The commands that set registers by entries. -/
def writes (entries : List (String × Int)) : List Command :=
  entries.map fun entry => .writeRegister entry.1 entry.2

/-- Setting registers by entries is obeying commands. -/
theorem run_writes (machine : Machine) (entries : List (String × Int)) :
    (machine.run (writes entries)).2 = entries.foldl setEntry machine := by
  induction entries generalizing machine with
  | nil => rfl
  | cons entry rest ih =>
    have written :
        (machine.obey step (.writeRegister entry.1 entry.2)).2 = machine.setEntry entry := by
      simp only [obey, setEntry]
      cases machine.writeRegister? entry.1 entry.2 <;> rfl
    rw [List.foldl_cons, ← ih, ← written]
    rfl

/-- Applying an initial state is a reset with commands behind it. -/
theorem applyInitialState_eq_run (machine : Machine) (pc : Int) (entries : List (String × Int)) :
    (machine.applyInitialState pc entries).1 =
      (machine.reset.run (writes (("pc", pc) :: entries))).2 := by
  have named : Denotes "pc" .pc := NamedRegister.ofName?_eq_some_iff.mp (by decide)
  have first : machine.reset.setEntry ("pc", pc) = machine.rewound pc :=
    setEntry_of_denotes _ named
  rw [applyInitialState_eq, run_writes, List.foldl_cons, first]

/-- Commands that load nothing make no difference to a reset. -/
theorem reset_unobserved {machine : Machine} (coherent : machine.Coherent) {history : List Command}
    (loadsNothing : ∀ command ∈ history, ∀ image, command ≠ .loadOrigin image) :
    (machine.run history).2.reset.unobserved = machine.reset.unobserved := by
  obtain ⟨_, later, order, origin, symbols⟩ := run_of_coherent coherent history
  rw [foldl_originAfter loadsNothing] at origin
  rw [reset_eq later, reset_eq coherent]
  simp only [unobserved, forget, start, order, origin, symbols]

/-- Behind an initial state a machine goes on as it would have without the commands before it. -/
theorem applyInitialState_after {machine : Machine} (coherent : machine.Coherent)
    {history : List Command}
    (loadsNothing : ∀ command ∈ history, ∀ image, command ≠ .loadOrigin image) (pc : Int)
    (entries : List (String × Int)) :
    let later := ((machine.run history).2.applyInitialState pc entries).1
    let fresh := (machine.applyInitialState pc entries).1
    later.unobserved = fresh.unobserved ∧
      ∀ commands, (later.run commands).1 = (fresh.run commands).1 := by
  have reset {machine : Machine} (coherent : machine.Coherent) : machine.reset.Coherent :=
    (obey_of_coherent coherent .reset).2.1
  have rewound := reset coherent
  have rewound' := reset (run_of_coherent coherent history).2.1
  have alike := (run_unobserved rewound' rewound (reset_unobserved coherent loadsNothing)
    (writes (("pc", pc) :: entries))).2
  simp only [applyInitialState_eq_run]
  exact ⟨alike, fun commands => (run_unobserved (run_of_coherent rewound' _).2.1
    (run_of_coherent rewound _).2.1 alike commands).1⟩

/-- Applying an initial state depends on what it says only. Whatever a machine did before, it starts as
the initial state describes, where names in any case set cells and the last entry of a cell counts.
Entries whose name stands for no register are reported in order. They may be left out, as may those for
the zero register, and entries for different cells may come in any order. And a machine that has
carried out commands starts as it would have without them, and goes on alike. -/
theorem applyInitialState_says (pc : Int) (entries : List (String × Int)) :
    (∀ machine : Machine, machine.StartsAs pc entries (machine.applyInitialState pc entries).1 ∧
      (machine.applyInitialState pc entries).2 =
        (entries.map Prod.fst).filter fun name => decide ¬IsName name) ∧
    (∀ (machine : Machine) (front back : List (String × Int)) (entry : String × Int),
      entries = front ++ entry :: back →
      ¬IsName entry.1 ∨ (Cell.slot 31).HasName entry.1 →
      (machine.applyInitialState pc entries).1 = (machine.applyInitialState pc (front ++ back)).1) ∧
    (∀ (machine : Machine) (entries' : List (String × Int)), Reordered entries entries' →
      (machine.applyInitialState pc entries).1 = (machine.applyInitialState pc entries').1) ∧
    ∀ machine : Machine, machine.Reachable → ∀ history : List Command,
      (∀ command ∈ history, ∀ image, command ≠ .loadOrigin image) →
      let later := ((machine.run history).2.applyInitialState pc entries).1
      let fresh := (machine.applyInitialState pc entries).1
      later.unobserved = fresh.unobserved ∧
        ∀ commands, (later.run commands).1 = (fresh.run commands).1 := by
  refine ⟨fun machine => ⟨startsAs_applyInitialState machine pc entries, ?_⟩, ?_, ?_, ?_⟩
  · rw [applyInitialState_eq]
  · rintro machine front back entry rfl idle
    exact applyInitialState_idle machine pc front back idle
  · exact fun machine entries' reordered => applyInitialState_reordered machine pc reordered
  · exact fun machine reachable history loadsNothing =>
      applyInitialState_after reachable.coherent loadsNothing pc entries

/-- Entries that set a register at both widths and in both cases, name the zero register and name
nothing. -/
def aliasedEntries : List (String × Int) :=
  [("X0", -1), ("nothing", 1), ("w0", -1), ("SP", 5), ("xzr", 9)]

/-- The entry at half width clears the upper half, the entry for the stack pointer may come before it,
and a step before the start makes no difference. -/
theorem applyInitialState_says_aliasedEntries :
    let machine : Machine := .ofMemory (.ofBytes .little #[0x1f, 0x20, 0x03, 0xd5])
    let sorted : List (String × Int) :=
      [("X0", -1), ("nothing", 1), ("SP", 5), ("w0", -1), ("xzr", 9)]
    let fresh := (machine.applyInitialState (-4) aliasedEntries).1
    machine.Reachable ∧ ¬IsName "nothing" ∧ Reordered aliasedEntries sorted ∧
      (fresh.held .pc, fresh.held (.slot 0), fresh.held (.slot 28)) =
        (0xfffffffffffffffc, 0xffffffff, 5) ∧
      fresh = (machine.applyInitialState (-4) sorted).1 ∧
      fresh = (machine.applyInitialState (-4) [("X0", -1), ("w0", -1), ("SP", 5), ("xzr", 9)]).1 ∧
      ((machine.run [.step true]).2.applyInitialState (-4) aliasedEntries).1.unobserved =
        fresh.unobserved := by
  intro machine sorted fresh
  have reachable : machine.Reachable := ⟨_, [], none, [], rfl, rfl, rfl⟩
  have unknown : ¬IsName "nothing" := by decide
  have reordered : Reordered aliasedEntries sorted := by
    refine .swap [("X0", -1), ("nothing", 1)] [("xzr", 9)] fun cell => ?_
    have lower : Denotes "w0" (.general ⟨0, false⟩) :=
      NamedRegister.ofName?_eq_some_iff.mp (by decide)
    have upper : Denotes "SP" (.general ⟨28, true⟩) :=
      NamedRegister.ofName?_eq_some_iff.mp (by decide)
    rintro ⟨register, denotes, rfl⟩ ⟨other, denotes', same⟩
    rw [denotes.unique lower, denotes'.unique upper] at same
    exact absurd same (by decide)
  obtain ⟨-, idle, order, earlier⟩ := applyInitialState_says (-4) aliasedEntries
  exact ⟨reachable, unknown, reordered, by decide +kernel, order machine sorted reordered,
    idle machine [("X0", -1)] [("w0", -1), ("SP", 5), ("xzr", 9)] ("nothing", 1) rfl (.inl unknown),
    (earlier machine reachable [.step true] (by simp)).1⟩

end Machine

end A64Machine
