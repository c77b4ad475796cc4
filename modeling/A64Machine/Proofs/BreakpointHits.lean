import A64Machine.Breakpoint
import A64Machine.Proofs.Outcome

/-!
# When a breakpoint is hit

A breakpoint that has the fields its kind compares with is hit by a step or not, and which of the two
is said here without the search: by the accesses of the step, or by the values of a register before
and after it. The values that are remembered in front of a step are those of the machine.
-/

namespace A64Machine

/-- A step has an access of some kind to the byte at an address. -/
def Snapshot.Touches (snapshot : Snapshot) (kind : AccessKind) (address : Int) : Prop :=
  ∃ access ∈ snapshot.accesses, access.kind = kind ∧ ∃ first : Nat,
    access.location = .memory first ∧ first ≤ address ∧ address < first + access.width

theorem Access.touches_iff {access : Access} {address : Int} :
    access.touches address = true ↔ ∃ first : Nat,
      access.location = .memory first ∧ first ≤ address ∧ address < first + access.width := by
  cases located : access.location <;> simp [touches, located]

/-- The accesses of memory of one kind tell whether one of them touches an address. -/
theorem Snapshot.touches_iff {snapshot : Snapshot} {kind : AccessKind} {address : Int} :
    ((snapshot.memoryAccessesOf kind).any fun access => access.touches address) = true ↔
      snapshot.Touches kind address := by
  simp only [List.any_eq_true, memoryAccessesOf, memoryAccesses, List.mem_filter, beq_iff_eq,
    Access.touches_iff, Touches]
  constructor
  · rintro ⟨access, ⟨⟨inside, _⟩, isKind⟩, there⟩
    exact ⟨access, inside, isKind, there⟩
  · rintro ⟨access, inside, isKind, first, located, there⟩
    refine ⟨access, ⟨⟨inside, ?_⟩, isKind⟩, first, located, there⟩
    rw [Access.isMemory, located]

/-- Whether the machine knows a register does not depend on its state. -/
theorem Machine.readRegister?_isSome (machine other : Machine) (name : String) :
    (machine.readRegister? name).isSome = (other.readRegister? name).isSome := by
  rw [readRegister?, readRegister?, Option.isSome_map, Option.isSome_map]

/-- No register has an empty name. -/
theorem Machine.readRegister?_empty (machine : Machine) : machine.readRegister? "" = none := by
  rw [readRegister?, show NamedRegister.ofName? "" = none by decide]
  rfl

namespace Breakpoint

/-- A breakpoint has the fields that its kind compares with. -/
def IsComplete (breakpoint : Breakpoint) : Prop :=
  match breakpoint.kind with
  | .pcMatch => breakpoint.value.isSome = true
  | .memoryRead | .memoryWrite => breakpoint.address.isSome = true
  | .registerValue => breakpoint.register.isSome = true ∧ breakpoint.value.isSome = true
  | .registerChange => breakpoint.register.isSome = true

/-- A breakpoint is hit by a step: it is in force, and the step accesses its address, leaves its
register with its value, or changes its register. -/
def Hit (breakpoint : Breakpoint) (before : Machine) (snapshot : Snapshot) (after : Machine) :
    Prop :=
  breakpoint.enabled = true ∧
    match breakpoint.kind with
    | .pcMatch => False
    | .memoryRead =>
      ∃ address, breakpoint.address = some address ∧ snapshot.Touches .read address
    | .memoryWrite =>
      ∃ address, breakpoint.address = some address ∧ snapshot.Touches .write address
    | .registerValue =>
      ∃ name value, breakpoint.register = some name ∧ breakpoint.value = some value ∧
        after.readRegister? name = some value
    | .registerChange =>
      ∃ name, breakpoint.register = some name ∧
        after.readRegister? name ≠ before.readRegister? name

/-- What is remembered under a name is the value that the register had. -/
theorem lookup_remembered (machine : Machine) {names : List String} {name : String}
    (among : name ∈ names) :
    (names.filterMap fun name =>
      (machine.readRegister? name).map fun value => (name, value)).lookup name =
      machine.readRegister? name := by
  induction names with
  | nil => contradiction
  | cons first rest ih =>
    by_cases same : name = first
    · subst same
      cases known : machine.readRegister? name with
      | some value => simp [known]
      | none =>
        -- An unknown name is remembered nowhere, however often it occurs.
        rw [List.filterMap_cons, known, Option.map_none]
        apply List.lookup_eq_none_iff.mpr
        rintro ⟨other, value⟩ inside
        obtain ⟨_, _, found⟩ := List.mem_filterMap.mp inside
        obtain ⟨_, read, same⟩ := Option.map_eq_some_iff.mp found
        obtain ⟨rfl, _⟩ := Prod.mk.inj same
        rw [bne_iff_ne]
        rintro rfl
        rw [known] at read
        contradiction
    · have later := (List.mem_cons.mp among).resolve_left same
      have apart : (name == first) = false := beq_false_of_ne same
      cases known : machine.readRegister? first with
      | some value => simp [known, List.lookup_cons, apart, ih later]
      | none => simp [known, ih later]

/-- The value of a watched register in front of a step is remembered. -/
theorem lookup_watch {breakpoints : List Breakpoint} {breakpoint : Breakpoint}
    (among : breakpoint ∈ breakpoints) {name : String} (watched : breakpoint.watched? = some name)
    (machine : Machine) : (watch breakpoints machine).lookup name = machine.readRegister? name :=
  lookup_remembered machine (List.mem_filterMap.mpr ⟨breakpoint, among, watched⟩)

variable {breakpoint : Breakpoint} {breakpoints : List Breakpoint} {snapshot : Snapshot}
  {before after : Machine}

/-- A breakpoint on memory with an address is hit by the accesses that touch it. -/
theorem hitsMemory_of_isSome (complete : breakpoint.address.isSome = true) (kind : AccessKind) :
    ∃ hit, breakpoint.hitsMemory (snapshot.memoryAccessesOf kind) = .ok hit ∧
      (hit = true ↔
        ∃ address, breakpoint.address = some address ∧ snapshot.Touches kind address) := by
  obtain ⟨address, known⟩ := Option.isSome_iff_exists.mp complete
  rw [hitsMemory, known]
  refine ⟨_, rfl, Snapshot.touches_iff.trans ?_⟩
  simp

/-- The name of a breakpoint that is not empty is its register. -/
theorem register?_eq_some {name : String} :
    breakpoint.register? = some name ↔ breakpoint.register = some name ∧ name.isEmpty = false := by
  simp [register?, Option.filter_eq_some_iff]

/-- A breakpoint on changes watches its register. -/
theorem watched_of_register {name : String} (kind : breakpoint.kind = .registerChange)
    (named : breakpoint.register? = some name) : breakpoint.watched? = some name := by
  rw [watched?, if_pos kind, named]

/-- A name that stands for a register is not empty. -/
theorem isEmpty_of_read {machine : Machine} {name : String} {value : Int}
    (read : machine.readRegister? name = some value) : name.isEmpty = false := by
  cases empty : name.isEmpty with
  | false => rfl
  | true =>
    rw [String.isEmpty_iff.mp empty, machine.readRegister?_empty] at read
    contradiction

/-- A complete breakpoint is hit or not. -/
theorem hits_of_isComplete (among : breakpoint ∈ breakpoints) (complete : breakpoint.IsComplete) :
    ∃ hit, breakpoint.hits snapshot (watch breakpoints before) after = .ok hit ∧
      (hit = true ↔ breakpoint.Hit before snapshot after) := by
  unfold hits Hit
  cases inForce : breakpoint.enabled with
  | false => exact ⟨false, rfl, by simp⟩
  | true =>
    unfold IsComplete at complete
    cases kind : breakpoint.kind with
    | pcMatch => exact ⟨false, rfl, by simp⟩
    | memoryRead =>
      rw [kind] at complete
      simpa using hitsMemory_of_isSome complete .read
    | memoryWrite =>
      rw [kind] at complete
      simpa using hitsMemory_of_isSome complete .write
    | registerValue =>
      rw [kind] at complete
      obtain ⟨value, compared⟩ := Option.isSome_iff_exists.mp complete.2
      refine ⟨_, rfl, ?_⟩
      simp only [Option.any_eq_true, register?_eq_some, beq_iff_eq, true_and]
      constructor
      · rintro ⟨name, ⟨named, _⟩, read⟩
        exact ⟨name, value, named, compared, read.trans compared⟩
      · rintro ⟨name, given, named, isGiven, read⟩
        exact ⟨name, ⟨named, isEmpty_of_read read⟩, read.trans isGiven.symm⟩
    | registerChange =>
      refine ⟨_, rfl, ?_⟩
      simp only [Option.any_eq_true, register?_eq_some, Bool.and_eq_true, bne_iff_ne, true_and]
      constructor
      · rintro ⟨name, ⟨named, full⟩, _, changed⟩
        rw [lookup_watch among (watched_of_register kind (register?_eq_some.mpr ⟨named, full⟩))]
          at changed
        exact ⟨name, named, changed⟩
      · rintro ⟨name, named, changed⟩
        cases read : after.readRegister? name with
        | none =>
          have unknown := after.readRegister?_isSome before name
          rw [read, eq_comm, Option.isSome_none, Option.isSome_eq_false_iff,
            Option.isNone_iff_eq_none] at unknown
          exact absurd (read.trans unknown.symm) changed
        | some value =>
          have full := isEmpty_of_read read
          refine ⟨name, ⟨named, full⟩, by rw [read]; rfl, ?_⟩
          rwa [lookup_watch among (watched_of_register kind (register?_eq_some.mpr ⟨named, full⟩))]

/-- Complete breakpoints are tried in order until one of them is hit. -/
theorem anyHits_of_isComplete (complete : ∀ breakpoint ∈ breakpoints, breakpoint.IsComplete) :
    ∃ hit, anyHits snapshot (watch breakpoints before) after breakpoints = .ok hit ∧
      (hit = true ↔ ∃ breakpoint ∈ breakpoints, breakpoint.Hit before snapshot after) := by
  -- What is remembered is that of all breakpoints, not of those that are left to try.
  suffices tried : ∀ rest : List Breakpoint, (∀ breakpoint ∈ rest, breakpoint ∈ breakpoints) →
      ∃ hit, anyHits snapshot (watch breakpoints before) after rest = .ok hit ∧
        (hit = true ↔ ∃ breakpoint ∈ rest, breakpoint.Hit before snapshot after) from
    tried breakpoints fun _ inside => inside
  intro rest among
  induction rest with
  | nil => exact ⟨false, rfl, by simp⟩
  | cons first rest ih =>
    obtain ⟨here, later⟩ := List.forall_mem_cons.mp among
    obtain ⟨hit, tried, isHit⟩ := @hits_of_isComplete first breakpoints snapshot before after here
      (complete first here)
    rw [anyHits, ok_bind tried]
    cases hit with
    | true => exact ⟨true, rfl, by simp [isHit.mp rfl]⟩
    | false =>
      obtain ⟨hit, tried, isHit'⟩ := ih later
      refine ⟨hit, tried, ?_⟩
      have notHere : ¬ first.Hit before snapshot after := fun hit => by simpa using isHit.mpr hit
      rw [isHit']
      simp [notHere]

end Breakpoint

end A64Machine
