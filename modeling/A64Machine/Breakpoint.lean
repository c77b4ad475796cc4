import A64Machine.NamedRegister

/-!
# Breakpoints

A breakpoint is a condition under which a run stops. Breakpoints on the program counter look at
the instruction to come, the others at the step that was just taken. A breakpoint that lacks the
field its kind needs never hits, except that one on memory without an address cannot be compared
with an access at all.
-/

namespace A64Machine

/-- What a breakpoint looks at. -/
inductive BreakpointKind where
  | pcMatch
  | memoryRead
  | memoryWrite
  | registerValue
  | registerChange
  deriving DecidableEq, Repr

namespace BreakpointKind

/-- The name of a kind. -/
def name : BreakpointKind → String
  | .pcMatch => "PC_MATCH"
  | .memoryRead => "MEMORY_READ"
  | .memoryWrite => "MEMORY_WRITE"
  | .registerValue => "REGISTER_VALUE"
  | .registerChange => "REGISTER_CHANGE"

/-- The kind of a name. -/
def ofName? (name : String) : Option BreakpointKind :=
  [pcMatch, memoryRead, memoryWrite, registerValue, registerChange].find? fun kind =>
    kind.name == name

end BreakpointKind

/-- A breakpoint: what it looks at, the value, address and register that it compares with, and
whether it is in force. -/
structure Breakpoint where
  kind : BreakpointKind
  value : Option Int
  address : Option Int
  register : Option String
  enabled : Bool
  deriving DecidableEq, Repr

namespace Breakpoint

/-- The list with a breakpoint added, unless it is in the list already. -/
def add (breakpoints : List Breakpoint) (breakpoint : Breakpoint) : List Breakpoint :=
  if breakpoints.contains breakpoint then breakpoints else breakpoints ++ [breakpoint]

/-- The list with the first occurrence of a breakpoint replaced by another one. -/
def update (breakpoints : List Breakpoint) (old new : Breakpoint) : List Breakpoint :=
  breakpoints.replace old new

/-- The list without the first occurrence of a breakpoint. -/
def remove (breakpoints : List Breakpoint) (breakpoint : Breakpoint) : List Breakpoint :=
  breakpoints.erase breakpoint

/-- Whether the breakpoint stops a run in front of the instruction at an address. -/
def matchesPc (breakpoint : Breakpoint) (pc : Nat) : Bool :=
  breakpoint.enabled && breakpoint.kind == .pcMatch && breakpoint.value == some (pc : Int)

/-- The name of the register that the breakpoint looks at; an empty name is none. -/
def register? (breakpoint : Breakpoint) : Option String :=
  breakpoint.register.filter fun name => !name.isEmpty

/-- The register whose value before a step the breakpoint needs, whether it is in force or not. -/
def watched? (breakpoint : Breakpoint) : Option String :=
  if breakpoint.kind = .registerChange then breakpoint.register? else none

/-- The values of the registers that breakpoints watch for a change, as far as the names are
known. -/
def watch (breakpoints : List Breakpoint) (machine : Machine) : List (String × Int) :=
  (breakpoints.filterMap watched?).filterMap fun name =>
    (machine.readRegister? name).map fun value => (name, value)

/-- Whether an access of one kind touches the address of the breakpoint. -/
def hitsMemory (breakpoint : Breakpoint) (accesses : List Access) : Except Breakpoint Bool :=
  match breakpoint.address with
  | some address => .ok (accesses.any fun access => access.touches address)
  | none => if accesses.isEmpty then .ok false else .error breakpoint

/-- Whether the breakpoint stops a run behind a step, given the values of the watched registers
in front of it. The error is a breakpoint on memory without an address. -/
def hits (breakpoint : Breakpoint) (snapshot : Snapshot) (previous : List (String × Int))
    (machine : Machine) : Except Breakpoint Bool :=
  if !breakpoint.enabled then .ok false
  else
    match breakpoint.kind with
    | .pcMatch => .ok false
    | .memoryRead => breakpoint.hitsMemory (snapshot.memoryAccessesOf .read)
    | .memoryWrite => breakpoint.hitsMemory (snapshot.memoryAccessesOf .write)
    | .registerValue =>
      .ok (breakpoint.register?.any fun name => machine.readRegister? name == breakpoint.value)
    | .registerChange =>
      .ok (breakpoint.register?.any fun name =>
        let current := machine.readRegister? name
        current.isSome && current != previous.lookup name)

/-- Whether any of the breakpoints stops a run behind a step; they are tried in order. -/
def anyHits (snapshot : Snapshot) (previous : List (String × Int)) (machine : Machine) :
    List Breakpoint → Except Breakpoint Bool
  | [] => .ok false
  | breakpoint :: rest => do
    if ← breakpoint.hits snapshot previous machine then return true
    else anyHits snapshot previous machine rest

end Breakpoint

end A64Machine
