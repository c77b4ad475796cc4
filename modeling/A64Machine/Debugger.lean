import A64Machine.Breakpoint

/-!
# The debugger

A debugger steps a machine until a reason to stop comes up. The reasons are looked at between
steps only, so a run always ends behind a whole instruction. In front of a step they are a
breakpoint on the program counter, except where the run begins, and a used-up budget. Behind a
step they are a fault, a halt, a branch of an instruction to itself and the other breakpoints;
a request to stop is honoured last.
-/

namespace A64Machine

/-- Why a run stops. -/
inductive StopReason where
  | breakpoint (pc : Nat)
  | halt
  | selfBranch
  | budget
  | undecodable (address word : Nat)
  | memoryFault (pc : Nat) (fault : MemoryFault)
  | stopped
  deriving DecidableEq, Repr

namespace StopReason

/-- The name of a reason. -/
def name : StopReason → String
  | .breakpoint _ => "BREAKPOINT"
  | .halt => "HALT"
  | .selfBranch => "SELF_BRANCH"
  | .budget => "BUDGET"
  | .undecodable _ _ | .memoryFault _ _ => "FAULT"
  | .stopped => "STOPPED"

open Text (hex) in
/-- The lines that a run prints when it stops. -/
def report : StopReason → List String
  | .breakpoint pc => ["Breakpoint hit at PC: " ++ hex pc]
  | .undecodable address word =>
    ["Undecodable instruction at PC: " ++ hex address ++ " (" ++ Text.wordHex word ++ ")"]
  | .memoryFault pc fault => ["Memory access fault at PC: " ++ hex pc ++ ": " ++ fault.message]
  | .halt | .selfBranch | .budget | .stopped => []

end StopReason

/-- Why a run breaks off without a reason to stop: an instruction that reveals a defect of its
table, or a breakpoint on memory without an address. -/
inductive RunError where
  | defective (fault : ExecutionFault)
  | incomplete (breakpoint : Breakpoint)
  deriving DecidableEq, Repr

/-- A debugger: the machine, the breakpoints, whether a run is under way, the values of the
watched registers in front of the latest step, its snapshot, and the fault of the latest run. -/
structure Debugger where
  machine : Machine
  breakpoints : List Breakpoint
  running : Bool
  previous : List (String × Int)
  lastSnapshot : Option Snapshot
  lastFault : Option StepFault

namespace Debugger

/-- A debugger without breakpoints. -/
def ofMachine (machine : Machine) : Debugger := ⟨machine, [], false, [], none, none⟩

/-- Adds a breakpoint, unless there is an equal one. -/
def addBreakpoint (debugger : Debugger) (breakpoint : Breakpoint) : Debugger :=
  { debugger with breakpoints := Breakpoint.add debugger.breakpoints breakpoint }

/-- Replaces a breakpoint, if there is such a one. -/
def updateBreakpoint (debugger : Debugger) (old new : Breakpoint) : Debugger :=
  { debugger with breakpoints := Breakpoint.update debugger.breakpoints old new }

/-- Removes a breakpoint, if there is such a one. -/
def removeBreakpoint (debugger : Debugger) (breakpoint : Breakpoint) : Debugger :=
  { debugger with breakpoints := Breakpoint.remove debugger.breakpoints breakpoint }

/-- Asks the run under way to stop. -/
def stop (debugger : Debugger) : Debugger := { debugger with running := false }

/-- Steps the machine. A run stops if the observer of the machine asks for it. -/
def stepMachine (debugger : Debugger) (notify : Bool) : Except StepFault Snapshot × Debugger :=
  let observer := debugger.machine.observer
  let (result, machine) := debugger.machine.step notify
  let debugger := { debugger with machine := machine }
  match result with
  | .error fault => (.error fault, debugger)
  | .ok snapshot =>
    let asked := observer.any fun observer => observer.stopsWithin snapshot.accesses.length
    (.ok snapshot, if asked then debugger.stop else debugger)

/-- Steps the machine and keeps what breakpoints and callers ask for later: the values of the
watched registers in front of the step, and its snapshot. -/
def step (debugger : Debugger) (notify : Bool) : Except StepFault Snapshot × Debugger :=
  let previous := Breakpoint.watch debugger.breakpoints debugger.machine
  match { debugger with previous := previous }.stepMachine notify with
  | (.ok snapshot, debugger) => (.ok snapshot, { debugger with lastSnapshot := some snapshot })
  | (.error fault, debugger) => (.error fault, debugger)

/-- Ends a run for a reason. -/
def stopFor (debugger : Debugger) (reason : StopReason) :
    Except RunError (Option StopReason) × Debugger :=
  (.ok (some reason), debugger.stop)

/-- Ends a run because of a fault, or breaks it off because of a defect. -/
def stopForFault (debugger : Debugger) (pc : Nat) (fault : StepFault) :
    Except RunError (Option StopReason) × Debugger :=
  match fault with
  | .defective fault => (.error (.defective fault), debugger)
  | .undecodable address word =>
    { debugger with lastFault := some fault }.stopFor (.undecodable address word)
  | .memory cause => { debugger with lastFault := some fault }.stopFor (.memoryFault pc cause)

/-- What a run does behind a step: it ends for a reason or goes on. -/
def afterStep (debugger : Debugger) (snapshot : Snapshot) :
    Except RunError (Option StopReason) × Debugger :=
  if snapshot.isHalt then debugger.stopFor .halt
  else if snapshot.isSelfBranch then debugger.stopFor .selfBranch
  else
    match Breakpoint.anyHits snapshot debugger.previous debugger.machine debugger.breakpoints with
    | .error breakpoint => (.error (.incomplete breakpoint), debugger)
    | .ok true => debugger.stopFor (.breakpoint snapshot.newPc)
    | .ok false => (.ok none, debugger)

/-- One turn of a run: the reason to stop in front of the step, or the step and the reason to
stop behind it. -/
def turn (debugger : Debugger) (budget : Option Nat) (first : Bool) :
    Except RunError (Option StopReason) × Debugger :=
  let pc := debugger.machine.pc
  if !debugger.running then (.ok (some .stopped), debugger)
  else if !first && debugger.breakpoints.any (fun breakpoint => breakpoint.matchesPc pc) then
    debugger.stopFor (.breakpoint pc)
  else if budget = some 0 then debugger.stopFor .budget
  else
    match debugger.step true with
    | (.error fault, debugger) => debugger.stopForFault pc fault
    | (.ok snapshot, debugger) => debugger.afterStep snapshot

/-- Turns until the run ends. There is no result where the fuel does not suffice. -/
def runFrom : (fuel : Nat) → (budget : Option Nat) → (first : Bool) → Debugger →
    Option (Except RunError StopReason × Debugger)
  | 0, _, _, _ => none
  | fuel + 1, budget, first, debugger =>
    match debugger.turn budget first with
    | (.error error, debugger) => some (.error error, debugger)
    | (.ok (some reason), debugger) => some (.ok reason, debugger)
    | (.ok none, debugger) => runFrom fuel (budget.map (· - 1)) false debugger

/-- Runs the machine until a reason to stop comes up or a budget of steps is used up. The fuel
bounds the number of turns; one more than the budget always suffices. -/
def run (debugger : Debugger) (fuel : Nat) (budget : Option Nat) :
    Option (Except RunError StopReason × Debugger) :=
  runFrom fuel budget true { debugger with running := true, lastFault := none }

/-- The steps of a trace and the debugger behind them. A stop is asked for behind the step with
the number `stopAfter`. A fault ends the trace with the run still under way. -/
def traceFrom (stopAfter : Option Nat) : (fuel : Nat) → (budget : Option Nat) → (taken : Nat) →
    Debugger → Option (Except StepFault (List Snapshot) × Debugger)
  | 0, _, _, _ => none
  | fuel + 1, budget, taken, debugger =>
    if !debugger.running || budget == some 0 then some (.ok [], debugger.stop)
    else
      match debugger.step true with
      | (.error fault, debugger) => some (.error fault, debugger)
      | (.ok snapshot, debugger) =>
        let debugger := if stopAfter = some (taken + 1) then debugger.stop else debugger
        if snapshot.isHalt || snapshot.isSelfBranch then some (.ok [snapshot], debugger.stop)
        else
          (traceFrom stopAfter fuel (budget.map (· - 1)) (taken + 1) debugger).map
            fun (steps, debugger) => (steps.map (snapshot :: ·), debugger)

/-- The snapshots of steps up to a halt, a branch of an instruction to itself, a stop or the end
of the budget. Breakpoints are passed over. The fuel bounds the number of steps; one more than
the budget always suffices. -/
def trace (debugger : Debugger) (fuel : Nat) (budget stopAfter : Option Nat) :
    Option (Except StepFault (List Snapshot) × Debugger) :=
  traceFrom stopAfter fuel budget 0 { debugger with running := true }

end Debugger

end A64Machine
