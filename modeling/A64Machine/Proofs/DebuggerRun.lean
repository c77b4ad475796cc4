import A64Machine.Debugger
import A64Machine.Proofs.BreakpointHits
import A64Machine.Proofs.FaultedStep

/-!
# A run is stepping up to the first reason to stop

A run looks at its reasons to stop at different places of a turn, some in front of a step and some
behind it. All of them are conditions on the number of steps that were taken, though, and on the
machine that plain stepping leads to. A run ends at the first number of steps at which one of the
conditions holds, and where several do at once, it ends for the first of them in a fixed order.
-/

namespace A64Machine

namespace Machine

open InstructionSet

/-! ### Steps in a row -/

/-- The machine after a number of steps. -/
def after (machine : Machine) : Nat → Machine
  | 0 => machine
  | count + 1 => ((machine.after count).step true).2

/-- What the step behind a number of others did, or its fault. -/
def outcome (machine : Machine) (count : Nat) : Except StepFault Snapshot :=
  ((machine.after count).step true).1

/-- An instruction that completes counts as a step, and it leads to the program counter that it
says. -/
theorem complete_ok {machine : Machine} {notify : Bool} {instruction : Instruction}
    {target : Option Nat} {snapshot : Snapshot}
    (done : (machine.complete notify instruction target).1 = .ok snapshot) :
    (machine.complete notify instruction target).2.pc = snapshot.newPc ∧
      (machine.complete notify instruction target).2.steps = machine.steps + 1 := by
  revert done
  unfold complete
  simp only
  split
  · intro done
    contradiction
  · intro done
    rw [← Except.ok.inj done]
    cases notify <;> exact ⟨rfl, rfl⟩

/-- An executed instruction completes or has a fault. -/
theorem executeFetched_ok {machine : Machine} {notify : Bool} {instruction : Instruction}
    {snapshot : Snapshot} (done : (machine.executeFetched notify instruction).1 = .ok snapshot) :
    (machine.executeFetched notify instruction).2.pc = snapshot.newPc ∧
      (machine.executeFetched notify instruction).2.steps = machine.steps + 1 := by
  revert done
  unfold executeFetched
  rcases (machine.core.track notify).execute instruction with ⟨outcome, core⟩
  cases outcome with
  | error fault =>
    intro done
    contradiction
  | ok target => exact complete_ok

/-- A step that completes counts, and it leads to the program counter that it says. -/
theorem step_ok {machine : Machine} {notify : Bool} {snapshot : Snapshot}
    (done : (machine.step notify).1 = .ok snapshot) :
    (machine.step notify).2.pc = snapshot.newPc ∧
      (machine.step notify).2.steps = machine.steps + 1 := by
  cases found : machine.fetch with
  | error fault =>
    rw [step_of_fetch_error found] at done
    contradiction
  | ok both =>
    obtain ⟨instruction, fetched⟩ := both
    obtain ⟨_, sameSteps, _⟩ := fetch_keeps found
    rw [step_of_fetch found] at done ⊢
    obtain ⟨pc, steps⟩ := executeFetched_ok done
    exact ⟨pc, steps.trans (congrArg (· + 1) sameSteps)⟩

/-- The step behind a number of others leads to the program counter that it says. -/
theorem pc_after_succ {machine : Machine} {count : Nat} {snapshot : Snapshot}
    (done : machine.outcome count = .ok snapshot) :
    (machine.after (count + 1)).pc = snapshot.newPc :=
  (step_ok done).1

/-- A step that faults does not count. -/
theorem steps_of_fault {machine : Machine} (kept : machine.KeepsDecoded) {notify : Bool}
    {fault : StepFault} (failed : (machine.step notify).1 = .error fault) :
    (machine.step notify).2.steps = machine.steps := by
  cases found : machine.fetch with
  | error fault =>
    rw [step_of_fetch_error found]
  | ok both =>
    obtain ⟨instruction, fetched⟩ := both
    obtain ⟨_, sameSteps, _⟩ := fetch_keeps found
    obtain ⟨word, address, decoded⟩ := decoded_of_fetch kept found
    rw [step_of_fetch found] at failed ⊢
    obtain ⟨_, _, _, steps, _⟩ := executeFetched_interrupted decoded failed
    exact steps.trans sameSteps

/-- Steps in a row keep the invariant. -/
theorem KeepsDecoded.after {machine : Machine} (kept : machine.KeepsDecoded) (count : Nat) :
    (machine.after count).KeepsDecoded := by
  induction count with
  | zero => exact kept
  | succ count ih => exact (step_cases ih true).1

/-- Steps in a row are counted if all of them complete. -/
theorem steps_after {machine : Machine} {count : Nat}
    (complete : ∀ earlier < count, ∃ snapshot, machine.outcome earlier = .ok snapshot) :
    (machine.after count).steps = machine.steps + count := by
  induction count with
  | zero => rfl
  | succ count ih =>
    obtain ⟨snapshot, done⟩ := complete count (Nat.lt_succ_self count)
    rw [after, (step_ok done).2, ih fun earlier below => complete earlier (Nat.lt_succ_of_lt below)]
    rfl

end Machine

/-! ### Conditions to stop on -/

/-- What a run can stop on, in the order of precedence. -/
inductive StopCondition where
  | halt | selfBranch | hit | asked | pcMatch | budget | fault
  deriving DecidableEq, Repr

/-- The place of a condition in the order of precedence. -/
def StopCondition.rank : StopCondition → Nat
  | .halt => 0
  | .selfBranch => 1
  | .hit => 2
  | .asked => 3
  | .pcMatch => 4
  | .budget => 5
  | .fault => 6

theorem StopCondition.eq_of_rank {condition other : StopCondition}
    (same : condition.rank = other.rank) : condition = other := by
  cases condition <;> cases other <;> first | rfl | contradiction

/-- What holds of all conditions before one and of the one itself holds of those up to it. -/
theorem StopCondition.forall_rank_succ {P : StopCondition → Prop} (condition : StopCondition)
    (before : ∀ other, other.rank < condition.rank → P other) (here : P condition) :
    ∀ other, other.rank < condition.rank + 1 → P other := by
  intro other below
  by_cases same : other.rank = condition.rank
  · rw [eq_of_rank same]
    exact here
  · exact before other (by omega)

namespace Debugger

/-- The step that leads to a number of steps did something that is told by its snapshot and by the
machines before and after it. -/
def Stepped (debugger : Debugger) (did : Machine → Snapshot → Machine → Prop) : Nat → Prop
  | 0 => False
  | before + 1 => ∃ snapshot, debugger.machine.outcome before = .ok snapshot ∧
      did (debugger.machine.after before) snapshot (debugger.machine.after (before + 1))

/-- Whether a run may stop on a condition when it has taken a number of steps. -/
def Stops (debugger : Debugger) (budget : Option Nat) (count : Nat) : StopCondition → Prop
  | .halt => debugger.Stepped (fun _ snapshot _ => snapshot.isHalt = true) count
  | .selfBranch => debugger.Stepped (fun _ snapshot _ => snapshot.oldPc = snapshot.newPc) count
  | .hit => debugger.Stepped (fun before snapshot after =>
      ∃ breakpoint ∈ debugger.breakpoints, breakpoint.Hit before snapshot after) count
  | .asked => debugger.Stepped (fun before snapshot _ =>
      ∃ observer, before.observer = some observer ∧
        observer.stopsWithin snapshot.accesses.length = true) count
  | .pcMatch => 1 ≤ count ∧ ∃ breakpoint ∈ debugger.breakpoints,
      breakpoint.enabled = true ∧ breakpoint.kind = .pcMatch ∧
        breakpoint.value = some ((debugger.machine.after count).pc : Int)
  | .budget => ∃ most, budget = some most ∧ most ≤ count
  | .fault => ∃ fault, debugger.machine.outcome count = .error fault

/-- A condition is the first one to stop on: it holds after a number of steps, none of those before
it in the order does, and none holds after fewer steps. -/
structure StopsFirst (debugger : Debugger) (budget : Option Nat) (count : Nat)
    (condition : StopCondition) : Prop where
  stops : debugger.Stops budget count condition
  first : ∀ other, other.rank < condition.rank → ¬ debugger.Stops budget count other
  least : ∀ earlier < count, ∀ other, ¬ debugger.Stops budget earlier other

/-- The reason that a run gives for a condition after a number of steps. -/
def Reason (debugger : Debugger) (count : Nat) : StopCondition → StopReason → Prop
  | .halt, reason => reason = .halt
  | .selfBranch, reason => reason = .selfBranch
  | .hit, reason | .pcMatch, reason => reason = .breakpoint (debugger.machine.after count).pc
  | .asked, reason => reason = .stopped
  | .budget, reason => reason = .budget
  | .fault, reason =>
    (∃ cause, debugger.machine.outcome count = .error (.memory cause) ∧
      reason = .memoryFault (debugger.machine.after count).pc cause) ∨
    ∃ address word, debugger.machine.outcome count = .error (.undecodable address word) ∧
      reason = .undecodable address word

/-- What a run ends with that stops on a condition after a number of steps: the machine is the one
that the steps lead to, or the one that the faulting step has left. -/
structure EndsBy (debugger : Debugger) (count : Nat) (condition : StopCondition)
    (result : Except RunError StopReason × Debugger) : Prop where
  reason : ∃ reason, result.1 = .ok reason ∧ debugger.Reason count condition reason
  machine : result.2.machine =
    debugger.machine.after (if condition = .fault then count + 1 else count)
  steps : result.2.machine.steps = debugger.machine.steps + count
  lastFault : if condition = .fault then
      ∃ fault, debugger.machine.outcome count = .error fault ∧ result.2.lastFault = some fault
    else result.2.lastFault = none
  breakpoints : result.2.breakpoints = debugger.breakpoints
  running : result.2.running = false

/-- A run has arrived at a number of steps: no condition held after fewer, and of those that are
looked at behind a step none holds, except that a stop may be asked for. -/
structure Arrived (debugger : Debugger) (budget : Option Nat) (count : Nat) (here : Debugger) :
    Prop where
  machine : here.machine = debugger.machine.after count
  breakpoints : here.breakpoints = debugger.breakpoints
  lastFault : here.lastFault = none
  running : here.running = false ↔ debugger.Stops budget count .asked
  passed : ∀ earlier < count, ∀ condition, ¬ debugger.Stops budget earlier condition
  behind : ∀ condition, condition.rank < StopCondition.asked.rank →
    ¬ debugger.Stops budget count condition

variable {debugger here : Debugger} {budget : Option Nat} {count : Nat}

/-! ### One turn -/

/-- The steps of a run that no condition has stopped are counted. -/
theorem steps_of_passed
    (passed : ∀ earlier < count, ∀ condition, ¬ debugger.Stops budget earlier condition) :
    (debugger.machine.after count).steps = debugger.machine.steps + count := by
  apply Machine.steps_after
  intro earlier below
  cases done : debugger.machine.outcome earlier with
  | ok snapshot => exact ⟨snapshot, rfl⟩
  | error fault => exact absurd ⟨fault, done⟩ (passed earlier below .fault)

/-- A breakpoint on the program counter stops a run in front of a step, but not the first one. -/
theorem pcMatch_iff (arrived : debugger.Arrived budget count here) :
    (!(count == 0) && here.breakpoints.any fun breakpoint =>
      breakpoint.matchesPc here.machine.pc) = true ↔ debugger.Stops budget count .pcMatch := by
  rw [arrived.machine, arrived.breakpoints]
  simp only [Bool.and_eq_true, Bool.not_eq_true', beq_eq_false_iff_ne, List.any_eq_true,
    Breakpoint.matchesPc, beq_iff_eq, Stops, Nat.one_le_iff_ne_zero, and_assoc]

/-- What is left of the budget is used up when as many steps were taken. -/
theorem budget_iff :
    budget.map (· - count) = some 0 ↔ debugger.Stops budget count .budget := by
  simp only [Option.map_eq_some_iff, Stops, Nat.sub_eq_zero_iff_le]

/-- A run that stops after a number of steps, but not on a fault, ends with the machine that they lead
to. -/
theorem endsBy_stopped (condition : StopCondition) (notFault : condition ≠ .fault)
    {reason : StopReason} (reasoned : debugger.Reason count condition reason)
    (passed : ∀ earlier < count, ∀ condition, ¬ debugger.Stops budget earlier condition)
    (machine : here.machine = debugger.machine.after count)
    (breakpoints : here.breakpoints = debugger.breakpoints) (lastFault : here.lastFault = none) :
    debugger.EndsBy count condition (.ok reason, here.stop) := by
  refine ⟨⟨reason, rfl, reasoned⟩, ?_, ?_, ?_, breakpoints, rfl⟩
  · rw [if_neg notFault]
    exact machine
  · rw [← steps_of_passed passed, ← machine]
    rfl
  · rw [if_neg notFault]
    exact lastFault

/-- What a step did that completes is told by its snapshot. -/
theorem stepped_iff {snapshot : Snapshot} (done : debugger.machine.outcome count = .ok snapshot)
    (did : Machine → Snapshot → Machine → Prop) :
    debugger.Stepped did (count + 1) ↔
      did (debugger.machine.after count) snapshot (debugger.machine.after (count + 1)) := by
  constructor
  · rintro ⟨other, done', it⟩
    rw [done] at done'
    obtain rfl := Except.ok.inj done'
    exact it
  · exact fun it => ⟨snapshot, done, it⟩

section Behind

variable {snapshot : Snapshot} (done : debugger.machine.outcome count = .ok snapshot)
include done

theorem stops_halt_iff :
    debugger.Stops budget (count + 1) .halt ↔ snapshot.isHalt = true :=
  stepped_iff done fun _ snapshot _ => snapshot.isHalt = true

theorem stops_selfBranch_iff :
    debugger.Stops budget (count + 1) .selfBranch ↔ snapshot.isSelfBranch = true :=
  (stepped_iff done fun _ snapshot _ => snapshot.oldPc = snapshot.newPc).trans beq_iff_eq.symm

theorem stops_hit_iff :
    debugger.Stops budget (count + 1) .hit ↔ ∃ breakpoint ∈ debugger.breakpoints,
      breakpoint.Hit (debugger.machine.after count) snapshot (debugger.machine.after (count + 1)) :=
  stepped_iff done fun before snapshot after =>
    ∃ breakpoint ∈ debugger.breakpoints, breakpoint.Hit before snapshot after

theorem stops_asked_iff :
    debugger.Stops budget (count + 1) .asked ↔
      ∃ observer, (debugger.machine.after count).observer = some observer ∧
        observer.stopsWithin snapshot.accesses.length = true :=
  stepped_iff done fun before snapshot _ => ∃ observer, before.observer = some observer ∧
    observer.stopsWithin snapshot.accesses.length = true

end Behind

/-- The debugger behind a step that completes. -/
def behind (debugger here : Debugger) (count : Nat) (snapshot : Snapshot) : Debugger :=
  { here with
    machine := debugger.machine.after (count + 1)
    previous := Breakpoint.watch debugger.breakpoints (debugger.machine.after count)
    lastSnapshot := some snapshot
    running := here.running &&
      !(debugger.machine.after count).observer.any fun observer =>
        observer.stopsWithin snapshot.accesses.length }

theorem step_behind (arrived : debugger.Arrived budget count here) {snapshot : Snapshot}
    (done : debugger.machine.outcome count = .ok snapshot) :
    here.step true = (.ok snapshot, behind debugger here count snapshot) := by
  have stepped : (debugger.machine.after count).step true =
      (.ok snapshot, debugger.machine.after (count + 1)) := Prod.ext done rfl
  unfold Debugger.step stepMachine behind
  simp only [arrived.machine, arrived.breakpoints, stepped]
  cases (debugger.machine.after count).observer.any fun observer =>
      observer.stopsWithin snapshot.accesses.length with
  | true => simp [stop]
  | false => simp

/-- A debugger whose step faults has the machine that the step has left. -/
theorem step_fault (arrived : debugger.Arrived budget count here) {fault : StepFault}
    (failed : debugger.machine.outcome count = .error fault) :
    here.step true = (.error fault,
      { here with
        machine := debugger.machine.after (count + 1)
        previous := Breakpoint.watch debugger.breakpoints (debugger.machine.after count) }) := by
  have stepped : (debugger.machine.after count).step true =
      (.error fault, debugger.machine.after (count + 1)) := Prod.ext failed rfl
  unfold Debugger.step stepMachine
  simp only [arrived.machine, arrived.breakpoints, stepped]

/-- A run whose step faults ends with the fault, which is not a defect. -/
theorem endsBy_fault (kept : debugger.machine.KeepsDecoded)
    (arrived : debugger.Arrived budget count here) {fault : StepFault}
    (failed : debugger.machine.outcome count = .error fault) :
    ∃ reason final,
      stopForFault
          { here with
            machine := debugger.machine.after (count + 1)
            previous := Breakpoint.watch debugger.breakpoints (debugger.machine.after count) }
          here.machine.pc fault = (.ok (some reason), final) ∧
        debugger.EndsBy count .fault (.ok reason, final) := by
  have expected := (Machine.step_cases (kept.after count) true).2 fault failed
  have steps := (Machine.steps_of_fault (kept.after count) failed).trans
    (steps_of_passed arrived.passed)
  rw [arrived.machine]
  cases fault with
  | memory cause =>
    exact ⟨_, _, rfl, ⟨_, rfl, .inl ⟨cause, failed, rfl⟩⟩, rfl, steps, ⟨_, failed, rfl⟩,
      arrived.breakpoints, rfl⟩
  | undecodable address word =>
    exact ⟨_, _, rfl, ⟨_, rfl, .inr ⟨address, word, failed, rfl⟩⟩, rfl, steps, ⟨_, failed, rfl⟩,
      arrived.breakpoints, rfl⟩
  | defective cause => exact expected.elim

/-- A run that has taken a step goes on, or it stops on the first condition behind it. -/
theorem afterStep_cases
    (complete : ∀ breakpoint ∈ debugger.breakpoints, breakpoint.IsComplete)
    (arrived : debugger.Arrived budget count here) (running : here.running = true)
    (quiet : ∀ condition, ¬ debugger.Stops budget count condition) {snapshot : Snapshot}
    (done : debugger.machine.outcome count = .ok snapshot) :
    (∃ condition reason final,
      (behind debugger here count snapshot).afterStep snapshot = (.ok (some reason), final) ∧
        debugger.StopsFirst budget (count + 1) condition ∧
        debugger.EndsBy (count + 1) condition (.ok reason, final)) ∨
      (behind debugger here count snapshot).afterStep snapshot =
          (.ok none, behind debugger here count snapshot) ∧
        debugger.Arrived budget (count + 1) (behind debugger here count snapshot) := by
  have passed : ∀ earlier < count + 1, ∀ condition, ¬ debugger.Stops budget earlier condition := by
    intro earlier below
    rcases Nat.lt_succ_iff_lt_or_eq.mp below with before | rfl
    · exact arrived.passed earlier before
    · exact quiet
  have led : (debugger.machine.after (count + 1)).pc = snapshot.newPc :=
    Machine.pc_after_succ done
  have none : ∀ condition : StopCondition, condition.rank < StopCondition.halt.rank →
      ¬ debugger.Stops budget (count + 1) condition := by
    intro condition below
    exact absurd below (Nat.not_lt_zero _)
  unfold afterStep
  by_cases halts : snapshot.isHalt = true
  · rw [if_pos halts]
    exact .inl ⟨.halt, .halt, _, rfl, ⟨(stops_halt_iff done).mpr halts, none, passed⟩,
      endsBy_stopped _ (by decide) rfl passed rfl arrived.breakpoints arrived.lastFault⟩
  rw [if_neg halts]
  have none := StopCondition.forall_rank_succ .halt none fun stops => halts ((stops_halt_iff done).mp stops)
  by_cases branches : snapshot.isSelfBranch = true
  · rw [if_pos branches]
    exact .inl ⟨.selfBranch, .selfBranch, _, rfl, ⟨(stops_selfBranch_iff done).mpr branches, none, passed⟩,
      endsBy_stopped _ (by decide) rfl passed rfl arrived.breakpoints arrived.lastFault⟩
  rw [if_neg branches]
  have none := StopCondition.forall_rank_succ .selfBranch none fun stops =>
    branches ((stops_selfBranch_iff done).mp stops)
  obtain ⟨hit, tried, isHit⟩ := @Breakpoint.anyHits_of_isComplete debugger.breakpoints snapshot
    (debugger.machine.after count) (debugger.machine.after (count + 1)) complete
  have tried' : Breakpoint.anyHits snapshot (behind debugger here count snapshot).previous
      (behind debugger here count snapshot).machine
      (behind debugger here count snapshot).breakpoints = .ok hit := by
    rw [← tried, ← arrived.breakpoints, behind]
    rw [arrived.breakpoints]
  rw [tried']
  cases hit with
  | true =>
    refine .inl ⟨.hit, .breakpoint snapshot.newPc, _, rfl,
      ⟨(stops_hit_iff done).mpr (isHit.mp rfl), none, passed⟩,
      endsBy_stopped _ (by decide) ?_ passed rfl arrived.breakpoints arrived.lastFault⟩
    rw [Reason, led]
  | false =>
    have none := StopCondition.forall_rank_succ .hit none fun stops =>
      Bool.false_ne_true (isHit.mpr ((stops_hit_iff done).mp stops))
    refine .inr ⟨rfl, rfl, arrived.breakpoints, arrived.lastFault, ?_, passed, none⟩
    rw [stops_asked_iff done, behind]
    simp [running, Option.any_eq_true]

/-- One turn of a run that has arrived somewhere ends it on the first condition, or it arrives one step
further. -/
theorem turn_cases (kept : debugger.machine.KeepsDecoded)
    (complete : ∀ breakpoint ∈ debugger.breakpoints, breakpoint.IsComplete)
    (arrived : debugger.Arrived budget count here) :
    (∃ last condition reason final,
      here.turn (budget.map (· - count)) (count == 0) = (.ok (some reason), final) ∧
        debugger.StopsFirst budget last condition ∧
        debugger.EndsBy last condition (.ok reason, final)) ∨
      ∃ next, here.turn (budget.map (· - count)) (count == 0) = (.ok none, next) ∧
        debugger.Arrived budget (count + 1) next := by
  unfold turn
  simp only
  have none := arrived.behind
  by_cases asked : debugger.Stops budget count .asked
  · have running := arrived.running.mpr asked
    have same : here.stop = here := by rw [stop, ← running]
    have ends := endsBy_stopped .asked (by decide) rfl arrived.passed arrived.machine
      arrived.breakpoints arrived.lastFault
    rw [same] at ends
    rw [running]
    exact .inl ⟨count, .asked, .stopped, here, rfl, ⟨asked, none, arrived.passed⟩, ends⟩
  have running : here.running = true := by
    cases running : here.running with
    | true => rfl
    | false => exact absurd (arrived.running.mp running) asked
  rw [running, Bool.not_true, if_neg Bool.false_ne_true]
  have none := StopCondition.forall_rank_succ .asked none asked
  by_cases pcMatch : debugger.Stops budget count .pcMatch
  · rw [if_pos ((pcMatch_iff arrived).mpr pcMatch), arrived.machine]
    exact .inl ⟨count, .pcMatch, .breakpoint _, _, rfl, ⟨pcMatch, none, arrived.passed⟩,
      endsBy_stopped _ (by decide) rfl arrived.passed arrived.machine arrived.breakpoints
        arrived.lastFault⟩
  rw [if_neg fun stops => pcMatch ((pcMatch_iff arrived).mp stops)]
  have none := StopCondition.forall_rank_succ .pcMatch none pcMatch
  by_cases usedUp : debugger.Stops budget count .budget
  · rw [if_pos (budget_iff.mpr usedUp)]
    exact .inl ⟨count, .budget, .budget, _, rfl, ⟨usedUp, none, arrived.passed⟩,
      endsBy_stopped _ (by decide) rfl arrived.passed arrived.machine arrived.breakpoints
        arrived.lastFault⟩
  rw [if_neg fun stops => usedUp (budget_iff.mp stops)]
  have none := StopCondition.forall_rank_succ .budget none usedUp
  cases done : debugger.machine.outcome count with
  | error fault =>
    rw [step_fault arrived done]
    have first : debugger.StopsFirst budget count .fault := ⟨⟨fault, done⟩, none, arrived.passed⟩
    obtain ⟨reason, final, ended, ends⟩ := endsBy_fault kept arrived done
    exact .inl ⟨count, .fault, reason, final, ended, first, ends⟩
  | ok snapshot =>
    rw [step_behind arrived done]
    have noFault : ¬ debugger.Stops budget count .fault := by
      rintro ⟨fault, failed⟩
      rw [done] at failed
      contradiction
    have none := StopCondition.forall_rank_succ .fault none noFault
    have quiet : ∀ condition, ¬ debugger.Stops budget count condition := by
      intro condition
      apply none
      cases condition <;> decide
    rcases afterStep_cases complete arrived running quiet done with
      ⟨condition, reason, final, ended, first, ends⟩ | ⟨goesOn, further⟩
    · exact .inl ⟨count + 1, condition, reason, final, ended, first, ends⟩
    · exact .inr ⟨_, goesOn, further⟩

/-! ### Whole runs -/

/-- From where it has arrived, a run ends on the first condition, or it arrives as many steps further
as it has fuel. -/
theorem runFrom_cases (kept : debugger.machine.KeepsDecoded)
    (complete : ∀ breakpoint ∈ debugger.breakpoints, breakpoint.IsComplete) (fuel : Nat)
    (arrived : debugger.Arrived budget count here) :
    (∃ last condition result,
      runFrom fuel (budget.map (· - count)) (count == 0) here = some result ∧
        debugger.StopsFirst budget last condition ∧ debugger.EndsBy last condition result) ∨
      runFrom fuel (budget.map (· - count)) (count == 0) here = none ∧
        ∃ there, debugger.Arrived budget (count + fuel) there := by
  induction fuel generalizing count here with
  | zero => exact .inr ⟨rfl, here, arrived⟩
  | succ fuel ih =>
    rcases turn_cases kept complete arrived with
      ⟨last, condition, reason, final, turned, first, ends⟩ | ⟨next, turned, further⟩
    · refine .inl ⟨last, condition, (.ok reason, final), ?_, first, ends⟩
      rw [runFrom, turned]
    · have budget' : (budget.map (· - count)).map (· - 1) = budget.map (· - (count + 1)) := by
        rw [Option.map_map]
        rfl
      rw [runFrom, turned, show count + (fuel + 1) = count + 1 + fuel by omega]
      simp only [budget']
      exact ih further

/-- A run begins where it is, whatever the breakpoints say of it. -/
theorem arrived_start (debugger : Debugger) (budget : Option Nat) :
    debugger.Arrived budget 0 { debugger with running := true, lastFault := none } where
  machine := rfl
  breakpoints := rfl
  lastFault := rfl
  running := ⟨fun stopped => by contradiction, fun stopped => stopped.elim⟩
  passed earlier below := absurd below (Nat.not_lt_zero earlier)
  behind condition below := by
    cases condition <;> first | exact id | exact absurd below (by decide)

/-- A run ends on the first condition, or no condition holds within its fuel. -/
theorem run_cases (kept : debugger.machine.KeepsDecoded)
    (complete : ∀ breakpoint ∈ debugger.breakpoints, breakpoint.IsComplete) (budget : Option Nat)
    (fuel : Nat) :
    (∃ count condition result, debugger.run fuel budget = some result ∧
        debugger.StopsFirst budget count condition ∧ debugger.EndsBy count condition result) ∨
      debugger.run fuel budget = none ∧
        ∀ count < fuel, ∀ condition, ¬ debugger.Stops budget count condition := by
  have start : budget.map (· - 0) = budget := by cases budget <;> rfl
  have cases := runFrom_cases kept complete fuel (arrived_start debugger budget)
  rw [start, Nat.zero_add] at cases
  rcases cases with ended | ⟨endless, there, arrived⟩
  · exact .inl ended
  · exact .inr ⟨endless, arrived.passed⟩

/-- Two numbers of steps after which a run first stops are the same, and so are the conditions. -/
theorem StopsFirst.unique {last last' : Nat} {condition condition' : StopCondition}
    (one : debugger.StopsFirst budget last condition)
    (other : debugger.StopsFirst budget last' condition') :
    last = last' ∧ condition = condition' := by
  obtain rfl : last = last' := by
    apply Nat.le_antisymm <;> apply Nat.le_of_not_lt
    · exact fun below => one.least last' below condition' other.stops
    · exact fun below => other.least last below condition one.stops
  refine ⟨rfl, StopCondition.eq_of_rank ?_⟩
  apply Nat.le_antisymm <;> apply Nat.le_of_not_lt
  · exact fun below => one.first condition' below other.stops
  · exact fun below => other.first condition below one.stops

/-- A run is plain stepping up to the first condition to stop on. If it returns, it has taken as many
steps as the first condition needs, and it returns the reason for that condition. It does return if
a condition holds after some number of steps, however much longer it could run, and with a budget one
holds after at most as many steps. A breakpoint on the program counter never keeps a run from its
first step, and no later step is taken from it. -/
theorem run_stops (kept : debugger.machine.KeepsDecoded)
    (complete : ∀ breakpoint ∈ debugger.breakpoints, breakpoint.IsComplete)
    (budget : Option Nat) :
    (∀ fuel result, debugger.run fuel budget = some result →
      ∃ count condition, debugger.StopsFirst budget count condition ∧
        debugger.EndsBy count condition result) ∧
    (∀ count condition, debugger.StopsFirst budget count condition → ∀ fuel, count < fuel →
      ∃ result, debugger.run fuel budget = some result ∧
        debugger.EndsBy count condition result) ∧
    (∀ most, budget = some most → ∀ fuel, most < fuel →
      ∃ result count condition, debugger.run fuel budget = some result ∧ count ≤ most ∧
        debugger.StopsFirst budget count condition ∧ debugger.EndsBy count condition result) ∧
    ∀ count condition, debugger.StopsFirst budget count condition →
      (count = 0 → condition = .budget ∨ condition = .fault) ∧
      ∀ arrival, 1 ≤ arrival → (∃ breakpoint ∈ debugger.breakpoints,
        breakpoint.matchesPc (debugger.machine.after arrival).pc = true) → count ≤ arrival := by
  have cases := run_cases kept complete budget
  refine ⟨fun fuel result returned => ?_, fun count condition first fuel enough => ?_,
    fun most given fuel enough => ?_, fun count condition first => ⟨fun start => ?_, ?_⟩⟩
  · rcases cases fuel with ⟨count, condition, result', returned', first, ends⟩ | ⟨endless, _⟩
    · obtain rfl := Option.some.inj (returned.symm.trans returned')
      exact ⟨count, condition, first, ends⟩
    · rw [returned] at endless
      contradiction
  · rcases cases fuel with ⟨count', condition', result, returned, first', ends⟩ | ⟨_, passed⟩
    · obtain ⟨rfl, rfl⟩ := first.unique first'
      exact ⟨result, returned, ends⟩
    · exact absurd first.stops (passed count enough condition)
  · have usedUp : debugger.Stops budget most .budget := ⟨most, given, Nat.le_refl most⟩
    rcases cases fuel with ⟨count, condition, result, returned, first, ends⟩ | ⟨_, passed⟩
    · refine ⟨result, count, condition, returned, ?_, first, ends⟩
      exact Nat.le_of_not_lt fun beyond => first.least most beyond .budget usedUp
    · exact absurd usedUp (passed most enough .budget)
  · subst start
    have stops := first.stops
    cases condition with
    | halt | selfBranch | hit | asked => exact stops.elim
    | pcMatch => exact absurd stops.1 (Nat.not_succ_le_zero 0)
    | budget => exact .inl rfl
    | fault => exact .inr rfl
  · rintro arrival positive ⟨breakpoint, inside, isMatch⟩
    have stops : debugger.Stops budget arrival .pcMatch := by
      rw [Breakpoint.matchesPc, Bool.and_eq_true, Bool.and_eq_true, beq_iff_eq, beq_iff_eq]
        at isMatch
      exact ⟨positive, breakpoint, inside, isMatch.1.1, isMatch.1.2, isMatch.2⟩
    exact Nat.le_of_not_lt fun beyond => first.least arrival beyond .pcMatch stops

/-- A debugger at the first of two instructions that do nothing, with a breakpoint on each of them. -/
def betweenBreakpoints : Debugger :=
  { ofMachine (.ofMemory (.ofBytes .little #[0x1f, 0x20, 0x03, 0xd5, 0x1f, 0x20, 0x03, 0xd5])) with
    breakpoints := [⟨.pcMatch, some 0, none, none, true⟩, ⟨.pcMatch, some 4, none, none, true⟩] }

open InstructionSet Machine in
/-- The first instruction is executed although there is a breakpoint on it, and the run stops in front
of the second one. -/
theorem run_stops_betweenBreakpoints :
    ∃ final, betweenBreakpoints.run 2 (some 5) = some (.ok (.breakpoint 4), final) ∧
      final.machine.pc = 4 ∧ final.machine.steps = 1 := by
  have kept : betweenBreakpoints.machine.KeepsDecoded := keepsDecoded_of_undecoded rfl
  have complete : ∀ breakpoint ∈ betweenBreakpoints.breakpoints, breakpoint.IsComplete := by
    simp [betweenBreakpoints, Breakpoint.IsComplete]
  obtain ⟨instruction, decoded, name, idle⟩ := exists_decode_nop 0
  obtain ⟨text, written⟩ := exists_text decoded
  have fetched := @fetch_of_decode betweenBreakpoints.machine 0xd503201f instruction (by decide) rfl
    rfl decoded
  have done : betweenBreakpoints.machine.outcome 0 = .ok ⟨0, 4, instruction, 1, text, []⟩ := by
    rw [outcome, after, step_of_fetch fetched, executeFetched, idle]
    simp only [Machine.complete, symbolInfo, written, Except.map]
    rfl
  have led : (betweenBreakpoints.machine.after 1).pc = 4 := pc_after_succ done
  have first : betweenBreakpoints.StopsFirst (some 5) 1 .pcMatch := by
    refine ⟨⟨by decide, _, List.mem_cons_of_mem _ List.mem_cons_self, rfl, rfl, ?_⟩, ?_, ?_⟩
    · rw [led]
      rfl
    · intro other below stops
      cases other with
      | halt =>
        have halts := (stops_halt_iff done).mp stops
        rw [Snapshot.isHalt, name] at halts
        exact absurd halts (by decide)
      | selfBranch =>
        have same := beq_iff_eq.mp ((stops_selfBranch_iff done).mp stops)
        exact Nat.zero_ne_add_one 3 same
      | hit =>
        obtain ⟨breakpoint, inside, _, kind⟩ := (stops_hit_iff done).mp stops
        have isPc : breakpoint.kind = .pcMatch := by
          rcases List.mem_cons.mp inside with rfl | inside
          · rfl
          · rw [List.mem_singleton.mp inside]
        rw [isPc] at kind
        exact kind
      | asked =>
        obtain ⟨observer, known, _⟩ := (stops_asked_iff done).mp stops
        cases known
      | _ => exact absurd below (by decide)
    · intro earlier below other stops
      obtain rfl := Nat.lt_one_iff.mp below
      cases other with
      | halt | selfBranch | hit | asked => exact stops.elim
      | pcMatch => exact absurd stops.1 (by decide)
      | budget =>
        obtain ⟨most, given, used⟩ := stops
        cases given
        exact absurd used (by decide)
      | fault =>
        obtain ⟨fault, failed⟩ := stops
        rw [done] at failed
        cases failed
  obtain ⟨⟨outcome, final⟩, returned, ends⟩ :=
    (run_stops kept complete (some 5)).2.1 1 .pcMatch first 2 (by decide)
  obtain ⟨reason, rfl, rfl⟩ := ends.reason
  refine ⟨final, ?_, ?_, ends.steps⟩
  · rw [returned, led]
  · rw [ends.machine]
    exact led

end Debugger

end A64Machine
