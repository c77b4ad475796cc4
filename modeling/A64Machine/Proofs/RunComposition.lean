import A64Machine.Proofs.CompletedStep
import A64Machine.Proofs.RunEnd

/-!
# Runs in parts

A budget says how far a run may go and nothing else. Where a run has used up its budget, no
breakpoint stands and no stop was asked for, so a second run takes up from there exactly what the
first one would have done with the budget of both. Without breakpoints a trace takes the same steps
as a run: it yields the only snapshots that steps can have which lead to where the run ends.

The stop at a breakpoint in front of a step is where this could fail, as a run passes over it at its
beginning. It does not, because a run looks for breakpoints before it looks at its budget.
-/

namespace A64Machine

namespace Machine

/-! ### Steps that complete -/

/-- Steps that complete lead from a machine to another one, and these are their snapshots. -/
inductive Makes : Machine → List Snapshot → Machine → Prop where
  | nil {machine : Machine} : Makes machine [] machine
  | cons {machine last : Machine} {snapshot : Snapshot} {rest : List Snapshot}
      (done : (machine.step true).1 = .ok snapshot)
      (later : Makes (machine.step true).2 rest last) : Makes machine (snapshot :: rest) last

/-- Every snapshot counts as a step. -/
theorem Makes.steps {machine last : Machine} {snapshots : List Snapshot}
    (makes : machine.Makes snapshots last) : last.steps = machine.steps + snapshots.length := by
  induction makes with
  | nil => rfl
  | cons done later ih =>
    rw [ih, (step_ok done).2, List.length_cons]
    omega

/-- Two machines have the same steps between them, whichever way they are found. -/
theorem Makes.unique {machine last : Machine} {snapshots others : List Snapshot}
    (makes : machine.Makes snapshots last) (makes' : machine.Makes others last) :
    snapshots = others := by
  induction makes generalizing others with
  | nil =>
    have count := makes'.steps
    exact (List.eq_nil_of_length_eq_zero (by omega)).symm
  | cons done later ih =>
    cases makes' with
    | nil =>
      have count := (Makes.cons done later).steps
      rw [List.length_cons] at count
      omega
    | cons done' later' =>
      rw [Except.ok.inj (done.symm.trans done'), ih later']

end Machine

namespace Debugger

variable {debugger here final middle : Debugger} {budget : Option Nat} {first : Bool}
  {fuel n m : Nat}

/-! ### One turn -/

/-- A step is that of the machine. It touches neither the breakpoints nor the fault of the latest
run. -/
theorem step_facts (debugger : Debugger) (notify : Bool) :
    (debugger.step notify).1 = (debugger.machine.step notify).1 ∧
      (debugger.step notify).2.machine = (debugger.machine.step notify).2 ∧
      (debugger.step notify).2.breakpoints = debugger.breakpoints ∧
      (debugger.step notify).2.lastFault = debugger.lastFault := by
  unfold Debugger.step stepMachine
  simp only
  rcases debugger.machine.step notify with ⟨fault | snapshot, machine⟩
  · exact ⟨rfl, rfl, rfl, rfl⟩
  · simp only
    split
    · exact ⟨trivial, rfl, rfl, rfl⟩
    · exact ⟨trivial, rfl, rfl, rfl⟩

/-- A step that faults asks for no stop. -/
theorem running_of_fault {notify : Bool} {fault : StepFault}
    (failed : debugger.step notify = (.error fault, here)) : here.running = debugger.running := by
  rcases debugger.exists_step notify with
    ⟨_, _, done, _⟩ | ⟨_, _, failed', _, _, running⟩
  · cases failed.symm.trans done
  · cases failed.symm.trans failed'
    exact running

/-- A step does the same whatever the fault of the latest run was. -/
theorem step_withFault (debugger : Debugger) (notify : Bool) (fault : Option StepFault) :
    { debugger with lastFault := fault }.step notify =
      ((debugger.step notify).1, { (debugger.step notify).2 with lastFault := fault }) := by
  unfold Debugger.step stepMachine
  simp only
  rcases debugger.machine.step notify with ⟨_ | snapshot, machine⟩
  · rfl
  · simp only
    split <;> rfl

/-- Behind a step a run does not stop because of its budget. -/
theorem afterStep_ne_budget (debugger : Debugger) (snapshot : Snapshot) :
    (debugger.afterStep snapshot).1 ≠ .ok (some .budget) := by
  unfold afterStep
  split
  · simp [stopFor]
  split
  · simp [stopFor]
  split <;> simp [stopFor]

/-- A fault is no used-up budget. -/
theorem stopForFault_ne_budget (debugger : Debugger) (pc : Nat) (fault : StepFault) :
    (debugger.stopForFault pc fault).1 ≠ .ok (some .budget) := by
  cases fault <;> simp [stopForFault, stopFor]

/-- A turn that stops because of its budget has none left and has found no other reason to stop. With
more budget it would have gone on as the first turn of another run. -/
theorem turn_of_spent (spent : debugger.turn (some n) first = (.ok (some .budget), final)) :
    n = 0 ∧ final = debugger.stop ∧ debugger.running = true ∧
      ∀ budget, debugger.turn budget first = debugger.turn budget true := by
  unfold turn at spent ⊢
  simp only at spent ⊢
  split at spent
  · cases spent
  rename_i running
  split at spent
  · cases spent
  rename_i noMatch
  split at spent
  · rename_i none
    refine ⟨Option.some.inj none, (Prod.mk.inj spent).2.symm, by simpa using running, ?_⟩
    intro budget
    rw [if_neg noMatch]
    simp
  · rcases stepped : debugger.step true with ⟨fault | snapshot, here⟩
    · rw [stepped] at spent
      exact absurd (congrArg Prod.fst spent) (here.stopForFault_ne_budget _ fault)
    · rw [stepped] at spent
      exact absurd (congrArg Prod.fst spent) (here.afterStep_ne_budget snapshot)

/-- As long as there is budget left, a turn does not look at how much it is. -/
theorem turn_of_left (left : n ≠ 0) (left' : m ≠ 0) :
    debugger.turn (some n) first = debugger.turn (some m) first := by
  simp only [turn, Option.some.injEq, left, left']

/-- A run that goes on has met no fault. -/
theorem lastFault_of_goesOn (goesOn : debugger.turn budget first = (.ok none, here)) :
    here.lastFault = debugger.lastFault := by
  unfold turn at goesOn
  simp only at goesOn
  split at goesOn
  · cases goesOn
  split at goesOn
  · cases goesOn
  split at goesOn
  · cases goesOn
  obtain ⟨-, -, -, sameFault⟩ := debugger.step_facts true
  revert goesOn sameFault
  rcases debugger.step true with ⟨fault | snapshot, stepped⟩
  · intro goesOn
    cases fault <;> cases goesOn
  · intro goesOn sameFault
    simp only [afterStep] at goesOn
    split at goesOn
    · cases goesOn
    split at goesOn
    · cases goesOn
    split at goesOn
    · cases goesOn
    · cases goesOn
    · cases goesOn
      exact sameFault

/-! ### Runs -/

/-- More fuel keeps the end of a run. -/
theorem runFrom_mono {result : Except RunError StopReason × Debugger} {more : Nat}
    (returned : runFrom fuel budget first debugger = some result) (least : fuel ≤ more) :
    runFrom more budget first debugger = some result := by
  induction fuel generalizing debugger budget first more with
  | zero => cases returned
  | succ fuel ih =>
    obtain ⟨more, rfl⟩ : ∃ less, more = less + 1 := ⟨more - 1, by omega⟩
    rw [runFrom] at returned ⊢
    generalize debugger.turn budget first = turned at returned ⊢
    rcases turned with ⟨error | _ | reason, here⟩
    · exact returned
    · exact ih returned (by omega)
    · exact returned

/-- A run with a budget does not depend on its fuel, if that exceeds the budget. -/
theorem runFrom_congr_fuel {more : Nat} (enough : n < fuel) (enough' : n < more) :
    runFrom fuel (some n) first debugger = runFrom more (some n) first debugger := by
  obtain ⟨result, returned⟩ := exists_runFrom (Nat.lt_succ_self n) first debugger
  rw [runFrom_mono returned enough, runFrom_mono returned enough']

/-- A run that has used up its budget is continued by another one as by itself with more budget. -/
theorem runFrom_add {long short : Nat} (clean : debugger.lastFault = none)
    (spent : runFrom fuel (some n) first debugger = some (.ok .budget, middle))
    (enough : n + m < long) (enough' : m < short) :
    runFrom long (some (n + m)) first debugger = middle.run short (some m) := by
  induction fuel generalizing n first debugger long with
  | zero => cases spent
  | succ fuel ih =>
    rw [runFrom] at spent
    rcases turned : debugger.turn (some n) first with ⟨error | _ | reason, here⟩
    · rw [turned] at spent
      cases spent
    · rw [turned] at spent
      have left : n ≠ 0 := by
        rintro rfl
        exact debugger.turn_without_budget first (congrArg Prod.fst turned)
      obtain ⟨long, rfl⟩ : ∃ less, long = less + 1 := ⟨long - 1, by omega⟩
      have rest : (some (n + m)).map (· - 1) = some (n - 1 + m) := by
        rw [Option.map_some, Nat.sub_add_comm (by omega)]
      rw [runFrom, turn_of_left (by omega) left, turned, rest]
      exact ih ((lastFault_of_goesOn turned).trans clean) spent (by omega)
    · rw [turned] at spent
      cases spent
      obtain ⟨rfl, rfl, running, asFirst⟩ := turn_of_spent turned
      -- the second run finds the debugger as the first one has left it
      have same : { debugger.stop with running := true, lastFault := none } = debugger := by
        rw [← running, ← clean]
        rfl
      rw [run, same, Nat.zero_add, runFrom_congr_fuel (by omega) enough']
      cases short with
      | zero => rfl
      | succ short => rw [runFrom, runFrom, asFirst]

/-! ### Traces -/

/-- A turn without breakpoints looks at the request to stop, the budget, and what the step did. -/
theorem turn_of_noBreakpoint (empty : debugger.breakpoints = []) :
    debugger.turn budget first =
      if debugger.running = false then (.ok (some .stopped), debugger)
      else if budget = some 0 then debugger.stopFor .budget
      else
        match debugger.step true with
        | (.error fault, here) => here.stopForFault debugger.machine.pc fault
        | (.ok snapshot, here) =>
          if snapshot.isHalt then here.stopFor .halt
          else if snapshot.isSelfBranch then here.stopFor .selfBranch
          else (.ok none, here) := by
  have kept : (debugger.step true).2.breakpoints = [] := (debugger.step_facts true).2.2.1.trans empty
  unfold turn
  simp only [empty, List.any_nil, Bool.and_false, Bool.false_eq_true, if_false,
    Bool.not_eq_true']
  generalize debugger.step true = stepped at kept ⊢
  rcases stepped with ⟨fault | snapshot, here⟩
  · rfl
  · simp only at kept
    simp only [afterStep, kept, Breakpoint.anyHits]

/-- What a trace yields that takes the steps of a run: their snapshots, or the fault that has ended
the run. -/
inductive Yields (machine : Machine) (final : Debugger) : Except StepFault (List Snapshot) → Prop where
  | snapshots {snapshots : List Snapshot} (clean : final.lastFault = none)
      (makes : machine.Makes snapshots final.machine) : Yields machine final (.ok snapshots)
  | fault {fault : StepFault} (ended : final.lastFault = some fault) :
      Yields machine final (.error fault)

/-- Where a turn goes on, a trace takes the same step and goes on. -/
theorem traceFrom_of_goesOn (empty : debugger.breakpoints = [])
    (goesOn : debugger.turn budget first = (.ok none, here)) (taken : Nat)
    (kept : Option StepFault) :
    ∃ snapshot, debugger.machine.step true = (.ok snapshot, here.machine) ∧ here.breakpoints = [] ∧
      traceFrom none (fuel + 1) budget taken { debugger with lastFault := kept } =
        (traceFrom none fuel (budget.map (· - 1)) (taken + 1) { here with lastFault := kept }).map
          fun (steps, last) => (steps.map (snapshot :: ·), last) := by
  rw [turn_of_noBreakpoint empty] at goesOn
  rw [traceFrom, step_withFault]
  split at goesOn
  · cases goesOn
  rename_i running
  split at goesOn
  · cases goesOn
  rename_i left
  have takesStep : (!debugger.running || budget == some 0) = false := by simp [running, left]
  obtain ⟨did, led, keptEmpty, -⟩ := debugger.step_facts true
  simp only [takesStep, Bool.false_eq_true, if_false]
  rcases stepped : debugger.step true with ⟨fault | snapshot, next⟩
  · rw [stepped] at goesOn
    cases fault <;> cases goesOn
  rw [stepped] at goesOn did led keptEmpty
  simp only at goesOn did led keptEmpty ⊢
  split at goesOn
  · cases goesOn
  rename_i runsOn
  split at goesOn
  · cases goesOn
  rename_i leads
  cases goesOn
  refine ⟨snapshot, Prod.ext did.symm led.symm, keptEmpty.trans empty, ?_⟩
  simp only [runsOn, leads, Bool.or_self, Bool.false_eq_true, if_false, reduceCtorEq]

/-- Where a turn ends its run, a trace ends with what the turn did: with nothing before a step, with
its snapshot, or with its fault. -/
theorem traceFrom_of_ended {reason : StopReason} (empty : debugger.breakpoints = [])
    (clean : debugger.lastFault = none)
    (ended : debugger.turn budget first = (.ok (some reason), final)) (taken : Nat)
    (kept : Option StepFault) :
    ∃ outcome, traceFrom none (fuel + 1) budget taken { debugger with lastFault := kept } =
        some (outcome, { final with running := !outcome.isOk, lastFault := kept }) ∧
      Yields debugger.machine final outcome := by
  rw [turn_of_noBreakpoint empty] at ended
  rw [traceFrom, step_withFault]
  split at ended
  · rename_i stopped
    cases ended
    exact ⟨.ok [], by simp [stopped, stop, Except.isOk, Except.toBool], .snapshots clean .nil⟩
  rename_i running
  split at ended
  · rename_i spent
    cases ended
    exact ⟨.ok [], by simp [spent, stop, Except.isOk, Except.toBool], .snapshots clean .nil⟩
  rename_i left
  have takesStep : (!debugger.running || budget == some 0) = false := by simp [running, left]
  obtain ⟨did, led, -, keptClean⟩ := debugger.step_facts true
  simp only [takesStep, Bool.false_eq_true, if_false]
  rcases stepped : debugger.step true with ⟨fault | snapshot, next⟩
  · rw [stepped] at ended
    have runs : next.running = true := (running_of_fault stepped).trans (by simpa using running)
    refine ⟨.error fault, ?_, ?_⟩
    · cases fault <;> cases ended <;> simp [stop, runs, Except.isOk, Except.toBool]
    · cases fault <;> cases ended <;> exact .fault rfl
  rw [stepped] at ended did led keptClean
  simp only at ended did led keptClean ⊢
  have last : (snapshot.isHalt || snapshot.isSelfBranch) = true ∧ final = next.stop := by
    split at ended
    · rename_i halts
      exact ⟨by simp [halts], (Prod.mk.inj ended).2.symm⟩
    split at ended
    · rename_i leads
      exact ⟨by simp [leads], (Prod.mk.inj ended).2.symm⟩
    · cases ended
  obtain ⟨ends, rfl⟩ := last
  rw [if_pos ends]
  exact ⟨.ok [snapshot], by simp [stop, Except.isOk, Except.toBool],
    .snapshots (keptClean.trans clean) (.cons did.symm (led ▸ .nil))⟩

/-- Without breakpoints, a trace takes the steps of a run, and it leaves the debugger as the run does,
but for the running flag behind a fault and for the fault that only a run keeps. -/
theorem exists_traceFrom_of_runFrom {reason : StopReason} (empty : debugger.breakpoints = [])
    (clean : debugger.lastFault = none)
    (returned : runFrom fuel budget first debugger = some (.ok reason, final)) (taken : Nat)
    (kept : Option StepFault) :
    ∃ outcome, traceFrom none fuel budget taken { debugger with lastFault := kept } =
        some (outcome, { final with running := !outcome.isOk, lastFault := kept }) ∧
      Yields debugger.machine final outcome := by
  induction fuel generalizing debugger budget first taken with
  | zero => cases returned
  | succ fuel ih =>
    rw [runFrom] at returned
    rcases turned : debugger.turn budget first with ⟨error | _ | _, here⟩
    · rw [turned] at returned
      cases returned
    · rw [turned] at returned
      obtain ⟨snapshot, stepped, keptEmpty, traced⟩ := traceFrom_of_goesOn empty turned taken kept
      obtain ⟨outcome, later, yields⟩ :=
        ih keptEmpty ((lastFault_of_goesOn turned).trans clean) returned (taken + 1)
      refine ⟨outcome.map (snapshot :: ·), ?_, ?_⟩
      · rw [traced, later]
        cases outcome <;> rfl
      · cases yields with
        | snapshots clean makes =>
          exact .snapshots clean (.cons (congrArg Prod.fst stepped) (stepped ▸ makes))
        | fault ended => exact .fault ended
    · rw [turned] at returned
      cases returned
      exact traceFrom_of_ended empty clean turned taken kept

/-! ### Parts and the whole -/

/-- With complete breakpoints a run that returns gives a reason. -/
theorem exists_reason {outcome : Except RunError StopReason}
    (kept : debugger.machine.KeepsDecoded)
    (complete : ∀ breakpoint ∈ debugger.breakpoints, breakpoint.IsComplete)
    (returned : debugger.run fuel budget = some (outcome, final)) :
    ∃ reason, outcome = .ok reason := by
  rcases run_cases kept complete budget fuel with
    ⟨_, _, _, returned', _, ends⟩ | ⟨endless, _⟩
  · obtain rfl := Option.some.inj (returned.symm.trans returned')
    obtain ⟨reason, given, _⟩ := ends.reason
    exact ⟨reason, given⟩
  · cases returned.symm.trans endless

/-- Without breakpoints, a trace whose run meets no fault yields the only snapshots of steps that lead
to where the run ends, and one whose run meets a fault passes it on. -/
theorem trace_of_run {reason : StopReason} (empty : debugger.breakpoints = [])
    (returned : debugger.run fuel budget = some (.ok reason, final)) :
    (final.lastFault = none → ∃ snapshots,
      debugger.trace fuel budget none =
        some (.ok snapshots, { final with lastFault := debugger.lastFault }) ∧
      ∀ others, debugger.machine.Makes others final.machine ↔ others = snapshots) ∧
    ∀ fault, final.lastFault = some fault →
      debugger.trace fuel budget none =
        some (.error fault, { final with running := true, lastFault := debugger.lastFault }) := by
  have stopped := (run_ended returned).running
  have empty' : { debugger with running := true, lastFault := none }.breakpoints = [] := empty
  obtain ⟨outcome, traced, yields⟩ :=
    exists_traceFrom_of_runFrom empty' rfl returned 0 debugger.lastFault
  cases yields with
  | snapshots clean makes =>
    refine ⟨fun _ => ⟨_, ?_, fun others => ⟨fun makes' => makes'.unique makes, ?_⟩⟩, ?_⟩
    · rw [stopped]
      exact traced
    · rintro rfl
      exact makes
    · intro fault ended
      cases clean.symm.trans ended
  | fault ended =>
    refine ⟨fun clean => ?_, fun fault ended' => ?_⟩
    · cases clean.symm.trans ended
    · obtain rfl := Option.some.inj (ended.symm.trans ended')
      exact traced

/-- A run that has used up its budget, followed by another one, is a single run with both budgets: it
returns the same and leaves the same debugger, whatever the breakpoints are, and it returns a reason
if these are complete. Without breakpoints, a trace takes the steps of the run with its budget. Where
the run meets no fault, the trace yields the snapshots of the steps that lead to where the run ends,
and leaves the same debugger but for the fault of a run before it, which a trace does not forget. -/
theorem budgets_compose (debugger : Debugger) :
    (∀ n m fuel middle, debugger.run fuel (some n) = some (.ok .budget, middle) →
      ∃ result, (∀ long, n + m < long → debugger.run long (some (n + m)) = some result) ∧
        (∀ short, m < short → middle.run short (some m) = some result) ∧
        (debugger.machine.KeepsDecoded →
          (∀ breakpoint ∈ debugger.breakpoints, breakpoint.IsComplete) →
          ∃ reason, result.1 = .ok reason)) ∧
    (debugger.breakpoints = [] → debugger.machine.KeepsDecoded → ∀ n fuel, n < fuel →
      ∃ reason final, debugger.run fuel (some n) = some (.ok reason, final) ∧
        (final.lastFault = none → ∃ snapshots,
          debugger.trace fuel (some n) none =
            some (.ok snapshots, { final with lastFault := debugger.lastFault }) ∧
          ∀ others, debugger.machine.Makes others final.machine ↔ others = snapshots) ∧
        ∀ fault, final.lastFault = some fault →
          debugger.trace fuel (some n) none =
            some (.error fault, { final with running := true, lastFault := debugger.lastFault })) := by
  constructor
  · intro n m fuel middle spent
    obtain ⟨result, returned⟩ := exists_runFrom (Nat.lt_succ_self m) true
      { middle with running := true, lastFault := none }
    have whole : ∀ long, n + m < long → debugger.run long (some (n + m)) = some result :=
      fun long enough => (runFrom_add rfl spent enough (Nat.lt_succ_self m)).trans returned
    exact ⟨result, whole,
      fun short enough => (runFrom_congr_fuel enough (Nat.lt_succ_self m)).trans returned,
      fun kept complete => exists_reason kept complete (whole _ (Nat.lt_succ_self _))⟩
  · intro empty kept n fuel enough
    have complete : ∀ breakpoint ∈ debugger.breakpoints, breakpoint.IsComplete := by
      simp [empty]
    obtain ⟨⟨outcome, final⟩, returned⟩ := exists_runFrom enough true
      { debugger with running := true, lastFault := none }
    obtain ⟨reason, rfl⟩ := exists_reason kept complete returned
    exact ⟨reason, final, returned, trace_of_run empty returned⟩

/-- A run of one step uses up its budget if the step asks for nothing and no breakpoint stands behind
it. -/
theorem exists_run_one {snapshot : Snapshot} {next : Machine}
    (stepped : debugger.machine.step true = (.ok snapshot, next))
    (runsOn : snapshot.isHalt = false) (leads : snapshot.isSelfBranch = false)
    (unobserved : debugger.machine.observer = none)
    (quiet : ∀ previous, Breakpoint.anyHits snapshot previous next debugger.breakpoints = .ok false)
    (noMatch : (debugger.breakpoints.any fun breakpoint => breakpoint.matchesPc next.pc) = false) :
    ∃ middle, debugger.run 2 (some 1) = some (.ok .budget, middle) ∧ middle.machine = next ∧
      middle.lastFault = none := by
  simp only [run, runFrom, turn, Debugger.step, stepMachine, stepped, afterStep, runsOn, leads,
    unobserved, quiet, noMatch, Option.any_none, Bool.not_true, Bool.false_and, Bool.and_false,
    Bool.false_eq_true, if_false, Option.map_some, Option.some.injEq, Nat.one_ne_zero, Nat.sub_self,
    if_true]
  exact ⟨_, rfl, rfl, rfl⟩

/-- A run whose first step faults in memory ends with that fault. -/
theorem exists_run_memoryFault {cause : MemoryFault}
    (failed : (debugger.machine.step true).1 = .error (.memory cause)) (left : n ≠ 0) :
    ∃ final, debugger.run (fuel + 1) (some n) =
      some (.ok (.memoryFault debugger.machine.pc cause), final) := by
  rcases stepped : debugger.machine.step true with ⟨outcome, next⟩
  rw [stepped] at failed
  obtain rfl : outcome = _ := failed
  simp only [run, runFrom, turn, Debugger.step, stepMachine, stepped, Bool.not_true, Bool.false_and,
    Bool.false_eq_true, if_false, Option.some.injEq, left]
  exact ⟨_, rfl⟩

/-- A debugger at an instruction that does nothing and fills the memory, with a breakpoint on it. -/
def atLastInstruction : Debugger :=
  { ofMachine (.ofMemory (.ofBytes .little #[0x1f, 0x20, 0x03, 0xd5])) with
    breakpoints := [⟨.pcMatch, some 0, none, none, true⟩] }

open InstructionSet Machine in
/-- The instruction is executed, and there is none behind it. -/
theorem step_atLastInstruction :
    ∃ snapshot next, atLastInstruction.machine.step true = (.ok snapshot, next) ∧
      snapshot.isHalt = false ∧ snapshot.isSelfBranch = false ∧ next.pc = 4 ∧
      (next.step true).1 = .error (.memory (.pcOutside 4 4)) := by
  obtain ⟨instruction, decoded, name, idle⟩ := exists_decode_nop 0
  obtain ⟨text, written⟩ := exists_text decoded
  have fetched := @fetch_of_decode atLastInstruction.machine 0xd503201f instruction (by decide) rfl
    rfl decoded
  have stepped : ∃ next,
      atLastInstruction.machine.step true = (.ok ⟨0, 4, instruction, 1, text, []⟩, next) ∧
        next.pc = 4 ∧ next.decoded = #[some instruction] ∧ next.core.memory.size = 4 := by
    rw [step_of_fetch fetched, executeFetched, idle]
    simp only [Machine.complete, symbolInfo, written, Except.map]
    exact ⟨_, rfl, rfl, rfl, rfl⟩
  obtain ⟨next, stepped, pc, filled, size⟩ := stepped
  refine ⟨_, next, stepped, ?_, rfl, pc, ?_⟩
  · rw [Snapshot.isHalt, name]
    decide
  · have outside : next.fetch = .error (.memory (.pcOutside 4 4)) := by
      simp [fetch, pc, filled, size, Instruction.byteLength]
    rw [step_of_fetch_error outside]

/-- The run of one step uses up its budget, and the run of another one ends with the fault of a single
run of two steps, while the trace of one step yields its snapshot. -/
theorem budgets_compose_atLastInstruction :
    (∃ middle final, atLastInstruction.run 2 (some 1) = some (.ok .budget, middle) ∧
      middle.run 2 (some 1) = some (.ok (.memoryFault 4 (.pcOutside 4 4)), final) ∧
      atLastInstruction.run 3 (some 2) =
        some (.ok (.memoryFault 4 (.pcOutside 4 4)), final)) ∧
    ∃ snapshot final, { atLastInstruction with breakpoints := [] }.trace 2 (some 1) none =
      some (.ok [snapshot], final) := by
  obtain ⟨snapshot, next, stepped, runsOn, leads, pc, outside⟩ := step_atLastInstruction
  have unobserved : atLastInstruction.machine.observer = none := rfl
  constructor
  · obtain ⟨middle, spent, machine, _⟩ := exists_run_one stepped runsOn leads unobserved
      (fun _ => rfl) (by rw [pc]; decide)
    obtain ⟨final, ended⟩ := @exists_run_memoryFault middle 1 1 _ (by rw [machine]; exact outside)
      Nat.one_ne_zero
    obtain ⟨result, whole, second, _⟩ := (budgets_compose atLastInstruction).1 1 1 2 middle spent
    have same := (second 2 (by decide)).symm.trans ended
    rw [machine, pc] at ended
    exact ⟨middle, final, spent, ended, (whole 3 (by decide)).trans (by rw [same, machine, pc])⟩
  · let bare : Debugger := { atLastInstruction with breakpoints := [] }
    obtain ⟨middle, spent, machine, clean⟩ :=
      @exists_run_one bare _ _ stepped runsOn leads unobserved (fun _ => rfl) rfl
    have kept : bare.machine.KeepsDecoded := Machine.keepsDecoded_of_undecoded rfl
    obtain ⟨reason, final, returned, unfaulted, _⟩ :=
      (budgets_compose bare).2 rfl kept 1 2 (by decide)
    cases spent.symm.trans returned
    obtain ⟨snapshots, traced, only⟩ := unfaulted clean
    have makes : bare.machine.Makes [snapshot] middle.machine := by
      refine .cons (congrArg Prod.fst stepped) ?_
      rw [machine, stepped]
      exact .nil
    obtain rfl := (only _).mp makes
    exact ⟨snapshot, _, traced⟩

end Debugger

end A64Machine
