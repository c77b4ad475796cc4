import A64Machine.Proofs.DebuggerRun

/-!
# What is left when nothing runs

A run and a trace are over in several ways, and each of them is looked at here for what a debugger
shows afterwards: whether it counts as running, and which breakpoint has stopped it. All reasons to
stop clear the running flag, and so does the end of a trace. A fault that a trace passes on leaves
the flag set, though nothing runs any more. A run is only stopped by breakpoints of the list.
-/

namespace A64Machine

/-- If one of some breakpoints is hit, the search has found it. -/
theorem Breakpoint.exists_of_anyHits {snapshot : Snapshot} {previous : List (String × Int)}
    {machine : Machine} {breakpoints : List Breakpoint}
    (hit : anyHits snapshot previous machine breakpoints = .ok true) :
    ∃ breakpoint ∈ breakpoints, breakpoint.hits snapshot previous machine = .ok true := by
  induction breakpoints with
  | nil => cases hit
  | cons first rest ih =>
    obtain ⟨here, tried, later⟩ := bind_eq_ok.mp hit
    cases here with
    | true => exact ⟨first, List.mem_cons_self, tried⟩
    | false =>
      obtain ⟨breakpoint, inside, isHit⟩ := ih later
      exact ⟨breakpoint, List.mem_cons_of_mem _ inside, isHit⟩

/-- Where nothing is decoded yet, the fetch of a word without an instruction is a fault. -/
theorem Machine.fetch_of_decode_none {machine : Machine} {word : Nat}
    (aligned : machine.pc % Instruction.byteLength = 0)
    (unknown : machine.decoded[machine.pc / Instruction.byteLength]? = some none)
    (peeked : machine.core.memory.peekOrigin machine.pc Instruction.byteLength = .ok word)
    (decoded : Codec.a64.decode word machine.pc = .ok none) :
    machine.fetch = .error (.undecodable machine.pc word) := by
  unfold fetch
  simp only [aligned, unknown, peeked, instructionOf, decoded]
  rfl

namespace Debugger

variable {debugger final : Debugger} {budget stopAfter : Option Nat} {fuel : Nat}

/-- A breakpoint has stopped a run: it is in the list, and it stands at the program counter or is
hit by the latest step. -/
def StoppedBy (debugger : Debugger) (breakpoint : Breakpoint) : Prop :=
  breakpoint ∈ debugger.breakpoints ∧
    (breakpoint.matchesPc debugger.machine.pc = true ∨
      ∃ snapshot, debugger.lastSnapshot = some snapshot ∧
        breakpoint.hits snapshot debugger.previous debugger.machine = .ok true)

/-- What a debugger shows after a run that a reason has ended: nothing runs, the breakpoints are
those of before, and if the reason is a breakpoint, one of them has stopped the run. -/
structure Ended (debugger : Debugger) (reason : StopReason) (final : Debugger) : Prop where
  running : final.running = false
  breakpoints : final.breakpoints = debugger.breakpoints
  stoppedBy : ∀ pc, reason = .breakpoint pc → ∃ breakpoint, final.StoppedBy breakpoint

/-- What a run does in a turn: it breaks off, it ends for a reason, or it goes on with the same
breakpoints. -/
inductive Leaves (debugger : Debugger) : Except RunError (Option StopReason) × Debugger → Prop
  | brokenOff (error : RunError) (here : Debugger) : Leaves debugger (.error error, here)
  | ended {reason : StopReason} {here : Debugger} (ended : debugger.Ended reason here) :
    Leaves debugger (.ok (some reason), here)
  | goesOn {here : Debugger} (breakpoints : here.breakpoints = debugger.breakpoints) :
    Leaves debugger (.ok none, here)

/-! ### Steps and turns -/

/-- A step completes and its snapshot is the latest one, or it faults and what was running still
counts as running. -/
theorem exists_step (debugger : Debugger) (notify : Bool) :
    (∃ snapshot here, debugger.step notify = (.ok snapshot, here) ∧
        here.machine = (debugger.machine.step notify).2 ∧
        here.breakpoints = debugger.breakpoints ∧ here.lastSnapshot = some snapshot) ∨
      ∃ fault here, debugger.step notify = (.error fault, here) ∧
        (debugger.machine.step notify).1 = .error fault ∧
        here.breakpoints = debugger.breakpoints ∧ here.running = debugger.running := by
  unfold Debugger.step stepMachine
  simp only
  rcases debugger.machine.step notify with ⟨outcome, machine⟩
  cases outcome with
  | error fault => exact .inr ⟨fault, _, rfl, rfl, rfl, rfl⟩
  | ok snapshot =>
    refine .inl ⟨snapshot, _, rfl, ?_, ?_, rfl⟩
    · simp only
      split <;> rfl
    · simp only
      split <;> rfl

/-- A reason to stop that is no breakpoint leaves nothing running. -/
theorem leaves_stop {here : Debugger} {reason : StopReason}
    (breakpoints : here.breakpoints = debugger.breakpoints)
    (noBreakpoint : ∀ pc, reason ≠ .breakpoint pc) :
    debugger.Leaves (here.stopFor reason) :=
  .ended ⟨rfl, breakpoints, fun pc same => absurd same (noBreakpoint pc)⟩

/-- A breakpoint that stops a run leaves nothing running. -/
theorem leaves_stoppedBy {here : Debugger} {breakpoint : Breakpoint} (pc : Nat)
    (breakpoints : here.breakpoints = debugger.breakpoints) (stopped : here.StoppedBy breakpoint) :
    debugger.Leaves (here.stopFor (.breakpoint pc)) :=
  .ended ⟨rfl, breakpoints, fun _ _ => ⟨breakpoint, stopped⟩⟩

theorem leaves_afterStep {here : Debugger} {snapshot : Snapshot}
    (breakpoints : here.breakpoints = debugger.breakpoints)
    (latest : here.lastSnapshot = some snapshot) : debugger.Leaves (here.afterStep snapshot) := by
  unfold afterStep
  split
  · exact leaves_stop breakpoints fun pc same => nomatch same
  split
  · exact leaves_stop breakpoints fun pc same => nomatch same
  cases tried : Breakpoint.anyHits snapshot here.previous here.machine here.breakpoints with
  | error breakpoint => exact .brokenOff _ _
  | ok hit =>
    cases hit with
    | false => exact .goesOn breakpoints
    | true =>
      obtain ⟨breakpoint, inside, isHit⟩ := Breakpoint.exists_of_anyHits tried
      exact leaves_stoppedBy _ breakpoints ⟨inside, .inr ⟨snapshot, latest, isHit⟩⟩

theorem leaves_stopForFault {here : Debugger} (pc : Nat) (fault : StepFault)
    (breakpoints : here.breakpoints = debugger.breakpoints) :
    debugger.Leaves (here.stopForFault pc fault) := by
  cases fault with
  | defective fault => exact .brokenOff _ _
  | undecodable address word | memory cause =>
    exact leaves_stop breakpoints fun pc same => nomatch same

/-- If a turn ends the run for a reason, nothing runs, and a breakpoint that ends it is one of the
list. -/
theorem leaves_turn (debugger : Debugger) (budget : Option Nat) (first : Bool) :
    debugger.Leaves (debugger.turn budget first) := by
  unfold turn
  simp only
  split
  · rename_i stopped
    exact .ended ⟨by simpa using stopped, rfl, fun pc same => nomatch same⟩
  split
  · rename_i stands
    obtain ⟨breakpoint, inside, isMatch⟩ := List.any_eq_true.mp (Bool.and_eq_true_iff.mp stands).2
    exact leaves_stoppedBy _ rfl ⟨inside, .inl isMatch⟩
  split
  · exact leaves_stop rfl fun pc same => nomatch same
  rcases debugger.exists_step true with
    ⟨snapshot, here, stepped, _, breakpoints, latest⟩ | ⟨fault, here, stepped, _, breakpoints, _⟩
  · rw [stepped]
    exact leaves_afterStep breakpoints latest
  · rw [stepped]
    exact leaves_stopForFault _ fault breakpoints

/-- No run goes on without budget. -/
theorem turn_without_budget (debugger : Debugger) (first : Bool) :
    (debugger.turn (some 0) first).1 ≠ .ok none := by
  unfold turn
  simp only [if_true]
  split
  · simp
  · split <;> simp [stopFor]

/-! ### Runs -/

theorem runFrom_ended {reason : StopReason} {first : Bool}
    (returned : runFrom fuel budget first debugger = some (.ok reason, final)) :
    debugger.Ended reason final := by
  induction fuel generalizing debugger budget first with
  | zero => cases returned
  | succ fuel ih =>
    have leaves := debugger.leaves_turn budget first
    rw [runFrom] at returned
    generalize debugger.turn budget first = turned at leaves returned
    cases leaves with
    | brokenOff error here => cases returned
    | ended ended =>
      cases returned
      exact ended
    | goesOn breakpoints =>
      obtain ⟨running, kept, stoppedBy⟩ := ih returned
      exact ⟨running, kept.trans breakpoints, stoppedBy⟩

/-- A run that a reason has ended leaves nothing running. -/
theorem run_ended {reason : StopReason}
    (returned : debugger.run fuel budget = some (.ok reason, final)) :
    debugger.Ended reason final := by
  obtain ⟨running, breakpoints, stoppedBy⟩ := runFrom_ended returned
  exact ⟨running, breakpoints, stoppedBy⟩

/-- With a budget a run returns. -/
theorem exists_runFrom {most : Nat} (enough : most < fuel) (first : Bool) (debugger : Debugger) :
    ∃ result, runFrom fuel (some most) first debugger = some result := by
  induction fuel generalizing debugger most first with
  | zero => contradiction
  | succ fuel ih =>
    rw [runFrom]
    rcases turned : debugger.turn (some most) first with ⟨outcome, here⟩
    rcases outcome with error | _ | reason
    · exact ⟨_, rfl⟩
    · have left : most ≠ 0 := by
        rintro rfl
        exact debugger.turn_without_budget first (congrArg Prod.fst turned)
      have enough : most - 1 < fuel := by omega
      exact ih enough false here
    · exact ⟨_, rfl⟩

/-! ### Traces -/

/-- A trace ends with nothing running, unless it passes a fault on. -/
theorem traceFrom_leaves {taken : Nat} {outcome : Except StepFault (List Snapshot)}
    (returned : traceFrom stopAfter fuel budget taken debugger = some (outcome, final)) :
    final.running = true ↔ ∃ fault, outcome = .error fault := by
  induction fuel generalizing debugger budget taken outcome with
  | zero => cases returned
  | succ fuel ih =>
    rw [traceFrom] at returned
    split at returned
    · cases returned
      simp [stop]
    rename_i goesOn
    rcases debugger.exists_step true with
      ⟨snapshot, here, stepped, _⟩ | ⟨fault, here, stepped, _, _, running⟩
    · rw [stepped] at returned
      simp only at returned
      split at returned
      · cases returned
        simp [stop]
      · obtain ⟨⟨rest, last⟩, later, same⟩ := Option.map_eq_some_iff.mp returned
        cases same
        rw [ih later]
        exact exists_congr fun fault => map_eq_error.symm
    · rw [stepped] at returned
      cases returned
      have wasRunning : debugger.running = true := by
        simp only [Bool.or_eq_true, Bool.not_eq_true', not_or, Bool.not_eq_false] at goesOn
        exact goesOn.1
      exact iff_of_true (running.trans wasRunning) ⟨fault, rfl⟩

/-- A trace passes only faults on that a program can have. -/
theorem isExpected_of_traceFrom {taken : Nat} {fault : StepFault}
    (kept : debugger.machine.KeepsDecoded)
    (returned : traceFrom stopAfter fuel budget taken debugger = some (.error fault, final)) :
    fault.IsExpected := by
  induction fuel generalizing debugger budget taken with
  | zero => cases returned
  | succ fuel ih =>
    obtain ⟨stepKept, expected⟩ := Machine.step_cases kept true
    rw [traceFrom] at returned
    split at returned
    · cases returned
    rcases debugger.exists_step true with
      ⟨snapshot, here, stepped, machine, _⟩ | ⟨cause, here, stepped, failed, _⟩
    · rw [stepped] at returned
      simp only at returned
      split at returned
      · cases returned
      · obtain ⟨⟨rest, last⟩, later, same⟩ := Option.map_eq_some_iff.mp returned
        obtain ⟨failed, rfl⟩ := Prod.mk.inj same
        obtain rfl := map_eq_error.mp failed
        have next :
            (if stopAfter = some (taken + 1) then here.stop else here).machine.KeepsDecoded := by
          rw [← machine] at stepKept
          split <;> exact stepKept
        exact ih next later
    · rw [stepped] at returned
      cases returned
      exact expected fault failed

/-- With a budget a trace returns. -/
theorem exists_traceFrom {most : Nat} (enough : most < fuel) (taken : Nat) (debugger : Debugger) :
    ∃ result, traceFrom stopAfter fuel (some most) taken debugger = some result := by
  induction fuel generalizing debugger most taken with
  | zero => contradiction
  | succ fuel ih =>
    rw [traceFrom]
    split
    · exact ⟨_, rfl⟩
    rename_i goesOn
    have left : most ≠ 0 := by
      rintro rfl
      simp at goesOn
    have enough : most - 1 < fuel := by omega
    rcases debugger.step true with ⟨fault | snapshot, here⟩
    · exact ⟨_, rfl⟩
    · simp only
      split
      · exact ⟨_, rfl⟩
      · obtain ⟨result, returned⟩ := ih enough (taken + 1)
          (if stopAfter = some (taken + 1) then here.stop else here)
        exact ⟨_, Option.map_eq_some_iff.mpr ⟨result, returned, rfl⟩⟩

/-- Where a word cannot be decoded, a run stops in its first turn, and a trace passes the fault on. -/
theorem first_turn_of_undecodable {address word : Nat}
    (failed : debugger.machine.fetch = .error (.undecodable address word)) :
    (∃ final, debugger.run 1 none = some (.ok (.undecodable address word), final)) ∧
      ∃ final, debugger.trace 1 none none = some (.error (.undecodable address word), final) := by
  have stepped := Machine.step_of_fetch_error failed true
  constructor
  · simp only [run, runFrom, turn, step, stepMachine, stepped]
    exact ⟨_, rfl⟩
  · simp only [trace, traceFrom, step, stepMachine, stepped]
    exact ⟨_, rfl⟩

open InstructionSet in
/-- The word of zeros is no instruction. -/
theorem decode_zeros : Codec.a64.decode 0 0 = .ok none := by
  have refused : ∀ form ∈ forms, form.pattern.accepts 0 = false := by
    decide +kernel
  refine decode_eq_none 0 fun form member accepted => ?_
  rw [table_a64, decodeOrder_table] at member
  exact absurd accepted (ne_true_of_eq_false (refused form member))

/-- A debugger at a word that is no instruction. -/
def atNoInstruction : Debugger := ofMachine (.ofMemory (.ofBytes .little #[0, 0, 0, 0]))

/-- A debugger counts as running when nothing runs just behind a trace that has passed on the fault
of a step: all other ends of a trace and all reasons to stop of a run leave it not running. A run
always ends for a reason, and a fault that is passed on is one that a program can have. With a budget
both return. -/
theorem running_iff_passes_fault (debugger : Debugger) (fuel : Nat)
    (budget stopAfter : Option Nat) :
    (∀ reason final, debugger.run fuel budget = some (.ok reason, final) →
      final.running = false) ∧
    (∀ outcome final, debugger.trace fuel budget stopAfter = some (outcome, final) →
      (final.running = true ↔ ∃ fault, outcome = .error fault)) ∧
    (debugger.machine.KeepsDecoded →
      (∀ breakpoint ∈ debugger.breakpoints, breakpoint.IsComplete) →
      (∀ outcome final, debugger.run fuel budget = some (outcome, final) →
        ∃ reason, outcome = .ok reason) ∧
      ∀ fault final, debugger.trace fuel budget stopAfter = some (.error fault, final) →
        fault.IsExpected) ∧
    ∀ most, budget = some most → most < fuel →
      (∃ result, debugger.run fuel budget = some result) ∧
        ∃ result, debugger.trace fuel budget stopAfter = some result := by
  refine ⟨fun reason final returned => (run_ended returned).running,
    fun outcome final returned => traceFrom_leaves returned, fun kept complete => ⟨?_, ?_⟩, ?_⟩
  · intro outcome final returned
    rcases run_cases kept complete budget fuel with
      ⟨count, condition, result, returned', _, ends⟩ | ⟨endless, _⟩
    · obtain rfl := Option.some.inj (returned.symm.trans returned')
      obtain ⟨reason, ended, _⟩ := ends.reason
      exact ⟨reason, ended⟩
    · rw [returned] at endless
      contradiction
  · intro fault final returned
    have start : { debugger with running := true }.machine.KeepsDecoded := kept
    exact isExpected_of_traceFrom start returned
  · rintro most rfl enough
    exact ⟨exists_runFrom enough true _, exists_traceFrom enough 0 _⟩

/-- At a word that is no instruction, a run stops for the fault and leaves nothing running, but a
trace passes the fault on and leaves the debugger running. -/
theorem running_iff_passes_fault_noInstruction :
    (∃ final, atNoInstruction.run 1 none = some (.ok (.undecodable 0 0), final) ∧
      final.running = false) ∧
    ∃ final, atNoInstruction.trace 1 none none = some (.error (.undecodable 0 0), final) ∧
      final.running = true := by
  have failed : atNoInstruction.machine.fetch = .error (.undecodable 0 0) :=
    @Machine.fetch_of_decode_none _ 0 rfl rfl rfl decode_zeros
  obtain ⟨⟨stopped, returned⟩, passed, returned'⟩ := first_turn_of_undecodable failed
  obtain ⟨ran, traced, _⟩ := running_iff_passes_fault atNoInstruction 1 none none
  exact ⟨⟨stopped, returned, ran _ stopped returned⟩,
    passed, returned', (traced _ passed returned').mpr ⟨_, rfl⟩⟩

end Debugger

end A64Machine
