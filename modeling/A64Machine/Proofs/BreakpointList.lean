import A64Machine.Proofs.RunEnd

/-!
# The list of breakpoints

Breakpoints are added, updated and removed one at a time. What is in the list is not added again,
and a removal takes out one occurrence. So no breakpoint is in the list twice, and one that was
removed is gone and stops no run, unless an update puts a breakpoint in place of another one that is
in the list already. From then on the list has it twice, and a removal leaves one of the two.
-/

namespace A64Machine

/-- A change of the breakpoints. -/
inductive BreakpointEdit where
  | add (breakpoint : Breakpoint)
  | update (old new : Breakpoint)
  | remove (breakpoint : Breakpoint)

namespace Debugger

/-- Changes the breakpoints. -/
def edit (debugger : Debugger) : BreakpointEdit → Debugger
  | .add breakpoint => debugger.addBreakpoint breakpoint
  | .update old new => debugger.updateBreakpoint old new
  | .remove breakpoint => debugger.removeBreakpoint breakpoint

/-- The debugger after some changes of its breakpoints. -/
def afterEdits (debugger : Debugger) (edits : List BreakpointEdit) : Debugger :=
  edits.foldl edit debugger

/-- A change puts a breakpoint of the list in place of another one. -/
def Repeats (debugger : Debugger) : BreakpointEdit → Prop
  | .update old new => old ∈ debugger.breakpoints ∧ new ∈ debugger.breakpoints ∧ new ≠ old
  | .add _ | .remove _ => False

/-- None of some changes repeats a breakpoint that is in the list when it is made. -/
def NeverRepeats (debugger : Debugger) (edits : List BreakpointEdit) : Prop :=
  ∀ count edit, edits[count]? = some edit → ¬(debugger.afterEdits (edits.take count)).Repeats edit

variable {debugger : Debugger}

/-! ### Single changes -/

theorem nodup_add (distinct : debugger.breakpoints.Nodup) (breakpoint : Breakpoint) :
    (debugger.addBreakpoint breakpoint).breakpoints.Nodup := by
  unfold addBreakpoint Breakpoint.add
  split
  · exact distinct
  · rename_i absent
    refine List.nodup_append.mpr ⟨distinct, List.pairwise_singleton .., ?_⟩
    rintro other inside _ added rfl
    rw [List.mem_singleton.mp added] at inside
    exact absent (List.contains_iff_mem.mpr inside)

theorem count_update (old new breakpoint : Breakpoint) :
    (debugger.updateBreakpoint old new).breakpoints.count breakpoint =
      if old ∈ debugger.breakpoints then
        debugger.breakpoints.count breakpoint + (if new = breakpoint then 1 else 0) -
          (if old = breakpoint then 1 else 0)
      else debugger.breakpoints.count breakpoint := by
  simp only [updateBreakpoint, Breakpoint.update, List.count_replace, List.contains_iff_mem,
    beq_iff_eq]

/-- An update keeps the breakpoints distinct, unless it repeats one of them. -/
theorem nodup_update (distinct : debugger.breakpoints.Nodup) (old new : Breakpoint) :
    (debugger.updateBreakpoint old new).breakpoints.Nodup ↔
      ¬(old ∈ debugger.breakpoints ∧ new ∈ debugger.breakpoints ∧ new ≠ old) := by
  rw [List.nodup_iff_count]
  have single := List.nodup_iff_count.mp distinct
  constructor
  · rintro distinct' ⟨hasOld, hasNew, different⟩
    have twice := distinct' new
    rw [count_update, if_pos hasOld, if_pos rfl, if_neg different.symm] at twice
    have once := List.count_pos_iff.mpr hasNew
    omega
  · intro notRepeated breakpoint
    rw [count_update]
    have before := single breakpoint
    split
    · rename_i hasOld
      by_cases isNew : new = breakpoint
      · subst isNew
        by_cases isOld : old = new
        · rw [if_pos rfl, if_pos isOld]
          omega
        · have absent : new ∉ debugger.breakpoints := fun hasNew =>
            notRepeated ⟨hasOld, hasNew, fun same => isOld same.symm⟩
          have none := List.count_eq_zero_of_not_mem absent
          rw [if_pos rfl, if_neg isOld]
          omega
      · rw [if_neg isNew]
        omega
    · exact before

/-- A change keeps the breakpoints distinct, unless it repeats one of them. -/
theorem nodup_edit (distinct : debugger.breakpoints.Nodup) (edit : BreakpointEdit) :
    (debugger.edit edit).breakpoints.Nodup ↔ ¬debugger.Repeats edit := by
  cases edit with
  | add breakpoint => exact iff_of_true (nodup_add distinct breakpoint) id
  | update old new => exact nodup_update distinct old new
  | remove breakpoint => exact iff_of_true (distinct.erase breakpoint) id

/-- One occurrence of a breakpoint is removed. -/
theorem notMem_removed_iff (breakpoint : Breakpoint) :
    breakpoint ∉ (debugger.removeBreakpoint breakpoint).breakpoints ↔
      debugger.breakpoints.count breakpoint ≤ 1 := by
  rw [removeBreakpoint, Breakpoint.remove, ← List.count_eq_zero, List.count_erase_self]
  omega

/-! ### All changes -/

theorem afterEdits_succ (debugger : Debugger) {edits : List BreakpointEdit} {count : Nat}
    {edit : BreakpointEdit} (next : edits[count]? = some edit) :
    debugger.afterEdits (edits.take (count + 1)) =
      (debugger.afterEdits (edits.take count)).edit edit := by
  rw [afterEdits, List.take_add_one, next, Option.toList_some, List.foldl_append]
  rfl

/-- The breakpoints stay distinct just as long as no change repeats one of them. -/
theorem nodup_afterEdits_iff (distinct : debugger.breakpoints.Nodup)
    (edits : List BreakpointEdit) :
    (∀ count, (debugger.afterEdits (edits.take count)).breakpoints.Nodup) ↔
      debugger.NeverRepeats edits := by
  constructor
  · intro each count edit next
    rw [← nodup_edit (each count), ← afterEdits_succ debugger next]
    exact each (count + 1)
  · intro none count
    induction count with
    | zero => exact distinct
    | succ count ih =>
      cases next : edits[count]? with
      | none =>
        rwa [List.take_add_one, next, Option.toList_none, List.append_nil]
      | some edit =>
        rw [afterEdits_succ debugger next]
        exact (nodup_edit ih edit).mpr (none count edit next)

/-- The breakpoints of a debugger are a set at all times just if no update repeats one of them. A
breakpoint is gone after its removal just if it was not in the list twice, which it never is as long
as no update repeats one. A breakpoint that is gone stops no run: what stops it is another one. -/
theorem breakpoints_isSet (machine : Machine) (edits : List BreakpointEdit) :
    ((∀ count, ((ofMachine machine).afterEdits (edits.take count)).breakpoints.Nodup) ↔
      (ofMachine machine).NeverRepeats edits) ∧
    ∀ breakpoint,
      let before := (ofMachine machine).afterEdits edits
      let after := before.removeBreakpoint breakpoint
      (breakpoint ∉ after.breakpoints ↔ before.breakpoints.count breakpoint ≤ 1) ∧
      ((ofMachine machine).NeverRepeats edits → breakpoint ∉ after.breakpoints) ∧
      (breakpoint ∉ after.breakpoints → ∀ fuel budget pc final,
        after.run fuel budget = some (.ok (.breakpoint pc), final) →
          (∃ other, final.StoppedBy other) ∧ ¬final.StoppedBy breakpoint) := by
  have sets := @nodup_afterEdits_iff (ofMachine machine) List.nodup_nil edits
  refine ⟨sets, fun breakpoint => ⟨notMem_removed_iff breakpoint, fun none => ?_, ?_⟩⟩
  · have distinct := sets.mpr none edits.length
    rw [List.take_length] at distinct
    exact (notMem_removed_iff breakpoint).mpr (List.nodup_iff_count.mp distinct breakpoint)
  · intro gone fuel budget pc final returned
    obtain ⟨_, same, stoppedBy⟩ := run_ended returned
    exact ⟨stoppedBy pc rfl, fun stopped => gone (same ▸ stopped.1)⟩

/-- An update that repeats a breakpoint leaves it in the list behind its removal. -/
theorem breakpoints_isSet_repeated :
    let first : Breakpoint := ⟨.pcMatch, some 4, none, none, true⟩
    let second : Breakpoint := ⟨.pcMatch, some 8, none, none, true⟩
    let debugger := (ofMachine (.ofMemory (.ofBytes .little #[0, 0, 0, 0]))).afterEdits
      [.add first, .add second, .update first second]
    debugger.breakpoints = [second, second] ∧
      second ∈ (debugger.removeBreakpoint second).breakpoints := by
  intro first second debugger
  have twice : debugger.breakpoints = [second, second] := by decide
  refine ⟨twice, ?_⟩
  obtain ⟨_, removed⟩ := breakpoints_isSet (.ofMemory (.ofBytes .little #[0, 0, 0, 0]))
    [.add first, .add second, .update first second]
  refine Classical.byContradiction fun gone => ?_
  exact absurd ((removed second).1.mp gone) (by decide)

end Debugger

end A64Machine
