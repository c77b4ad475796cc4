import A64Machine.Assembler
import A64Machine.Proofs.Memory
import A64Machine.Proofs.Outcome

/-!
# What the second pass reports

The second pass emits the placed lines one after the other and numbers their errors. Where it comes to
its end, the errors are those of the lines, and the image is what all lines have written. It comes to
no end only for a failure of a line that is no complaint about it.
-/

namespace A64Machine

namespace Assembler

variable {size number : Nat} {endianness : Endianness} {symbols : SymbolMap} {image : Array UInt8}
  {writes : List ImageWrite} {write : ImageWrite} {placed : List PlacedLine}

theorem size_applyWrite : (applyWrite endianness image write).size = image.size :=
  Memory.size_overwrite ..

theorem size_applyWrites : (writes.foldl (applyWrite endianness) image).size = image.size := by
  induction writes generalizing image with
  | nil => rfl
  | cons write rest ih => rw [List.foldl_cons, ih, size_applyWrite]

/-! ### The errors of a line -/

/-- The errors of a placed line, given what it emits: those of its layout come first. -/
def PlacedLine.errors (placed : PlacedLine) (number : Nat) (emission : Emission) :
    Except EncodeFailure LineErrors :=
  match emission.failure with
  | none => .ok (placed.error.toList.map fun error => (number, error))
  | some (.refused (.assembly error)) =>
    .ok ((placed.error.toList ++ [error]).map fun error => (number, error))
  | some failure => .error failure

/-- The errors of a placed line: that of its layout, and that of its emission. -/
def PlacedLine.faults (size : Nat) (symbols : SymbolMap) (placed : PlacedLine) :
    List AssemblyError :=
  placed.error.toList ++
    match (placed.emit size symbols).failure with
    | some (.refused (.assembly error)) => [error]
    | _ => []

/-- The errors of a placed line are those of its layout and of its emission. -/
theorem PlacedLine.mem_faults {entry : PlacedLine} {error : AssemblyError} :
    error ∈ entry.faults size symbols ↔
      entry.error = some error ∨
        (entry.emit size symbols).failure = some (.refused (.assembly error)) := by
  unfold faults
  rcases (entry.emit size symbols).failure with _ | (_ | _) | _ <;> simp [eq_comm]

/-- A placed line has its own errors unless its emission fails for something else. -/
theorem PlacedLine.errors_eq_ok {entry : PlacedLine} {own : LineErrors} :
    entry.errors number (entry.emit size symbols) = .ok own ↔
      (∀ failure, (entry.emit size symbols).failure = some failure →
        ∃ error, failure = .refused (.assembly error)) ∧
      own = (entry.faults size symbols).map fun error => (number, error) := by
  unfold errors faults
  rcases (entry.emit size symbols).failure with _ | (error | bad) | defect <;> simp [eq_comm]

/-- A placed line ends the work only for a failure of its emission that is no complaint. -/
theorem PlacedLine.failure_of_errors {entry : PlacedLine} {failure : EncodeFailure}
    (ended : entry.errors number (entry.emit size symbols) = .error failure) :
    (entry.emit size symbols).failure = some failure ∧
      ∀ error, failure ≠ .refused (.assembly error) := by
  unfold errors at ended
  split at ended
  · cases ended
  · cases ended
  · rename_i failed noComplaint isFailure
    obtain rfl := Except.error.inj ended
    exact ⟨isFailure, noComplaint⟩

/-- A placed line without errors was laid out and emitted, unless its emission failed for something
else. -/
theorem PlacedLine.clean_of_faults {entry : PlacedLine}
    (complaint : ∀ failure, (entry.emit size symbols).failure = some failure →
      ∃ error, failure = .refused (.assembly error))
    (noFault : ∀ error, error ∉ entry.faults size symbols) :
    entry.error = none ∧ (entry.emit size symbols).failure = none := by
  constructor
  · cases isError : entry.error with
    | none => rfl
    | some error => exact absurd (mem_faults.mpr (.inl isError)) (noFault error)
  · cases failed : (entry.emit size symbols).failure with
    | none => rfl
    | some failure =>
      obtain ⟨error, rfl⟩ := complaint failure failed
      exact absurd (mem_faults.mpr (.inr failed)) (noFault error)

/-! ### Numbered errors -/

/-- Errors of lines with the numbers of the lines, of which the first is given. -/
def numbered (number : Nat) (faults : List (List AssemblyError)) : LineErrors :=
  (faults.zipIdx number).flatMap fun entry => entry.1.map fun error => (entry.2, error)

/-- An error has the number of its line. -/
theorem mem_numbered {faults : List (List AssemblyError)} {index : Nat} {error : AssemblyError} :
    (number + index, error) ∈ numbered number faults ↔
      ∃ own, faults[index]? = some own ∧ error ∈ own := by
  unfold numbered
  simp only [List.mem_flatMap, List.mem_map, Prod.mk.injEq, Prod.exists,
    List.mk_mem_zipIdx_iff_le_and_getElem?_sub]
  constructor
  · rintro ⟨own, _, ⟨_, found⟩, _, inside, rfl, rfl⟩
    rw [Nat.add_sub_cancel_left] at found
    exact ⟨own, found, inside⟩
  · rintro ⟨own, found, inside⟩
    refine ⟨own, number + index, ⟨Nat.le_add_right _ _, ?_⟩, error, inside, rfl, rfl⟩
    rwa [Nat.add_sub_cancel_left]

/-- The errors of a placed line have its number. -/
theorem mem_numbered_faults (number : Nat) {index : Nat} {entry : PlacedLine}
    {error : AssemblyError} (there : placed[index]? = some entry) :
    (number + index, error) ∈ numbered number (placed.map (PlacedLine.faults size symbols)) ↔
      error ∈ entry.faults size symbols := by
  rw [mem_numbered, List.getElem?_map, there]
  simp

/-- The numbers are those of the lines. -/
theorem bounds_numbered {faults : List (List AssemblyError)} :
    ∀ entry ∈ numbered number faults, number ≤ entry.1 ∧ entry.1 < number + faults.length := by
  intro entry inside
  obtain ⟨⟨own, index⟩, among, inside⟩ := List.mem_flatMap.mp inside
  obtain ⟨error, _, rfl⟩ := List.mem_map.mp inside
  obtain ⟨above, found⟩ := List.mk_mem_zipIdx_iff_le_and_getElem?_sub.mp among
  have below := (List.getElem?_eq_some_iff.mp found).1
  simp only
  omega

/-- The numbers are in the order of the lines. -/
theorem pairwise_numbered {faults : List (List AssemblyError)} :
    (numbered number faults).Pairwise fun first second => first.1 ≤ second.1 := by
  apply List.pairwise_flatMap.mpr
  constructor
  · intro entry _
    apply List.pairwise_map.mpr
    exact List.pairwise_of_forall fun _ _ => Nat.le_refl _
  · have rising : ((faults.zipIdx number).map Prod.snd).Pairwise (· < ·) := by
      rw [List.zipIdx_map_snd]
      exact List.pairwise_lt_range'
    refine (List.pairwise_map.mp rising).imp ?_
    intro first second below x inside y inside'
    obtain ⟨_, _, rfl⟩ := List.mem_map.mp inside
    obtain ⟨_, _, rfl⟩ := List.mem_map.mp inside'
    exact Nat.le_of_lt below

/-! ### The errors of all lines -/

/-- The lines are emitted one after the other. -/
theorem emitLines_cons (size : Nat) (endianness : Endianness) (symbols : SymbolMap)
    (image : Array UInt8) (number : Nat) (placed : PlacedLine) (rest : List PlacedLine) :
    emitLines size endianness symbols image number (placed :: rest) =
      match placed.errors number (placed.emit size symbols) with
      | .error failure =>
        (.error failure, (placed.emit size symbols).writes.foldl (applyWrite endianness) image)
      | .ok own =>
        let later := emitLines size endianness symbols
          ((placed.emit size symbols).writes.foldl (applyWrite endianness) image) (number + 1) rest
        (later.1.map (own ++ ·), later.2) :=
  rfl

/-- The emission keeps the size of the image. -/
theorem size_emitLines :
    (emitLines size endianness symbols image number placed).2.size = image.size := by
  induction placed generalizing image number with
  | nil => rfl
  | cons entry rest ih =>
    rw [emitLines_cons]
    split
    · exact size_applyWrites
    · exact ih.trans size_applyWrites

/-- Where all lines are emitted, their errors are numbered, and they write the image one after the
other. -/
theorem emitLines_eq_ok {errors : LineErrors} {final : Array UInt8}
    (emitted : emitLines size endianness symbols image number placed = (.ok errors, final)) :
    (∀ entry ∈ placed, ∀ failure, (entry.emit size symbols).failure = some failure →
      ∃ error, failure = .refused (.assembly error)) ∧
      errors = numbered number (placed.map (PlacedLine.faults size symbols)) ∧
      final = (placed.flatMap fun entry => (entry.emit size symbols).writes).foldl
        (applyWrite endianness) image := by
  induction placed generalizing image number errors with
  | nil =>
    obtain ⟨noErrors, rfl⟩ := Prod.mk.inj emitted
    exact ⟨fun entry absent => by contradiction, (Except.ok.inj noErrors).symm, rfl⟩
  | cons entry rest ih =>
    rw [emitLines_cons] at emitted
    split at emitted
    · cases emitted
    · rename_i own isOwn
      obtain ⟨complaint, rfl⟩ := PlacedLine.errors_eq_ok.mp isOwn
      obtain ⟨isOk, rfl⟩ := Prod.mk.inj emitted
      obtain ⟨later, emittedLater, rfl⟩ := map_eq_ok.mp isOk
      obtain ⟨complaints, rfl, written⟩ := ih (Prod.ext emittedLater rfl)
      refine ⟨List.forall_mem_cons.mpr ⟨complaint, complaints⟩, rfl, ?_⟩
      rw [List.flatMap_cons, List.foldl_append]
      exact written

/-- Where a failure ends the emission, it is that of a line, and no complaint. -/
theorem failed_of_emitLines {failure : EncodeFailure}
    (ended : (emitLines size endianness symbols image number placed).1 = .error failure) :
    ∃ entry ∈ placed, (entry.emit size symbols).failure = some failure ∧
      ∀ error, failure ≠ .refused (.assembly error) := by
  induction placed generalizing image number with
  | nil => cases ended
  | cons entry rest ih =>
    rw [emitLines_cons] at ended
    split at ended
    · rename_i other isOther
      obtain rfl := Except.error.inj ended
      exact ⟨entry, List.mem_cons_self, PlacedLine.failure_of_errors isOther⟩
    · have ended := ih (map_eq_error.mp ended)
      exact ended.imp fun _ among => among.imp_left (List.mem_cons_of_mem _)

/-- Where lines are emitted without errors, none of them has any. -/
theorem emitLines_clean {final : Array UInt8}
    (clean : emitLines size endianness symbols image number placed = (.ok [], final)) :
    (∀ entry ∈ placed, entry.error = none ∧ (entry.emit size symbols).failure = none) ∧
      final = (placed.flatMap fun entry => (entry.emit size symbols).writes).foldl
        (applyWrite endianness) image := by
  obtain ⟨complaints, noErrors, written⟩ := emitLines_eq_ok clean
  refine ⟨fun entry inside => ?_, written⟩
  refine PlacedLine.clean_of_faults (complaints entry inside) fun error own => ?_
  obtain ⟨index, there⟩ := List.mem_iff_getElem?.mp inside
  have reported := (mem_numbered_faults number there).mpr own
  rw [← noErrors] at reported
  contradiction

/-- Lines without errors are emitted without errors, and write the image one after the other. -/
theorem emitLines_of_clean
    (clean : ∀ entry ∈ placed, entry.error = none ∧ (entry.emit size symbols).failure = none) :
    emitLines size endianness symbols image number placed =
      (.ok [], (placed.flatMap fun entry => (entry.emit size symbols).writes).foldl
        (applyWrite endianness) image) := by
  induction placed generalizing image number with
  | nil => rfl
  | cons entry rest ih =>
    obtain ⟨⟨noError, noFailure⟩, later⟩ := List.forall_mem_cons.mp clean
    have noErrors : entry.errors number (entry.emit size symbols) = .ok [] := by
      rw [PlacedLine.errors, noFailure, noError]
      rfl
    rw [emitLines_cons, noErrors, List.flatMap_cons, List.foldl_append]
    simp only [ih later]
    rfl

end Assembler

end A64Machine
