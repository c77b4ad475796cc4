import A64Machine.Proofs.AssemblyErrors
import A64Machine.Proofs.AssemblyImage

/-!
# One instruction put in the place of another

A line with an instruction is laid out by its label alone: it keeps its address and reserves its four
bytes whether or not it can be encoded. So an instruction with the same label in its place leaves all
other lines where they are, with the same symbols and the same errors, and changes no byte but its
own. An instruction that fails writes nothing: its bytes are what the other lines make of them.
-/

namespace A64Machine

open Assembler Directive

/-- The line has an instruction, valid or not. -/
def SourceLine.IsInstruction (line : SourceLine) : Prop :=
  ∃ mnemonic, line.mnemonic = some mnemonic ∧ isDirective mnemonic = false

namespace Assembler

variable {size place : Nat} {endianness : Endianness} {known symbols : SymbolMap}
  {image other : Array UInt8} {writes : List ImageWrite} {line : SourceLine} {address behind : Nat}

/-! ### What an instruction does to the layout -/

/-- An instruction stays behind the lines before it. -/
theorem lineAddress_instruction (taken : line.IsInstruction) :
    lineAddress size known behind line = .ok behind := by
  obtain ⟨mnemonic, named, isInstruction⟩ := taken
  rw [lineAddress, named]
  simp [isLayout_of_instruction isInstruction, isInstruction]

/-- Instructions with one label are placed alike. -/
theorem exists_placeLine (size : Nat) (known : SymbolMap) (behind : Nat) (label : Option String) :
    ∃ error symbols, ∀ line : SourceLine, line.IsInstruction → line.label = label →
      placeLine size known behind (.ok line) =
        .ok (⟨.ok line, behind, error⟩, symbols, behind + Instruction.byteLength) := by
  have reserved {line : SourceLine} (taken : line.IsInstruction) :
      lineSize line = Instruction.byteLength := by
    obtain ⟨mnemonic, named, isInstruction⟩ := taken
    exact lineSize_instruction named isInstruction
  cases label with
  | none =>
    refine ⟨none, known, fun line taken labelled => ?_⟩
    have laid : layoutLine size known behind line = .ok (behind, known) := by
      rw [layoutLine, ok_bind (lineAddress_instruction taken), labelled]
      rfl
    rw [placeLine, laid, reserved taken]
  | some name =>
    cases isKnown : (known.lookup name).isSome with
    | true =>
      refine ⟨some ⟨.duplicateLabel name, ⟨0, name.length⟩⟩, known, fun line taken labelled => ?_⟩
      have laid : layoutLine size known behind line =
          .error (complain (.duplicateLabel name) ⟨0, name.length⟩) := by
        rw [layoutLine, ok_bind (lineAddress_instruction taken), labelled]
        exact if_pos isKnown
      rw [placeLine, laid, reserved taken]
      rfl
    | false =>
      refine ⟨none, known ++ [(name, (behind : Int))], fun line taken labelled => ?_⟩
      have laid : layoutLine size known behind line =
          .ok (behind, known ++ [(name, (behind : Int))]) := by
        rw [layoutLine, ok_bind (lineAddress_instruction taken), labelled]
        exact if_neg (by simp [isKnown])
      rw [placeLine, laid, reserved taken]

/-- In a source that is laid out, an instruction gives way to any other with its label: all other
lines are placed as before, and the symbols are the same. -/
theorem layout_replaced {before after : List (Except AssemblyError SourceLine)}
    {placed : List PlacedLine} (taken : line.IsInstruction)
    (laid : layout size known behind (before ++ .ok line :: after) = (.ok placed, symbols)) :
    ∃ known' address earlier later error,
      layoutFrom size known behind before = .ok (known', address) ∧
      earlier.length = before.length ∧
      ∀ line' : SourceLine, line'.IsInstruction → line'.label = line.label →
        layout size known behind (before ++ .ok line' :: after) =
          (.ok (earlier ++ ⟨.ok line', address, error⟩ :: later), symbols) := by
  induction before generalizing known behind placed with
  | nil =>
    obtain ⟨error, known', alike⟩ := exists_placeLine size known behind line.label
    rw [List.nil_append, layout_cons, alike line taken rfl] at laid
    obtain ⟨isOk, sameSymbols⟩ := Prod.mk.inj laid
    obtain ⟨later, laidLater, _⟩ := map_eq_ok.mp isOk
    refine ⟨known, behind, [], later, error, rfl, rfl, fun line' taken' labelled => ?_⟩
    rw [List.nil_append, layout_cons, alike line' taken' labelled]
    exact Prod.ext (map_eq_ok.mpr ⟨later, laidLater, rfl⟩) sameSymbols
  | cons first rest ih =>
    rw [List.cons_append, layout_cons] at laid
    split at laid
    · cases laid
    · rename_i entry known' behind' there
      obtain ⟨isOk, sameSymbols⟩ := Prod.mk.inj laid
      obtain ⟨others, laidOthers, _⟩ := map_eq_ok.mp isOk
      obtain ⟨known'', address, earlier, later, error, reached, count, alike⟩ :=
        ih (Prod.ext laidOthers sameSymbols)
      refine ⟨known'', address, entry :: earlier, later, error, ?_, congrArg (· + 1) count,
        fun line' taken' labelled => ?_⟩
      · rw [layoutFrom, ok_bind there]
        exact reached
      · rw [List.cons_append, layout_cons, there]
        simp only [alike line' taken' labelled]
        rfl

/-! ### What an instruction does to the image -/

/-- An instruction that fails writes nothing. -/
theorem writes_of_failed {failure : EncodeFailure} (taken : line.IsInstruction)
    (failed : (emitLine size symbols address line).failure = some failure) :
    (emitLine size symbols address line).writes = [] := by
  obtain ⟨mnemonic, named, isInstruction⟩ := taken
  have notData := elementWidth_of_instruction isInstruction
  have notLayout : ¬ isLayout mnemonic = true := by simp [isLayout_of_instruction isInstruction]
  unfold emitLine at failed ⊢
  simp only [named, if_neg notLayout, notData, isInstruction, Bool.false_eq_true, if_false]
    at failed ⊢
  split at failed
  · rfl
  · split at failed
    · contradiction
    · rfl

/-- An instruction writes within the bytes that it reserves. -/
theorem writes_instruction (taken : line.IsInstruction) :
    ∀ write ∈ (emitLine size symbols address line).writes,
      address ≤ write.address ∧ write.address + write.width ≤ address + Instruction.byteLength ∧
        write.address + write.width ≤ size := by
  cases clean : (emitLine size symbols address line).failure with
  | some failure =>
    rw [writes_of_failed taken clean]
    exact fun write absent => nomatch absent
  | none =>
    obtain ⟨mnemonic, named, isInstruction⟩ := taken
    rw [← lineSize_instruction named isInstruction]
    exact (emitLine_within clean).1

/-- Images that agree on a byte still agree on it after the same writes. -/
theorem getElem?_applyWrites_congr (sameSize : image.size = other.size)
    (same : image[place]? = other[place]?) :
    (writes.foldl (applyWrite endianness) image)[place]? =
      (writes.foldl (applyWrite endianness) other)[place]? := by
  induction writes generalizing image other with
  | nil => exact same
  | cons write rest ih =>
    rw [List.foldl_cons, List.foldl_cons]
    apply ih
    · rw [size_applyWrite, size_applyWrite, sameSize]
    · exact Memory.getElem?_overwrite_congr sameSize same

/-- The writes of placed lines. -/
def writesOfPlaced (size : Nat) (symbols : SymbolMap) (placed : List PlacedLine) :
    List ImageWrite :=
  placed.flatMap fun entry => (entry.emit size symbols).writes

/-- What one instruction among the lines writes is found in its own bytes only. -/
theorem getElem?_writesOfPlaced {earlier later : List PlacedLine} {error : Option AssemblyError}
    (taken : line.IsInstruction) (fits : image.size = size)
    (outside : place < address ∨ address + Instruction.byteLength ≤ place) :
    ((writesOfPlaced size symbols (earlier ++ ⟨.ok line, address, error⟩ :: later)).foldl
        (applyWrite endianness) image)[place]? =
      ((writesOfPlaced size symbols (earlier ++ later)).foldl
        (applyWrite endianness) image)[place]? := by
  have own := @writes_instruction size symbols line address taken
  unfold writesOfPlaced
  rw [List.flatMap_append, List.flatMap_cons, List.flatMap_append, List.foldl_append,
    List.foldl_append, List.foldl_append]
  apply getElem?_applyWrites_congr size_applyWrites
  apply getElem?_applyWrites
  · intro write inside
    rw [size_applyWrites, fits]
    exact (own write inside).2.2
  · intro write inside covers
    obtain ⟨above, below, _⟩ := own write inside
    unfold ImageWrite.Covers at covers
    omega

/-- The image that all lines of a source but one write. -/
def imageBesides (assembler : Assembler) (lines : List String) (index : Nat) : Array UInt8 :=
  let blank := Array.replicate assembler.size 0
  match layout assembler.size [] 0 (lines.map SourceLine.parse) with
  | (.error _, _) => blank
  | (.ok placed, symbols) =>
    (writesOfPlaced assembler.size symbols (placed.eraseIdx index)).foldl
      (applyWrite assembler.endianness) blank

/-! ### What an instruction does to the errors -/

/-- The errors of all lines but the one of a number. -/
def errorsBesides (number : Nat) (errors : LineErrors) : LineErrors :=
  errors.filter fun entry => entry.1 ≠ number

/-- The errors of the other lines come before or behind those of a line. -/
theorem errorsBesides_numbered (number : Nat) (earlier later : List (List AssemblyError))
    (own : List AssemblyError) :
    errorsBesides (number + earlier.length) (numbered number (earlier ++ own :: later)) =
      numbered number earlier ++ numbered (number + earlier.length + 1) later := by
  have split : numbered number (earlier ++ own :: later) =
      numbered number earlier ++ own.map (fun error => (number + earlier.length, error)) ++
        numbered (number + earlier.length + 1) later := by
    simp only [numbered, List.zipIdx_append, List.zipIdx_cons, List.flatMap_append,
      List.flatMap_cons, List.append_assoc]
  rw [split, errorsBesides, List.filter_append, List.filter_append]
  congr 1
  · rw [List.filter_eq_self.mpr, List.filter_eq_nil_iff.mpr, List.append_nil]
    · intro entry inside
      obtain ⟨error, _, rfl⟩ := List.mem_map.mp inside
      simp
    · intro entry inside
      have below := (bounds_numbered entry inside).2
      simp only [decide_eq_true_eq]
      omega
  · rw [List.filter_eq_self]
    intro entry inside
    have above := (bounds_numbered entry inside).1
    simp only [decide_eq_true_eq]
    omega

/-! ### What an instruction does to an assembly -/

variable {assembler final final' : Assembler} {lines before after : List String}
  {errors errors' : LineErrors}

/-- An assembly that returns lays out its lines and emits them. -/
theorem assemble_eq_ok (returned : assembler.assemble lines = (.ok errors, final)) :
    ∃ placed, layout assembler.size [] 0 (lines.map SourceLine.parse) =
        (.ok placed, final.symbols) ∧
      emitLines assembler.size assembler.endianness final.symbols
        (Array.replicate assembler.size 0) 1 placed = (.ok errors, final.image) := by
  unfold assemble at returned
  simp only at returned
  split at returned
  · cases returned
  · rename_i placed symbols laid
    obtain ⟨emitted, rfl⟩ := Prod.mk.inj returned
    exact ⟨placed, laid, Prod.ext emitted rfl⟩

/-- Another instruction in the place of one, with the same label, changes no symbol, no error of
another line and no byte but the four at its address. An instruction that fails is reported, and the
image is what the other lines write. -/
theorem assemble_replaced {text text' : String} {line line' : SourceLine}
    (isLine : SourceLine.parse text = .ok line) (isLine' : SourceLine.parse text' = .ok line')
    (taken : line.IsInstruction) (taken' : line'.IsInstruction)
    (sameLabel : line'.label = line.label)
    (returned : assembler.assemble (before ++ text :: after) = (.ok errors, final))
    (returned' : assembler.assemble (before ++ text' :: after) = (.ok errors', final')) :
    ∃ known address,
      layoutFrom assembler.size [] 0 (before.map SourceLine.parse) = .ok (known, address) ∧
      final'.symbols = final.symbols ∧
      errorsBesides (before.length + 1) errors' = errorsBesides (before.length + 1) errors ∧
      (∀ place, place < address ∨ address + Instruction.byteLength ≤ place →
        final'.image[place]? = final.image[place]?) ∧
      assembler.imageBesides (before ++ text' :: after) before.length =
        assembler.imageBesides (before ++ text :: after) before.length ∧
      ∀ failure, (emitLine assembler.size final'.symbols address line').failure = some failure →
        (∃ error, failure = .refused (.assembly error) ∧ (before.length + 1, error) ∈ errors') ∧
          final'.image = assembler.imageBesides (before ++ text' :: after) before.length := by
  obtain ⟨placed, laid, emitted⟩ := assemble_eq_ok returned
  obtain ⟨placed', laid', emitted'⟩ := assemble_eq_ok returned'
  rw [List.map_append, List.map_cons, isLine] at laid
  rw [List.map_append, List.map_cons, isLine'] at laid'
  obtain ⟨known, address, earlier, later, error, reached, count, alike⟩ :=
    layout_replaced taken laid
  rw [List.length_map] at count
  obtain ⟨samePlaced, _⟩ := Prod.mk.inj (laid.symm.trans (alike line taken rfl))
  obtain ⟨samePlaced', sameSymbols⟩ := Prod.mk.inj (laid'.symm.trans (alike line' taken' sameLabel))
  obtain rfl := Except.ok.inj samePlaced
  obtain rfl := Except.ok.inj samePlaced'
  rw [sameSymbols] at emitted' laid'
  obtain ⟨_, isErrors, isImage⟩ := emitLines_eq_ok emitted
  obtain ⟨complaints, isErrors', isImage'⟩ := emitLines_eq_ok emitted'
  have besides {text : String} {line : SourceLine} (isLine : SourceLine.parse text = .ok line)
      (laid : layout assembler.size [] 0
          (before.map SourceLine.parse ++ .ok line :: after.map SourceLine.parse) =
        (.ok (earlier ++ ⟨.ok line, address, error⟩ :: later), final.symbols)) :
      assembler.imageBesides (before ++ text :: after) before.length =
        (writesOfPlaced assembler.size final.symbols (earlier ++ later)).foldl
          (applyWrite assembler.endianness) (Array.replicate assembler.size 0) := by
    rw [imageBesides, List.map_append, List.map_cons, isLine, laid, ← count]
    simp only [List.eraseIdx_append_of_length_le (Nat.le_refl _), Nat.sub_self,
      List.eraseIdx_cons_zero]
  refine ⟨known, address, reached, sameSymbols, ?_, fun place outside => ?_,
    (besides isLine' laid').trans (besides isLine laid).symm, fun failure failed => ⟨?_, ?_⟩⟩
  · have others (own : PlacedLine) :=
      errorsBesides_numbered 1 (earlier.map (PlacedLine.faults assembler.size final.symbols))
        (later.map (PlacedLine.faults assembler.size final.symbols))
        (own.faults assembler.size final.symbols)
    rw [isErrors, isErrors', List.map_append, List.map_cons, List.map_append, List.map_cons]
    simp only [List.length_map, count, Nat.add_comm 1] at others
    rw [others, others]
  · rw [isImage, isImage']
    have blank : (Array.replicate assembler.size (0 : UInt8)).size = assembler.size :=
      Array.size_replicate
    exact (getElem?_writesOfPlaced taken' blank outside).trans
      (getElem?_writesOfPlaced taken blank outside).symm
  · rw [sameSymbols] at failed
    have among : (⟨.ok line', address, error⟩ : PlacedLine) ∈
        earlier ++ ⟨.ok line', address, error⟩ :: later :=
      List.mem_append_right _ List.mem_cons_self
    obtain ⟨reported, rfl⟩ := complaints _ among failure failed
    refine ⟨reported, rfl, ?_⟩
    have there : (earlier ++ ⟨.ok line', address, error⟩ :: later : List PlacedLine)[
        earlier.length]? = some ⟨.ok line', address, error⟩ := by
      rw [List.getElem?_append_right (Nat.le_refl _), Nat.sub_self, List.getElem?_cons_zero]
    rw [isErrors', Nat.add_comm, ← count]
    exact (mem_numbered_faults 1 there).mpr (PlacedLine.mem_faults.mpr (.inr failed))
  · rw [sameSymbols] at failed
    have nothing : (PlacedLine.emit assembler.size final.symbols
        ⟨.ok line', address, error⟩).writes = [] := writes_of_failed taken' failed
    rw [besides isLine' laid', isImage', writesOfPlaced, List.flatMap_append, List.flatMap_cons,
      nothing, List.nil_append, List.flatMap_append]

/-- An unknown instruction in the place of a labelled one spoils neither the reference to its label
nor the lines behind it, and writes nothing. -/
theorem assemble_replaced_unknownMnemonic :
    ∃ errors final final',
      (⟨12, .little, #[], []⟩ : Assembler).assemble [".word a", "a: nop", ".word . - a"] =
          (.ok [], final) ∧
        (⟨12, .little, #[], []⟩ : Assembler).assemble [".word a", "a: frob x0", ".word . - a"] =
          (.ok errors, final') ∧
        final'.symbols = final.symbols ∧ errorsBesides 2 errors = [] ∧
        (∀ place, place < 4 ∨ 8 ≤ place → final'.image[place]? = final.image[place]?) ∧
        final'.image = (⟨12, .little, #[], []⟩ : Assembler).imageBesides
          [".word a", "a: frob x0", ".word . - a"] 1 := by
  let assembler : Assembler := ⟨12, .little, #[], []⟩
  let complaint : AssemblyError := ⟨.unknownMnemonic "frob", ⟨8, 10⟩⟩
  let line' : SourceLine := ⟨some "a", some "frob", "x0", 8⟩
  -- One evaluation for all three, for each would build the opcode table anew.
  obtain ⟨evaluated, evaluated', failed⟩ :
      (assembler.assemble [".word a", "a: nop", ".word . - a"]).1.toOption = some [] ∧
      ((assembler.assemble [".word a", "a: frob x0", ".word . - a"]).1.toOption,
        (assembler.assemble [".word a", "a: frob x0", ".word . - a"]).2.symbols) =
          (some [(2, complaint)], [("a", 4)]) ∧
      (emitLine 12 [("a", 4)] 4 line').failure = some (.refused (.assembly complaint)) := by
    decide +kernel
  rcases returned : assembler.assemble [".word a", "a: nop", ".word . - a"] with ⟨outcome, final⟩
  rcases returned' : assembler.assemble [".word a", "a: frob x0", ".word . - a"] with
    ⟨outcome', final'⟩
  rw [returned] at evaluated
  rw [returned'] at evaluated'
  obtain ⟨evaluated', known'⟩ := Prod.mk.inj evaluated'
  obtain rfl := toOption_eq_some.mp evaluated
  obtain rfl := toOption_eq_some.mp evaluated'
  have isLine : SourceLine.parse "a: nop" = .ok ⟨some "a", some "nop", "", 6⟩ :=
    toOption_eq_some.mp (by decide +kernel)
  have isLine' : SourceLine.parse "a: frob x0" = .ok line' :=
    toOption_eq_some.mp (by decide +kernel)
  obtain ⟨known, address, reached, symbols, others, outside, _, fails⟩ :=
    @assemble_replaced assembler final final' [".word a"] [".word . - a"] _ _ _ _ _ _ isLine isLine'
      ⟨"nop", rfl, rfl⟩ ⟨"frob", rfl, rfl⟩ rfl returned returned'
  have four : (layoutFrom 12 [] 0 ([".word a"].map SourceLine.parse)).toOption = some ([], 4) := by
    decide +kernel
  rw [reached] at four
  obtain ⟨rfl, rfl⟩ := Prod.mk.inj (Option.some.inj four)
  rw [known'] at fails
  exact ⟨_, final, final', rfl, rfl, symbols, others, outside, (fails _ failed).2⟩

end Assembler

end A64Machine
