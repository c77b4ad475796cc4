import A64Machine.Proofs.AssemblyErrors
import A64Machine.Proofs.AssemblyImage

/-!
# What a data directive stores

The layout reserves an element for each group of the operand text of a data directive, and the
emission stores a value for each operand that the groups are read as. The two agree unless a group
is a left shift. Such a group belongs to the immediate before it, whose value it does not change, so
a directive with left shifts stores fewer values than were reserved.
-/

namespace A64Machine

namespace Operand

/-- Whether a group is a left shift, which belongs to the operand before it. -/
def isLeftShift : List Token → Bool
  | [] => false
  | first :: _ => Modifier.ofName? (keyword first) == some .lsl

/-- The groups that are values of their own. -/
def valueGroups (groups : List (List Token)) : List (List Token) :=
  groups.filter fun group => !isLeftShift group

/-- The expression of an immediate. -/
def value? : Operand → Option Expression
  | .immediate operand => some operand.value
  | _ => none

variable {readInner : List (List Token) → Except AssemblyError (List Operand)}
  {read after : List Operand} {group : List Token} {groups : List (List Token)}

/-- Only an immediate is modified to an immediate, by a left shift, and keeps its value. -/
theorem value?_modify {modifier : Modifier} {amount : Option Expression} {stop : Int}
    {latest changed : Operand} (done : modify? modifier amount stop latest = some changed)
    (isValue : changed.value?.isSome) : modifier = .lsl ∧ changed.value? = latest.value? := by
  cases latest with
  | register operand =>
    rw [modify?] at done
    split at done
    · contradiction
    · obtain rfl := Option.some.inj done
      contradiction
  | immediate operand =>
    rw [modify?] at done
    split at done
    · contradiction
    · rename_i allowed
      obtain rfl := Option.some.inj done
      exact ⟨by simpa using (not_or.mp allowed).2, rfl⟩
  | address operand => contradiction

/-- A group that is read among immediates is a value of its own or a left shift. -/
theorem Takes.values (takes : Takes readInner read group after)
    (plain : ∀ operand ∈ after, operand.value?.isSome) :
    (∀ operand ∈ read, operand.value?.isSome) ∧
      after.map value? =
        ((valueGroups [group]).map fun group => expression? (dropNumberSign group)).reverse ++
          read.map value? := by
  cases takes with
  | register => exact absurd (plain _ List.mem_cons_self) Bool.false_ne_true
  | address => exact absurd (plain _ List.mem_cons_self) Bool.false_ne_true
  | postIndexed => exact absurd (plain _ List.mem_cons_self) Bool.false_ne_true
  | modified isModifier done =>
    obtain ⟨here, others⟩ := List.forall_mem_cons.mp plain
    obtain ⟨rfl, same⟩ := value?_modify done here
    refine ⟨List.forall_mem_cons.mpr ⟨same ▸ here, others⟩, ?_⟩
    simp [valueGroups, isLeftShift, isModifier, same]
  | immediate begins made =>
    refine ⟨(List.forall_mem_cons.mp plain).2, ?_⟩
    simp [valueGroups, isLeftShift, begins.noModifier, value?, made]

/-- Groups that are read as immediates are values of their own and left shifts. -/
theorem values_of_readGroups {depth : Nat} (done : groups.foldlM (readGroup depth) read = .ok after)
    (plain : ∀ operand ∈ after, operand.value?.isSome) :
    (∀ operand ∈ read, operand.value?.isSome) ∧
      after.map value? =
        ((valueGroups groups).map fun group => expression? (dropNumberSign group)).reverse ++
          read.map value? := by
  induction groups generalizing read with
  | nil =>
    obtain rfl := Except.ok.inj done
    exact ⟨plain, rfl⟩
  | cons group groups ih =>
    rw [List.foldlM_cons] at done
    obtain ⟨middle, here, later⟩ := bind_eq_ok.mp done
    obtain ⟨plainMiddle, values⟩ := ih later
    have takes : ∃ readInner, Takes readInner read group middle := by
      cases depth <;> exact ⟨_, readGroupWith_eq_ok.mp here⟩
    obtain ⟨readInner, takes⟩ := takes
    obtain ⟨plainRead, value⟩ := takes.values plainMiddle
    refine ⟨plainRead, ?_⟩
    have split : valueGroups (group :: groups) = valueGroups [group] ++ valueGroups groups :=
      List.filter_append [group] groups
    rw [values, value, split, List.map_append, List.reverse_append, List.append_assoc]

/-- The operands of groups that are all immediates are those of the groups with values. -/
theorem values_of_ofGroups {operands : List Operand} (done : ofGroups groups = .ok operands)
    (plain : ∀ operand ∈ operands, operand.value?.isSome) :
    operands.map value? =
      (valueGroups groups).map fun group => expression? (dropNumberSign group) := by
  obtain ⟨reversed, read, rfl⟩ := map_eq_ok.mp done
  have values := (values_of_readGroups read fun operand among =>
    plain operand (List.mem_reverse.mpr among)).2
  rw [List.map_reverse, values, List.map_nil, List.append_nil, List.reverse_reverse]

end Operand

namespace Assembler

open Directive

/-- Writes store values at an address and behind it: those of the expressions of some groups, each
with the address at which it is stored. -/
structure Stores (size : Nat) (symbols : SymbolMap) (width address : Nat)
    (groups : List (List Token)) (writes : List ImageWrite) : Prop where
  count : writes.length = groups.length
  each : ∀ index group, groups[index]? = some group → ∃ expression value,
    Operand.expression? (Operand.dropNumberSign group) = some expression ∧
      expression.evaluate (valuesOf symbols) (address + index * width : Nat) = .ok value ∧
      writes[index]? = some ⟨address + index * width, width, Bits.wrap (8 * width) value⟩ ∧
      address + index * width + width ≤ size

variable {size address : Nat} {symbols known : SymbolMap} {line : SourceLine}

/-- A data directive that fails nowhere stores the values of its groups. -/
theorem stores_of_emitLine {mnemonic : String} {width : Nat}
    (named : line.mnemonic = some mnemonic) (isData : elementWidth? mnemonic = some width)
    (clean : (emitLine size symbols address line).failure = none) :
    ∃ groups, Token.groups line.operands line.column = .ok groups ∧
      lineSize line = groups.length * width ∧
      Stores size symbols width address (Operand.valueGroups groups)
        (emitLine size symbols address line).writes := by
  obtain ⟨operands, parsed, same⟩ := emitLine_data named isData clean
  rw [same] at clean ⊢
  obtain ⟨groups, grouped, read⟩ := bind_eq_ok.mp parsed
  obtain ⟨count, each⟩ := dataValues_clean clean
  have plain : ∀ operand ∈ operands, operand.value?.isSome := by
    intro operand among
    obtain ⟨index, there⟩ := List.mem_iff_getElem?.mp among
    obtain ⟨given, _, rfl, _⟩ := each index operand there
    rfl
  have values := Operand.values_of_ofGroups read plain
  have counted := congrArg List.length values
  rw [List.length_map, List.length_map] at counted
  refine ⟨groups, grouped, ?_, count.trans counted, fun index group there => ?_⟩
  · rw [lineSize, named]
    simp only [isData, grouped]
  · have here := congrArg (fun list => list[index]?) values
    simp only [List.getElem?_map, there, Option.map_some] at here
    obtain ⟨operand, found, isValue⟩ := Option.map_eq_some_iff.mp here
    obtain ⟨given, value, rfl, valued, written, within⟩ := each index operand found
    exact ⟨given.value, value, isValue.symm, valued, written, within⟩

/-- A line without an error was read, laid out and emitted. -/
theorem placed_of_accepted {assembler final : Assembler} {lines : List String} {errors : LineErrors}
    {index : Nat} {text : String}
    (assembled : assembler.assemble lines = (.ok errors, final)) (found : lines[index]? = some text)
    (accepted : ∀ error, (index + 1, error) ∉ errors) :
    ∃ placed line address,
      layout assembler.size [] 0 (lines.map SourceLine.parse) = (.ok placed, final.symbols) ∧
        final.image = (placed.flatMap fun entry =>
          (entry.emit assembler.size final.symbols).writes).foldl
            (applyWrite assembler.endianness) (Array.replicate assembler.size 0) ∧
        SourceLine.parse text = .ok line ∧ placed[index]? = some ⟨.ok line, address, none⟩ ∧
        (emitLine assembler.size final.symbols address line).failure = none := by
  unfold assemble at assembled
  simp only at assembled
  split at assembled
  · cases assembled
  rename_i placed symbols laid
  obtain ⟨emitted, rfl⟩ := Prod.mk.inj assembled
  obtain ⟨complaints, rfl, image⟩ := emitLines_eq_ok (Prod.ext emitted rfl)
  have parsed : (lines.map SourceLine.parse)[index]? = some (SourceLine.parse text) := by
    rw [List.getElem?_map, found]
    rfl
  obtain ⟨_, _, entry, _, _, there, placedThere⟩ :=
    (placed_of_layout (congrArg Prod.fst laid)).2 index _ parsed
  have noFault (error : AssemblyError) : error ∉ entry.faults assembler.size symbols := by
    intro own
    rw [← mem_numbered_faults 1 there, Nat.add_comm] at own
    exact accepted error own
  obtain ⟨noError, noFailure⟩ :=
    PlacedLine.clean_of_faults (complaints entry (List.mem_of_getElem? there)) noFault
  obtain ⟨line, address, isLine, _, rfl, _⟩ := placeLine_clean placedThere noError
  exact ⟨placed, line, address, laid, image, isLine, there, noFailure⟩

/-- A data directive without an error stores, of the elements that are reserved for it, the values
of all its groups but the left shifts. So it fills them just when none of its groups is a left
shift. -/
theorem data_directive_stores {assembler final : Assembler} {lines : List String}
    {errors : LineErrors} {index : Nat} {text mnemonic : String} {line : SourceLine} {width : Nat}
    (assembled : assembler.assemble lines = (.ok errors, final)) (found : lines[index]? = some text)
    (read : SourceLine.parse text = .ok line) (named : line.mnemonic = some mnemonic)
    (isData : elementWidth? mnemonic = some width)
    (accepted : ∀ error, (index + 1, error) ∉ errors) :
    ∃ placed groups address,
      layout assembler.size [] 0 (lines.map SourceLine.parse) = (.ok placed, final.symbols) ∧
        final.image = (placed.flatMap fun entry =>
          (entry.emit assembler.size final.symbols).writes).foldl
            (applyWrite assembler.endianness) (Array.replicate assembler.size 0) ∧
        placed[index]? = some ⟨.ok line, address, none⟩ ∧
        Token.groups line.operands line.column = .ok groups ∧
        lineSize line = groups.length * width ∧
        Stores assembler.size final.symbols width address (Operand.valueGroups groups)
          (emitLine assembler.size final.symbols address line).writes ∧
        (Stores assembler.size final.symbols width address groups
            (emitLine assembler.size final.symbols address line).writes ↔
          ∀ group ∈ groups, Operand.isLeftShift group = false) := by
  obtain ⟨placed, line', address, laid, image, isLine, there, clean⟩ :=
    placed_of_accepted assembled found accepted
  obtain rfl := Except.ok.inj (isLine.symm.trans read)
  obtain ⟨groups, grouped, reserved, stores⟩ := stores_of_emitLine named isData clean
  refine ⟨placed, groups, address, laid, image, there, grouped, reserved, stores, ?_, ?_⟩
  · intro fills
    have count := stores.count.symm.trans fills.count
    rw [Operand.valueGroups, List.length_filter_eq_length_iff] at count
    simpa using count
  · intro noShift
    have all : Operand.valueGroups groups = groups :=
      List.filter_eq_self.mpr fun group among => by rw [noShift group among]; rfl
    exact all ▸ stores

/-- A left shift behind a value takes room for another one and stores nothing. -/
theorem data_directive_stores_leftShift :
    ∃ final line groups address,
      (Assembler.mk 8 .little #[] []).assemble [".word 1, lsl #2"] = (.ok [], final) ∧
        SourceLine.parse ".word 1, lsl #2" = .ok line ∧
        Token.groups line.operands line.column = .ok groups ∧ groups.length = 2 ∧
        lineSize line = 2 * 4 ∧ (emitLine 8 final.symbols address line).writes.length = 1 := by
  let line : SourceLine := ⟨none, some ".word", "1, lsl #2", 6⟩
  have evaluated : ((Assembler.mk 8 .little #[] []).assemble [".word 1, lsl #2"]).1.toOption =
      some [] := by
    decide +kernel
  rcases assembled : (Assembler.mk 8 .little #[] []).assemble [".word 1, lsl #2"] with
    ⟨outcome, final⟩
  rw [assembled] at evaluated
  obtain rfl := toOption_eq_some.mp evaluated
  have read : SourceLine.parse ".word 1, lsl #2" = .ok line :=
    toOption_eq_some.mp (by decide +kernel)
  have counted : (Token.groups line.operands line.column).toOption.map (fun groups =>
      (groups.length, (Operand.valueGroups groups).length)) = some (2, 1) := by
    decide +kernel
  obtain ⟨placed, groups, address, _, _, _, grouped, reserved, stores, _⟩ :=
    data_directive_stores assembled (show [".word 1, lsl #2"][0]? = some _ from rfl) read rfl
      (show elementWidth? ".word" = some 4 from rfl) (by simp)
  rw [grouped] at counted
  obtain ⟨two, one⟩ := Prod.mk.inj (Option.some.inj counted)
  exact ⟨final, line, groups, address, rfl, read, grouped, two, two ▸ reserved,
    stores.count.trans one⟩

end Assembler

end A64Machine
