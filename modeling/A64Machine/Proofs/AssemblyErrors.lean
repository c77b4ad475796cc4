import A64Machine.Proofs.AssemblyEmission
import A64Machine.Proofs.AssemblyLayout
import A64Machine.Proofs.NumberTokens

/-!
# The errors of an assembly

A line that cannot be read, placed or written is reported with its number, and the other lines are
assembled all the same. So an assembly comes to its end with the errors of all its lines, each as the
line alone and its place in the source determine it. Only a decimal number that has no value ends an
assembly before that: nothing else that a line may hold does.
-/

namespace A64Machine

/-- The tokens of the operand text of a line; a text that is no sequence of tokens has none. -/
def SourceLine.tokens (line : SourceLine) : List Token :=
  ((Token.groups line.operands line.column).toOption.getD []).flatten

/-- A failure is a refusal that is allowed. -/
def EncodeFailure.IsRefusal (allowed : Refusal → Prop) (failure : EncodeFailure) : Prop :=
  ∃ refusal, failure = .refused refusal ∧ allowed refusal

/-- The places of an operand may be blamed, and its expressions fail only as is allowed, whatever the
symbols are. -/
abbrev Operand.Answers (allowed : Refusal → Prop) (operand : Operand) : Prop :=
  operand.Each (Blamable allowed) fun expression =>
    ∀ symbols dot, FailsOnly allowed (expression.evaluate symbols dot)

/-- What is allowed takes in all that a line can be refused for: its label, the place and the groups
of its operand text, and the operands that it is read as. -/
structure SourceLine.Answers (allowed : Refusal → Prop) (line : SourceLine) : Prop where
  duplicate : ∀ name, line.label = some name →
    allowed (.assembly ⟨.duplicateLabel name, ⟨0, name.length⟩⟩)
  text : Blamable allowed (Directive.operandSpan line)
  column : Blamable allowed ⟨line.column, line.column⟩
  unread : FailsOnly (fun error => allowed (.assembly error))
    (Operand.parse line.operands line.column)
  groups : ∀ groups, Token.groups line.operands line.column = .ok groups →
    Blamable allowed (Assembler.spanOfGroups groups)
  operands : ∀ operands, Operand.parse line.operands line.column = .ok operands →
    Blamable allowed (Operand.spanOf operands) ∧ ∀ operand ∈ operands, operand.Answers allowed

namespace Assembler

open Directive Listing

variable {size : Nat} {endianness : Endianness} {symbols known : SymbolMap} {image : Array UInt8}
  {line : SourceLine} {address behind number : Nat}

/-! ### What a line is refused for -/

/-- The tokens of a line that is cut into groups are those of the groups. -/
theorem tokens_of_groups {groups : List (List Token)}
    (cut : Token.groups line.operands line.column = .ok groups) : line.tokens = groups.flatten := by
  rw [SourceLine.tokens, cut]
  rfl

/-- The operands of a line are written with its tokens. -/
theorem within_of_parse {operands : List Operand}
    (parsed : Operand.parse line.operands line.column = .ok operands) :
    ∀ operand ∈ operands, operand.Within line.tokens := by
  obtain ⟨groups, cut, read⟩ := bind_eq_ok.mp parsed
  rw [tokens_of_groups cut]
  exact Operand.within_ofGroups read

/-- A number of a line that cannot be read is a decimal number that has no value. -/
theorem hasNoValue_of_unreadable {bad : Text.BadNumeral}
    (unread : Token.Unreadable line.tokens bad) :
    ∃ token ∈ line.tokens, token.kind = .number ∧ Text.HasNoValue token.text bad := by
  obtain ⟨token, inside, isNumber, unread⟩ := unread
  refine ⟨token, inside, isNumber, ?_⟩
  cases cut : Token.groups line.operands line.column with
  | error error =>
    rw [SourceLine.tokens, cut] at inside
    contradiction
  | ok groups =>
    rw [tokens_of_groups cut] at inside
    have number := Token.isNumber_of_groups cut token inside isNumber
    exact (Text.readLiteral_eq_error number).mp unread

variable {allowed : Refusal → Prop}

/-- The only operand of a layout directive has a value, or it is refused. -/
theorem directiveValue_failsOnly (answers : line.Answers allowed) :
    FailsOnly allowed (directiveValue symbols address line) := by
  refine failsOnly_bind.mpr ⟨failsOnly_mapError.mpr answers.unread, fun operands parsed => ?_⟩
  obtain ⟨_, each⟩ := answers.operands operands (mapError_eq_ok.mp parsed)
  split
  · exact (each _ List.mem_cons_self).value _ address
  · exact failsOnly_throw.mpr (answers.text _ rfl)

/-- A line has an address, or it is refused. -/
theorem lineAddress_failsOnly (answers : line.Answers allowed) :
    FailsOnly allowed (lineAddress size known address line) := by
  unfold lineAddress
  split
  · exact failsOnly_ok
  · split
    · refine failsOnly_bind.mpr ⟨directiveValue_failsOnly answers, fun value _ => ?_⟩
      split
      · split
        · exact failsOnly_pure
        · exact failsOnly_throw.mpr (answers.text _ rfl)
      · split
        · exact failsOnly_pure
        · exact failsOnly_throw.mpr (answers.text _ rfl)
    · split
      · exact failsOnly_error.mpr (answers.text _ rfl)
      · exact failsOnly_ok

/-- A line is laid out, or it is refused. -/
theorem layoutLine_failsOnly (answers : line.Answers allowed) :
    FailsOnly allowed (layoutLine size known address line) := by
  refine failsOnly_bind.mpr ⟨lineAddress_failsOnly answers, fun there _ => ?_⟩
  split
  · exact failsOnly_pure
  · rename_i name labelled
    split
    · exact failsOnly_throw.mpr (answers.duplicate name labelled)
    · exact failsOnly_pure

theorem write?_failsOnly {span : Span} (blamable : Blamable allowed span) (address : Int)
    (width value : Nat) : FailsOnly allowed (write? size address width value span) := by
  unfold write?
  split
  · exact failsOnly_ok
  · exact failsOnly_error.mpr (blamable _ rfl)

/-- An instruction is encoded and written, or it is refused. -/
theorem instruction_failsOnly (answers : line.Answers allowed) {mnemonic : String}
    {groups : List (List Token)} (cut : Token.groups line.operands line.column = .ok groups)
    {address : Int} :
    FailsOnly (EncodeFailure.IsRefusal allowed) (instruction size symbols mnemonic groups address) := by
  have read : Operand.parse line.operands line.column = Operand.ofGroups groups := ok_bind cut
  have refuses {span : Span} (blamable : Blamable allowed span) :
      Blamable (Encode.refusing (EncodeFailure.IsRefusal allowed)) span :=
    fun complaint silent => ⟨_, rfl, blamable complaint silent⟩
  unfold instruction
  simp only
  split
  · exact failsOnly_throw.mpr ⟨_, rfl, answers.groups groups cut _ rfl⟩
  refine failsOnly_bind.mpr ⟨failsOnly_mapError.mpr fun error failed => ?_, fun operands parsed => ?_⟩
  · exact ⟨_, rfl, answers.unread error (read.trans failed)⟩
  · obtain ⟨blamable, each⟩ := answers.operands operands (read.trans (mapError_eq_ok.mp parsed))
    refine failsOnly_bind.mpr ⟨?_, fun word _ => failsOnly_mapError.mpr fun refusal failed =>
      ⟨refusal, rfl, write?_failsOnly (answers.groups groups cut) _ _ _ refusal failed⟩⟩
    refine InstructionSet.encode_failsOnly _ _ (refuses blamable) fun operand inside => ?_
    exact (each operand inside).imp (fun _ => refuses) fun expression fails refusal failed =>
      ⟨refusal, rfl, fails _ _ refusal failed⟩

/-- A value of a data directive is written, or it is refused. -/
theorem dataValue_failsOnly {width : Nat} {operand : Operand} (answers : operand.Answers allowed) :
    FailsOnly allowed (dataValue size symbols width address operand) := by
  unfold dataValue
  cases operand with
  | immediate given =>
    refine failsOnly_bind.mpr ⟨answers.value _ _, fun value _ => ?_⟩
    split
    · exact write?_failsOnly answers.place _ _ _
    · exact failsOnly_throw.mpr (answers.place _ rfl)
  | register given | address given => exact failsOnly_throw.mpr (answers.place _ rfl)

/-- The values of a data directive are written, or they are refused. -/
theorem dataValues_failsOnly {width : Nat} {operands : List Operand}
    (answers : ∀ operand ∈ operands, operand.Answers allowed) :
    ∀ failure, (dataValues size symbols width address operands).failure = some failure →
      failure.IsRefusal allowed := by
  induction operands generalizing address with
  | nil => exact fun _ none => nomatch none
  | cons operand rest ih =>
    obtain ⟨here, later⟩ := List.forall_mem_cons.mp answers
    rw [dataValues]
    split
    · rename_i refusal refused
      intro failure same
      exact ⟨refusal, (Option.some.inj same).symm, dataValue_failsOnly here refusal refused⟩
    · exact ih later

/-- What a line contributes is written, or it is refused. -/
theorem emitLine_failsOnly (answers : line.Answers allowed) :
    ∀ failure, (emitLine size symbols address line).failure = some failure →
      failure.IsRefusal allowed := by
  have complaint {error : AssemblyError} (isAllowed : allowed (.assembly error)) :
      ∀ failure, (failed (.refused (.assembly error))).failure = some failure →
        failure.IsRefusal allowed :=
    fun _ same => ⟨_, (Option.some.inj same).symm, isAllowed⟩
  have silent {writes : List ImageWrite} :
      ∀ failure, (⟨writes, none⟩ : Emission).failure = some failure → failure.IsRefusal allowed :=
    fun _ none => nomatch none
  unfold emitLine
  cases line.mnemonic with
  | none => exact silent
  | some mnemonic =>
    simp only
    split
    · exact silent
    cases cut : Token.groups line.operands line.column with
    | error error => exact complaint ((failsOnly_bind.mp answers.unread).1 error cut)
    | ok groups =>
      have read : Operand.parse line.operands line.column = Operand.ofGroups groups := ok_bind cut
      cases elementWidth? mnemonic with
      | some width =>
        simp only
        split
        · exact complaint (answers.column _ rfl)
        cases parsed : Operand.ofGroups groups with
        | error error => exact complaint (answers.unread error (read.trans parsed))
        | ok operands => exact dataValues_failsOnly (answers.operands operands (read.trans parsed)).2
      | none =>
        simp only
        split
        · exact silent
        cases emitted : instruction size symbols mnemonic groups address with
        | ok write => exact silent
        | error failure =>
          have isRefusal := instruction_failsOnly answers cut failure emitted
          exact fun _ same => Option.some.inj same ▸ isRefusal

/-- A line is refused for its tokens, as far as numbers are concerned. -/
theorem answers_concerns (line : SourceLine) : line.Answers (Refusal.Concerns line.tokens) := by
  refine ⟨fun _ _ => trivial, blamable_concerns _, blamable_concerns _, fun _ _ => trivial,
    fun _ _ => blamable_concerns _, fun operands parsed => ⟨blamable_concerns _, ?_⟩⟩
  intro operand inside
  exact (within_of_parse parsed operand inside).each.imp (fun _ _ => blamable_concerns _)
    fun expression within symbols dot => Expression.evaluate_failsOnly symbols dot within

/-! ### The errors of a line -/

/-- The symbols and the address behind some lines, which begin behind an address with the symbols
known there. -/
def layoutFrom (size : Nat) : (known : SymbolMap) → (behind : Nat) →
    List (Except AssemblyError SourceLine) → Except Text.BadNumeral (SymbolMap × Nat)
  | known, behind, [] => .ok (known, behind)
  | known, behind, first :: rest => do
    let (_, known, behind) ← placeLine size known behind first
    layoutFrom size known behind rest

/-- The address at which a line is emitted: the end of the lines before it, if it cannot be laid
out. -/
def emittedAt (size : Nat) (known : SymbolMap) (behind : Nat) (line : SourceLine) : Nat :=
  match layoutLine size known behind line with
  | .ok (address, _) => address
  | .error _ => behind

/-- What a line is refused for: it cannot be read, it cannot be laid out behind the lines before it, or
its bytes cannot be written when all symbols are known. -/
inductive IsRefused (size : Nat) (known : SymbolMap) (behind : Nat) (symbols : SymbolMap) :
    Except AssemblyError SourceLine → EncodeFailure → Prop
  | unread {error : AssemblyError} :
    IsRefused size known behind symbols (.error error) (.refused (.assembly error))
  | unplaced {line : SourceLine} {refusal : Refusal}
    (refused : layoutLine size known behind line = .error refusal) :
    IsRefused size known behind symbols (.ok line) (.refused refusal)
  | unwritten {line : SourceLine} {failure : EncodeFailure}
    (refused : (emitLine size symbols (emittedAt size known behind line) line).failure =
      some failure) :
    IsRefused size known behind symbols (.ok line) failure

/-- A line that was read is refused as is allowed. -/
theorem IsRefused.isRefusal {failure : EncodeFailure} (answers : line.Answers allowed)
    (refused : IsRefused size known behind symbols (.ok line) failure) :
    failure.IsRefusal allowed := by
  cases refused with
  | unplaced refused => exact ⟨_, rfl, layoutLine_failsOnly answers _ refused⟩
  | unwritten refused => exact emitLine_failsOnly answers _ refused

/-- A line that was read is refused for its tokens. -/
theorem IsRefused.concerns {failure : EncodeFailure}
    (refused : IsRefused size known behind symbols (.ok line) failure) :
    failure.Concerns line.tokens := by
  obtain ⟨refusal, rfl, concerns⟩ := refused.isRefusal (answers_concerns line)
  exact concerns

/-- A placed line has the error of its layout and the failure of its emission. -/
theorem isRefused_of_placeLine {parsed : Except AssemblyError SourceLine} {placed : PlacedLine}
    {next : SymbolMap × Nat} (there : placeLine size known behind parsed = .ok (placed, next))
    (failure : EncodeFailure) :
    IsRefused size known behind symbols parsed failure ↔
      (∃ error, placed.error = some error ∧ failure = .refused (.assembly error)) ∨
        (placed.emit size symbols).failure = some failure := by
  cases parsed with
  | error error =>
    obtain ⟨rfl, _⟩ := Prod.mk.inj (Except.ok.inj there)
    constructor
    · rintro ⟨⟩
      exact .inl ⟨error, rfl, rfl⟩
    · rintro (⟨_, same, rfl⟩ | none)
      · exact Option.some.inj same ▸ .unread
      · cases none
  | ok line =>
    have emitted (address : Nat) (error : Option AssemblyError) :
        PlacedLine.emit size symbols ⟨.ok line, address, error⟩ =
          emitLine size symbols address line := rfl
    rw [placeLine] at there
    split at there
    · rename_i address symbols laid
      obtain ⟨rfl, _⟩ := Prod.mk.inj (Except.ok.inj there)
      have at' : emittedAt size known behind line = address := by rw [emittedAt, laid]
      constructor
      · rintro (_ | refused | refused)
        · cases laid.symm.trans refused
        · exact .inr (at' ▸ refused)
      · rintro (⟨_, none, _⟩ | refused)
        · cases none
        · exact .unwritten (at' ▸ refused)
    · rename_i error refusedHere
      obtain ⟨rfl, _⟩ := Prod.mk.inj (Except.ok.inj there)
      have at' : emittedAt size known behind line = behind := by rw [emittedAt, refusedHere]
      constructor
      · rintro (_ | refused | refused)
        · obtain rfl := Except.error.inj (refusedHere.symm.trans refused)
          exact .inl ⟨error, rfl, rfl⟩
        · exact .inr (at' ▸ refused)
      · rintro (⟨_, same, rfl⟩ | refused)
        · exact Option.some.inj same ▸ .unplaced refusedHere
        · refine .unwritten ?_
          rw [at']
          exact refused
    · cases there

/-! ### The layout of all lines -/

variable {parsed : List (Except AssemblyError SourceLine)} {placed : List PlacedLine}

/-- Where all lines are laid out, each is placed behind the lines before it. -/
theorem placed_of_layout (laid : (layout size known behind parsed).1 = .ok placed) :
    placed.length = parsed.length ∧
      ∀ index line, parsed[index]? = some line → ∃ known' behind' entry next,
        layoutFrom size known behind (parsed.take index) = .ok (known', behind') ∧
          placed[index]? = some entry ∧ placeLine size known' behind' line = .ok (entry, next) := by
  induction parsed generalizing known behind placed with
  | nil =>
    obtain rfl := Except.ok.inj laid
    exact ⟨rfl, fun index line none => nomatch none⟩
  | cons first rest ih =>
    rw [layout_cons] at laid
    split at laid
    · cases laid
    · rename_i entry symbols address there
      obtain ⟨others, laidOthers, rfl⟩ := map_eq_ok.mp laid
      obtain ⟨count, each⟩ := ih laidOthers
      refine ⟨congrArg (· + 1) count, fun index line inside => ?_⟩
      cases index with
      | zero =>
        obtain rfl := Option.some.inj inside
        exact ⟨known, behind, entry, _, rfl, rfl, there⟩
      | succ index =>
        rw [List.getElem?_cons_succ] at inside
        obtain ⟨known', behind', entry', next, before, found, placedThere⟩ := each index line inside
        refine ⟨known', behind', entry', next, ?_, found, placedThere⟩
        rw [List.take_succ_cons, layoutFrom, ok_bind there]
        exact before

/-- Where all lines are laid out, the symbols are those behind the last line. -/
theorem layoutFrom_of_layout (laid : layout size known behind parsed = (.ok placed, symbols)) :
    ∃ last, layoutFrom size known behind parsed = .ok (symbols, last) := by
  induction parsed generalizing known behind placed with
  | nil =>
    obtain ⟨_, rfl⟩ := Prod.mk.inj laid
    exact ⟨behind, rfl⟩
  | cons first rest ih =>
    rw [layout_cons] at laid
    split at laid
    · cases laid
    · rename_i entry known' address there
      obtain ⟨isOk, same⟩ := Prod.mk.inj laid
      obtain ⟨others, laidOthers, _⟩ := map_eq_ok.mp isOk
      rw [layoutFrom, ok_bind there]
      exact ih (Prod.ext laidOthers same)

/-- Where a number ends the layout, a line is refused for it behind the lines before. -/
theorem refused_of_layout {bad : Text.BadNumeral}
    (ended : (layout size known behind parsed).1 = .error bad) :
    ∃ index line known' behind', parsed[index]? = some (.ok line) ∧
      layoutFrom size known behind (parsed.take index) = .ok (known', behind') ∧
      layoutLine size known' behind' line = .error (.numeral bad) := by
  induction parsed generalizing known behind with
  | nil => cases ended
  | cons first rest ih =>
    rw [layout_cons] at ended
    split at ended
    · rename_i refusal refused
      obtain rfl := Except.error.inj ended
      cases first with
      | error error => cases refused
      | ok line =>
        refine ⟨0, line, known, behind, rfl, rfl, ?_⟩
        rw [placeLine] at refused
        split at refused
        · cases refused
        · cases refused
        · rename_i bad unread
          exact Except.error.inj refused ▸ unread
    · rename_i entry symbols address there
      obtain ⟨index, line, known', behind', inside, before, refused⟩ := ih (map_eq_error.mp ended)
      refine ⟨index + 1, line, known', behind', inside, ?_, refused⟩
      rw [List.take_succ_cons, layoutFrom, ok_bind there]
      exact before

/-! ### The assembly -/

/-- The symbols and the errors of a source are those of its lines. -/
structure Reports (size : Nat) (lines : List String) (symbols : SymbolMap) (errors : LineErrors) :
    Prop where
  /-- The symbols are those known behind the last line. -/
  known : ∃ last, layoutFrom size [] 0 (lines.map SourceLine.parse) = .ok (symbols, last)
  /-- The errors are in the order of their lines. -/
  ordered : errors.Pairwise fun first second => first.1 ≤ second.1
  /-- The numbers of the errors are those of lines, counted from one. -/
  numbers : ∀ entry ∈ errors, 1 ≤ entry.1 ∧ entry.1 ≤ lines.length
  /-- A line is refused only with complaints, and just these are its errors. -/
  lines : ∀ (index : Nat) line, lines[index]? = some line → ∃ known behind,
    layoutFrom size [] 0 ((lines.take index).map SourceLine.parse) = .ok (known, behind) ∧
      ∀ failure, IsRefused size known behind symbols (SourceLine.parse line) failure ↔
        ∃ error, failure = .refused (.assembly error) ∧ (index + 1, error) ∈ errors

/-- A line of a source is refused for a number: a decimal number among its tokens that has no
value. -/
def HasUnreadable (size : Nat) (lines : List String) (symbols : SymbolMap)
    (bad : Text.BadNumeral) : Prop :=
  ∃ (index : Nat) (text : String) (line : SourceLine) (known : SymbolMap) (behind : Nat),
    lines[index]? = some text ∧ SourceLine.parse text = .ok line ∧
      layoutFrom size [] 0 ((lines.take index).map SourceLine.parse) = .ok (known, behind) ∧
      IsRefused size known behind symbols (.ok line) (.refused (.numeral bad)) ∧
      ∃ token ∈ line.tokens, token.kind = .number ∧ Text.HasNoValue token.text bad

variable {lines : List String} {index : Nat}

/-- A source has a number that cannot be read where one of its lines is refused for it. -/
theorem hasUnreadable_of_refused {bad : Text.BadNumeral}
    (found : (lines.map SourceLine.parse)[index]? = some (.ok line))
    (before : layoutFrom size [] 0 ((lines.map SourceLine.parse).take index) = .ok (known, behind))
    (refused : IsRefused size known behind symbols (.ok line) (.refused (.numeral bad))) :
    HasUnreadable size lines symbols bad := by
  rw [List.getElem?_map] at found
  obtain ⟨text, here, isLine⟩ := Option.map_eq_some_iff.mp found
  rw [← List.map_take] at before
  exact ⟨index, text, line, known, behind, here, isLine, before, refused,
    hasNoValue_of_unreadable refused.concerns⟩

/-- Where all lines are emitted, they are reported. -/
theorem reports_of_emitLines {errors : LineErrors}
    (laid : layout size [] 0 (lines.map SourceLine.parse) = (.ok placed, symbols))
    (emitted : (emitLines size endianness symbols image 1 placed).1 = .ok errors) :
    Reports size lines symbols errors := by
  obtain ⟨complaints, rfl, _⟩ := emitLines_eq_ok (Prod.ext emitted rfl)
  obtain ⟨count, each⟩ := placed_of_layout (congrArg Prod.fst laid)
  rw [List.length_map] at count
  refine ⟨layoutFrom_of_layout laid, pairwise_numbered, fun entry inside => ?_, fun index text here => ?_⟩
  · have bounds := bounds_numbered entry inside
    rw [List.length_map, count] at bounds
    omega
  · have found : (lines.map SourceLine.parse)[index]? = some (SourceLine.parse text) := by
      rw [List.getElem?_map, here]
      rfl
    obtain ⟨known, behind, entry, next, before, there, placedThere⟩ := each index _ found
    have own (error : AssemblyError) :
        (index + 1, error) ∈ numbered 1 (placed.map (PlacedLine.faults size symbols)) ↔
          error ∈ entry.faults size symbols := by
      rw [Nat.add_comm, mem_numbered_faults 1 there]
    refine ⟨known, behind, List.map_take ▸ before, fun failure => ?_⟩
    simp only [isRefused_of_placeLine placedThere, own, PlacedLine.mem_faults]
    constructor
    · rintro (⟨error, same, rfl⟩ | failed)
      · exact ⟨error, rfl, .inl same⟩
      · obtain ⟨error, rfl⟩ := complaints entry (List.mem_of_getElem? there) failure failed
        exact ⟨error, rfl, .inr failed⟩
    · rintro ⟨error, rfl, same | failed⟩
      · exact .inl ⟨error, same, rfl⟩
      · exact .inr failed

/-- Where the emission ends before its last line, a number cannot be read. -/
theorem hasUnreadable_of_emitLines {failure : EncodeFailure}
    (laid : (layout size [] 0 (lines.map SourceLine.parse)).1 = .ok placed)
    (ended : (emitLines size endianness symbols image number placed).1 = .error failure) :
    ∃ bad, failure = .refused (.numeral bad) ∧ HasUnreadable size lines symbols bad := by
  obtain ⟨entry, among, failed, noComplaint⟩ := failed_of_emitLines ended
  obtain ⟨count, each⟩ := placed_of_layout laid
  obtain ⟨index, there⟩ := List.mem_iff_getElem?.mp among
  obtain ⟨parsed, found⟩ : ∃ parsed, (lines.map SourceLine.parse)[index]? = some parsed :=
    ⟨_, List.getElem?_eq_getElem (count ▸ (List.getElem?_eq_some_iff.mp there).1)⟩
  obtain ⟨known, behind, entry', next, before, there', placedThere⟩ := each index _ found
  obtain rfl := Option.some.inj (there.symm.trans there')
  have refused := (isRefused_of_placeLine placedThere failure).mpr (.inr failed)
  cases parsed with
  | error error => cases refused with | unread => exact absurd rfl (noComplaint error)
  | ok line =>
    rcases failure with (error | bad) | defect
    · exact absurd rfl (noComplaint error)
    · exact ⟨bad, rfl, hasUnreadable_of_refused found before refused⟩
    · exact refused.concerns.elim

/-- An assembly has an image of its size in its byte order. It ends with the errors of all lines, or
with a number of a line that has no value. -/
theorem assemble_reports (assembler : Assembler) (lines : List String) :
    (assembler.assemble lines).2.size = assembler.size ∧
      (assembler.assemble lines).2.endianness = assembler.endianness ∧
      (assembler.assemble lines).2.image.size = assembler.size ∧
      match (assembler.assemble lines).1 with
      | .ok errors => Reports assembler.size lines (assembler.assemble lines).2.symbols errors
      | .error failure => ∃ bad, failure = .refused (.numeral bad) ∧
        HasUnreadable assembler.size lines (assembler.assemble lines).2.symbols bad := by
  unfold assemble
  simp only
  split
  · rename_i bad symbols laid
    obtain ⟨index, line, known, behind, found, before, unread⟩ :=
      refused_of_layout (congrArg Prod.fst laid)
    exact ⟨rfl, rfl, Array.size_replicate, bad, rfl,
      hasUnreadable_of_refused found before (.unplaced unread)⟩
  · rename_i placed symbols laid
    refine ⟨rfl, rfl, size_emitLines.trans Array.size_replicate, ?_⟩
    split
    · rename_i errors emitted
      exact reports_of_emitLines laid emitted
    · rename_i failure ended
      exact hasUnreadable_of_emitLines (congrArg Prod.fst laid) ended

/-- The assembler of eight bytes. -/
def eightBytes : Assembler := ⟨8, .little, #[], []⟩

/-- A leading zero ends the assembly without a list of errors, and what follows is not assembled. -/
theorem assemble_leadingZero :
    (eightBytes.assemble [".word 010", "nop"]).1 =
        .error (.refused (.numeral (.malformed 0 "010"))) ∧
      (eightBytes.assemble [".word 010", "nop"]).2.image = #[0, 0, 0, 0, 0, 0, 0, 0] :=
  ⟨failure?_eq_some.mp (by decide +kernel), by decide +kernel⟩

end Assembler

end A64Machine
