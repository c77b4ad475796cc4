import A64Machine.Proofs.AssemblyErrors
import A64Machine.Proofs.OperandPlaces
import A64Machine.Proofs.TokenPositions

/-!
# Where the errors of an assembly point

Every error of an assembly points into the line that it is about, as this was written: its place is
a stretch of the line, and what it repeats of the line is found there. This fails for a label that is
defined twice. It is looked for at the start of the line, so that the place shows something else
where anything stands in front of the label.
-/

namespace A64Machine

variable {text line front behind word : List Char}

/-- An error points to its place in a text. What it repeats stands there, but for a label, which
stands behind the blanks of the line without its comments. -/
structure AssemblyError.Points (text : List Char) (error : AssemblyError) : Prop where
  inside : error.span.Inside text
  shows : match error.complaint with
    | .duplicateLabel name =>
      ∃ line blanks behind, SourceLine.withoutComments text = .ok line ∧
        line = blanks ++ name.toList ++ behind ∧ (∀ c ∈ blanks, Text.isBlank c = true) ∧
        Span.slice text ⟨blanks.length, blanks.length + name.length⟩ = name.toList ∧
        (error.span.slice text = name.toList ↔ blanks = [])
    | complaint => ∀ quoted, complaint.quoted? = some quoted → error.span.slice text = quoted.toList

/-- A complaint that repeats nothing may be about any place in the text. -/
theorem AssemblyError.points_of_silent {complaint : Complaint} {span : Span}
    (inside : span.Inside text) (silent : complaint.quoted? = none) :
    AssemblyError.Points text ⟨complaint, span⟩ := by
  refine ⟨inside, ?_⟩
  split
  · rename_i name same
    obtain rfl : complaint = .duplicateLabel name := same
    contradiction
  · intro quoted same
    rw [silent] at same
    contradiction

/-- A refusal points to its place, if it is a complaint. -/
def Refusal.Points (text : List Char) (refusal : Refusal) : Prop :=
  ∀ error, refusal = .assembly error → error.Points text

theorem Refusal.points_assembly {error : AssemblyError} (points : error.Points text) :
    (Refusal.assembly error).Points text := by
  rintro _ ⟨⟩
  exact points

/-- A place in the text may be blamed. -/
theorem Span.Inside.blamable {span : Span} (inside : span.Inside text) :
    Blamable (Refusal.Points text) span :=
  fun _ silent => Refusal.points_assembly (AssemblyError.points_of_silent inside silent)

/-- A token that stands in the text may be refused. -/
theorem Token.Stands.refusable {token : Token} (stands : token.Stands text) :
    token.Refusable (Refusal.Points text) := by
  refine ⟨stands.inside.blamable, ?_, ?_, fun _ _ _ _ same => nomatch same⟩
  · refine Refusal.points_assembly ⟨stands.inside, ?_⟩
    rintro quoted ⟨⟩
    exact stands.slice
  · refine Refusal.points_assembly ⟨stands.inside, ?_⟩
    rintro quoted ⟨⟩
    exact stands.slice

/-- Operands that stand in the text are refused only for places in it. -/
theorem Operand.Stands.answers {operand : Operand} (stands : operand.Stands text) :
    operand.Answers (Refusal.Points text) :=
  stands.imp (fun _ inside => inside.blamable) fun _ stands _ _ =>
    Expression.evaluate_failsOnly_of_tokens (fun token inside => (stands.tokens token inside).refusable)
      stands.inside.blamable

namespace SourceLine

/-! ### The parts of a line -/

/-- A word of a line without blanks stands in the text in which the line is shown. -/
theorem ShownIn.stands (shown : ShownIn line text) (split : line = front ++ word ++ behind)
    (ink : ∀ c ∈ word, Text.isBlank c = false) :
    Span.Inside text ⟨front.length, front.length + word.length⟩ ∧
      Span.slice text ⟨front.length, front.length + word.length⟩ = word := by
  refine ⟨⟨Int.natCast_nonneg _, by simp only; omega, ?_⟩, shown.slice split fun blank => ?_⟩
  · have short := shown.short
    rw [split, List.length_append, List.length_append] at short
    simp only
    omega
  · exact absurd (ink ' ' blank) (by decide)

variable {source : String} {parts : SourceLine}

/-- The operand text of a line stands in it at its column. -/
theorem exists_shown (parsed : parse source = .ok parts) :
    ∃ line front behind, withoutComments source.toList = .ok line ∧ parts = ofCut line ∧
      ShownIn line source.toList ∧ line = front ++ parts.operands.toList ++ behind ∧
      parts.column = front.length := by
  rw [parse_eq] at parsed
  obtain ⟨line, cut, rfl⟩ := map_eq_ok.mp parsed
  obtain ⟨front, behind, split, column, _⟩ := split_ofCut line
  exact ⟨line, front, behind, cut, rfl, (shownIn_of_withoutComments cut).1, split, column⟩

/-- A word of the operand text stands in the line behind the column. -/
theorem stands_of_operands (parsed : parse source = .ok parts)
    (within : parts.operands.toList = front ++ word ++ behind)
    (ink : ∀ c ∈ word, Text.isBlank c = false) :
    Span.Inside source.toList
        ⟨parts.column + front.length, parts.column + front.length + word.length⟩ ∧
      Span.slice source.toList
        ⟨parts.column + front.length, parts.column + front.length + word.length⟩ = word := by
  obtain ⟨line, before, after, _, _, shown, split, column⟩ := exists_shown parsed
  have place : (parts.column : Int) + front.length = (before ++ front).length := by
    rw [column, List.length_append]
    omega
  have whole : line = before ++ front ++ word ++ (behind ++ after) := by
    rw [split, within]
    simp only [List.append_assoc]
  rw [place]
  exact shown.stands whole ink

/-- The tokens of a line stand in it one behind the other. -/
theorem rising_of_groups (parsed : parse source = .ok parts) {groups : List (List Token)}
    (cut : Token.groups parts.operands parts.column = .ok groups) :
    Token.Rising source.toList groups.flatten := by
  obtain ⟨commas, cuts, _⟩ := Token.exists_cuts cut
  refine ⟨fun token among => ?_, cuts.rising⟩
  obtain ⟨before, after, within, span, longest⟩ := (cuts.slices token among).split
  obtain ⟨inside, slice⟩ := stands_of_operands parsed within longest.isLexeme.not_isBlank
  rw [String.length_toList, ← span] at inside slice
  exact ⟨inside, slice⟩

/-- An operand text that is not cut into groups is refused for a character in its place. -/
theorem points_of_uncut (parsed : parse source = .ok parts) {error : AssemblyError}
    (uncut : Token.groups parts.operands parts.column = .error error) :
    error.Points source.toList := by
  rw [Token.groups_eq, map_eq_error, Token.scan_eq_error] at uncut
  obtain ⟨front, c, behind, within, _, notBlank, _, rfl⟩ := uncut
  have split : parts.operands.toList = front ++ [c] ++ behind := by
    rw [within, List.append_assoc, List.singleton_append]
  obtain ⟨inside, slice⟩ := stands_of_operands parsed split (by simpa using notBlank)
  refine ⟨inside, ?_⟩
  rintro quoted ⟨⟩
  exact slice.trans (by simp)

/-- A label that is defined twice is looked for at the start of the line. -/
theorem points_duplicate (parsed : parse source = .ok parts) {name : String}
    (labelled : parts.label = some name) :
    AssemblyError.Points source.toList ⟨.duplicateLabel name, ⟨0, name.length⟩⟩ := by
  obtain ⟨line, _, _, cut, rfl, shown, _⟩ := exists_shown parsed
  have begins := (shownIn_of_withoutComments cut).2
  have isLabel : (label? line).map (fun found => String.ofList found.1) = some name := by
    rw [← labelled, ofCut]
    split <;> rfl
  obtain ⟨⟨letters, behind⟩, found, rfl⟩ := Option.map_eq_some_iff.mp isLabel
  obtain ⟨blanks, between, split, isBlank, isName⟩ := split_of_label? found
  obtain ⟨inside, slice⟩ := shown.stands split isName.not_isBlank
  have length : (String.ofList letters).length = letters.length := by simp
  refine ⟨⟨Int.le_refl _, Int.natCast_nonneg _, ?_⟩, line, blanks, between ++ ':' :: behind, cut,
    ?_, isBlank, ?_, ?_⟩
  · have stop := inside.stop
    simp only [length] at stop ⊢
    omega
  · rw [split, String.toList_ofList]
  · rw [length, String.toList_ofList, slice]
  · rw [length, String.toList_ofList]
    constructor
    · intro shows
      cases blanks with
      | nil => rfl
      | cons blank blanks =>
        -- A name begins neither with a blank nor as a comment, as the line does.
        cases isName with
        | @name first rest starts _ =>
          have notBlank := (Lexeme.IsLexeme.name starts ‹_›).not_isBlank first List.mem_cons_self
          have isFirst : source.toList[0]? = some first := by
            have same := congrArg (·[0]?) shows
            simpa [Span.slice, List.getElem?_take] using same
          rcases begins blank (by rw [split]; rfl) with same | comment
          · obtain rfl := Option.some.inj (isFirst.symm.trans same)
            rw [isBlank first List.mem_cons_self] at notBlank
            contradiction
          · obtain rfl := Option.some.inj (isFirst.symm.trans comment)
            exact absurd starts (by decide)
    · rintro rfl
      simpa using slice

/-- The place of the operand text lies within the line. -/
theorem inside_operandSpan (parsed : parse source = .ok parts) :
    Span.Inside source.toList (Directive.operandSpan parts) := by
  obtain ⟨line, front, behind, _, _, shown, split, column⟩ := exists_shown parsed
  have short := shown.short
  rw [split, List.length_append, List.length_append, String.length_toList] at short
  refine ⟨Int.natCast_nonneg _, ?_, ?_⟩
  · simp only [Directive.operandSpan]
    omega
  · simp only [Directive.operandSpan, column]
    omega

/-- A line is refused only for places in it. -/
theorem answers_points (parsed : parse source = .ok parts) :
    parts.Answers (Refusal.Points source.toList) := by
  have text := inside_operandSpan parsed
  have read {groups : List (List Token)}
      (cut : Token.groups parts.operands parts.column = .ok groups) :=
    Operand.ofGroups_stands (rising_of_groups parsed cut)
  have silent : ∀ complaint ∈ Operand.complaints, complaint.quoted? = none := by decide
  refine ⟨fun name labelled => ?_, text.blamable, Span.Inside.blamable ?_,
    failsOnly_bind.mpr ⟨fun error uncut => ?_, fun groups cut error failed => ?_⟩,
    fun groups cut => Span.Inside.blamable ?_, fun operands parsedAll => ?_⟩
  · exact Refusal.points_assembly (points_duplicate parsed labelled)
  · exact ⟨text.start, Int.le_refl _, Int.le_trans text.ordered text.stop⟩
  · exact Refusal.points_assembly (points_of_uncut parsed uncut)
  · obtain ⟨among, inside⟩ := (read cut).1 error failed
    exact Refusal.points_assembly (AssemblyError.points_of_silent inside (silent _ among))
  · have rising := rising_of_groups parsed cut
    unfold Assembler.spanOfGroups
    split
    · exact Span.inside_zero
    · rename_i first rest tokens
      rw [tokens] at rising
      exact rising.inside_spanOf
  · obtain ⟨groups, cut, made⟩ := bind_eq_ok.mp parsedAll
    obtain ⟨inside, stands⟩ := (read cut).2 operands made
    exact ⟨inside.blamable, fun operand among => (stands operand among).answers⟩

end SourceLine

namespace Assembler

/-- All errors of an assembly point to places in their lines. -/
theorem assemble_points {assembler final : Assembler} {lines : List String} {errors : LineErrors}
    (returned : assembler.assemble lines = (.ok errors, final)) :
    ∀ entry ∈ errors, ∃ (index : Nat) (text : String), entry.1 = index + 1 ∧
      lines[index]? = some text ∧ entry.2.Points text.toList := by
  rintro ⟨number, error⟩ among
  have reports := (assemble_reports assembler lines).2.2.2
  rw [returned] at reports
  obtain ⟨above, below⟩ := reports.numbers _ among
  obtain ⟨index, rfl⟩ : ∃ index, number = index + 1 := ⟨number - 1, by simp only at above; omega⟩
  have here : lines[index]? = some lines[index] := List.getElem?_eq_getElem below
  refine ⟨index, lines[index], rfl, here, ?_⟩
  obtain ⟨known, behind, _, refusals⟩ := reports.lines index _ here
  have refused := (refusals (.refused (.assembly error))).mpr ⟨error, rfl, among⟩
  cases parsed : SourceLine.parse lines[index] with
  | error complaint =>
    rw [parsed] at refused
    cases refused
    rw [SourceLine.parse_eq] at parsed
    obtain ⟨start, stop, rfl, before, short⟩ :=
      SourceLine.span_of_withoutComments (map_eq_error.mp parsed)
    exact AssemblyError.points_of_silent ⟨Int.natCast_nonneg _, by simp only; omega,
      by simp only; omega⟩ rfl
  | ok parts =>
    rw [parsed] at refused
    obtain ⟨refusal, same, points⟩ := refused.isRefusal (SourceLine.answers_points parsed)
    obtain rfl := EncodeFailure.refused.inj same
    exact points error rfl

/-- An unknown symbol is shown where it stands. A label in front of it that is defined twice is not,
for the blank before it. -/
theorem assemble_points_duplicate :
    ∃ final, (⟨8, .little, #[], []⟩ : Assembler).assemble ["a: nop", " a: b here"] =
        (.ok [(2, ⟨.duplicateLabel "a", ⟨0, 1⟩⟩), (2, ⟨.undefinedSymbol "here", ⟨6, 10⟩⟩)], final) ∧
      AssemblyError.Points " a: b here".toList ⟨.undefinedSymbol "here", ⟨6, 10⟩⟩ ∧
      AssemblyError.Points " a: b here".toList ⟨.duplicateLabel "a", ⟨0, 1⟩⟩ ∧
      Span.slice " a: b here".toList ⟨0, 1⟩ = [' '] := by
  let assembler : Assembler := ⟨8, .little, #[], []⟩
  have evaluated : (assembler.assemble ["a: nop", " a: b here"]).1.toOption =
      some [(2, ⟨.duplicateLabel "a", ⟨0, 1⟩⟩), (2, ⟨.undefinedSymbol "here", ⟨6, 10⟩⟩)] := by
    decide +kernel
  rcases returned : assembler.assemble ["a: nop", " a: b here"] with ⟨outcome, final⟩
  rw [returned] at evaluated
  obtain rfl := toOption_eq_some.mp evaluated
  have points := assemble_points returned
  obtain ⟨index, text, second, there, label⟩ := points _ List.mem_cons_self
  obtain rfl : index = 1 := (Nat.succ.inj second).symm
  obtain rfl := Option.some.inj there
  obtain ⟨index, text, second, there, symbol⟩ :=
    points _ (List.mem_cons_of_mem _ List.mem_cons_self)
  obtain rfl : index = 1 := (Nat.succ.inj second).symm
  obtain rfl := Option.some.inj there
  exact ⟨final, rfl, symbol, label, by decide⟩

end Assembler

end A64Machine
