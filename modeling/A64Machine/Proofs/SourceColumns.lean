import A64Machine.SourceLine
import A64Machine.Proofs.LongestLexeme

/-!
# Where the parts of a line stand

Comments are taken out of a line without moving what is left: block comments give way to blanks, and
what else is removed is the end of the line. So the label and the operand text stand in the line as
it was written just where they stand in the line without comments.
-/

namespace A64Machine

/-- The characters of a text between the ends of a span. -/
def Span.slice (text : List Char) (span : Span) : List Char :=
  (text.drop span.start.toNat).take (span.stop - span.start).toNat

theorem Text.dropEndWhile_isPrefix (p : Char → Bool) (text : List Char) :
    Text.dropEndWhile p text <+: text := by
  have suffix := List.reverse_prefix.mpr (List.dropWhile_suffix p (l := text.reverse))
  rwa [List.reverse_reverse] at suffix

/-- What is dropped from the end of a text is of the class. -/
theorem Text.exists_dropEndWhile (p : Char → Bool) (text : List Char) :
    ∃ dropped, text = Text.dropEndWhile p text ++ dropped ∧ ∀ c ∈ dropped, p c = true := by
  refine ⟨(text.reverse.takeWhile p).reverse, ?_, fun c inside => ?_⟩
  · rw [Text.dropEndWhile, ← List.reverse_append, List.takeWhile_append_dropWhile,
      List.reverse_reverse]
  · exact List.all_eq_true.mp List.all_takeWhile c (List.mem_reverse.mp inside)

/-- Nothing is dropped from a text without characters of the class. -/
theorem Text.dropEndWhile_of_none {p : Char → Bool} {text : List Char}
    (none : ∀ c ∈ text, p c = false) : Text.dropEndWhile p text = text := by
  obtain ⟨dropped, split, isClass⟩ := Text.exists_dropEndWhile p text
  have nothing : dropped = [] := by
    refine List.eq_nil_iff_forall_not_mem.mpr fun c inside => ?_
    have outside := none c (split ▸ List.mem_append_right _ inside)
    exact Bool.false_ne_true (outside.symm.trans (isClass c inside))
  rw [nothing, List.append_nil] at split
  exact split.symm

namespace SourceLine

variable {text line code front behind : List Char}

/-! ### Markers -/

theorem startsWith_iff {marker : List Char} : startsWith marker text = true ↔ marker <+: text := by
  rw [startsWith, beq_iff_eq, List.prefix_iff_eq_take, eq_comm]

/-- A marker that occurs is found where it stands. -/
theorem exists_of_position? {marker : List Char} {place : Nat}
    (found : position? marker text = some place) :
    ∃ front behind, text = front ++ behind ∧ place = front.length ∧ marker <+: behind ∧
      behind ≠ [] := by
  induction text generalizing place with
  | nil => contradiction
  | cons c rest ih =>
    rw [position?] at found
    split at found
    · rename_i starts
      obtain rfl := Option.some.inj found
      exact ⟨[], c :: rest, rfl, rfl, startsWith_iff.mp starts, List.cons_ne_nil _ _⟩
    · obtain ⟨place', later, rfl⟩ := Option.map_eq_some_iff.mp found
      obtain ⟨front, behind, rfl, rfl, starts, some⟩ := ih later
      exact ⟨c :: front, behind, rfl, rfl, starts, some⟩

theorem before_isPrefix (marker text : List Char) : before marker text <+: text := by
  unfold before
  split
  · exact List.take_prefix _ _
  · exact List.prefix_rfl

/-! ### Comments -/

/-- The code of a line is shown in a text: its characters stand in the text at the same places, apart
from blanks that were put in place of others. -/
structure ShownIn (code text : List Char) : Prop where
  short : code.length ≤ text.length
  same : ∀ (place : Nat) c, code[place]? = some c → c ≠ ' ' → text[place]? = some c

theorem getElem?_of_isPrefix {whole : List Char} (front : code <+: whole) {place : Nat} {c : Char}
    (found : code[place]? = some c) : whole[place]? = some c := by
  obtain ⟨behind, rfl⟩ := front
  rwa [List.getElem?_append_left (List.getElem?_eq_some_iff.mp found).1]

/-- The start of code that is shown is shown. -/
theorem ShownIn.of_isPrefix {whole : List Char} (shown : ShownIn whole text) (front : code <+: whole) :
    ShownIn code text :=
  ⟨Nat.le_trans front.length_le shown.short,
    fun place c found => shown.same place c (getElem?_of_isPrefix front found)⟩

/-- Code that is shown in the start of a text is shown in the text. -/
theorem ShownIn.isPrefix {whole : List Char} (shown : ShownIn code text) (front : text <+: whole) :
    ShownIn code whole :=
  ⟨Nat.le_trans shown.short front.length_le,
    fun place c found ink => getElem?_of_isPrefix front (shown.same place c found ink)⟩

/-- A word of the code stands in the text at the same place. -/
theorem ShownIn.slice {word : List Char} (shown : ShownIn code text)
    (split : code = front ++ word ++ behind) (ink : ' ' ∉ word) :
    Span.slice text ⟨front.length, front.length + word.length⟩ = word := by
  have start : ((front.length : Int)).toNat = front.length := Int.toNat_natCast _
  have length : ((front.length : Int) + word.length - front.length).toNat = word.length := by omega
  apply List.ext_getElem?
  intro place
  rw [Span.slice, start, length, List.getElem?_take, List.getElem?_drop]
  split
  · rename_i inside
    have found := List.getElem?_eq_getElem inside
    rw [found]
    refine shown.same _ _ ?_ fun blank => ink (blank ▸ List.getElem_mem inside)
    rw [split, List.append_assoc, List.getElem?_append_right (Nat.le_add_right _ _),
      Nat.add_sub_cancel_left, List.getElem?_append_left inside, found]
  · rename_i outside
    exact (List.getElem?_eq_none (Nat.le_of_not_lt outside)).symm

theorem length_blankComments (inside : Nat) (text : List Char) :
    (blankComments inside text).length = text.length := by
  induction text generalizing inside with
  | nil => cases inside <;> rfl
  | cons c rest ih =>
    cases inside with
    | succ inside => exact congrArg (· + 1) (ih inside)
    | zero =>
      rw [blankComments]
      split <;> exact congrArg (· + 1) (ih _)

/-- Block comments give way to blanks. -/
theorem shownIn_blankComments (inside : Nat) (text : List Char) :
    ShownIn (blankComments inside text) text := by
  refine ⟨Nat.le_of_eq (length_blankComments inside text), ?_⟩
  induction text generalizing inside with
  | nil => cases inside <;> exact fun place c found => nomatch found
  | cons first rest ih =>
    have blank (inside : Nat) : ∀ (place : Nat) c,
        (' ' :: blankComments inside rest)[place]? = some c → c ≠ ' ' →
          (first :: rest)[place]? = some c := by
      intro place c found ink
      cases place with
      | zero => exact absurd (Option.some.inj found).symm ink
      | succ place => exact ih inside place c found ink
    cases inside with
    | succ inside => exact blank inside
    | zero =>
      rw [blankComments]
      split
      · exact blank _
      · intro place c found ink
        cases place with
        | zero => exact found
        | succ place => exact ih 0 place c found ink

/-- The first character of a text stays, unless a block comment begins with it. -/
theorem first_blankComments (text : List Char) :
    (blankComments 0 text)[0]? = text[0]? ∨ text[0]? = some '/' := by
  cases text with
  | nil => exact .inl rfl
  | cons c rest =>
    rw [blankComments]
    split
    · rename_i comment
      unfold commentTail? at comment
      split at comment
      · exact .inr rfl
      · contradiction
    · exact .inl rfl

/-- What a line holds besides comments is shown in the line, and begins as this does, unless this
begins with a comment. -/
theorem shownIn_of_withoutComments (removed : withoutComments text = .ok code) :
    ShownIn code text ∧ ∀ c, code[0]? = some c → text[0]? = some c ∨ text[0]? = some '/' := by
  unfold withoutComments at removed
  simp only at removed
  split at removed
  · contradiction
  · obtain rfl := Except.ok.inj removed
    have ends := Text.dropEndWhile_isPrefix isLineEnd text
    have front := (before_isPrefix [';'] _).trans
      (before_isPrefix ['/', '/'] (blankComments 0 (Text.dropEndWhile isLineEnd text)))
    refine ⟨((shownIn_blankComments 0 _).of_isPrefix front).isPrefix ends, fun c first => ?_⟩
    have first := getElem?_of_isPrefix front first
    rcases first_blankComments (Text.dropEndWhile isLineEnd text) with same | comment
    · exact .inl (getElem?_of_isPrefix ends (same ▸ first))
    · exact .inr (getElem?_of_isPrefix ends comment)

/-- A comment that is not closed is reported from its mark to the end of the line. -/
theorem span_of_withoutComments {error : AssemblyError}
    (refused : withoutComments text = .error error) :
    ∃ start stop : Nat, error = ⟨.unterminatedComment, ⟨start, stop⟩⟩ ∧ start < stop ∧
      stop ≤ text.length := by
  unfold withoutComments at refused
  simp only at refused
  split at refused
  · rename_i start found
    obtain ⟨front, behind, split, rfl, _, some⟩ := exists_of_position? found
    refine ⟨_, _, (Except.error.inj refused).symm, ?_, ?_⟩
    · have count := List.length_pos_iff.mpr some
      rw [split, List.length_append]
      omega
    · rw [length_blankComments]
      exact (Text.dropEndWhile_isPrefix isLineEnd text).length_le
  · contradiction

/-! ### Parts -/

/-- What stands behind the label of a line, or all of the line where there is none. -/
def behindLabel (line : List Char) : List Char :=
  match label? line with
  | some (_, behind) => behind
  | none => line

/-- The parts of a line without comments. -/
def ofCut (line : List Char) : SourceLine :=
  let label := (label? line).map fun found => String.ofList found.1
  let start := (behindLabel line).dropWhile Text.isBlank
  let word := start.takeWhile fun c => !Text.isBlank c
  let operands := (start.drop word.length).dropWhile Text.isBlank
  if word.isEmpty then ⟨label, none, "", line.length⟩
  else ⟨label, some (Text.lower (String.ofList word)),
    String.ofList (Text.dropEndWhile Text.isBlank operands), line.length - operands.length⟩

/-- The parts of a line are those of the line without comments. -/
theorem parse_eq (text : String) : parse text = (withoutComments text.toList).map ofCut := by
  rw [parse]
  cases withoutComments text.toList with
  | error error => rfl
  | ok line =>
    rw [ok_bind rfl, Except.map, ofCut, behindLabel]
    rcases label? line with _ | ⟨name, behind⟩
    · simp only
      split <;> rfl
    · simp only
      split <;> rfl

/-- A label is a name that only blanks stand before. -/
theorem split_of_label? {name : List Char} (labelled : label? line = some (name, behind)) :
    ∃ blanks between, line = blanks ++ name ++ (between ++ ':' :: behind) ∧
      (∀ c ∈ blanks, Text.isBlank c = true) ∧ Lexeme.IsLexeme .name name := by
  unfold label? at labelled
  split at labelled
  · contradiction
  · rename_i c rest begins
    split at labelled
    · rename_i starts
      split at labelled
      · rename_i closes
        obtain ⟨rfl, rfl⟩ := Prod.mk.inj (Option.some.inj labelled)
        refine ⟨line.takeWhile Text.isBlank,
          (rest.dropWhile Lexeme.continuesName).takeWhile Text.isBlank, ?_,
          List.all_eq_true.mp List.all_takeWhile,
          .name starts (List.all_eq_true.mp List.all_takeWhile)⟩
        rw [← closes, List.takeWhile_append_dropWhile, List.append_assoc, List.cons_append,
          List.takeWhile_append_dropWhile, ← begins, List.takeWhile_append_dropWhile]
      · contradiction
    · contradiction

/-- What stands behind the label of a line ends the line. -/
theorem behindLabel_suffix (line : List Char) : behindLabel line <:+ line := by
  unfold behindLabel
  split
  · rename_i labelled
    obtain ⟨blanks, between, split, _⟩ := split_of_label? labelled
    rw [split]
    exact (List.suffix_cons ..).trans ((List.suffix_append ..).trans (List.suffix_append ..))
  · exact List.suffix_rfl

/-- The operand text stands at its column, and only blanks stand behind it. -/
theorem split_ofCut (line : List Char) :
    ∃ front behind, line = front ++ (ofCut line).operands.toList ++ behind ∧
      (ofCut line).column = front.length ∧ ∀ c ∈ behind, Text.isBlank c = true := by
  unfold ofCut
  extract_lets label start word operands
  split
  · exact ⟨line, [], by simp, rfl, fun c absent => nomatch absent⟩
  · have suffix : operands <:+ line :=
      (List.dropWhile_suffix _).trans ((List.drop_suffix _ _).trans
        ((List.dropWhile_suffix _).trans (behindLabel_suffix line)))
    obtain ⟨front, split⟩ := suffix
    obtain ⟨blanks, trimmed, isBlank⟩ := Text.exists_dropEndWhile Text.isBlank operands
    refine ⟨front, blanks, ?_, ?_, isBlank⟩
    · rw [String.toList_ofList, List.append_assoc, ← trimmed, split]
    · simp only [← split, List.length_append, Nat.add_sub_cancel]

end SourceLine

end A64Machine
