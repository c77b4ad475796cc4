import A64Machine.Proofs.OperandGrammar
import A64Machine.Proofs.SourceColumns

/-!
# Where operands stand

The tokens of an operand text come one behind the other. So do the groups that are read as operands,
and an operand that takes in a later group grows to the end of it. All places of the operands, and of
the complaints about groups that are no operands, lie within the text, and the place of several
operands goes from the first of them to the last.
-/

namespace A64Machine

variable {text : List Char} {first token : Token} {rest group tokens : List Token}
  {groups : List (List Token)}

/-- A span lies within a text, and does not end before it begins. -/
structure Span.Inside (text : List Char) (span : Span) : Prop where
  start : 0 ≤ span.start
  ordered : span.start ≤ span.stop
  stop : span.stop ≤ text.length

/-- The start of a text. -/
theorem Span.inside_zero : Span.Inside text ⟨0, 0⟩ :=
  ⟨Int.le_refl 0, Int.le_refl 0, Int.natCast_nonneg _⟩

/-! ### Tokens -/

/-- A token stands in a text where its span says. -/
structure Token.Stands (text : List Char) (token : Token) : Prop where
  inside : token.span.Inside text
  slice : token.span.slice text = token.text.toList

/-- Tokens stand in a text one behind the other. -/
structure Token.Rising (text : List Char) (tokens : List Token) : Prop where
  stands : ∀ token ∈ tokens, token.Stands text
  rising : tokens.Pairwise fun first second => first.span.stop ≤ second.span.start

namespace Token

theorem Rising.sublist (rising : Rising text tokens) (part : group.Sublist tokens) :
    Rising text group :=
  ⟨fun token inside => rising.stands token (part.subset inside), rising.rising.sublist part⟩

/-- The place of some tokens ends with one of them. -/
theorem exists_last (first : Token) (rest : List Token) :
    ∃ last ∈ first :: rest, (spanOf first rest).stop = last.span.stop := by
  have isLast := List.getLast?_eq_some_getLast (List.cons_ne_nil first rest)
  refine ⟨_, List.mem_of_getLast? isLast, ?_⟩
  rw [spanOf, isLast]
  rfl

/-- The place from the first to the last of some tokens lies within the text. -/
theorem Rising.inside_spanOf (rising : Rising text (first :: rest)) :
    (spanOf first rest).Inside text := by
  have begins := (rising.stands first List.mem_cons_self).inside
  obtain ⟨last, among, stop⟩ := exists_last first rest
  have ends := (rising.stands last among).inside
  refine ⟨begins.start, ?_, stop ▸ ends.stop⟩
  rw [stop]
  rcases List.mem_cons.mp among with rfl | later
  · exact begins.ordered
  · have apart := List.rel_of_pairwise_cons rising.rising later
    exact Int.le_trans begins.ordered (Int.le_trans apart ends.ordered)

end Token

/-! ### Operands -/

/-- The tokens of an expression stand in a text, and its place lies within it. -/
structure Expression.Stands (text : List Char) (expression : Expression) : Prop where
  tokens : ∀ token ∈ expression.tokens, token.Stands text
  inside : expression.span.Inside text

namespace Operand

open Token (Rising)

variable {readInner : List (List Token) → Except AssemblyError (List Operand)}
  {read after operands : List Operand} {position : Int}

/-- The expressions of an operand stand in a text, and all its places lie within it. -/
abbrev Stands (text : List Char) (operand : Operand) : Prop :=
  operand.Each (Span.Inside text) (Expression.Stands text)

/-- The operands that were read, which are listed from the latest, stand in a text one behind the
other, up to a position. -/
structure Reached (text : List Char) (position : Int) (read : List Operand) : Prop where
  stands : ∀ operand ∈ read, operand.Stands text
  ended : ∀ operand ∈ read, operand.span.stop ≤ position
  ordered : read.Pairwise fun later earlier => earlier.span.start ≤ later.span.start

/-- The expression of some tokens stands in their text. -/
theorem stands_expression (rising : Rising text group) :
    ∀ expression, expression? (dropNumberSign group) = some expression → expression.Stands text := by
  intro expression made
  have rising := rising.sublist (dropNumberSign_sublist group)
  cases given : dropNumberSign group with
  | nil =>
    rw [given] at made
    contradiction
  | cons first rest =>
    rw [given] at made rising
    obtain rfl := Option.some.inj made
    exact ⟨rising.stands, rising.inside_spanOf⟩

/-- An operand that takes in a shift or an extension grows to the end of it. -/
theorem stands_modify {modifier : Modifier} {amount : Option Expression} {stop : Int}
    {operand changed : Operand} (stands : operand.Stands text)
    (inside : Span.Inside text ⟨operand.span.start, stop⟩)
    (amountStands : ∀ expression, amount = some expression → expression.Stands text)
    (done : modify? modifier amount stop operand = some changed) :
    changed.Stands text ∧ changed.span = ⟨operand.span.start, stop⟩ := by
  cases operand with
  | register operand =>
    rw [modify?] at done
    split at done
    · contradiction
    · exact Option.some.inj done ▸ ⟨⟨inside, amountStands⟩, rfl⟩
  | immediate operand =>
    rw [modify?] at done
    split at done
    · contradiction
    · exact Option.some.inj done ▸ ⟨⟨inside, stands.value, amountStands⟩, rfl⟩
  | address operand => contradiction

/-- One more operand comes behind those that were read. -/
theorem Reached.cons (reached : Reached text position read) {operand : Operand} {span : Span}
    (stands : operand.Stands text) (isSpan : operand.span = span) (ahead : position ≤ span.start) :
    Reached text span.stop (operand :: read) := by
  subst isSpan
  have ordered := stands.place.ordered
  refine ⟨List.forall_mem_cons.mpr ⟨stands, reached.stands⟩,
    List.forall_mem_cons.mpr ⟨Int.le_refl _, fun earlier inside => ?_⟩,
    .cons (fun earlier inside => ?_) reached.ordered⟩
  · have ended := reached.ended earlier inside
    omega
  · have ended := reached.ended earlier inside
    have own := (reached.stands earlier inside).place.ordered
    omega

/-- The latest operand grows to a later end. -/
theorem Reached.grow {latest changed : Operand} {stop : Int}
    (reached : Reached text position (latest :: read)) (stands : changed.Stands text)
    (isSpan : changed.span = ⟨latest.span.start, stop⟩) (ahead : position ≤ stop) :
    Reached text stop (changed :: read) := by
  obtain ⟨_, earlier⟩ := List.forall_mem_cons.mp reached.stands
  obtain ⟨_, ended⟩ := List.forall_mem_cons.mp reached.ended
  obtain ⟨before, ordered⟩ := List.pairwise_cons.mp reached.ordered
  refine ⟨List.forall_mem_cons.mpr ⟨stands, earlier⟩,
    List.forall_mem_cons.mpr ⟨?_, fun other inside => Int.le_trans (ended other inside) ahead⟩,
    .cons ?_ ordered⟩
  · exact Int.le_of_eq (congrArg Span.stop isSpan)
  · rw [isSpan]
    exact before

/-- A group that stands behind the operands that were read leads to its own end. -/
theorem Takes.reached (takes : Takes readInner read (first :: rest) after)
    (rising : Rising text (first :: rest)) (ahead : position ≤ first.span.start)
    (inner : ∀ between preIndexed operands,
      bracketed? (first :: rest) = some (between, preIndexed) →
        readInner (Token.splitCommas between) = .ok operands →
          ∀ operand ∈ operands, operand.Stands text)
    (reached : Reached text position read) :
    Reached text (Token.spanOf first rest).stop after := by
  have place := rising.inside_spanOf
  have further : position ≤ (Token.spanOf first rest).stop := Int.le_trans ahead place.ordered
  have none : ∀ expression : Expression, none = some expression → expression.Stands text :=
    fun _ absent => nomatch absent
  -- The latest operand begins before the group, so that it may grow to the end of it.
  have grown {latest : Operand} {earlier : List Operand}
      (reached : Reached text position (latest :: earlier)) :
      Span.Inside text ⟨latest.span.start, (Token.spanOf first rest).stop⟩ := by
    have own := (reached.stands latest List.mem_cons_self).place
    have ended := reached.ended latest List.mem_cons_self
    exact ⟨own.start, Int.le_trans own.ordered (Int.le_trans ended further), place.stop⟩
  cases takes with
  | register isRegister => exact reached.cons ⟨place, none⟩ rfl ahead
  | modified isModifier done =>
    have amount := stands_expression (rising.sublist (List.sublist_cons_self first rest))
    obtain ⟨stands, span⟩ :=
      stands_modify (reached.stands _ List.mem_cons_self) (grown reached) amount done
    exact reached.grow stands span further
  | address opens closed made parts =>
    have within := inner _ _ _ closed made
    refine reached.cons ⟨place, fun part inside => ?_, none⟩ rfl ahead
    obtain ⟨operand, among, isPart⟩ := exists_operand_of_parts parts part inside
    exact (within operand (List.mem_reverse.mp among)).part isPart
  | @postIndexed latest earlier _ _ value begins made waits =>
    have stands : (Operand.address latest).Stands text := reached.stands _ List.mem_cons_self
    have amount := stands_expression rising value made
    refine reached.grow ⟨grown reached, stands.parts, fun expression same => ?_⟩ rfl further
    exact Option.some.inj same ▸ amount
  | immediate begins made closed =>
    exact reached.cons ⟨place, stands_expression rising _ made, none⟩ rfl ahead

theorem reached_nil : Reached text 0 [] :=
  ⟨fun _ absent => by contradiction, fun _ absent => by contradiction, .nil⟩

/-- What stands between the commas of some tokens stands in the text as these do. -/
theorem rising_splitCommas {between : List Token} {preIndexed : Bool} (rising : Rising text group)
    (closed : bracketed? group = some (between, preIndexed)) :
    Rising text (Token.splitCommas between).flatten :=
  rising.sublist ((Token.splitCommas_sublist between).trans (bracketed_sublist closed))

/-- Groups that stand behind the operands that were read lead on in the text, if the operands in their
brackets stand in it. -/
theorem reached_foldlM
    (inner : ∀ groups operands, Rising text groups.flatten → readInner groups = .ok operands →
      ∀ operand ∈ operands, operand.Stands text)
    (done : groups.foldlM (readGroupWith readInner) read = .ok after)
    (rising : Rising text groups.flatten)
    (ahead : ∀ token ∈ groups.flatten, position ≤ token.span.start)
    (reached : Reached text position read) : ∃ position, Reached text position after := by
  induction groups generalizing read position with
  | nil =>
    obtain rfl := Except.ok.inj done
    exact ⟨position, reached⟩
  | cons group groups ih =>
    rw [List.foldlM_cons] at done
    obtain ⟨middle, here, later⟩ := bind_eq_ok.mp done
    rw [List.flatten_cons] at rising ahead
    cases group with
    | nil => cases here
    | cons first rest =>
      have own := rising.sublist (List.sublist_append_left (first :: rest) groups.flatten)
      have others := rising.sublist (List.sublist_append_right (first :: rest) groups.flatten)
      refine ih later others (fun token inside => ?_)
        ((readGroupWith_eq_ok.mp here).reached own (ahead first List.mem_cons_self)
          (fun between _ operands closed => inner _ _ (rising_splitCommas own closed)) reached)
      obtain ⟨last, isLast, ends⟩ := Token.exists_last first rest
      rw [ends]
      exact (List.pairwise_append.mp rising.rising).2.2 last isLast token inside

/-- Groups that stand behind the operands that were read lead on in the text. -/
theorem reached_readGroups (depth : Nat) (done : groups.foldlM (readGroup depth) read = .ok after)
    (rising : Rising text groups.flatten)
    (ahead : ∀ token ∈ groups.flatten, position ≤ token.span.start)
    (reached : Reached text position read) : ∃ position, Reached text position after := by
  induction depth generalizing groups read after position with
  | zero => exact reached_foldlM (fun _ _ _ none => by cases none) done rising ahead reached
  | succ depth ih =>
    refine reached_foldlM (fun groups operands rising read => ?_) done rising ahead reached
    obtain ⟨_, reached⟩ := ih read rising
      (fun token inside => (rising.stands token inside).inside.start) reached_nil
    exact reached.stands

/-- Groups that are no operands are refused at a place within the text. -/
theorem readGroups_failsOnly (depth : Nat) (read : List Operand)
    (rising : ∀ group ∈ groups, Rising text group) :
    FailsOnly (fun error => error.complaint ∈ complaints ∧ error.span.Inside text)
      (groups.foldlM (readGroup depth) read) := by
  have own {group : List Token} (rising : Rising text group) : ∀ first rest, group = first :: rest →
      ∀ complaint ∈ complaints, complaint ∈ complaints ∧ (Token.spanOf first rest).Inside text := by
    rintro first rest rfl complaint among
    exact ⟨among, rising.inside_spanOf⟩
  induction depth generalizing groups read with
  | zero =>
    refine failsOnly_foldlM fun group among read => ?_
    exact readGroupWith_failsOnly ⟨by decide, Span.inside_zero⟩ (own (rising group among))
      (fun _ _ _ => failsOnly_error.mpr ⟨by decide, Span.inside_zero⟩) read
  | succ depth ih =>
    refine failsOnly_foldlM fun group among read => ?_
    refine readGroupWith_failsOnly ⟨by decide, Span.inside_zero⟩ (own (rising group among))
      (fun between preIndexed closed => ih [] fun part inside => ?_) read
    exact (rising_splitCommas (rising group among) closed).sublist
      (List.sublist_flatten_of_mem inside)

/-- The place from the first to the last of some operands lies within the text. -/
theorem Reached.inside_spanOf (reached : Reached text position operands.reverse) :
    (spanOf operands).Inside text := by
  unfold spanOf
  split
  · rename_i first last isFirst isLast
    obtain ⟨rest, rfl⟩ := List.head?_eq_some_iff.mp isFirst
    have begins := (reached.stands first (by simp)).place
    have ends := (reached.stands last (List.mem_reverse.mpr (List.mem_of_getLast? isLast))).place
    refine ⟨begins.start, ?_, ends.stop⟩
    rcases List.mem_cons.mp (List.mem_of_getLast? isLast) with rfl | later
    · exact begins.ordered
    · have before := List.rel_of_pairwise_cons (List.pairwise_reverse.mp reached.ordered) later
      exact Int.le_trans before ends.ordered
  · exact Span.inside_zero

/-- Tokens that stand in a text are read as operands that stand in it, or they are refused at a place
within it. -/
theorem ofGroups_stands (rising : Rising text groups.flatten) :
    FailsOnly (fun error => error.complaint ∈ complaints ∧ error.span.Inside text)
        (ofGroups groups) ∧
      ∀ operands, ofGroups groups = .ok operands →
        (spanOf operands).Inside text ∧ ∀ operand ∈ operands, operand.Stands text := by
  refine ⟨fun error failed => ?_, fun operands read => ?_⟩
  · exact readGroups_failsOnly _ []
      (fun group among => rising.sublist (List.sublist_flatten_of_mem among)) error
      (map_eq_error.mp failed)
  · obtain ⟨reversed, readReversed, rfl⟩ := map_eq_ok.mp read
    obtain ⟨position, reached⟩ := reached_readGroups _ readReversed rising
      (fun token inside => (rising.stands token inside).inside.start) reached_nil
    rw [← List.reverse_reverse reversed] at reached
    refine ⟨reached.inside_spanOf, fun operand inside => ?_⟩
    exact reached.stands operand (List.mem_reverse.mpr inside)

end Operand

end A64Machine
