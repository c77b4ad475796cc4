import A64Machine.Proofs.Operand
import A64Machine.Proofs.OperandGroups

/-!
# Which groups of tokens are operands

The groups of an operand list are read from left to right, and a group that modifies or completes
an operand is accepted or not by what that operand is. So a grammar of operand lists goes along with
the shapes of the operands that were read. An operand list is read just when the grammar accepts it,
with operands of the shapes that the grammar tells.

A number sign asks for an expression behind it. The grammar has a parameter for what may follow the
keyword of a shift or an extension, since the reader lets a number sign stand there alone.
-/

namespace A64Machine.Operand

/-- What later groups ask of an operand: its form, and whether it was modified or completed. -/
inductive Shape where
  | register (modified : Bool)
  | immediate (modified : Bool)
  | address (completed : Bool)
  deriving DecidableEq, Repr

namespace Shape

/-- Whether the operand is an address. -/
def isAddress : Shape → Bool
  | .address _ => true
  | _ => false

/-- The shape behind a shift or an extension. A register takes any of them and an immediate takes a
left shift, each of them once. -/
def modify? (modifier : Modifier) : Shape → Option Shape
  | .register false => some (.register true)
  | .immediate false => if modifier = .lsl then some (.immediate true) else none
  | _ => none

end Shape

/-- The shape of an operand. -/
def shape : Operand → Shape
  | .register operand => .register operand.modifier.isSome
  | .immediate operand => .immediate operand.modifier.isSome
  | .address operand => .address operand.postIndex.isSome

/-- Brackets around some tokens, with a mark of pre-indexing behind them or without. -/
structure IsBracketed (group inner : List Token) : Prop where
  notEmpty : inner ≠ []
  split : ∃ opening closing marks, group = opening :: inner ++ closing :: marks ∧
    opening.isPunct "[" = true ∧ closing.isPunct "]" = true ∧
    (marks = [] ∨ ∃ mark, marks = [mark] ∧ mark.isPunct "!" = true)

/-- Some tokens are a number sign alone. -/
def IsJustSign (tokens : List Token) : Prop :=
  ∃ sign, tokens = [sign] ∧ sign.isPunct "#" = true

/-- The operand lists that are accepted behind the operands read so far, and all operands then. The
operands are told by their shapes and listed from the latest, and `amount` tells what may follow the
keyword of a modifier. -/
inductive Accepts (amount : List Token → Prop) :
    (read : List Shape) → (groups : List (List Token)) → (after : List Shape) → Prop
  | done {read : List Shape} : Accepts amount read [] read
  /-- A register is its name alone. -/
  | register {read after : List Shape} {first : Token} {groups : List (List Token)}
    (isRegister : (Register.ofName? (keyword first)).isSome)
    (behind : Accepts amount (.register false :: read) groups after) :
    Accepts amount read ([first] :: groups) after
  /-- A modifier stands behind an operand that takes it. -/
  | modifier {latest changed : Shape} {earlier after : List Shape} {first : Token}
    {tokens : List Token} {groups : List (List Token)} {modifier : Modifier}
    (isModifier : Modifier.ofName? (keyword first) = some modifier) (allowed : amount tokens)
    (taken : latest.modify? modifier = some changed)
    (behind : Accepts amount (changed :: earlier) groups after) :
    Accepts amount (latest :: earlier) ((first :: tokens) :: groups) after
  /-- An address has operands between its brackets, with no address among them. -/
  | address {read parts after : List Shape} {group inner : List Token} {groups : List (List Token)}
    (brackets : IsBracketed group inner)
    (between : Accepts amount [] (Token.splitCommas inner) parts)
    (flat : ∀ part ∈ parts, part.isAddress = false)
    (behind : Accepts amount (.address false :: read) groups after) :
    Accepts amount read (group :: groups) after
  /-- A value behind an address completes it. -/
  | postIndex {earlier after : List Shape} {first : Token} {tokens : List Token}
    {groups : List (List Token)} (begins : BeginsValue first)
    (value : ¬IsJustSign (first :: tokens))
    (behind : Accepts amount (.address true :: earlier) groups after) :
    Accepts amount (.address false :: earlier) ((first :: tokens) :: groups) after
  /-- A value elsewhere is an immediate. -/
  | immediate {read after : List Shape} {first : Token} {tokens : List Token}
    {groups : List (List Token)} (begins : BeginsValue first)
    (value : ¬IsJustSign (first :: tokens))
    (closed : ∀ earlier, read ≠ .address false :: earlier)
    (behind : Accepts amount (.immediate false :: read) groups after) :
    Accepts amount read ((first :: tokens) :: groups) after

/-- A group in which a number sign stands alone behind the keyword of a modifier. -/
inductive LoneSign : List Token → Prop
  | behind {first : Token} {tokens : List Token}
    (isModifier : (Modifier.ofName? (keyword first)).isSome) (isSign : IsJustSign tokens) :
    LoneSign (first :: tokens)
  | between {group inner part : List Token} (brackets : IsBracketed group inner)
    (among : part ∈ Token.splitCommas inner) (lone : LoneSign part) : LoneSign group

/-! ### Tokens of a group -/

/-- Tokens make an expression unless they are a number sign alone or none at all. -/
theorem exists_expression_iff {first : Token} {rest : List Token} :
    (∃ value, expression? (dropNumberSign (first :: rest)) = some value) ↔
      ¬IsJustSign (first :: rest) := by
  rw [dropNumberSign]
  cases isSign : first.isPunct "#" with
  | true => cases rest <;> simp [expression?, IsJustSign, isSign]
  | false => simp [expression?, IsJustSign, isSign]

/-- A list of three or more has some items between its first and its last. -/
theorem exists_between {list : List Token} (long : 2 < list.length) :
    ∃ first inner last, list = first :: inner ++ [last] ∧ inner ≠ [] ∧
      list.tail.dropLast = inner ∧ list.getLast? = some last := by
  cases list with
  | nil => contradiction
  | cons first rest =>
    have some : rest ≠ [] := by
      rintro rfl
      simp at long
    have split := rest.dropLast_concat_getLast some
    refine ⟨first, rest.dropLast, rest.getLast some, by rw [List.cons_append, split], ?_, rfl, ?_⟩
    · intro none
      rw [none] at split
      rw [← split] at long
      simp at long
    · rw [List.getLast?_cons, List.getLast?_eq_some_getLast some]
      rfl

/-- What is taken from between brackets is what they stand around. -/
theorem isBracketed_of_bracketed? {first : Token} {rest inner : List Token} {preIndexed : Bool}
    (opens : first.isPunct "[" = true)
    (done : bracketed? (first :: rest) = some (inner, preIndexed)) :
    IsBracketed (first :: rest) inner := by
  unfold bracketed? at done
  extract_lets marked body between at done
  have ended : ∃ marks, first :: rest = body ++ marks ∧
      (marks = [] ∨ ∃ mark, marks = [mark] ∧ mark.isPunct "!" = true) := by
    cases isMarked : marked with
    | false => exact ⟨[], by simp [body, isMarked], .inl rfl⟩
    | true =>
      have last := (Bool.and_eq_true_iff.mp isMarked).2
      rw [List.getLast?_eq_some_getLast (List.cons_ne_nil first rest), Option.any_some] at last
      refine ⟨_, ?_, .inr ⟨_, rfl, last⟩⟩
      rw [show body = (first :: rest).dropLast by simp [body, isMarked],
        List.dropLast_concat_getLast]
  split at done
  · rename_i isClosed
    obtain ⟨rfl, _⟩ := Prod.mk.inj (Option.some.inj done)
    obtain ⟨marks, split, isMark⟩ := ended
    obtain ⟨opening, inner, closing, isBody, some, isInner, isLast⟩ := exists_between isClosed.1
    rw [isLast, Option.any_some] at isClosed
    rw [isBody] at split
    obtain ⟨rfl, _⟩ := List.cons.inj split
    rw [show between = inner from isInner]
    exact ⟨some, first, closing, marks, by simpa using split, opens,
      isClosed.2, isMark⟩
  · contradiction

/-- What brackets stand around is taken from between them. -/
theorem IsBracketed.exists_bracketed {group inner : List Token}
    (brackets : IsBracketed group inner) :
    ∃ first rest preIndexed, group = first :: rest ∧ first.isPunct "[" = true ∧
      bracketed? (first :: rest) = some (inner, preIndexed) := by
  obtain ⟨opening, closing, marks, rfl, opens, closes, isMark⟩ := brackets.split
  rcases isMark with rfl | ⟨mark, rfl, marked⟩
  · exact ⟨opening, _, false, rfl, opens,
      bracketed?_closed brackets.notEmpty (Token.isPunct_iff.mp closes)⟩
  · exact ⟨opening, _, true, rfl, opens,
      bracketed?_preIndexed brackets.notEmpty (Token.isPunct_iff.mp closes)
        (Token.isPunct_iff.mp marked)⟩

/-- Brackets are more tokens than those between them. -/
theorem IsBracketed.length_lt {group inner : List Token} (brackets : IsBracketed group inner) :
    inner.length < group.length := by
  obtain ⟨opening, closing, marks, rfl, _⟩ := brackets.split
  simp only [List.length_append, List.length_cons]
  omega

/-- No part between commas has more tokens than all of them together. -/
theorem length_le_of_mem_splitCommas {list part : List Token}
    (among : part ∈ Token.splitCommas list) : part.length ≤ list.length := by
  have whole : (Token.splitCommas list).flatten.length ≤ list.length := by
    clear among
    induction list with
    | nil => exact Nat.le_refl _
    | cons token rest ih =>
      rw [Token.splitCommas]
      split
      · exact Nat.le_succ_of_le ih
      · rw [Token.flatten_consToFirst]
        exact Nat.succ_le_succ ih
  exact Nat.le_trans (List.Sublist.length_le (List.sublist_flatten_of_mem among)) whole

/-! ### Shapes of operands -/

/-- A shift or an extension is taken by the shape of an operand. -/
theorem map_modify? (modifier : Modifier) (amount : Option Expression) (stop : Int)
    (operand : Operand) :
    (Operand.modify? modifier amount stop operand).map shape = operand.shape.modify? modifier := by
  cases operand with
  | register operand =>
    cases given : operand.modifier <;> simp [Operand.modify?, shape, Shape.modify?, given]
  | immediate operand =>
    cases given : operand.modifier with
    | none =>
      by_cases isLsl : modifier = .lsl <;>
        simp [Operand.modify?, shape, Shape.modify?, given, isLsl]
    | some => simp [Operand.modify?, shape, Shape.modify?, given]
  | address operand => rfl

/-- Operands are the parts of an address unless one of them is an address. -/
theorem exists_parts_iff {operands : List Operand} :
    (∃ parts, operands.mapM part? = some parts) ↔
      ∀ operand ∈ operands, operand.shape.isAddress = false := by
  induction operands with
  | nil => simp
  | cons operand rest ih =>
    rw [List.forall_mem_cons, ← ih]
    cases operand <;> cases made : rest.mapM part? <;>
      simp [List.mapM_cons, part?, shape, Shape.isAddress, made]

/-! ### What is read is accepted -/

/-- A group that is read is accepted, if the groups in its brackets are. -/
theorem Takes.accepts {readInner : List (List Token) → Except AssemblyError (List Operand)}
    {read after : List Operand} {group : List Token} {groups : List (List Token)}
    {result : List Shape} (takes : Takes readInner read group after)
    (inner : ∀ groups operands, readInner groups = .ok operands →
      Accepts (fun _ => True) [] groups (operands.map shape))
    (behind : Accepts (fun _ => True) (after.map shape) groups result) :
    Accepts (fun _ => True) (read.map shape) (group :: groups) result := by
  cases takes with
  | register isRegister => exact .register (Option.isSome_of_eq_some isRegister) behind
  | modified isModifier done =>
    refine .modifier isModifier trivial ?_ behind
    rw [← map_modify?, done]
    rfl
  | address opens closed read made =>
    refine .address (isBracketed_of_bracketed? opens closed) (inner _ _ read) ?_ behind
    have flat := exists_parts_iff.mp ⟨_, made⟩
    simpa using flat
  | postIndexed begins made waits =>
    rw [List.map_cons, shape, waits]
    exact .postIndex begins (exists_expression_iff.mp ⟨_, made⟩) behind
  | @immediate _ _ _ _ begins made closed =>
    refine .immediate begins (exists_expression_iff.mp ⟨_, made⟩) ?_ behind
    intro earlier same
    obtain ⟨latest, operands, rfl, isAddress, _⟩ := List.map_eq_cons_iff.mp same
    cases latest with
    | address latest => exact closed latest operands rfl (by simpa [shape] using isAddress)
    | register | immediate => contradiction

/-- Groups that are read one after the other are accepted, if the groups in their brackets are. -/
theorem accepts_of_readGroupsWith
    {readInner : List (List Token) → Except AssemblyError (List Operand)}
    (inner : ∀ groups operands, readInner groups = .ok operands →
      Accepts (fun _ => True) [] groups (operands.map shape))
    {groups : List (List Token)} {read after : List Operand}
    (done : groups.foldlM (readGroupWith readInner) read = .ok after) :
    Accepts (fun _ => True) (read.map shape) groups (after.map shape) := by
  induction groups generalizing read with
  | nil => exact Except.ok.inj done ▸ .done
  | cons group groups ih =>
    rw [List.foldlM_cons] at done
    obtain ⟨middle, here, later⟩ := bind_eq_ok.mp done
    exact (readGroupWith_eq_ok.mp here).accepts inner (ih later)

/-- Groups that are read are accepted. -/
theorem accepts_of_readGroups (depth : Nat) {groups : List (List Token)}
    {read after : List Operand} (done : groups.foldlM (readGroup depth) read = .ok after) :
    Accepts (fun _ => True) (read.map shape) groups (after.map shape) := by
  induction depth generalizing groups read after with
  | zero => exact accepts_of_readGroupsWith (fun _ _ none => by contradiction) done
  | succ depth deeper => exact accepts_of_readGroupsWith (fun _ _ inner => @deeper _ [] _ inner) done

/-! ### What is accepted is read -/

/-- What takes no brackets is read at any depth. -/
theorem readGroup_of_takes {read after : List Operand} {group : List Token}
    (takes : ∀ readInner, Takes readInner read group after) (depth : Nat) :
    readGroup depth read group = .ok after := by
  obtain ⟨readInner, same⟩ := exists_readGroup depth
  rw [same]
  exact readGroupWith_eq_ok.mpr (takes readInner)

/-- Groups are read when their first is and then the others are. -/
theorem exists_read_cons {depth : Nat} {read middle : List Operand} {group : List Token}
    {groups : List (List Token)} {after : List Shape}
    (here : readGroup depth read group = .ok middle)
    (later : ∃ results, groups.foldlM (readGroup depth) middle = .ok results ∧
      results.map shape = after) :
    ∃ results, (group :: groups).foldlM (readGroup depth) read = .ok results ∧
      results.map shape = after := by
  rwa [List.foldlM_cons, ok_bind here]

/-- Groups that are accepted are read, if the depth allows for all their brackets. -/
theorem Accepts.exists_read {read after : List Shape} {groups : List (List Token)}
    (accepts : Accepts (fun _ => True) read groups after) (depth : Nat) {operands : List Operand}
    (shapes : operands.map shape = read) (short : ∀ group ∈ groups, group.length ≤ depth) :
    ∃ results, groups.foldlM (readGroup depth) operands = .ok results ∧
      results.map shape = after := by
  induction accepts generalizing depth operands with
  | done => exact ⟨operands, rfl, shapes⟩
  | register isRegister behind ih =>
    obtain ⟨named, isRegister⟩ := Option.isSome_iff_exists.mp isRegister
    obtain ⟨_, short⟩ := List.forall_mem_cons.mp short
    refine exists_read_cons (readGroup_of_takes (fun _ => .register isRegister) depth)
      (ih depth ?_ short)
    rw [List.map_cons, shapes]
    rfl
  | modifier isModifier allowed taken behind ih =>
    obtain ⟨_, short⟩ := List.forall_mem_cons.mp short
    obtain ⟨latest, operands, rfl, rfl, rfl⟩ := List.map_eq_cons_iff.mp shapes
    rw [← map_modify?, Option.map_eq_some_iff] at taken
    obtain ⟨changed, done, rfl⟩ := taken
    exact exists_read_cons (readGroup_of_takes (fun _ => .modified isModifier done) depth)
      (ih depth rfl short)
  | @address _ _ _ group inner _ brackets between flat behind ihBetween ih =>
    obtain ⟨fits, others⟩ := List.forall_mem_cons.mp short
    have shorter := brackets.length_lt
    cases depth with
    | zero => omega
    | succ depth =>
      have fitsBetween : ∀ part ∈ Token.splitCommas inner, part.length ≤ depth := by
        intro part among
        have := length_le_of_mem_splitCommas among
        omega
      obtain ⟨parts, read, rfl⟩ := ihBetween depth List.map_nil fitsBetween
      obtain ⟨made, isParts⟩ : ∃ made, parts.reverse.mapM part? = some made :=
        exists_parts_iff.mpr (by simpa using flat)
      obtain ⟨first, rest, preIndexed, rfl, opens, closed⟩ := brackets.exists_bracketed
      refine exists_read_cons (readGroupWith_eq_ok.mpr (.address opens closed read isParts))
        (ih _ ?_ others)
      rw [List.map_cons, shapes]
      rfl
  | postIndex begins value behind ih =>
    obtain ⟨_, short⟩ := List.forall_mem_cons.mp short
    obtain ⟨latest, operands, rfl, isAddress, rfl⟩ := List.map_eq_cons_iff.mp shapes
    obtain ⟨value, made⟩ := exists_expression_iff.mpr value
    cases latest with
    | register | immediate => contradiction
    | address latest =>
      have waits : latest.postIndex = none := by simpa [shape] using isAddress
      exact exists_read_cons (readGroup_of_takes (fun _ => .postIndexed begins made waits) depth)
        (ih depth rfl short)
  | immediate begins value closed behind ih =>
    obtain ⟨_, short⟩ := List.forall_mem_cons.mp short
    obtain ⟨value, made⟩ := exists_expression_iff.mpr value
    refine exists_read_cons (readGroup_of_takes (fun _ => .immediate begins made ?_) depth)
      (ih depth ?_ short)
    · rintro latest earlier rfl waits
      exact closed _ (by rw [← shapes, List.map_cons, shape, waits]; rfl)
    · rw [List.map_cons, shapes]
      rfl

/-! ### Lone number signs -/

/-- Brackets begin with an opening bracket. -/
theorem IsBracketed.opens {first : Token} {rest inner : List Token}
    (brackets : IsBracketed (first :: rest) inner) : first.isPunct "[" = true := by
  obtain ⟨opening, _, _, split, opens, _⟩ := brackets.split
  obtain ⟨rfl, _⟩ := List.cons.inj split
  exact opens

/-- A group does not begin with brackets and with a keyword at once. -/
theorem IsBracketed.noModifier {first : Token} {rest inner : List Token}
    (brackets : IsBracketed (first :: rest) inner) : Modifier.ofName? (keyword first) = none := by
  rw [keyword_of_isPunct brackets.opens, ofName?_empty.2]

/-- Brackets stand around the tokens that are taken from between them, and no others. -/
theorem IsBracketed.unique {group inner other : List Token} (brackets : IsBracketed group inner)
    (brackets' : IsBracketed group other) : inner = other := by
  obtain ⟨first, rest, _, rfl, _, taken⟩ := brackets.exists_bracketed
  obtain ⟨_, _, _, same, _, taken'⟩ := brackets'.exists_bracketed
  obtain ⟨rfl, rfl⟩ := List.cons.inj same
  exact (Prod.mk.inj (Option.some.inj (taken.symm.trans taken'))).1

/-- A group that begins with a keyword has a lone number sign when this is all that follows. -/
theorem loneSign_modifier {first : Token} {rest : List Token} {modifier : Modifier}
    (isModifier : Modifier.ofName? (keyword first) = some modifier) :
    LoneSign (first :: rest) ↔ IsJustSign rest := by
  constructor
  · intro lone
    cases lone with
    | behind _ isSign => exact isSign
    | between brackets => simp [brackets.noModifier] at isModifier
  · exact .behind (Option.isSome_of_eq_some isModifier)

/-- A group in brackets has a lone number sign when one of the parts between them has one. -/
theorem loneSign_brackets {group inner : List Token} (brackets : IsBracketed group inner) :
    LoneSign group ↔ ∃ part ∈ Token.splitCommas inner, LoneSign part := by
  constructor
  · intro lone
    cases lone with
    | behind isModifier => simp [brackets.noModifier] at isModifier
    | between brackets' among lone => exact ⟨_, brackets.unique brackets' ▸ among, lone⟩
  · rintro ⟨part, among, lone⟩
    exact .between brackets among lone

/-- The name of a register has no lone number sign. -/
theorem not_loneSign_register {first : Token}
    (isRegister : (Register.ofName? (keyword first)).isSome) : ¬LoneSign [first] := by
  intro lone
  cases lone with
  | behind isModifier =>
    obtain ⟨modifier, isModifier⟩ := Option.isSome_iff_exists.mp isModifier
    simp [noRegister_of_modifier isModifier] at isRegister
  | between brackets =>
    simp [keyword_of_isPunct brackets.opens, ofName?_empty] at isRegister

/-- A value has no lone number sign behind a keyword. -/
theorem not_loneSign_value {first : Token} {rest : List Token} (begins : BeginsValue first) :
    ¬LoneSign (first :: rest) := by
  intro lone
  cases lone with
  | behind isModifier => simp [begins.noModifier] at isModifier
  | between brackets =>
    have opens := brackets.opens
    simp [begins.noBracket] at opens

/-- A grammar without lone number signs accepts what is accepted otherwise and has none. -/
theorem accepts_iff_noLoneSign {read after : List Shape} {groups : List (List Token)} :
    Accepts (fun tokens => ¬IsJustSign tokens) read groups after ↔
      Accepts (fun _ => True) read groups after ∧ ∀ group ∈ groups, ¬LoneSign group := by
  constructor
  · intro accepts
    induction accepts with
    | done => exact ⟨.done, by simp⟩
    | register isRegister behind ih =>
      exact ⟨.register isRegister ih.1,
        List.forall_mem_cons.mpr ⟨not_loneSign_register isRegister, ih.2⟩⟩
    | modifier isModifier allowed taken behind ih =>
      exact ⟨.modifier isModifier trivial taken ih.1,
        List.forall_mem_cons.mpr ⟨mt (loneSign_modifier isModifier).mp allowed, ih.2⟩⟩
    | address brackets between flat behind ihBetween ih =>
      refine ⟨.address brackets ihBetween.1 flat ih.1, List.forall_mem_cons.mpr ⟨?_, ih.2⟩⟩
      rw [loneSign_brackets brackets]
      rintro ⟨part, among, lone⟩
      exact ihBetween.2 part among lone
    | postIndex begins value behind ih =>
      exact ⟨.postIndex begins value ih.1,
        List.forall_mem_cons.mpr ⟨not_loneSign_value begins, ih.2⟩⟩
    | immediate begins value closed behind ih =>
      exact ⟨.immediate begins value closed ih.1,
        List.forall_mem_cons.mpr ⟨not_loneSign_value begins, ih.2⟩⟩
  · rintro ⟨accepts, none⟩
    induction accepts with
    | done => exact .done
    | register isRegister behind ih =>
      exact .register isRegister (ih (List.forall_mem_cons.mp none).2)
    | modifier isModifier allowed taken behind ih =>
      obtain ⟨here, later⟩ := List.forall_mem_cons.mp none
      exact .modifier isModifier (mt (loneSign_modifier isModifier).mpr here) taken (ih later)
    | address brackets between flat behind ihBetween ih =>
      obtain ⟨here, later⟩ := List.forall_mem_cons.mp none
      refine .address brackets (ihBetween fun part among lone => here ?_) flat (ih later)
      exact .between brackets among lone
    | postIndex begins value behind ih =>
      exact .postIndex begins value (ih (List.forall_mem_cons.mp none).2)
    | immediate begins value closed behind ih =>
      exact .immediate begins value closed (ih (List.forall_mem_cons.mp none).2)

/-! ### Operand lists -/

/-- What can be wrong with the groups of an operand list. -/
def complaints : List Complaint :=
  [.operandExpected, .registerNameExpected, .badModifiedRegister, .addressFormat,
    .immediateExpected]

/-- Reading a group fails with one of the complaints about all of it, or as reading the groups in its
brackets does. -/
theorem readGroupWith_failsOnly {allowed : AssemblyError → Prop}
    {readInner : List (List Token) → Except AssemblyError (List Operand)} {group : List Token}
    (empty : allowed ⟨.operandExpected, ⟨0, 0⟩⟩)
    (own : ∀ first rest, group = first :: rest → ∀ complaint ∈ complaints,
      allowed ⟨complaint, Token.spanOf first rest⟩)
    (inner : ∀ between preIndexed, bracketed? group = some (between, preIndexed) →
      FailsOnly allowed (readInner (Token.splitCommas between))) (read : List Operand) :
    FailsOnly allowed (readGroupWith readInner read group) := by
  cases group with
  | nil => exact failsOnly_error.mpr empty
  | cons first rest =>
    have own := own first rest rfl
    simp only [complaints, List.forall_mem_cons] at own
    cases isRegister : Register.ofName? (keyword first) with
    | some named => cases rest <;> simp [readGroupWith, isRegister, own]
    | none =>
      cases isModifier : Modifier.ofName? (keyword first) with
      | some modifier =>
        cases read with
        | nil => simp [readGroupWith, isRegister, isModifier, own]
        | cons latest earlier =>
          simp only [readGroupWith, isRegister, isModifier]
          split <;> simp [own]
      | none =>
        cases opens : first.isPunct "[" with
        | true =>
          simp only [readGroupWith, isRegister, isModifier, opens, if_true]
          cases closed : bracketed? (first :: rest) with
          | none => simp [own]
          | some inside =>
            obtain ⟨between, preIndexed⟩ := inside
            refine failsOnly_bind.mpr ⟨inner between preIndexed closed, fun operands _ => ?_⟩
            split <;> simp [own]
        | false =>
          simp only [readGroupWith, isRegister, isModifier, opens, Bool.false_eq_true, if_false]
          cases expression? (dropNumberSign (first :: rest)) with
          | none => simp [own]
          | some value =>
            -- an expression is an operand of its own unless it follows an address
            rcases read with _ | ⟨_ | _ | latest, earlier⟩
            case cons.address => cases isPlain : latest.postIndex.isNone <;> simp [isPlain]
            all_goals simp

/-- Reading groups at any depth fails with one of the complaints. -/
theorem readGroup_failsOnly (depth : Nat) (read : List Operand) (group : List Token) :
    FailsOnly (fun error => error.complaint ∈ complaints) (readGroup depth read group) := by
  induction depth generalizing read group with
  | zero =>
    exact readGroupWith_failsOnly (by decide) (fun _ _ _ _ among => among)
      (fun _ _ _ => failsOnly_error.mpr (by decide)) read
  | succ depth ih =>
    exact readGroupWith_failsOnly (by decide) (fun _ _ _ _ among => among)
      (fun _ _ _ => failsOnly_foldlM fun _ _ _ => ih _ _) read

/-- Groups are read as operands of some shapes when they are accepted with these shapes. -/
theorem accepts_iff_ofGroups {groups : List (List Token)} {shapes : List Shape} :
    Accepts (fun _ => True) [] groups shapes ↔
      ∃ operands, ofGroups groups = .ok operands ∧ operands.reverse.map shape = shapes := by
  constructor
  · intro accepts
    have short : ∀ group ∈ groups, group.length ≤ groups.flatten.length :=
      fun group among => List.Sublist.length_le (List.sublist_flatten_of_mem among)
    obtain ⟨operands, read, rfl⟩ := accepts.exists_read _ List.map_nil short
    exact ⟨operands.reverse, map_eq_ok.mpr ⟨operands, read, rfl⟩, by rw [List.reverse_reverse]⟩
  · rintro ⟨operands, done, rfl⟩
    obtain ⟨reversed, read, rfl⟩ := map_eq_ok.mp done
    rw [List.reverse_reverse]
    exact accepts_of_readGroups _ read

/-- Groups are read as operands just when the grammar accepts them, with operands of the shapes that
it tells. A grammar that lets no number sign stand alone behind a keyword accepts what is read of
groups that have none. All failures are complaints about the groups. -/
theorem ofGroups_accepts (groups : List (List Token)) :
    (∀ shapes, Accepts (fun _ => True) [] groups shapes ↔
      ∃ operands, ofGroups groups = .ok operands ∧ operands.reverse.map shape = shapes) ∧
    (∀ shapes, Accepts (fun tokens => ¬IsJustSign tokens) [] groups shapes ↔
      (∃ operands, ofGroups groups = .ok operands ∧ operands.reverse.map shape = shapes) ∧
        ∀ group ∈ groups, ¬LoneSign group) ∧
    FailsOnly (fun error => error.complaint ∈ complaints) (ofGroups groups) := by
  refine ⟨fun shapes => accepts_iff_ofGroups, fun shapes => ?_, fun error failed => ?_⟩
  · rw [accepts_iff_noLoneSign, accepts_iff_ofGroups]
  · exact failsOnly_foldlM (fun group _ read => readGroup_failsOnly _ read group) error
      (map_eq_error.mp failed)

/-- A number sign alone is no amount behind a keyword, while it is refused as a value. -/
theorem parse_loneSign :
    parse "x2, lsl #" 0 = .ok [.register ⟨"x2", ⟨2, true⟩, some .lsl, none, ⟨0, 9⟩⟩] ∧
      parse "x2, #" 0 = .error ⟨.immediateExpected, ⟨4, 5⟩⟩ :=
  ⟨toOption_eq_some.mp (by decide +kernel), failure?_eq_some.mp (by decide +kernel)⟩

end A64Machine.Operand
