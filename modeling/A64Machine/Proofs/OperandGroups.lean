import A64Machine.Operand
import A64Machine.Proofs.Outcome

/-!
# What a group of tokens adds

The groups of a line are read one after the other. Each of them adds an operand, or it completes the
operand before it by a shift or by an amount. So there are no more operands than groups, and the
expressions of the operands are written with the tokens of the groups.
-/

namespace A64Machine

namespace Token

/-- A punctuation mark is no other one. -/
theorem isPunct_of_ne {token : Token} {text other : String} (isText : token.isPunct text = true)
    (apart : text ≠ other) : token.isPunct other = false := by
  simp only [isPunct, Bool.and_eq_true, beq_iff_eq] at isText
  simp [isPunct, isText.2, apart]

theorem flatten_consToFirst (token : Token) (groups : List (List Token)) :
    (consToFirst token groups).flatten = token :: groups.flatten := by
  cases groups <;> rfl

/-- The groups between commas have the other tokens in their order. -/
theorem splitCommas_sublist (list : List Token) : (splitCommas list).flatten.Sublist list := by
  induction list with
  | nil => exact List.Sublist.refl _
  | cons token rest ih =>
    rw [splitCommas]
    split
    · exact ih.cons _
    · rw [flatten_consToFirst]
      exact ih.cons_cons _

/-- The groups between the commas outside brackets have no other tokens. -/
theorem groupAt_subset (depth : Int) (list : List Token) : (groupAt depth list).flatten ⊆ list := by
  induction list generalizing depth with
  | nil => exact List.Subset.refl _
  | cons token rest ih =>
    unfold groupAt
    split
    · exact List.subset_cons_of_subset _ (ih depth)
    · rw [flatten_consToFirst]
      exact List.cons_subset_cons _ (ih _)

end Token

namespace Operand

theorem dropNumberSign_sublist (group : List Token) : (dropNumberSign group).Sublist group := by
  cases group with
  | nil => exact List.nil_sublist _
  | cons first rest =>
    rw [dropNumberSign]
    split
    · exact List.sublist_cons_self _ _
    · exact List.Sublist.refl _

/-- What stands between brackets has tokens of the group in their order. -/
theorem bracketed_sublist {group inner : List Token} {preIndexed : Bool}
    (done : bracketed? group = some (inner, preIndexed)) : inner.Sublist group := by
  unfold bracketed? at done
  extract_lets marked body between at done
  have within : body.Sublist group := by
    unfold body
    split
    · exact List.dropLast_sublist _
    · exact List.Sublist.refl _
  split at done
  · obtain ⟨rfl, _⟩ := Prod.mk.inj (Option.some.inj done)
    exact (List.dropLast_sublist _).trans ((List.tail_sublist _).trans within)
  · contradiction

/-! ### Reading a group -/

/-- The keyword of a modifier is no name of a register. -/
theorem noRegister_of_modifier {word : String} {modifier : Modifier}
    (isModifier : Modifier.ofName? word = some modifier) : Register.ofName? word = none := by
  have isWord := List.find?_some isModifier
  rw [beq_iff_eq] at isWord
  subst isWord
  cases modifier <;> decide

/-- What is no word is neither a register nor a modifier. -/
theorem ofName?_empty : Register.ofName? "" = none ∧ Modifier.ofName? "" = none := by
  decide

/-- A punctuation mark is no word. -/
theorem keyword_of_isPunct {token : Token} {text : String} (isPunct : token.isPunct text = true) :
    keyword token = "" := by
  simp only [Token.isPunct, Bool.and_eq_true, beq_iff_eq] at isPunct
  simp [keyword, isPunct.1]

/-- A token that begins an expression: neither the name of a register, nor the keyword of a
modifier, nor an opening bracket. -/
structure BeginsValue (token : Token) : Prop where
  noRegister : Register.ofName? (keyword token) = none
  noModifier : Modifier.ofName? (keyword token) = none
  noBracket : token.isPunct "[" = false

/-- What reading a group makes of the operands read so far, which are listed from the latest. -/
inductive Takes (readInner : List (List Token) → Except AssemblyError (List Operand)) :
    (read : List Operand) → (group : List Token) → (after : List Operand) → Prop
  /-- The name of a register stands alone. -/
  | register {read : List Operand} {first : Token} {named : Register}
    (isRegister : Register.ofName? (keyword first) = some named) :
    Takes readInner read [first]
      (.register ⟨keyword first, named, none, none, Token.spanOf first []⟩ :: read)
  /-- The keyword of a modifier changes the latest operand. -/
  | modified {first : Token} {rest : List Token} {modifier : Modifier} {latest changed : Operand}
    {earlier : List Operand} (isModifier : Modifier.ofName? (keyword first) = some modifier)
    (done : modify? modifier (expression? (dropNumberSign rest)) (Token.spanOf first rest).stop
      latest = some changed) :
    Takes readInner (latest :: earlier) (first :: rest) (changed :: earlier)
  /-- Brackets are an address of what stands between them. -/
  | address {read operands : List Operand} {first : Token} {rest between : List Token}
    {preIndexed : Bool} {parts : List AddressPart} (opens : first.isPunct "[" = true)
    (closed : bracketed? (first :: rest) = some (between, preIndexed))
    (inner : readInner (Token.splitCommas between) = .ok operands)
    (made : operands.reverse.mapM part? = some parts) :
    Takes readInner read (first :: rest)
      (.address ⟨parts, preIndexed, none, Token.spanOf first rest⟩ :: read)
  /-- A value completes an address that waits for its amount. -/
  | postIndexed {latest : AddressOperand} {earlier : List Operand} {first : Token}
    {rest : List Token} {value : Expression} (begins : BeginsValue first)
    (made : expression? (dropNumberSign (first :: rest)) = some value)
    (waits : latest.postIndex = none) :
    Takes readInner (.address latest :: earlier) (first :: rest)
      (.address { latest with
        postIndex := some value
        span := ⟨latest.span.start, (Token.spanOf first rest).stop⟩ } :: earlier)
  /-- A value is an immediate elsewhere. -/
  | immediate {read : List Operand} {first : Token} {rest : List Token} {value : Expression}
    (begins : BeginsValue first)
    (made : expression? (dropNumberSign (first :: rest)) = some value)
    (closed : ∀ latest earlier, read = .address latest :: earlier → latest.postIndex ≠ none) :
    Takes readInner read (first :: rest)
      (.immediate ⟨value, none, none, Token.spanOf first rest⟩ :: read)

variable {readInner : List (List Token) → Except AssemblyError (List Operand)}
  {read after : List Operand} {group rest tokens : List Token} {first : Token}

/-- The name of a register has to be all of its group. -/
theorem readGroupWith_register_eq_ok {named : Register}
    (isRegister : Register.ofName? (keyword first) = some named) :
    readGroupWith readInner read (first :: rest) = .ok after ↔
      rest = [] ∧
        .register ⟨keyword first, named, none, none, Token.spanOf first []⟩ :: read = after := by
  cases rest <;> simp [readGroupWith, isRegister]

/-- The keyword of a modifier needs an operand before it that may be changed. -/
theorem readGroupWith_modifier_eq_ok {modifier : Modifier}
    (isModifier : Modifier.ofName? (keyword first) = some modifier) :
    readGroupWith readInner read (first :: rest) = .ok after ↔
      ∃ latest earlier changed, read = latest :: earlier ∧
        modify? modifier (expression? (dropNumberSign rest)) (Token.spanOf first rest).stop latest =
          some changed ∧
        changed :: earlier = after := by
  have noRegister := noRegister_of_modifier isModifier
  cases read with
  | nil => simp [readGroupWith, noRegister, isModifier]
  | cons latest earlier =>
    simp only [readGroupWith, noRegister, isModifier]
    constructor
    · intro done
      cases changes : modify? modifier (expression? (dropNumberSign rest))
          (Token.spanOf first rest).stop latest with
      | none => simp [changes] at done
      | some changed =>
        simp only [changes] at done
        exact ⟨latest, earlier, changed, rfl, changes, Except.ok.inj done⟩
    · rintro ⟨_, _, changed, same, changes, rfl⟩
      obtain ⟨rfl, rfl⟩ := List.cons.inj same
      simp only [changes]

/-- An opening bracket needs its closing one, and parts of an address between them. -/
theorem readGroupWith_address_eq_ok (opens : first.isPunct "[" = true) :
    readGroupWith readInner read (first :: rest) = .ok after ↔
      ∃ between preIndexed operands parts,
        bracketed? (first :: rest) = some (between, preIndexed) ∧
        readInner (Token.splitCommas between) = .ok operands ∧
        operands.reverse.mapM part? = some parts ∧
        .address ⟨parts, preIndexed, none, Token.spanOf first rest⟩ :: read = after := by
  obtain ⟨noRegister, noModifier⟩ := ofName?_empty
  simp only [readGroupWith, keyword_of_isPunct opens, noRegister, noModifier, opens, if_true]
  cases closed : bracketed? (first :: rest) with
  | none => simp
  | some inside =>
    obtain ⟨between, preIndexed⟩ := inside
    simp only [bind_eq_ok]
    constructor
    · rintro ⟨operands, inner, done⟩
      cases made : operands.reverse.mapM part? with
      | none => simp [made] at done
      | some parts =>
        simp only [made] at done
        exact ⟨_, _, operands, parts, rfl, inner, made, Except.ok.inj done⟩
    · rintro ⟨_, _, operands, parts, same, inner, made, rfl⟩
      obtain ⟨rfl, rfl⟩ := Prod.mk.inj (Option.some.inj same)
      exact ⟨operands, inner, by simp only [made]; rfl⟩

/-- A value is the amount that an address before it waits for. -/
theorem readGroupWith_postIndexed_eq_ok {latest : AddressOperand} {earlier : List Operand}
    (begins : BeginsValue first) (waits : latest.postIndex = none) :
    readGroupWith readInner (.address latest :: earlier) (first :: rest) = .ok after ↔
      ∃ value, expression? (dropNumberSign (first :: rest)) = some value ∧
        .address { latest with
          postIndex := some value
          span := ⟨latest.span.start, (Token.spanOf first rest).stop⟩ } :: earlier = after := by
  cases made : expression? (dropNumberSign (first :: rest)) <;>
    simp [readGroupWith, begins.noRegister, begins.noModifier, begins.noBracket, made, waits]

/-- A value is an immediate where no address waits for it. -/
theorem readGroupWith_immediate_eq_ok (begins : BeginsValue first)
    (closed : ∀ latest earlier, read = .address latest :: earlier → latest.postIndex ≠ none) :
    readGroupWith readInner read (first :: rest) = .ok after ↔
      ∃ value, expression? (dropNumberSign (first :: rest)) = some value ∧
        .immediate ⟨value, none, none, Token.spanOf first rest⟩ :: read = after := by
  simp only [readGroupWith, begins.noRegister, begins.noModifier, begins.noBracket,
    Bool.false_eq_true, if_false]
  cases made : expression? (dropNumberSign (first :: rest)) with
  | none => simp
  | some value =>
    cases read with
    | nil => simp
    | cons latest earlier =>
      cases latest with
      | register | immediate => simp
      | address latest => simp [closed latest earlier rfl]

/-- Reading a group succeeds in these ways and in no other. -/
theorem readGroupWith_eq_ok :
    readGroupWith readInner read group = .ok after ↔ Takes readInner read group after := by
  constructor
  · intro done
    cases group with
    | nil => contradiction
    | cons first rest =>
      cases isRegister : Register.ofName? (keyword first) with
      | some named =>
        obtain ⟨rfl, rfl⟩ := (readGroupWith_register_eq_ok isRegister).mp done
        exact .register isRegister
      | none =>
        cases isModifier : Modifier.ofName? (keyword first) with
        | some modifier =>
          obtain ⟨latest, earlier, changed, rfl, changes, rfl⟩ :=
            (readGroupWith_modifier_eq_ok isModifier).mp done
          exact .modified isModifier changes
        | none =>
          cases opens : first.isPunct "[" with
          | true =>
            obtain ⟨between, preIndexed, operands, parts, closed, inner, made, rfl⟩ :=
              (readGroupWith_address_eq_ok opens).mp done
            exact .address opens closed inner made
          | false =>
            have begins : BeginsValue first := ⟨isRegister, isModifier, opens⟩
            by_cases waits : ∃ latest earlier,
                read = .address latest :: earlier ∧ latest.postIndex = none
            · obtain ⟨latest, earlier, rfl, waits⟩ := waits
              obtain ⟨value, made, rfl⟩ := (readGroupWith_postIndexed_eq_ok begins waits).mp done
              exact .postIndexed begins made waits
            · have closed : ∀ latest earlier, read = .address latest :: earlier →
                  latest.postIndex ≠ none :=
                fun latest earlier same none => waits ⟨latest, earlier, same, none⟩
              obtain ⟨value, made, rfl⟩ := (readGroupWith_immediate_eq_ok begins closed).mp done
              exact .immediate begins made closed
  · intro takes
    cases takes with
    | register isRegister => exact (readGroupWith_register_eq_ok isRegister).mpr ⟨rfl, rfl⟩
    | modified isModifier changes =>
      exact (readGroupWith_modifier_eq_ok isModifier).mpr ⟨_, _, _, rfl, changes, rfl⟩
    | address opens closed inner made =>
      exact (readGroupWith_address_eq_ok opens).mpr ⟨_, _, _, _, closed, inner, made, rfl⟩
    | postIndexed begins made waits =>
      exact (readGroupWith_postIndexed_eq_ok begins waits).mpr ⟨_, made, rfl⟩
    | immediate begins made closed =>
      exact (readGroupWith_immediate_eq_ok begins closed).mpr ⟨_, made, rfl⟩

/-- What reading a group does to the operands read so far, which are listed from the latest. -/
inductive Adds (readInner : List (List Token) → Except AssemblyError (List Operand))
    (group : List Token) : (read after : List Operand) → Prop
  /-- A name of a register is a register. -/
  | register {read : List Operand} (given : RegisterOperand) (plain : given.amount = none)
    (named : Register.ofName? given.name = some given.register) :
    Adds readInner group read (.register given :: read)
  /-- A shift or an extension changes the latest operand. -/
  | modified {latest changed : Operand} {earlier : List Operand} {modifier : Modifier} {stop : Int}
    {rest : List Token} (inside : rest ⊆ group)
    (done : modify? modifier (expression? (dropNumberSign rest)) stop latest = some changed) :
    Adds readInner group (latest :: earlier) (changed :: earlier)
  /-- Brackets are an address of what stands between them. -/
  | address {read operands : List Operand} {between : List Token} {preIndexed : Bool}
    {parts : List AddressPart} {span : Span} (closed : bracketed? group = some (between, preIndexed))
    (inner : readInner (Token.splitCommas between) = .ok operands)
    (made : operands.reverse.mapM part? = some parts) :
    Adds readInner group read (.address ⟨parts, preIndexed, none, span⟩ :: read)
  /-- An immediate completes an address before it. -/
  | postIndexed {latest : AddressOperand} {earlier : List Operand} {value : Expression} {span : Span}
    (made : expression? (dropNumberSign group) = some value) :
    Adds readInner group (.address latest :: earlier)
      (.address { latest with postIndex := some value, span := span } :: earlier)
  /-- An immediate stands for itself elsewhere. -/
  | immediate {read : List Operand} {value : Expression} {span : Span}
    (made : expression? (dropNumberSign group) = some value) :
    Adds readInner group read (.immediate ⟨value, none, none, span⟩ :: read)

/-- A group that is read adds to the operands in one of the ways. -/
theorem adds_of_readGroupWith (done : readGroupWith readInner read group = .ok after) :
    Adds readInner group read after := by
  cases readGroupWith_eq_ok.mp done with
  | register isRegister => exact .register _ rfl isRegister
  | modified _ changed => exact .modified (List.subset_cons_self _ _) changed
  | address _ closed inner made => exact .address closed inner made
  | postIndexed _ made => exact .postIndexed made
  | immediate _ made => exact .immediate made

/-! ### The number of operands -/

/-- A group adds at most one operand. -/
theorem Adds.length_le (adds : Adds readInner group read after) :
    after.length ≤ read.length + 1 := by
  cases adds with
  | register | address | immediate => exact Nat.le_refl _
  | modified | postIndexed => exact Nat.le_succ _

/-- A group adds at most one operand, whatever stands in its brackets. -/
theorem length_readGroup {depth : Nat} (done : readGroup depth read group = .ok after) :
    after.length ≤ read.length + 1 := by
  cases depth <;> exact (adds_of_readGroupWith done).length_le

/-- There are no more operands than groups. -/
theorem length_foldlM_readGroup {depth : Nat} {groups : List (List Token)}
    {read after : List Operand} (done : groups.foldlM (readGroup depth) read = .ok after) :
    after.length ≤ read.length + groups.length := by
  induction groups generalizing read with
  | nil =>
    obtain rfl := Except.ok.inj done
    exact Nat.le_refl _
  | cons group rest ih =>
    rw [List.foldlM_cons] at done
    obtain ⟨middle, here, later⟩ := bind_eq_ok.mp done
    have one := length_readGroup here
    have others := ih later
    rw [List.length_cons]
    omega

theorem length_ofGroups {groups : List (List Token)} {operands : List Operand}
    (done : ofGroups groups = .ok operands) : operands.length ≤ groups.length := by
  obtain ⟨reversed, read, rfl⟩ := map_eq_ok.mp done
  have count := length_foldlM_readGroup read
  rw [List.length_reverse]
  simpa using count

end Operand

/-! ### The tokens of operands -/

/-- An expression is written with some tokens. -/
def Expression.Within (tokens : List Token) (expression : Expression) : Prop :=
  expression.tokens ⊆ tokens

/-- The amount behind an operand is written with some tokens, if there is one. -/
def AmountWithin (tokens : List Token) (amount : Option Expression) : Prop :=
  ∀ expression, amount = some expression → expression.Within tokens

/-- The expressions of an immediate are written with some tokens. -/
structure ImmediateOperand.Within (tokens : List Token) (operand : ImmediateOperand) : Prop where
  value : operand.value.Within tokens
  amount : AmountWithin tokens operand.amount

/-- The expressions of a part of an address are written with some tokens. -/
def AddressPart.Within (tokens : List Token) : AddressPart → Prop
  | .register operand => AmountWithin tokens operand.amount
  | .immediate operand => operand.Within tokens

/-- The expressions of an address are written with some tokens. -/
structure AddressOperand.Within (tokens : List Token) (operand : AddressOperand) : Prop where
  parts : ∀ part ∈ operand.parts, part.Within tokens
  postIndex : AmountWithin tokens operand.postIndex

namespace Operand

variable {readInner : List (List Token) → Except AssemblyError (List Operand)}
  {read after : List Operand} {group tokens : List Token}

/-- The expressions of an operand are written with some tokens. -/
def Within (tokens : List Token) : Operand → Prop
  | .register operand => AmountWithin tokens operand.amount
  | .immediate operand => operand.Within tokens
  | .address operand => operand.Within tokens

/-- What an operand is as a part of an address is written with the same tokens. -/
theorem Within.part {operand : Operand} {part : AddressPart} (within : operand.Within tokens)
    (isPart : operand.part? = some part) : part.Within tokens := by
  cases operand with
  | register operand => exact Option.some.inj isPart ▸ within
  | immediate operand => exact Option.some.inj isPart ▸ within
  | address operand => contradiction

/-- Each part of an address was read as an operand. -/
theorem exists_operand_of_parts {operands : List Operand} {parts : List AddressPart}
    (made : operands.mapM part? = some parts) :
    ∀ part ∈ parts, ∃ operand ∈ operands, operand.part? = some part := by
  induction operands generalizing parts with
  | nil =>
    obtain rfl := Option.some.inj made
    exact fun part inside => by contradiction
  | cons operand rest ih =>
    rw [List.mapM_cons] at made
    obtain ⟨part, isPart, made⟩ := Option.bind_eq_some_iff.mp made
    obtain ⟨others, later, made⟩ := Option.bind_eq_some_iff.mp made
    obtain rfl := Option.some.inj made
    refine List.forall_mem_cons.mpr ⟨⟨operand, List.mem_cons_self, isPart⟩, fun part inside => ?_⟩
    exact (ih later part inside).imp fun _ among => among.imp_left (List.mem_cons_of_mem _)

/-- The parts of an address are written with the tokens of the operands that they were. -/
theorem within_parts {operands : List Operand} {parts : List AddressPart}
    (within : ∀ operand ∈ operands, operand.Within tokens)
    (made : operands.mapM part? = some parts) : ∀ part ∈ parts, part.Within tokens := by
  intro part inside
  obtain ⟨operand, among, isPart⟩ := exists_operand_of_parts made part inside
  exact (within operand among).part isPart

/-- The expression of some tokens is written with them. -/
theorem within_expression {group : List Token} (inside : group ⊆ tokens) :
    AmountWithin tokens (expression? (dropNumberSign group)) := by
  have subset := List.Subset.trans (dropNumberSign_sublist group).subset inside
  intro expression made
  cases given : dropNumberSign group with
  | nil =>
    rw [given] at made
    contradiction
  | cons first rest =>
    rw [given] at made subset
    exact Option.some.inj made ▸ subset

/-- A shift or an extension is written with its own tokens. -/
theorem within_modify {modifier : Modifier} {amount : Option Expression} {stop : Int}
    {operand modified : Operand} (within : operand.Within tokens)
    (amountWithin : AmountWithin tokens amount)
    (done : modify? modifier amount stop operand = some modified) : modified.Within tokens := by
  cases operand with
  | register operand =>
    rw [modify?] at done
    split at done
    · contradiction
    · exact Option.some.inj done ▸ amountWithin
  | immediate operand =>
    rw [modify?] at done
    split at done
    · contradiction
    · exact Option.some.inj done ▸ ⟨within.value, amountWithin⟩
  | address operand => contradiction

/-- A group adds expressions that are written with its tokens, if the groups inside it do. -/
theorem Adds.within (adds : Adds readInner group read after)
    (inner : ∀ groups operands, (∀ group ∈ groups, group ⊆ tokens) →
      readInner groups = .ok operands → ∀ operand ∈ operands, operand.Within tokens)
    (inside : group ⊆ tokens) (before : ∀ operand ∈ read, operand.Within tokens) :
    ∀ operand ∈ after, operand.Within tokens := by
  have none : AmountWithin tokens none := fun _ absent => nomatch absent
  cases adds with
  | register given plain _ =>
    exact List.forall_mem_cons.mpr ⟨show AmountWithin tokens given.amount from plain ▸ none, before⟩
  | modified rest done =>
    obtain ⟨latest, earlier⟩ := List.forall_mem_cons.mp before
    have amount := within_expression (List.Subset.trans rest inside)
    exact List.forall_mem_cons.mpr ⟨within_modify latest amount done, earlier⟩
  | @address _ _ between _ _ _ closed read made =>
    have within := inner _ _ (fun group among token here => inside ((bracketed_sublist closed).subset
      ((Token.splitCommas_sublist between).subset (List.mem_flatten.mpr ⟨group, among, here⟩)))) read
    have parts := within_parts (fun operand among => within operand (List.mem_reverse.mp among)) made
    exact List.forall_mem_cons.mpr ⟨⟨parts, none⟩, before⟩
  | postIndexed made =>
    obtain ⟨latest, earlier⟩ := List.forall_mem_cons.mp before
    have own := within_expression inside _ made
    refine List.forall_mem_cons.mpr ⟨⟨latest.parts, fun _ same => ?_⟩, earlier⟩
    exact Option.some.inj same ▸ own
  | immediate made =>
    exact List.forall_mem_cons.mpr ⟨⟨within_expression inside _ made, none⟩, before⟩

/-- Groups inside at most some levels of brackets add expressions that are written with their
tokens. -/
theorem within_readGroups (depth : Nat) {groups : List (List Token)} {read after : List Operand}
    (before : ∀ operand ∈ read, operand.Within tokens) (inside : ∀ group ∈ groups, group ⊆ tokens)
    (done : groups.foldlM (readGroup depth) read = .ok after) :
    ∀ operand ∈ after, operand.Within tokens := by
  let holds (read : List Operand) : Prop := ∀ operand ∈ read, operand.Within tokens
  induction depth generalizing groups read after with
  | zero =>
    refine @foldlM_preserves _ _ _ holds _ _ _ _ (fun group among read after before done => ?_) before
      done
    exact (adds_of_readGroupWith done).within (fun _ _ _ none => by cases none) (inside group among)
      before
  | succ depth ih =>
    refine @foldlM_preserves _ _ _ holds _ _ _ _ (fun group among read after before done => ?_) before
      done
    refine (adds_of_readGroupWith done).within (fun groups operands within read => ?_)
      (inside group among) before
    exact ih (fun operand absent => by contradiction) within read

/-- Operands are written with the tokens that they are read from. -/
theorem within_ofGroups {groups : List (List Token)} {operands : List Operand}
    (done : ofGroups groups = .ok operands) :
    ∀ operand ∈ operands, operand.Within groups.flatten := by
  obtain ⟨reversed, read, rfl⟩ := map_eq_ok.mp done
  intro operand inside
  refine within_readGroups _ (fun operand absent => by contradiction) (fun group among token here =>
    ?_) read operand (List.mem_reverse.mp inside)
  exact List.mem_flatten.mpr ⟨group, among, here⟩

end Operand

/-! ### Places and expressions -/

section Each

variable (places : Span → Prop) (expressions : Expression → Prop)

/-- A register has a place and perhaps an amount of some kind. -/
structure RegisterOperand.Each (operand : RegisterOperand) : Prop where
  place : places operand.span
  amount : ∀ expression, operand.amount = some expression → expressions expression

/-- An immediate has a place, a value and perhaps an amount of some kind. -/
structure ImmediateOperand.Each (operand : ImmediateOperand) : Prop where
  place : places operand.span
  value : expressions operand.value
  amount : ∀ expression, operand.amount = some expression → expressions expression

/-- A part of an address has a place and expressions of some kind. -/
def AddressPart.Each : AddressPart → Prop
  | .register operand => operand.Each places expressions
  | .immediate operand => operand.Each places expressions

/-- An address, its parts and perhaps the amount behind it have places and expressions of some
kind. -/
structure AddressOperand.Each (operand : AddressOperand) : Prop where
  place : places operand.span
  parts : ∀ part ∈ operand.parts, part.Each places expressions
  postIndex : ∀ expression, operand.postIndex = some expression → expressions expression

/-- All places and expressions of an operand are of some kind. -/
def Operand.Each : Operand → Prop
  | .register operand => operand.Each places expressions
  | .immediate operand => operand.Each places expressions
  | .address operand => operand.Each places expressions

variable {places expressions}

theorem Operand.Each.place {operand : Operand} (each : operand.Each places expressions) :
    places operand.span := by
  cases operand with
  | register operand => exact RegisterOperand.Each.place each
  | immediate operand => exact ImmediateOperand.Each.place each
  | address operand => exact AddressOperand.Each.place each

theorem Operand.Each.part {operand : Operand} {part : AddressPart}
    (each : operand.Each places expressions) (isPart : operand.part? = some part) :
    part.Each places expressions := by
  cases operand with
  | register operand => exact Option.some.inj isPart ▸ each
  | immediate operand => exact Option.some.inj isPart ▸ each
  | address operand => contradiction

/-- What holds of all places and of all expressions of a kind holds of those of an operand. -/
theorem Operand.Each.imp {places' : Span → Prop} {expressions' : Expression → Prop}
    {operand : Operand} (each : operand.Each places expressions)
    (place : ∀ span, places span → places' span)
    (expression : ∀ written, expressions written → expressions' written) :
    operand.Each places' expressions' := by
  have amounts {given : Option Expression}
      (amount : ∀ written, given = some written → expressions written) :
      ∀ written, given = some written → expressions' written :=
    fun written same => expression written (amount written same)
  have register {operand : RegisterOperand} (each : operand.Each places expressions) :
      operand.Each places' expressions' := ⟨place _ each.place, amounts each.amount⟩
  have immediate {operand : ImmediateOperand} (each : operand.Each places expressions) :
      operand.Each places' expressions' :=
    ⟨place _ each.place, expression _ each.value, amounts each.amount⟩
  cases operand with
  | register operand => exact register each
  | immediate operand => exact immediate each
  | address operand =>
    refine ⟨place _ each.place, fun part inside => ?_, amounts each.postIndex⟩
    have own := each.parts part inside
    cases part with
    | register part => exact register own
    | immediate part => exact immediate own

end Each

/-- What is written with some tokens has all its expressions written with them. -/
theorem Operand.Within.each {tokens : List Token} {operand : Operand}
    (within : operand.Within tokens) :
    operand.Each (fun _ => True) (Expression.Within tokens) := by
  cases operand with
  | register operand => exact ⟨trivial, within⟩
  | immediate operand => exact ⟨trivial, within.value, within.amount⟩
  | address operand =>
    refine ⟨trivial, fun part inside => ?_, within.postIndex⟩
    have own := within.parts part inside
    cases part with
    | register part => exact ⟨trivial, own⟩
    | immediate part => exact ⟨trivial, own.value, own.amount⟩

/-! ### Regular operands -/

/-- A register that was read: its name is that of the register, and an amount stands behind a shift
or an extension. -/
structure RegisterOperand.Regular (operand : RegisterOperand) : Prop where
  named : Register.ofName? operand.name = some operand.register
  written : operand.modifier = none → operand.amount = none

/-- A part of an address is regular when it is no register or a regular one. -/
def AddressPart.Regular : AddressPart → Prop
  | .register operand => operand.Regular
  | .immediate _ => True

namespace Operand

variable {readInner : List (List Token) → Except AssemblyError (List Operand)}
  {read after : List Operand} {group : List Token}

/-- An operand is regular when its registers are. -/
def Regular : Operand → Prop
  | .register operand => operand.Regular
  | .immediate _ => True
  | .address operand => ∀ part ∈ operand.parts, part.Regular

/-- The parts of an address are as regular as the operands they were read as. -/
theorem regular_parts {operands : List Operand} {parts : List AddressPart}
    (regular : ∀ operand ∈ operands, operand.Regular) (made : operands.mapM part? = some parts) :
    ∀ part ∈ parts, part.Regular := by
  intro part inside
  obtain ⟨operand, among, isPart⟩ := exists_operand_of_parts made part inside
  have own := regular operand among
  cases operand with
  | register operand => exact Option.some.inj isPart ▸ own
  | immediate operand => exact Option.some.inj isPart ▸ trivial
  | address operand => contradiction

/-- A shift or an extension keeps an operand regular. -/
theorem regular_modify {modifier : Modifier} {amount : Option Expression} {stop : Int}
    {latest changed : Operand} (regular : latest.Regular)
    (done : modify? modifier amount stop latest = some changed) : changed.Regular := by
  cases latest with
  | register operand =>
    rw [modify?] at done
    split at done
    · contradiction
    · exact Option.some.inj done ▸ ⟨regular.named, fun none => nomatch none⟩
  | immediate operand =>
    rw [modify?] at done
    split at done
    · contradiction
    · exact Option.some.inj done ▸ trivial
  | address operand => contradiction

/-- A group adds regular operands, if the groups inside it do. -/
theorem Adds.regular (adds : Adds readInner group read after)
    (inner : ∀ groups operands, readInner groups = .ok operands →
      ∀ operand ∈ operands, operand.Regular)
    (before : ∀ operand ∈ read, operand.Regular) : ∀ operand ∈ after, operand.Regular := by
  cases adds with
  | register given plain named =>
    exact List.forall_mem_cons.mpr ⟨⟨named, fun _ => plain⟩, before⟩
  | modified _ done =>
    obtain ⟨latest, earlier⟩ := List.forall_mem_cons.mp before
    exact List.forall_mem_cons.mpr ⟨regular_modify latest done, earlier⟩
  | address _ read made =>
    have parts := regular_parts
      (fun operand among => inner _ _ read operand (List.mem_reverse.mp among)) made
    exact List.forall_mem_cons.mpr ⟨parts, before⟩
  | postIndexed =>
    obtain ⟨latest, earlier⟩ := List.forall_mem_cons.mp before
    exact List.forall_mem_cons.mpr ⟨latest, earlier⟩
  | immediate => exact List.forall_mem_cons.mpr ⟨trivial, before⟩

/-- Groups inside at most some levels of brackets add regular operands. -/
theorem regular_readGroups (depth : Nat) {groups : List (List Token)}
    (before : ∀ operand ∈ read, operand.Regular)
    (done : groups.foldlM (readGroup depth) read = .ok after) :
    ∀ operand ∈ after, operand.Regular := by
  let holds (read : List Operand) : Prop := ∀ operand ∈ read, operand.Regular
  induction depth generalizing groups read after with
  | zero =>
    refine @foldlM_preserves _ _ _ holds _ _ _ _ (fun _ _ _ _ before done => ?_) before done
    exact (adds_of_readGroupWith done).regular (fun _ _ none => by cases none) before
  | succ depth ih =>
    refine @foldlM_preserves _ _ _ holds _ _ _ _ (fun _ _ _ _ before done => ?_) before done
    refine (adds_of_readGroupWith done).regular (fun _ _ read => ?_) before
    exact ih (fun operand absent => by contradiction) read

/-- The operands of a text are regular. -/
theorem regular_of_parse {text : String} {offset : Int} {operands : List Operand}
    (parsed : parse text offset = .ok operands) : ∀ operand ∈ operands, operand.Regular := by
  obtain ⟨groups, _, done⟩ := bind_eq_ok.mp parsed
  obtain ⟨reversed, read, rfl⟩ := map_eq_ok.mp done
  intro operand inside
  exact regular_readGroups _ (fun operand absent => by contradiction) read operand
    (List.mem_reverse.mp inside)

end Operand

end A64Machine
