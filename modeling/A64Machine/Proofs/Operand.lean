import A64Machine.Proofs.OperandGroups
import A64Machine.Proofs.Spelling

/-!
# Printed operands are read back

The commas of a printed operand list divide it into the groups of its spellings, since the commas
inside brackets do not count. Each spelling is then read as the operand it was printed for, so the
text of an instruction gives back its operands up to the places where they stand.
-/

namespace A64Machine

namespace Token

/-- The bracket depth behind some lexemes that have no comma at depth zero. -/
def depthAfter : Int → List (TokenKind × String) → Option Int
  | depth, [] => some depth
  | depth, lexeme :: rest =>
    if lexeme = mark "," ∧ depth = 0 then none
    else if lexeme = mark "[" then depthAfter (depth + 1) rest
    else if lexeme = mark "]" then depthAfter (depth - 1) rest
    else depthAfter depth rest

/-- A token is a punctuation mark when its lexeme is. -/
theorem isPunct_iff {token : Token} {text : String} :
    token.isPunct text = true ↔ token.lexeme = mark text := by
  simp [isPunct, lexeme, mark]

/-- Tokens without a comma at depth zero belong to one group. -/
theorem groupAt_append {tokens rest : List Token} {depth depth' : Int}
    (walked : depthAfter depth (tokens.map lexeme) = some depth') :
    groupAt depth (tokens ++ rest) = tokens.foldr consToFirst (groupAt depth' rest) := by
  induction tokens generalizing depth with
  | nil =>
    obtain rfl := Option.some.inj walked
    rfl
  | cons token tokens ih =>
    rw [List.map_cons, depthAfter] at walked
    rw [List.cons_append, groupAt, List.foldr_cons]
    simp only [isPunct_iff]
    split at walked
    · contradiction
    · rename_i inside
      rw [if_neg inside]
      split at walked
      · rename_i opens
        rw [if_pos opens, ih walked]
      · rename_i opens
        split at walked
        · rename_i closes
          rw [if_neg opens, if_pos closes, ih walked]
        · rename_i closes
          rw [if_neg opens, if_neg closes, ih walked]

/-- Lexemes other than brackets, and other than commas at depth zero, keep the depth. -/
theorem depthAfter_append {lexemes rest : List (TokenKind × String)} {depth : Int}
    (plain : ∀ lexeme ∈ lexemes, lexeme ≠ mark "[" ∧ lexeme ≠ mark "]")
    (noComma : depth ≠ 0 ∨ mark "," ∉ lexemes) :
    depthAfter depth (lexemes ++ rest) = depthAfter depth rest := by
  induction lexemes with
  | nil => rfl
  | cons lexeme lexemes ih =>
    obtain ⟨⟨noOpening, noClosing⟩, later⟩ := List.forall_mem_cons.mp plain
    have separate : ¬(lexeme = mark "," ∧ depth = 0) := by
      rintro ⟨rfl, zero⟩
      exact noComma.elim (fun apart => apart zero) fun absent => absent List.mem_cons_self
    rw [List.cons_append, depthAfter, if_neg separate, if_neg noOpening, if_neg noClosing,
      ih later (noComma.imp_right fun absent inside => absent (List.mem_cons_of_mem _ inside))]

/-- Putting tokens in front of a first group extends that group. -/
theorem foldr_consToFirst (tokens group : List Token) (groups : List (List Token)) :
    tokens.foldr consToFirst (group :: groups) = (tokens ++ group) :: groups := by
  induction tokens with
  | nil => rfl
  | cons token tokens ih => rw [List.foldr_cons, ih]; rfl

/-- Tokens without a comma belong to one group wherever they stand. -/
theorem splitCommas_append {tokens rest : List Token}
    (plain : mark "," ∉ tokens.map lexeme) :
    splitCommas (tokens ++ rest) = tokens.foldr consToFirst (splitCommas rest) := by
  induction tokens with
  | nil => rfl
  | cons token tokens ih =>
    rw [List.map_cons, List.mem_cons, not_or] at plain
    rw [List.cons_append, splitCommas, if_neg fun comma => plain.1 (isPunct_iff.mp comma).symm,
      ih plain.2, List.foldr_cons]

/-- A cut that keeps groups together and parts them at the commas between them gives back the
groups that some tokens spell. -/
theorem map_cut_of_joined {cut : List Token → List (List Token)}
    {whole : List (TokenKind × String) → Prop}
    (keeps : ∀ tokens rest, whole (tokens.map lexeme) →
      cut (tokens ++ rest) = tokens.foldr consToFirst (cut rest))
    (ends : cut [] = [[]])
    (parts : ∀ token rest, token.lexeme = mark "," → cut (token :: rest) = [] :: cut rest)
    {groups : List (List (TokenKind × String))} {tokens : List Token} (some : groups ≠ [])
    (wholes : ∀ group ∈ groups, whole group)
    (spelled : tokens.map lexeme = Spelling.joined groups) :
    (cut tokens).map (List.map lexeme) = groups := by
  induction groups generalizing tokens with
  | nil => contradiction
  | cons group groups ih =>
    obtain ⟨here, later⟩ := List.forall_mem_cons.mp wholes
    rw [Spelling.joined_cons] at spelled
    obtain ⟨front, behind, rfl, front_eq, behind_eq⟩ := List.map_eq_append_iff.mp spelled
    rw [keeps _ _ (front_eq ▸ here)]
    cases groups with
    | nil =>
      obtain rfl := List.map_eq_nil_iff.mp behind_eq
      rw [ends, foldr_consToFirst]
      simp [front_eq]
    | cons next groups =>
      obtain ⟨comma, behind, rfl, isComma, behind_eq⟩ := List.map_eq_cons_iff.mp behind_eq
      rw [parts _ _ isComma, foldr_consToFirst, List.append_nil, List.map_cons, front_eq,
        ih (by simp) later]
      rw [behind_eq, Spelling.joined_cons]
      rfl

/-- Groups of lexemes with balanced brackets are the groups of the tokens that spell them. -/
theorem groupAt_of_joined {groups : List (List (TokenKind × String))} {tokens : List Token}
    (some : groups ≠ []) (balanced : ∀ group ∈ groups, depthAfter 0 group = .some 0)
    (spelled : tokens.map lexeme = Spelling.joined groups) :
    (groupAt 0 tokens).map (List.map lexeme) = groups :=
  map_cut_of_joined (fun _ _ walked => groupAt_append walked) rfl
    (fun _ _ comma => by rw [groupAt, if_pos ⟨isPunct_iff.mpr comma, rfl⟩]) some balanced spelled

/-- Groups of lexemes without commas are what the tokens that spell them are cut into. -/
theorem splitCommas_of_joined {groups : List (List (TokenKind × String))} {tokens : List Token}
    (some : groups ≠ []) (plain : ∀ group ∈ groups, mark "," ∉ group)
    (spelled : tokens.map lexeme = Spelling.joined groups) :
    (splitCommas tokens).map (List.map lexeme) = groups :=
  map_cut_of_joined (fun _ _ plain => splitCommas_append plain) rfl
    (fun _ _ comma => by rw [splitCommas, if_pos (isPunct_iff.mpr comma)]) some plain spelled

end Token

/-- The operand that a part of an address is. -/
def AddressPart.operand : AddressPart → Operand
  | .register given => .register given
  | .immediate given => .immediate given

namespace PlainSpelling

/-- A written amount denotes the printed one, and there is none if none was printed. -/
def ReadsAmount : Option Nat → Option Expression → Prop
  | none, given => given = none
  | some amount, given => ∃ expression, given = some expression ∧ expression.Denotes amount

/-- A spelling without brackets reads as an operand, whatever its places and its words are. -/
def Reads : PlainSpelling → Operand → Prop
  | .register named modification, operand =>
    ∃ given, operand = .register given ∧ given.register = named ∧
      given.modifier = modification.map Prod.fst ∧
      ReadsAmount (modification.bind Prod.snd) given.amount
  | .immediate value shift, operand =>
    ∃ given, operand = .immediate given ∧ given.value.Denotes value ∧
      given.modifier = shift.map (fun _ => .lsl) ∧ ReadsAmount shift given.amount
  | .number value _, operand =>
    ∃ given, operand = .immediate given ∧ given.value.Denotes value ∧ given.modifier = none ∧
      given.amount = none

/-- Spellings without brackets read as operands, one by one. -/
def ReadsAll : List PlainSpelling → List Operand → Prop
  | [], operands => operands = []
  | spelling :: rest, operands =>
    ∃ operand behind, operands = operand :: behind ∧ spelling.Reads operand ∧ ReadsAll rest behind

end PlainSpelling

namespace Spelling

open PlainSpelling (ReadsAll)

/-- A spelling reads as an operand, whatever its places and its words are. -/
def Reads (spelling : Spelling) (operand : Operand) : Prop :=
  match spelling with
  | .plain spelling => spelling.Reads operand
  | .address _ _ preIndexed =>
    ∃ given, operand = .address given ∧
      ReadsAll spelling.inner (given.parts.map AddressPart.operand) ∧
      given.preIndexed = preIndexed ∧ given.postIndex = none
  | .postIndexed _ amount =>
    ∃ given expression, operand = .address given ∧
      ReadsAll spelling.inner (given.parts.map AddressPart.operand) ∧
      given.preIndexed = false ∧ given.postIndex = some expression ∧ expression.Denotes amount

/-- The parts that are read for a register and what stands behind it. -/
theorem parts_of_readsAll {base : Register} {behind : List PlainSpelling} {parts : List AddressPart}
    (reads : PlainSpelling.ReadsAll (.register base none :: behind)
      (parts.map AddressPart.operand)) :
    ∃ given rest, parts = .register given :: rest ∧ given.register = base ∧
      given.modifier = none ∧ PlainSpelling.ReadsAll behind (rest.map AddressPart.operand) := by
  obtain ⟨operand, operands, split, ⟨given, rfl, named, plain, _⟩, readsRest⟩ := reads
  obtain ⟨part, rest, rfl, isPart, rfl⟩ := List.map_eq_cons_iff.mp split
  cases part with
  | register part =>
    obtain rfl := Operand.register.inj isPart
    exact ⟨part, rest, rfl, named, plain, readsRest⟩
  | immediate part => contradiction

/-- An address without an offset has its base alone. -/
theorem reads_base {base : Register} {preIndexed : Bool} {operand : Operand}
    (reads : (Spelling.address base none preIndexed).Reads operand) :
    ∃ given first, operand = .address given ∧ given.parts = [.register first] ∧
      first.register = base ∧ first.modifier = none ∧ given.preIndexed = preIndexed ∧
      given.postIndex = none := by
  obtain ⟨given, rfl, parts, marked, none⟩ := reads
  obtain ⟨first, rest, split, named, plain, empty⟩ := parts_of_readsAll parts
  obtain rfl := List.map_eq_nil_iff.mp empty
  exact ⟨given, first, rfl, split, named, plain, marked, none⟩

/-- An address with an offset has its base and an immediate. -/
theorem reads_offset {base : Register} {value : Int} {preIndexed : Bool} {operand : Operand}
    (reads : (Spelling.address base (some (.immediate value none)) preIndexed).Reads operand) :
    ∃ given first second, operand = .address given ∧
      given.parts = [.register first, .immediate second] ∧ first.register = base ∧
      first.modifier = none ∧ second.value.Denotes value ∧ second.modifier = none ∧
      given.preIndexed = preIndexed ∧ given.postIndex = none := by
  obtain ⟨given, rfl, parts, marked, none⟩ := reads
  obtain ⟨first, rest, split, named, plain, behind⟩ := parts_of_readsAll parts
  obtain ⟨operand, operands, cut, ⟨second, rfl, denotes, unshifted, _⟩, empty⟩ := behind
  obtain ⟨part, rest, rfl, isPart, rest_eq⟩ := List.map_eq_cons_iff.mp cut
  obtain rfl : rest = [] := List.map_eq_nil_iff.mp (rest_eq.trans empty)
  cases part with
  | register part => contradiction
  | immediate part =>
    obtain rfl := Operand.immediate.inj isPart
    exact ⟨given, first, part, rfl, split, named, plain, denotes, unshifted, marked, none⟩

/-- An address with an index has its base and another register. -/
theorem reads_index {base index : Register} {modification : Modification} {preIndexed : Bool}
    {operand : Operand}
    (reads : (Spelling.address base (some (.register index modification)) preIndexed).Reads
      operand) :
    ∃ given first second, operand = .address given ∧
      given.parts = [.register first, .register second] ∧ first.register = base ∧
      first.modifier = none ∧ second.register = index ∧
      second.modifier = modification.map Prod.fst ∧
      PlainSpelling.ReadsAmount (modification.bind Prod.snd) second.amount ∧
      given.preIndexed = preIndexed ∧ given.postIndex = none := by
  obtain ⟨given, rfl, parts, marked, none⟩ := reads
  obtain ⟨first, rest, split, named, plain, behind⟩ := parts_of_readsAll parts
  obtain ⟨operand, operands, cut, ⟨second, rfl, indexed, modified, amount⟩, empty⟩ := behind
  obtain ⟨part, rest, rfl, isPart, rest_eq⟩ := List.map_eq_cons_iff.mp cut
  obtain rfl : rest = [] := List.map_eq_nil_iff.mp (rest_eq.trans empty)
  cases part with
  | register part =>
    obtain rfl := Operand.register.inj isPart
    exact ⟨given, first, part, rfl, split, named, plain, indexed, modified, amount, marked, none⟩
  | immediate part => contradiction

/-- A post-indexed address has its base and the amount behind it. -/
theorem reads_postIndexed {base : Register} {amount : Int} {operand : Operand}
    (reads : (Spelling.postIndexed base amount).Reads operand) :
    ∃ given first expression, operand = .address given ∧ given.parts = [.register first] ∧
      first.register = base ∧ first.modifier = none ∧ given.preIndexed = false ∧
      given.postIndex = some expression ∧ expression.Denotes amount := by
  obtain ⟨given, expression, rfl, parts, marked, waits, denotes⟩ := reads
  obtain ⟨first, rest, split, named, plain, empty⟩ := parts_of_readsAll parts
  obtain rfl := List.map_eq_nil_iff.mp empty
  exact ⟨given, first, expression, rfl, split, named, plain, marked, waits, denotes⟩

/-- Spellings read as operands, one by one. -/
def ReadsAll : List Spelling → List Operand → Prop
  | [], operands => operands = []
  | spelling :: rest, operands =>
    ∃ operand behind, operands = operand :: behind ∧ spelling.Reads operand ∧ ReadsAll rest behind

end Spelling

namespace Operand

open Token (lexeme lexeme_eq mark)
open PlainSpelling (ReadsAmount)

variable {readInner : List (List Token) → Except AssemblyError (List Operand)}
  {read : List Operand}

/-- The name of a register is read as that register. -/
theorem ofName?_name : ∀ slot < 32, ∀ wide,
    Register.ofName? (Text.lower (Register.name ⟨slot, wide⟩)) = some ⟨slot, wide⟩ := by
  decide +kernel

/-- The keyword of a modifier is read as that modifier. -/
theorem ofName?_keyword (modifier : Modifier) :
    Modifier.ofName? (Text.lower modifier.name) = some modifier := by
  cases modifier <;> decide

/-- The operand that waits for the amount behind it is an address with none yet. -/
def isOpen : List Operand → Bool
  | .address latest :: _ => latest.postIndex.isNone
  | _ => false

/-- A register is read from its name. -/
theorem readGroupWith_register {named : Register} (small : named.slot < 32) (span : Span) :
    readGroupWith readInner read [⟨.name, named.name, span⟩] =
      .ok (.register ⟨Text.lower named.name, named, none, none,
        Token.spanOf ⟨.name, named.name, span⟩ []⟩ :: read) := by
  have known := ofName?_name named.slot small named.wide
  have word : keyword ⟨.name, named.name, span⟩ = Text.lower named.name := if_pos rfl
  rw [← word] at known ⊢
  exact (readGroupWith_register_eq_ok known).mpr ⟨rfl, rfl⟩

/-- The amount behind a modifier is read from its lexemes. -/
theorem expression?_amount {amount : Option Nat} {tokens : List Token}
    (small : ∀ value ∈ amount, value < 256)
    (spelled : tokens.map lexeme = Spelling.amountLexemes amount) :
    ReadsAmount amount (expression? (dropNumberSign tokens)) := by
  cases amount with
  | none =>
    obtain rfl := List.map_eq_nil_iff.mp spelled
    rfl
  | some amount =>
    rw [Spelling.amountLexemes, List.map_eq_cons_iff] at spelled
    obtain ⟨sign, tokens, rfl, isSign, digits⟩ := spelled
    obtain ⟨span, rfl⟩ := lexeme_eq.mp isSign
    have unsigned : Expression.numberLexemes amount (Text.decimal amount) =
        [(.number, Text.decimal amount)] := by
      rw [Expression.numberLexemes, if_neg (by omega)]
      rfl
    exact Expression.denotes_number (Text.readLiteral_decimal amount (small amount rfl))
      (digits.trans unsigned.symm)

/-- A modification is put on the operand before it. -/
theorem readGroupWith_modification {modifier : Modifier} {amount : Option Nat}
    {group : List Token} (small : ∀ value ∈ amount, value < 256)
    (spelled : group.map lexeme = (.name, modifier.name) :: Spelling.amountLexemes amount) :
    ∃ given stop, ReadsAmount amount given ∧ ∀ latest earlier modified,
      modify? modifier given stop latest = some modified →
        readGroupWith readInner (latest :: earlier) group = .ok (modified :: earlier) := by
  obtain ⟨first, rest, rfl, isKeyword, amountSpelled⟩ := List.map_eq_cons_iff.mp spelled
  obtain ⟨span, rfl⟩ := lexeme_eq.mp isKeyword
  have isModifier : Modifier.ofName? (keyword ⟨.name, modifier.name, span⟩) = some modifier :=
    ofName?_keyword modifier
  exact ⟨_, (Token.spanOf ⟨.name, modifier.name, span⟩ rest).stop,
    expression?_amount small amountSpelled, fun latest earlier modified taken =>
      (readGroupWith_modifier_eq_ok isModifier).mpr ⟨_, _, _, rfl, taken, rfl⟩⟩

/-- What is neither a word nor a bracket is a value: the amount that an address waits for, or else
an immediate. -/
theorem readGroupWith_value {first : Token} {rest : List Token} {expression : Expression}
    (notWord : first.kind ≠ .name) (notOpening : first.isPunct "[" = false)
    (value : expression? (dropNumberSign (first :: rest)) = some expression) :
    (isOpen read = false → readGroupWith readInner read (first :: rest) =
      .ok (.immediate ⟨expression, none, none, Token.spanOf first rest⟩ :: read)) ∧
    ∀ latest earlier, latest.postIndex = none →
      readGroupWith readInner (.address latest :: earlier) (first :: rest) =
        .ok (.address { latest with
          postIndex := some expression
          span := ⟨latest.span.start, (Token.spanOf first rest).stop⟩ } :: earlier) := by
  have noWord : keyword first = "" := if_neg notWord
  obtain ⟨noRegister, noModifier⟩ := ofName?_empty
  have begins : BeginsValue first := ⟨noWord ▸ noRegister, noWord ▸ noModifier, notOpening⟩
  constructor
  · intro closed
    refine (readGroupWith_immediate_eq_ok begins ?_).mpr ⟨_, value, rfl⟩
    rintro latest earlier rfl waits
    simp [isOpen, waits] at closed
  · intro latest earlier waits
    exact (readGroupWith_postIndexed_eq_ok begins waits).mpr ⟨_, value, rfl⟩

/-- A printed number is a value, with its number sign or without it. -/
theorem exists_value {value : Int} {digits : String} {group : List Token}
    (literal : Text.readLiteral digits = .ok value.natAbs)
    (spelled : group.map lexeme = Expression.numberLexemes value digits ∨
      group.map lexeme = mark "#" :: Expression.numberLexemes value digits) :
    ∃ first rest expression, group = first :: rest ∧ first.kind ≠ .name ∧
      first.isPunct "[" = false ∧ expression? (dropNumberSign (first :: rest)) = some expression ∧
      expression.Denotes value := by
  rcases spelled with plain | signed
  · obtain ⟨expression, made, denotes⟩ := Expression.denotes_number literal plain
    obtain ⟨first, rest, rfl, isNumber⟩ : ∃ first rest, group = first :: rest ∧
        (first.lexeme = mark "-" ∨ first.lexeme = (.number, digits)) := by
      rw [Expression.numberLexemes] at plain
      split at plain
      · obtain ⟨first, rest, rfl, here, _⟩ := List.map_eq_cons_iff.mp plain
        exact ⟨first, rest, rfl, .inl here⟩
      · obtain ⟨first, rest, rfl, here, _⟩ := List.map_eq_cons_iff.mp plain
        exact ⟨first, rest, rfl, .inr here⟩
    rcases isNumber with minus | number
    · obtain ⟨span, rfl⟩ := lexeme_eq.mp minus
      exact ⟨_, rest, expression, rfl, by simp, by simp [Token.isPunct], made, denotes⟩
    · obtain ⟨span, rfl⟩ := lexeme_eq.mp number
      exact ⟨_, rest, expression, rfl, by simp, by simp [Token.isPunct], made, denotes⟩
  · obtain ⟨first, rest, rfl, isSign, plain⟩ := List.map_eq_cons_iff.mp signed
    obtain ⟨span, rfl⟩ := lexeme_eq.mp isSign
    obtain ⟨expression, made, denotes⟩ := Expression.denotes_number literal plain
    exact ⟨_, rest, expression, rfl, by simp, by simp [Token.isPunct], made, denotes⟩

/-- The digits of an immediate are read back. -/
theorem readLiteral_immediateDigits (value : Int) :
    Text.readLiteral (Spelling.immediateDigits value) = .ok value.natAbs := by
  rw [Spelling.immediateDigits]
  split
  · rename_i small
    exact Text.readLiteral_decimal _ small
  · exact Text.readLiteral_hex _

/-- The groups of a modification put it on the operand before them, if that takes it. -/
theorem foldlM_modification {modification : Modification} {groups : List (List Token)}
    (small : Spelling.isSmall modification = true)
    (spelled : groups.map (List.map lexeme) = Spelling.modificationGroups modification) :
    ∃ given stop, ReadsAmount (modification.bind Prod.snd) given ∧ ∀ latest modified,
      (match modification with
        | none => modified = latest
        | some (modifier, _) => modify? modifier given stop latest = some modified) →
      groups.foldlM (readGroupWith readInner) (latest :: read) = .ok (modified :: read) := by
  cases modification with
  | none =>
    obtain rfl := List.map_eq_nil_iff.mp spelled
    exact ⟨none, 0, rfl, fun latest modified same => by rw [same]; rfl⟩
  | some modification =>
    obtain ⟨modifier, amount⟩ := modification
    obtain ⟨group, groups, rfl, here, none⟩ := List.map_eq_cons_iff.mp spelled
    obtain rfl := List.map_eq_nil_iff.mp none
    have small : ∀ value ∈ amount, value < 256 := by
      simpa [Spelling.isSmall, Option.all_eq_true] using small
    obtain ⟨given, stop, reads, taken⟩ :=
      @readGroupWith_modification readInner modifier amount group small here
    refine ⟨given, stop, reads, fun latest modified modifies => ?_⟩
    rw [List.foldlM_cons, taken latest read modified modifies]
    rfl

/-- A printed operand without brackets is read as what it was printed for. -/
theorem foldlM_plain {spelling : PlainSpelling} (valid : spelling.Valid)
    {groups : List (List Token)} (spelled : groups.map (List.map lexeme) = spelling.groups)
    (closed : isOpen read = false) :
    ∃ operand, spelling.Reads operand ∧ isOpen [operand] = false ∧
      groups.foldlM (readGroupWith readInner) read = .ok (operand :: read) := by
  cases spelling with
  | register named modification =>
    obtain ⟨group, groups, rfl, here, behind⟩ := List.map_eq_cons_iff.mp spelled
    obtain ⟨token, tokens, rfl, isName, none⟩ := List.map_eq_cons_iff.mp here
    obtain rfl := List.map_eq_nil_iff.mp none
    obtain ⟨span, rfl⟩ := lexeme_eq.mp isName
    obtain ⟨given, stop, reads, taken⟩ :=
      @foldlM_modification readInner read modification groups valid.2 behind
    rw [List.foldlM_cons, ok_bind (readGroupWith_register valid.1 span)]
    cases modification with
    | none =>
      refine ⟨_, ⟨_, rfl, rfl, rfl, ?_⟩, rfl, taken _ _ rfl⟩
      exact rfl
    | some modification => exact ⟨_, ⟨_, rfl, rfl, rfl, reads⟩, rfl, taken _ _ rfl⟩
  | immediate value shift =>
    obtain ⟨group, groups, rfl, here, behind⟩ := List.map_eq_cons_iff.mp spelled
    obtain ⟨first, rest, expression, rfl, notWord, notOpening, made, denotes⟩ :=
      exists_value (readLiteral_immediateDigits value) (.inr here)
    have small : Spelling.isSmall (shift.map fun amount => (.lsl, some amount)) = true := by
      simpa [Spelling.isSmall, Option.all_eq_true, PlainSpelling.Valid] using valid
    obtain ⟨given, stop, reads, taken⟩ :=
      @foldlM_modification readInner read _ groups small behind
    rw [List.foldlM_cons, ok_bind ((readGroupWith_value notWord notOpening made).1 closed)]
    cases shift with
    | none =>
      refine ⟨_, ⟨_, rfl, denotes, rfl, ?_⟩, rfl, taken _ _ rfl⟩
      exact rfl
    | some amount =>
      refine ⟨_, ⟨_, rfl, denotes, rfl, ?_⟩, rfl, taken _ _ rfl⟩
      exact reads
  | number value marked =>
    obtain ⟨group, groups, rfl, here, none⟩ := List.map_eq_cons_iff.mp spelled
    obtain rfl := List.map_eq_nil_iff.mp none
    obtain ⟨first, rest, expression, rfl, notWord, notOpening, made, denotes⟩ :=
      exists_value (Text.readLiteral_hex _) (by
        cases marked with
        | false => exact .inl here
        | true => exact .inr here)
    rw [List.foldlM_cons, ok_bind ((readGroupWith_value notWord notOpening made).1 closed)]
    exact ⟨_, ⟨_, rfl, denotes, rfl, rfl⟩, rfl, rfl⟩

/-- Printed operands without brackets are read one after the other. -/
theorem foldlM_plains {spellings : List PlainSpelling} (valid : ∀ spelling ∈ spellings, spelling.Valid)
    {groups : List (List Token)} (spelled : groups.map (List.map lexeme) =
      spellings.flatMap PlainSpelling.groups) (closed : isOpen read = false) :
    ∃ operands, PlainSpelling.ReadsAll spellings operands ∧
      groups.foldlM (readGroupWith readInner) read = .ok (operands.reverse ++ read) := by
  induction spellings generalizing groups read with
  | nil =>
    obtain rfl := List.map_eq_nil_iff.mp spelled
    exact ⟨[], rfl, rfl⟩
  | cons spelling spellings ih =>
    obtain ⟨here, later⟩ := List.forall_mem_cons.mp valid
    obtain ⟨front, behind, rfl, front_eq, behind_eq⟩ := List.map_eq_append_iff.mp spelled
    obtain ⟨operand, reads, plain, taken⟩ := foldlM_plain here front_eq closed
    have closed' : isOpen (operand :: read) = false := by
      cases operand <;> first | rfl | exact plain
    obtain ⟨operands, readsAll, taken'⟩ := ih later behind_eq closed'
    refine ⟨operand :: operands, ⟨operand, operands, rfl, reads, readsAll⟩, ?_⟩
    rw [List.foldlM_append, ok_bind taken, taken', List.reverse_cons, List.append_assoc]
    rfl

/-- What is read without brackets is a part of an address. -/
theorem part?_of_reads {spelling : PlainSpelling} {operand : Operand}
    (reads : spelling.Reads operand) :
    ∃ part, part? operand = some part ∧ part.operand = operand := by
  cases spelling <;> obtain ⟨given, rfl, _⟩ := reads <;> exact ⟨_, rfl, rfl⟩

/-- Operands that are read without brackets are the parts of an address. -/
theorem mapM_part?_of_readsAll {spellings : List PlainSpelling} {operands : List Operand}
    (reads : PlainSpelling.ReadsAll spellings operands) :
    ∃ parts, operands.mapM part? = some parts ∧ parts.map AddressPart.operand = operands := by
  induction spellings generalizing operands with
  | nil =>
    obtain rfl := reads
    exact ⟨[], rfl, rfl⟩
  | cons spelling spellings ih =>
    obtain ⟨operand, behind, rfl, here, later⟩ := reads
    obtain ⟨part, isPart, same⟩ := part?_of_reads here
    obtain ⟨parts, areParts, same'⟩ := ih later
    exact ⟨part :: parts, by simp [List.mapM_cons, isPart, areParts], by simp [same, same']⟩

/-- The tokens between the brackets of an address. -/
theorem bracketed?_closed {first last : Token} {inner : List Token} (some : inner ≠ [])
    (closes : last.lexeme = mark "]") :
    bracketed? (first :: inner ++ [last]) = .some (inner, false) := by
  obtain ⟨span, rfl⟩ := lexeme_eq.mp closes
  have positive : 0 < inner.length := List.length_pos_iff.mpr some
  simp [bracketed?, Token.isPunct, positive, -List.cons_append, -List.cons_append_fun]

/-- The tokens between the brackets of an address with a mark of pre-indexing. -/
theorem bracketed?_preIndexed {first last exclamation : Token} {inner : List Token}
    (some : inner ≠ []) (closes : last.lexeme = mark "]")
    (marked : exclamation.lexeme = mark "!") :
    bracketed? (first :: inner ++ [last, exclamation]) = .some (inner, true) := by
  obtain ⟨span_1, rfl⟩ := lexeme_eq.mp closes
  obtain ⟨span, rfl⟩ := lexeme_eq.mp marked
  have positive : 0 < inner.length := List.length_pos_iff.mpr some
  have split : first :: inner ++ [⟨.punct, "]", span_1⟩, ⟨.punct, "!", span⟩] =
      (first :: inner ++ [⟨.punct, "]", span_1⟩]) ++ [⟨.punct, "!", span⟩] := by simp
  rw [split]
  simp [bracketed?, Token.isPunct, positive, -List.cons_append, -List.cons_append_fun]

/-- An address is read from the operands between its brackets. -/
theorem readGroupWith_address {first : Token} {rest inner : List Token} {preIndexed : Bool}
    {operands : List Operand} {parts : List AddressPart} (opens : first.lexeme = mark "[")
    (brackets : bracketed? (first :: rest) = some (inner, preIndexed))
    (reads : readInner (Token.splitCommas inner) = .ok operands.reverse)
    (isParts : operands.mapM part? = some parts) :
    readGroupWith readInner read (first :: rest) =
      .ok (.address ⟨parts, preIndexed, none, Token.spanOf first rest⟩ :: read) := by
  obtain ⟨span, rfl⟩ := lexeme_eq.mp opens
  exact (readGroupWith_address_eq_ok rfl).mpr
    ⟨_, _, _, _, brackets, reads, by rwa [List.reverse_reverse], rfl⟩

/-- A lexeme that is neither a bracket nor a comma. -/
def IsInner (lexeme : TokenKind × String) : Prop :=
  lexeme ≠ mark "[" ∧ lexeme ≠ mark "]" ∧ lexeme ≠ mark ","

/-- The lexemes of a number are neither brackets nor commas. -/
theorem isInner_number {value : Int} {digits : String} :
    ∀ lexeme ∈ Expression.numberLexemes value digits, IsInner lexeme := by
  intro lexeme inside
  rw [Expression.numberLexemes] at inside
  split at inside <;> simp at inside
  · rcases inside with rfl | rfl <;> simp [IsInner, mark]
  · subst inside
    simp [IsInner, mark]

/-- The lexemes of an immediate are neither brackets nor commas. -/
theorem isInner_immediate {value : Int} :
    ∀ lexeme ∈ Spelling.immediateLexemes value, IsInner lexeme :=
  List.forall_mem_cons.mpr ⟨by simp [IsInner, mark], isInner_number⟩

/-- The lexemes of a modification are neither brackets nor commas. -/
theorem isInner_modification {modification : Modification} :
    ∀ group ∈ Spelling.modificationGroups modification, ∀ lexeme ∈ group, IsInner lexeme := by
  intro group member lexeme inside
  obtain _ | ⟨modifier, _ | amount⟩ := modification
  · contradiction
  · obtain rfl := List.mem_singleton.mp member
    obtain rfl := List.mem_singleton.mp inside
    simp [IsInner, mark]
  · obtain rfl := List.mem_singleton.mp member
    simp only [Spelling.amountLexemes, List.mem_cons, List.not_mem_nil, or_false] at inside
    rcases inside with rfl | rfl | rfl <;> simp [IsInner, mark]

/-- A group of an operand without brackets has neither brackets nor commas. -/
theorem isInner_plain {spelling : PlainSpelling} :
    ∀ group ∈ spelling.groups, ∀ lexeme ∈ group, IsInner lexeme := by
  cases spelling with
  | register named modification =>
    refine List.forall_mem_cons.mpr ⟨?_, isInner_modification⟩
    simp [IsInner, mark]
  | immediate value shift =>
    exact List.forall_mem_cons.mpr ⟨isInner_immediate, isInner_modification⟩
  | number value marked =>
    refine List.forall_mem_cons.mpr ⟨fun lexeme inside => ?_, by simp⟩
    rcases List.mem_append.mp inside with sign | number
    · obtain ⟨_, rfl⟩ : marked = true ∧ lexeme = mark "#" := by simpa using sign
      simp [IsInner, mark]
    · exact isInner_number lexeme number

/-- Between the brackets of an address there are neither brackets nor further groups. -/
theorem isInner_innerGroups {spelling : Spelling} :
    ∀ group ∈ spelling.innerGroups, ∀ lexeme ∈ group, IsInner lexeme := by
  intro group member
  obtain ⟨plain, _, member⟩ := List.mem_flatMap.mp member
  exact isInner_plain group member

/-- Groups without brackets have none when they are joined. -/
theorem ne_bracket_of_mem_joined {groups : List (List (TokenKind × String))}
    (inner : ∀ group ∈ groups, ∀ lexeme ∈ group, IsInner lexeme) :
    ∀ lexeme ∈ Spelling.joined groups, lexeme ≠ mark "[" ∧ lexeme ≠ mark "]" := by
  intro lexeme inside
  cases groups with
  | nil => contradiction
  | cons group groups =>
    obtain ⟨here, later⟩ := List.forall_mem_cons.mp inner
    rw [Spelling.joined_cons, List.mem_append, List.mem_flatMap] at inside
    rcases inside with inside | ⟨next, member, inside⟩
    · exact ⟨(here lexeme inside).1, (here lexeme inside).2.1⟩
    · rcases List.mem_cons.mp inside with rfl | inside
      · simp [mark]
      · exact ⟨(later next member lexeme inside).1, (later next member lexeme inside).2.1⟩

/-- Every group of a printed operand has balanced brackets. -/
theorem balanced_groups {spelling : Spelling} :
    ∀ group ∈ spelling.groups, Token.depthAfter 0 group = some 0 := by
  have plain {group : List (TokenKind × String)} (inner : ∀ lexeme ∈ group, IsInner lexeme) :
      Token.depthAfter 0 group = some 0 := by
    rw [← List.append_nil group, Token.depthAfter_append
      (fun lexeme inside => ⟨(inner lexeme inside).1, (inner lexeme inside).2.1⟩)
      (.inr fun inside => (inner _ inside).2.2 rfl)]
    rfl
  have enclosed (rest : List (TokenKind × String)) :
      Token.depthAfter 0 (mark "[" :: Spelling.joined spelling.innerGroups ++ mark "]" :: rest) =
        Token.depthAfter 0 rest := by
    have opened : Token.depthAfter 0
        (mark "[" :: Spelling.joined spelling.innerGroups ++ mark "]" :: rest) =
          Token.depthAfter 1 (Spelling.joined spelling.innerGroups ++ mark "]" :: rest) := rfl
    rw [opened, Token.depthAfter_append (ne_bracket_of_mem_joined isInner_innerGroups)
      (.inl (by decide))]
    rfl
  cases spelling with
  | plain spelling => exact fun group member => plain (isInner_plain group member)
  | address base behind preIndexed =>
    refine List.forall_mem_cons.mpr ⟨?_, by simp⟩
    rw [enclosed]
    cases preIndexed <;> decide
  | postIndexed base amount =>
    refine List.forall_mem_cons.mpr ⟨?_, List.forall_mem_cons.mpr ⟨plain isInner_immediate, by simp⟩⟩
    rw [enclosed]
    rfl

/-- What is read inside brackets is read as groups are. -/
theorem exists_readGroup (depth : Nat) : ∃ readInner, readGroup depth = readGroupWith readInner := by
  cases depth <;> exact ⟨_, rfl⟩

/-- The operands between the brackets of an address are read. -/
theorem readGroup_inner {spelling : Spelling} (valid : spelling.Valid) {inner : List Token}
    (some : spelling.innerGroups ≠ [])
    (spelled : inner.map lexeme = Spelling.joined spelling.innerGroups) (depth : Nat) :
    ∃ operands, PlainSpelling.ReadsAll spelling.inner operands ∧
      (Token.splitCommas inner).foldlM (readGroup depth) [] = .ok operands.reverse := by
  have validInner : ∀ plain ∈ spelling.inner, plain.Valid := by
    cases spelling with
    | plain spelling => simp [Spelling.inner]
    | address base behind preIndexed =>
      refine List.forall_mem_cons.mpr ⟨⟨valid.1, rfl⟩, fun plain inside => ?_⟩
      exact valid.2 plain (Option.mem_toList.mp inside)
    | postIndexed base amount => exact List.forall_mem_cons.mpr ⟨⟨valid, rfl⟩, by simp⟩
  have cut := Token.splitCommas_of_joined some
    (fun group member inside => (isInner_innerGroups group member _ inside).2.2 rfl) spelled
  obtain ⟨readInner, same⟩ := exists_readGroup depth
  obtain ⟨operands, reads, taken⟩ := @foldlM_plains readInner [] _ validInner _ cut rfl
  exact ⟨operands, reads, by rw [same, taken, List.append_nil]⟩

/-- The group of an address is read from its brackets. -/
theorem readGroup_address {spelling : Spelling} (valid : spelling.Valid)
    (addressed : spelling.inner ≠ []) {group : List Token} {preIndexed : Bool}
    (spelled : group.map lexeme = mark "[" :: Spelling.joined spelling.innerGroups ++
      mark "]" :: if preIndexed then [mark "!"] else []) (depth : Nat) (read : List Operand) :
    ∃ parts span, PlainSpelling.ReadsAll spelling.inner (parts.map AddressPart.operand) ∧
      readGroup (depth + 1) read group = .ok (.address ⟨parts, preIndexed, none, span⟩ :: read) := by
  have lexemes : Spelling.joined spelling.innerGroups ≠ [] := by
    cases spelling with
    | plain spelling => contradiction
    | address base behind preIndexed =>
      simp [Spelling.innerGroups, Spelling.inner, PlainSpelling.groups_register,
        Spelling.joined_cons]
    | postIndexed base amount =>
      simp [Spelling.innerGroups, Spelling.inner, PlainSpelling.groups_register,
        Spelling.joined_cons]
  have groups : spelling.innerGroups ≠ [] := by
    intro none
    rw [none] at lexemes
    exact lexemes rfl
  obtain ⟨first, rest, rfl, opens, behind⟩ := List.map_eq_cons_iff.mp spelled
  obtain ⟨inner, closing, rfl, inner_spelled, closing_spelled⟩ := List.map_eq_append_iff.mp behind
  obtain ⟨close, marks, rfl, closes, marks_spelled⟩ := List.map_eq_cons_iff.mp closing_spelled
  have some : inner ≠ [] := by
    rintro rfl
    exact lexemes inner_spelled.symm
  have brackets : bracketed? (first :: (inner ++ close :: marks)) = .some (inner, preIndexed) := by
    cases preIndexed with
    | true =>
      obtain ⟨exclamation, marks, rfl, marked, none⟩ := List.map_eq_cons_iff.mp marks_spelled
      obtain rfl := List.map_eq_nil_iff.mp none
      exact bracketed?_preIndexed some closes marked
    | false =>
      obtain rfl := List.map_eq_nil_iff.mp marks_spelled
      exact bracketed?_closed some closes
  obtain ⟨operands, reads, taken⟩ := readGroup_inner valid groups inner_spelled depth
  obtain ⟨parts, isParts, same⟩ := mapM_part?_of_readsAll reads
  exact ⟨parts, _, by rw [same]; exact reads, readGroupWith_address opens brackets taken isParts⟩

/-- A printed operand is read as what it was printed for. -/
theorem foldlM_spelling {spelling : Spelling} (valid : spelling.Valid) {groups : List (List Token)}
    (spelled : groups.map (List.map lexeme) = spelling.groups) (closed : isOpen read = false)
    (depth : Nat) :
    ∃ operand, spelling.Reads operand ∧
      (∀ plain, spelling = .plain plain → isOpen [operand] = false) ∧
      groups.foldlM (readGroup (depth + 1)) read = .ok (operand :: read) := by
  cases spelling with
  | plain spelling =>
    obtain ⟨readInner, same⟩ := exists_readGroup (depth + 1)
    obtain ⟨operand, reads, plain, taken⟩ := @foldlM_plain readInner read _ valid _ spelled closed
    exact ⟨operand, reads, fun _ _ => plain, by rw [same, taken]⟩
  | address base behind preIndexed =>
    obtain ⟨group, groups, rfl, here, behind⟩ := List.map_eq_cons_iff.mp spelled
    obtain rfl := List.map_eq_nil_iff.mp behind
    obtain ⟨parts, span, reads, taken⟩ := readGroup_address valid (by simp [Spelling.inner]) here
      depth read
    refine ⟨_, ⟨⟨parts, preIndexed, none, span⟩, rfl, reads, rfl, rfl⟩,
      fun plain impossible => by contradiction, ?_⟩
    rw [List.foldlM_cons, ok_bind taken]
    rfl
  | postIndexed base amount =>
    obtain ⟨group, groups, rfl, here, behind⟩ := List.map_eq_cons_iff.mp spelled
    obtain ⟨valueGroup, groups, rfl, there, end_eq⟩ := List.map_eq_cons_iff.mp behind
    obtain rfl := List.map_eq_nil_iff.mp end_eq
    obtain ⟨parts, span, reads, taken⟩ := @readGroup_address _ valid (by simp [Spelling.inner])
      group false here depth read
    obtain ⟨first, rest, expression, rfl, notWord, notOpening, made, denotes⟩ :=
      exists_value (readLiteral_immediateDigits amount) (.inr there)
    obtain ⟨readInner, same⟩ := exists_readGroup (depth + 1)
    have taken' := (@readGroupWith_value readInner read _ _ _ notWord notOpening made).2
      ⟨parts, false, none, span⟩ read rfl
    rw [← same] at taken'
    refine ⟨_, ⟨⟨parts, false, some expression, ⟨span.start, (Token.spanOf first rest).stop⟩⟩,
      expression, rfl, reads, rfl, rfl, denotes⟩, fun plain impossible => by contradiction, ?_⟩
    rw [List.foldlM_cons, ok_bind taken, List.foldlM_cons, ok_bind taken']
    rfl

/-- Printed operands are read one after the other when only the last of them may be an address. -/
theorem foldlM_spellings {spellings : List Spelling} (valid : ∀ spelling ∈ spellings, spelling.Valid)
    (plain : ∀ spelling ∈ spellings.dropLast, ∃ inner, spelling = .plain inner)
    {groups : List (List Token)}
    (spelled : groups.map (List.map lexeme) = spellings.flatMap Spelling.groups)
    (closed : isOpen read = false) (depth : Nat) :
    ∃ operands, Spelling.ReadsAll spellings operands ∧
      groups.foldlM (readGroup (depth + 1)) read = .ok (operands.reverse ++ read) := by
  induction spellings generalizing groups read with
  | nil =>
    obtain rfl := List.map_eq_nil_iff.mp spelled
    exact ⟨[], rfl, rfl⟩
  | cons spelling spellings ih =>
    obtain ⟨here, later⟩ := List.forall_mem_cons.mp valid
    obtain ⟨front, behind, rfl, front_eq, behind_eq⟩ := List.map_eq_append_iff.mp spelled
    obtain ⟨operand, reads, closes, taken⟩ := foldlM_spelling here front_eq closed depth
    cases spellings with
    | nil =>
      obtain rfl := List.map_eq_nil_iff.mp behind_eq
      refine ⟨[operand], ⟨operand, [], rfl, reads, rfl⟩, ?_⟩
      rw [List.append_nil, taken]
      rfl
    | cons next spellings =>
      rw [List.dropLast_cons_cons] at plain
      obtain ⟨⟨inner, isPlain⟩, plain⟩ := List.forall_mem_cons.mp plain
      have closed' : isOpen (operand :: read) = false := by
        have closed := closes inner isPlain
        cases operand <;> first | rfl | exact closed
      obtain ⟨operands, readsAll, taken'⟩ := ih later plain behind_eq closed'
      refine ⟨operand :: operands, ⟨operand, operands, rfl, reads, readsAll⟩, ?_⟩
      rw [List.foldlM_append, ok_bind taken, taken', List.reverse_cons, List.append_assoc]
      rfl

/-- The text of an operand list scans to the lexemes of its operands. -/
theorem scans_intercalate {spellings : List Spelling} (some : spellings ≠ [])
    (valid : ∀ spelling ∈ spellings, spelling.Valid) :
    Token.Scans (", ".intercalate (spellings.map Spelling.text)).toList
      (Spelling.joined (spellings.flatMap Spelling.groups)) := by
  induction spellings with
  | nil => contradiction
  | cons spelling spellings ih =>
    obtain ⟨here, later⟩ := List.forall_mem_cons.mp valid
    cases spellings with
    | nil =>
      have scanned := Spelling.scans_text spelling here Token.breaks_nil Token.scans_nil
      simpa using scanned
    | cons next spellings =>
      have scanned := Spelling.scans_text spelling here (Token.breaks_cons (.inr (.inl rfl)))
        (Spelling.scans_comma (ih (by simp) later))
      rw [List.map_cons, List.map_cons, String.intercalate_cons_cons, ← List.map_cons,
        String.toList_append, String.toList_append, List.append_assoc, List.flatMap_cons,
        Spelling.joined_append spelling.groups_ne_nil]
      · exact scanned
      · simp [next.groups_ne_nil]

/-- The text of printed operands is read as what they were printed for. -/
theorem parse_intercalate {spellings : List Spelling} (valid : ∀ spelling ∈ spellings, spelling.Valid)
    (plain : ∀ spelling ∈ spellings.dropLast, ∃ inner, spelling = .plain inner) (offset : Int) :
    ∃ operands, parse (", ".intercalate (spellings.map Spelling.text)) offset = .ok operands ∧
      Spelling.ReadsAll spellings operands := by
  cases spellings with
  | nil => exact ⟨[], rfl, rfl⟩
  | cons spelling spellings =>
    obtain ⟨tokens, scanned, spelled⟩ := scans_intercalate (by simp) valid offset
    have grouped := Token.groupAt_of_joined (by simp [spelling.groups_ne_nil])
      (fun group member => by
        obtain ⟨other, _, member⟩ := List.mem_flatMap.mp member
        exact balanced_groups group member) spelled
    obtain ⟨first, lexemes, rest, front⟩ := spelling.exists_groups_eq
    have first_eq := grouped
    rw [List.flatMap_cons, front, List.cons_append, List.map_eq_cons_iff] at first_eq
    obtain ⟨group, behind, cut, group_eq, behind_eq⟩ := first_eq
    obtain ⟨token, group, rfl, _, _⟩ := List.map_eq_cons_iff.mp group_eq
    have groups : Token.groups (", ".intercalate ((spelling :: spellings).map Spelling.text)) offset =
        .ok (Token.groupAt 0 tokens) := by
      rw [Token.groups, ok_bind scanned]
      split
      · rename_i empty
        rw [cut] at empty
        simp at empty
      · rfl
    obtain ⟨depth, deep⟩ : ∃ depth, (Token.groupAt 0 tokens).flatten.length = depth + 1 := by
      rw [cut]
      exact ⟨_, rfl⟩
    obtain ⟨operands, reads, taken⟩ := @foldlM_spellings [] _ valid plain _ grouped rfl depth
    refine ⟨operands, ?_, reads⟩
    rw [parse, ok_bind groups, ofGroups, deep, taken, List.append_nil, Except.map,
      List.reverse_reverse]

end Operand

end A64Machine
