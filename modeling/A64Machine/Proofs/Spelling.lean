import A64Machine.Proofs.Expression

/-!
# Printed operands

What a disassembly prints for an operand is spelled in one of a few ways: a register with a
modifier, an immediate with a shift, a number, or an address made of those. The spelling says which
text is printed and which lexemes the text scans to.
-/

namespace A64Machine

/-- A modifier behind a register with the amount that is written behind it. -/
abbrev Modification := Option (Modifier × Option Nat)

/-- A printed operand without brackets. A number is always in hexadecimal notation, with a number
sign or without it. -/
inductive PlainSpelling where
  | register (named : Register) (modification : Modification)
  | immediate (value : Int) (shift : Option Nat)
  | number (value : Int) (marked : Bool)
  deriving Repr

/-- A printed operand. -/
inductive Spelling where
  | plain (spelling : PlainSpelling)
  | address (base : Register) (behind : Option PlainSpelling) (preIndexed : Bool)
  | postIndexed (base : Register) (amount : Int)
  deriving Repr

namespace Spelling

open Token (mark Scans Breaks)

/-- The digits of an immediate, in the notation it is printed in. -/
def immediateDigits (value : Int) : String :=
  if value.natAbs < 256 then Text.decimal value.natAbs else Text.hex value.natAbs

/-- The lexemes of an immediate. -/
def immediateLexemes (value : Int) : List (TokenKind × String) :=
  mark "#" :: Expression.numberLexemes value (immediateDigits value)

/-- The lexemes of a small amount. -/
def amountLexemes : Option Nat → List (TokenKind × String)
  | none => []
  | some amount => [mark "#", (.number, Text.decimal amount)]

/-- The text of a small amount. -/
def amountText : Option Nat → String
  | none => ""
  | some amount => " #" ++ Text.decimal amount

/-- The groups of lexemes of a modification. -/
def modificationGroups : Modification → List (List (TokenKind × String))
  | none => []
  | some (modifier, amount) => [(.name, modifier.name) :: amountLexemes amount]

/-- The text of a modification. -/
def modificationText : Modification → String
  | none => ""
  | some (modifier, amount) => ", " ++ modifier.name ++ amountText amount

/-- Groups of lexemes with commas between them. -/
def joined (groups : List (List (TokenKind × String))) : List (TokenKind × String) :=
  [mark ","].intercalate groups

/-- The amount of a modification is small. -/
def isSmall (modification : Modification) : Bool :=
  modification.all fun (_, amount) => amount.all fun amount => decide (amount < 256)

end Spelling

namespace PlainSpelling

open Spelling
open Token (mark)

/-- The text of an operand without brackets. -/
def text : PlainSpelling → String
  | .register named modification => named.name ++ modificationText modification
  | .immediate value shift =>
    Disassembly.immediate value ++ modificationText (shift.map fun amount => (.lsl, some amount))
  | .number value marked => (if marked then "#" else "") ++ Text.hex value

/-- The groups of lexemes of an operand without brackets. -/
def groups : PlainSpelling → List (List (TokenKind × String))
  | .register named modification => [(.name, named.name)] :: modificationGroups modification
  | .immediate value shift =>
    immediateLexemes value :: modificationGroups (shift.map fun amount => (.lsl, some amount))
  | .number value marked =>
    [(if marked then [mark "#"] else []) ++
      Expression.numberLexemes value (Text.hex value.natAbs)]

/-- A register without a modifier is one group of one lexeme. -/
theorem groups_register (named : Register) :
    (PlainSpelling.register named none).groups = [[(.name, named.name)]] := rfl

/-- An operand without brackets has a group. -/
theorem groups_ne_nil (spelling : PlainSpelling) : spelling.groups ≠ [] := by
  cases spelling <;> simp [groups]

/-- A spelling whose register exists and whose amount is small. -/
def Valid : PlainSpelling → Prop
  | .register named modification => named.slot < 32 ∧ isSmall modification = true
  | .immediate _ shift => ∀ amount ∈ shift, amount < 256
  | .number _ _ => True

end PlainSpelling

namespace Spelling

open Token (mark Scans Breaks)

/-- The text of an operand. -/
def text : Spelling → String
  | .plain spelling => spelling.text
  | .address base behind preIndexed =>
    "[" ++ base.name ++ (behind.map fun spelling => ", " ++ spelling.text).getD "" ++ "]" ++
      if preIndexed then "!" else ""
  | .postIndexed base amount => "[" ++ base.name ++ "], " ++ Disassembly.immediate amount

/-- The operands between the brackets of an address. -/
def inner : Spelling → List PlainSpelling
  | .plain _ => []
  | .address base behind _ => .register base none :: behind.toList
  | .postIndexed base _ => [.register base none]

/-- The groups of lexemes between the brackets of an address. -/
def innerGroups (spelling : Spelling) : List (List (TokenKind × String)) :=
  spelling.inner.flatMap PlainSpelling.groups

/-- The groups of lexemes of an operand. -/
def groups (spelling : Spelling) : List (List (TokenKind × String)) :=
  match spelling with
  | .plain spelling => spelling.groups
  | .address _ _ preIndexed =>
    [mark "[" :: joined spelling.innerGroups ++
      mark "]" :: if preIndexed then [mark "!"] else []]
  | .postIndexed _ amount =>
    [mark "[" :: joined spelling.innerGroups ++ [mark "]"], immediateLexemes amount]

/-- A printed operand begins with a lexeme. -/
theorem exists_groups_eq (spelling : Spelling) :
    ∃ lexeme lexemes groups, spelling.groups = (lexeme :: lexemes) :: groups := by
  cases spelling with
  | plain spelling =>
    cases spelling with
    | register named modification => exact ⟨_, _, _, rfl⟩
    | immediate value shift => exact ⟨_, _, _, rfl⟩
    | number value marked =>
      rw [groups, PlainSpelling.groups, Expression.numberLexemes]
      cases marked with
      | true => exact ⟨_, _, _, rfl⟩
      | false =>
        rw [if_neg Bool.false_ne_true, List.nil_append]
        split <;> exact ⟨_, _, _, rfl⟩
  | address | postIndexed => exact ⟨_, _, _, rfl⟩

/-- A printed operand has a group. -/
theorem groups_ne_nil (spelling : Spelling) : spelling.groups ≠ [] := by
  obtain ⟨lexeme, lexemes, groups, same⟩ := spelling.exists_groups_eq
  simp [same]

/-- A spelling whose registers exist and whose amounts are small. -/
def Valid : Spelling → Prop
  | .plain spelling => spelling.Valid
  | .address base behind _ => base.slot < 32 ∧ ∀ spelling ∈ behind, spelling.Valid
  | .postIndexed base _ => base.slot < 32

/-! ### Scanning -/

section Scanning

variable {rest : List Char} {lexemes : List (TokenKind × String)}

/-- A mark in front of a text. -/
theorem scans_mark {c : Char} (isMark : Lexeme.isPunctuation c = true)
    (scans : Scans rest lexemes) :
    Scans (c :: rest) (mark (String.ofList [c]) :: lexemes) :=
  scans.lexeme (Token.lexes_mark isMark rest) (by simp)

/-- A comma and a blank in front of a text. -/
theorem scans_comma (scans : Scans rest lexemes) :
    Scans (',' :: ' ' :: rest) (mark "," :: lexemes) :=
  scans_mark (by decide) scans.blank

/-- The names of registers and modifiers are names. -/
theorem isName_register :
    ∀ slot < 32, ∀ wide, Token.isName (Register.name ⟨slot, wide⟩).toList = true := by
  decide +kernel

/-- The names of modifiers are names. -/
theorem isName_modifier (modifier : Modifier) : Token.isName modifier.name.toList = true := by
  cases modifier <;> decide

/-- A register name in front of a break. -/
theorem scans_register {register : Register} (small : register.slot < 32) (breaks : Breaks rest)
    (scans : Scans rest lexemes) :
    Scans (register.name.toList ++ rest) ((.name, register.name) :: lexemes) := by
  have name := isName_register register.slot small register.wide
  have some : register.name.toList ≠ [] := by
    intro none
    rw [none] at name
    contradiction
  have scanned := scans.lexeme (Token.lexes_name name breaks) some
  rwa [String.ofList_toList] at scanned

/-- A keyword in front of a break. -/
theorem scans_modifier (modifier : Modifier) (breaks : Breaks rest) (scans : Scans rest lexemes) :
    Scans (modifier.name.toList ++ rest) ((.name, modifier.name) :: lexemes) := by
  have name := isName_modifier modifier
  have some : modifier.name.toList ≠ [] := by cases modifier <;> decide
  have scanned := scans.lexeme (Token.lexes_name name breaks) some
  rwa [String.ofList_toList] at scanned

/-- A number in decimal notation in front of a break. -/
theorem scans_decimal (value : Nat) (breaks : Breaks rest) (scans : Scans rest lexemes) :
    Scans ((Text.decimal value).toList ++ rest) ((.number, Text.decimal value) :: lexemes) := by
  have digits : (Text.decimal value).toList = Text.digits 10 value := by
    rw [Text.toList_decimal, Text.sign, if_neg (by omega), Int.natAbs_natCast]
    rfl
  have plain : ∀ digit < 10, Text.isDigit (Text.digitChar digit) = true ∧
      Text.isBlank (Text.digitChar digit) = false ∧ Text.digitChar digit ≠ 'x' ∧
      Text.digitChar digit ≠ 'X' ∧ Text.digitChar digit ≠ 'b' ∧ Text.digitChar digit ≠ 'B' := by
    decide
  have lexes := Token.lexes_digits (Text.digits_ne_nil 10 value) (fun c inside => by
    rcases Text.mem_digitsBefore (by decide) _ _ _ inside with none | ⟨digit, below, rfl⟩
    · contradiction
    · exact plain digit below) breaks
  have scanned := scans.lexeme lexes (Text.digits_ne_nil 10 value)
  rwa [← digits, String.ofList_toList] at scanned

/-- The digits of a number in hexadecimal notation belong to one lexeme. -/
theorem isHexDigit_digits (value : Nat) : ∀ c ∈ Text.digits 16 value, Lexeme.isHexDigit c = true := by
  have plain : ∀ digit < 16, Lexeme.isHexDigit (Text.digitChar digit) = true := by decide
  intro c inside
  rcases Text.mem_digitsBefore (by decide) _ _ _ inside with none | ⟨digit, below, rfl⟩
  · contradiction
  · exact plain digit below

/-- A number in hexadecimal notation in front of a break. -/
theorem scans_hex (value : Nat) (breaks : Breaks rest) (scans : Scans rest lexemes) :
    Scans ((Text.hex value).toList ++ rest) ((.number, Text.hex value) :: lexemes) := by
  have digits : (Text.hex value).toList = '0' :: 'x' :: Text.digits 16 value := by
    rw [Text.toList_hex, Text.sign, if_neg (by omega), Int.natAbs_natCast]
    rfl
  have lexes := Token.lexes_hex (Text.digits_ne_nil 16 value) (isHexDigit_digits value) breaks
  have scanned := scans.lexeme lexes (by simp)
  rwa [← digits, String.ofList_toList] at scanned

/-- A word in hexadecimal notation in front of a break. -/
theorem scans_wordHex (value : Nat) (breaks : Breaks rest) (scans : Scans rest lexemes) :
    Scans ((Text.wordHex value).toList ++ rest) ((.number, Text.wordHex value) :: lexemes) := by
  obtain ⟨zeros, digits⟩ := Text.toList_wordHex value
  have hex : ∀ c ∈ List.replicate zeros '0' ++ Text.digits 16 value,
      Lexeme.isHexDigit c = true := by
    refine List.forall_mem_append.mpr ⟨fun c inside => ?_, isHexDigit_digits value⟩
    rw [(List.mem_replicate.mp inside).2]
    rfl
  have lexes := Token.lexes_hex
    (List.append_ne_nil_of_right_ne_nil _ (Text.digits_ne_nil 16 value)) hex breaks
  have scanned := scans.lexeme lexes (by simp)
  rwa [← digits, String.ofList_toList] at scanned

/-- A sign in front of the digits of a number. -/
theorem scans_sign {value : Int} {digits : String}
    (scans : Scans rest ((.number, digits) :: lexemes)) :
    Scans (Text.sign value ++ rest) (Expression.numberLexemes value digits ++ lexemes) := by
  rw [Text.sign, Expression.numberLexemes]
  split
  · exact scans_mark (by decide) scans
  · exact scans

/-- An immediate is a number sign, its sign and its digits. -/
theorem toList_immediate (value : Int) :
    (Disassembly.immediate value).toList =
      '#' :: (Text.sign value ++ (immediateDigits value).toList) := by
  have unsigned : Text.sign (value.natAbs : Int) = [] := if_neg (by omega)
  rw [Disassembly.immediate, immediateDigits]
  by_cases small : value.natAbs < 256
  · rw [if_pos (by omega), if_pos small, String.toList_append, Text.toList_decimal,
      Text.toList_decimal, unsigned, Int.natAbs_natCast]
    rfl
  · rw [if_neg (by omega), if_neg small, String.toList_append, Text.toList_hex,
      Text.toList_hex, unsigned, Int.natAbs_natCast]
    rfl

/-- An immediate in front of a break. -/
theorem scans_immediate (value : Int) (breaks : Breaks rest) (scans : Scans rest lexemes) :
    Scans ((Disassembly.immediate value).toList ++ rest) (immediateLexemes value ++ lexemes) := by
  rw [toList_immediate, List.cons_append, List.append_assoc]
  refine scans_mark (by decide) (scans_sign ?_)
  rw [immediateDigits]
  split
  · exact scans_decimal _ breaks scans
  · exact scans_hex _ breaks scans

/-- A number in hexadecimal notation with its sign in front of a break. -/
theorem scans_number (value : Int) (breaks : Breaks rest) (scans : Scans rest lexemes) :
    Scans ((Text.hex value).toList ++ rest)
      (Expression.numberLexemes value (Text.hex value.natAbs) ++ lexemes) := by
  have digits : (Text.hex value).toList =
      Text.sign value ++ (Text.hex value.natAbs).toList := by
    have unsigned : Text.sign (value.natAbs : Int) = [] := if_neg (by omega)
    rw [Text.toList_hex, Text.toList_hex, unsigned, Int.natAbs_natCast]
    rfl
  rw [digits, List.append_assoc]
  exact scans_sign (scans_hex _ breaks scans)

/-- A small amount in front of a break. -/
theorem scans_amount (amount : Option Nat) (breaks : Breaks rest) (scans : Scans rest lexemes) :
    Scans ((amountText amount).toList ++ rest) (amountLexemes amount ++ lexemes) := by
  cases amount with
  | none => exact scans
  | some amount =>
    have text : " #".toList = [' ', '#'] := rfl
    rw [amountText, String.toList_append, List.append_assoc, text]
    simp only [List.cons_append, List.nil_append]
    exact (scans_mark (by decide) (scans_decimal amount breaks scans)).blank

/-- What precedes an amount is broken off by it, or by what follows it. -/
theorem breaks_amount (amount : Option Nat) (breaks : Breaks rest) :
    Breaks ((amountText amount).toList ++ rest) := by
  cases amount with
  | none => exact breaks
  | some amount =>
    rw [amountText, String.toList_append]
    exact Token.breaks_cons (.inl rfl)

/-- Groups behind a group have a comma in front of them. -/
theorem joined_cons (group : List (TokenKind × String))
    (groups : List (List (TokenKind × String))) :
    joined (group :: groups) =
      group ++ groups.flatMap fun behind => mark "," :: behind := by
  induction groups generalizing group with
  | nil => simp [joined]
  | cons next groups ih =>
    rw [joined, List.intercalate_cons_cons, ← joined, ih, List.flatMap_cons]
    simp

/-- Groups that stand behind another have a comma in front of all of them. -/
theorem flatMap_comma {groups : List (List (TokenKind × String))} (some : groups ≠ []) :
    groups.flatMap (mark "," :: ·) = mark "," :: joined groups := by
  obtain ⟨group, groups, rfl⟩ := List.exists_cons_of_ne_nil some
  rw [joined_cons, List.flatMap_cons, List.cons_append]

/-- Groups behind groups have a comma in front of them. -/
theorem joined_append {front behind : List (List (TokenKind × String))} (some : front ≠ [])
    (some' : behind ≠ []) :
    joined (front ++ behind) = joined front ++ mark "," :: joined behind := by
  obtain ⟨group, front, rfl⟩ := List.exists_cons_of_ne_nil some
  rw [List.cons_append, joined_cons, joined_cons, List.flatMap_append, flatMap_comma some',
    List.append_assoc]

/-- A modification in front of a break. -/
theorem scans_modification (modification : Modification) (breaks : Breaks rest)
    (scans : Scans rest lexemes) :
    Scans ((modificationText modification).toList ++ rest)
      ((modificationGroups modification).flatMap (mark "," :: ·) ++ lexemes) := by
  cases modification with
  | none => exact scans
  | some modification =>
    obtain ⟨modifier, amount⟩ := modification
    have scanned := scans_comma (scans_modifier modifier (breaks_amount amount breaks)
      (scans_amount amount breaks scans))
    simpa [modificationText, modificationGroups, String.toList_append] using scanned

/-- What precedes a modification is broken off by it, or by what follows it. -/
theorem breaks_modification (modification : Modification) (breaks : Breaks rest) :
    Breaks ((modificationText modification).toList ++ rest) := by
  cases modification with
  | none => exact breaks
  | some modification =>
    rw [modificationText, String.toList_append, String.toList_append]
    exact Token.breaks_cons (.inr (.inl rfl))

/-- A printed operand without brackets in front of a break scans to its lexemes. -/
theorem scans_plain (spelling : PlainSpelling) (valid : spelling.Valid) (breaks : Breaks rest)
    (scans : Scans rest lexemes) :
    Scans (spelling.text.toList ++ rest) (joined spelling.groups ++ lexemes) := by
  cases spelling with
  | register named modification =>
    have scanned := scans_register valid.1 (breaks_modification modification breaks)
      (scans_modification modification breaks scans)
    simpa [PlainSpelling.text, PlainSpelling.groups, joined_cons] using scanned
  | immediate value shift =>
    have scanned := scans_immediate value (breaks_modification _ breaks)
      (scans_modification (shift.map fun amount => (.lsl, some amount)) breaks scans)
    simpa [PlainSpelling.text, PlainSpelling.groups, joined_cons] using scanned
  | number value marked =>
    have scanned := scans_number value breaks scans
    cases marked with
    | false => simpa [PlainSpelling.text, PlainSpelling.groups, joined_cons] using scanned
    | true =>
      have signed := scans_mark (c := '#') (by decide) scanned
      simpa [PlainSpelling.text, PlainSpelling.groups, joined_cons] using signed

/-- A printed operand in front of a break scans to its lexemes. -/
theorem scans_text (spelling : Spelling) (valid : spelling.Valid) (breaks : Breaks rest)
    (scans : Scans rest lexemes) :
    Scans (spelling.text.toList ++ rest) (joined spelling.groups ++ lexemes) := by
  cases spelling with
  | plain spelling => exact scans_plain spelling valid breaks scans
  | address base behind preIndexed =>
    obtain ⟨validBase, validBehind⟩ := valid
    have closed : Scans (']' :: ((if preIndexed then "!" else "").toList ++ rest))
        (mark "]" :: ((if preIndexed then [mark "!"] else []) ++ lexemes)) := by
      cases preIndexed with
      | true => exact scans_mark (by decide) (scans_mark (by decide) scans)
      | false => exact scans_mark (by decide) scans
    have ends : Breaks (']' :: ((if preIndexed then "!" else "").toList ++ rest)) :=
      Token.breaks_cons (by simp)
    cases behind with
    | none =>
      have scanned := scans_mark (c := '[') (by decide) (scans_register validBase ends closed)
      simpa [text, groups, innerGroups, inner, PlainSpelling.groups_register, joined_cons]
        using scanned
    | some behind =>
      have scanned := scans_mark (c := '[') (by decide) (scans_register validBase
        (Token.breaks_cons (by simp))
        (scans_comma (scans_plain behind (validBehind behind rfl) ends closed)))
      simpa [text, groups, innerGroups, inner, PlainSpelling.groups_register, joined_cons,
        flatMap_comma behind.groups_ne_nil] using scanned
  | postIndexed base amount =>
    have scanned := scans_mark (c := '[') (by decide) (scans_register valid
      (Token.breaks_cons (by simp)) (scans_mark (c := ']') (by decide)
        (scans_comma (scans_immediate amount breaks scans))))
    simpa [text, groups, innerGroups, inner, PlainSpelling.groups_register, joined_cons]
      using scanned

end Scanning

end Spelling

end A64Machine
