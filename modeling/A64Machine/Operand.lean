import A64Machine.Expression
import A64Machine.Modifier
import A64Machine.Register
import A64Machine.Text.LowerCase

/-!
# Operands

An operand is a register, an immediate or an address. The token groups of a line are read from
left to right. A shift or an extension belongs to the operand before it, and an immediate that
follows a closed address is the amount added to the base afterwards.
-/

namespace A64Machine

/-- A register with the shift or extension behind it. -/
structure RegisterOperand where
  name : String
  register : Register
  modifier : Option Modifier
  amount : Option Expression
  span : Span
  deriving DecidableEq, Repr

/-- An immediate with the shift behind it. -/
structure ImmediateOperand where
  value : Expression
  modifier : Option Modifier
  amount : Option Expression
  span : Span
  deriving DecidableEq, Repr

/-- What may stand inside the brackets of an address. -/
inductive AddressPart where
  | register (operand : RegisterOperand)
  | immediate (operand : ImmediateOperand)
  deriving DecidableEq, Repr

/-- An address in brackets, with the mark of pre-indexing or the amount of post-indexing. -/
structure AddressOperand where
  parts : List AddressPart
  preIndexed : Bool
  postIndex : Option Expression
  span : Span
  deriving DecidableEq, Repr

/-- An operand of an instruction or a directive. -/
inductive Operand where
  | register (operand : RegisterOperand)
  | immediate (operand : ImmediateOperand)
  | address (operand : AddressOperand)
  deriving DecidableEq, Repr

namespace AddressPart

/-- The place of a part. -/
def span : AddressPart → Span
  | .register operand => operand.span
  | .immediate operand => operand.span

end AddressPart

namespace Operand

/-- The place of an operand. -/
def span : Operand → Span
  | .register operand => operand.span
  | .immediate operand => operand.span
  | .address operand => operand.span

/-- The operand as a part of an address. -/
def part? : Operand → Option AddressPart
  | .register operand => some (.register operand)
  | .immediate operand => some (.immediate operand)
  | .address _ => none

/-- The place from the first to the last of some operands, which is empty at the start of the
line when there are none. -/
def spanOf (operands : List Operand) : Span :=
  match operands.head?, operands.getLast? with
  | some first, some last => ⟨first.span.start, last.span.stop⟩
  | _, _ => ⟨0, 0⟩

/-- The tokens without a number sign in front. -/
def dropNumberSign : List Token → List Token
  | token :: rest => if token.isPunct "#" then rest else token :: rest
  | [] => []

/-- The expression that some tokens make, if there are any. -/
def expression? : List Token → Option Expression
  | first :: rest => some (Expression.ofTokens first rest)
  | [] => none

/-- Puts a shift or an extension on the latest operand, if it may take one. -/
def modify? (modifier : Modifier) (amount : Option Expression) (stop : Int) :
    Operand → Option Operand
  | .register operand =>
    if operand.modifier.isSome then none
    else
      some (.register { operand with
        modifier := some modifier, amount := amount, span := ⟨operand.span.start, stop⟩ })
  | .immediate operand =>
    if operand.modifier.isSome ∨ modifier ≠ .lsl then none
    else
      some (.immediate { operand with
        modifier := some modifier, amount := amount, span := ⟨operand.span.start, stop⟩ })
  | .address _ => none

/-- The word that a token can mean as a keyword. -/
def keyword (token : Token) : String :=
  if token.kind = .name then Text.lower token.text else ""

/-- The tokens between the brackets of an address and whether a mark of pre-indexing follows. -/
def bracketed? (tokens : List Token) : Option (List Token × Bool) :=
  let preIndexed :=
    decide (2 < tokens.length) && (tokens.getLast?.any fun token => token.isPunct "!")
  let body := if preIndexed then tokens.dropLast else tokens
  let inner := body.tail.dropLast
  if 2 < body.length ∧ (body.getLast?.any fun token => token.isPunct "]") then
    some (inner, preIndexed)
  else none

/-- Reads one group after the operands read so far, which are listed from the latest. The groups
inside brackets are read by `readInner`. -/
def readGroupWith (readInner : List (List Token) → Except AssemblyError (List Operand))
    (read : List Operand) : (group : List Token) → Except AssemblyError (List Operand)
  | [] => .error ⟨.operandExpected, ⟨0, 0⟩⟩
  | first :: rest =>
    let span := Token.spanOf first rest
    let word := keyword first
    match Register.ofName? word, Modifier.ofName? word with
    | some named, _ =>
      if rest.isEmpty then .ok (.register ⟨word, named, none, none, span⟩ :: read)
      else .error ⟨.registerNameExpected, span⟩
    | none, some modifier =>
      match read with
      | latest :: earlier =>
        match modify? modifier (expression? (dropNumberSign rest)) span.stop latest with
        | some modified => .ok (modified :: earlier)
        | none => .error ⟨.badModifiedRegister, span⟩
      | [] => .error ⟨.badModifiedRegister, span⟩
    | none, none =>
      if first.isPunct "[" then
        match bracketed? (first :: rest) with
        | none => .error ⟨.addressFormat, span⟩
        | some (inner, preIndexed) => do
          match (← readInner (Token.splitCommas inner)).reverse.mapM part? with
          | some parts => return .address ⟨parts, preIndexed, none, span⟩ :: read
          | none => throw ⟨.addressFormat, span⟩
      else
        match expression? (dropNumberSign (first :: rest)) with
        | none => .error ⟨.immediateExpected, span⟩
        | some value =>
          match read with
          | .address latest :: earlier =>
            if latest.postIndex.isNone then
              .ok (.address { latest with
                postIndex := some value, span := ⟨latest.span.start, span.stop⟩ } :: earlier)
            else .ok (.immediate ⟨value, none, none, span⟩ :: read)
          | _ => .ok (.immediate ⟨value, none, none, span⟩ :: read)

/-- Reads one group, inside at most `depth` levels of brackets, after the operands read so far,
which are listed from the latest. -/
def readGroup : (depth : Nat) → (read : List Operand) → (group : List Token) →
    Except AssemblyError (List Operand)
  | 0 => readGroupWith fun _ => .error ⟨.addressFormat, ⟨0, 0⟩⟩
  | depth + 1 => readGroupWith fun groups => groups.foldlM (readGroup depth) []

/-- The operands of token groups. Brackets cannot be nested deeper than there are tokens. -/
def ofGroups (groups : List (List Token)) : Except AssemblyError (List Operand) :=
  (groups.foldlM (readGroup groups.flatten.length) []).map List.reverse

/-- The operands of a text that begins at the given position of its line. -/
def parse (text : String) (offset : Int) : Except AssemblyError (List Operand) := do
  ofGroups (← Token.groups text offset)

end Operand

end A64Machine
