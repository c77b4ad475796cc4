import A64Machine.Text.Numeral
import A64Machine.Token

/-!
# Immediate expressions

An expression is a signed sum of numbers, symbols, the current address `.` and sums in
parentheses. It is kept as its tokens and evaluated from left to right with one entry on a stack
for every open parenthesis.

`Expression.advance` is meant for tokens that a text was cut into. The text of such a token is not
empty, a punctuation mark is a single character, and a number is a run of digits with or without a
lead. Nothing is said about a token that was put together otherwise, such as the mark `+-`.
-/

namespace A64Machine

/-- An expression as it was written. -/
structure Expression where
  tokens : List Token
  span : Span
  deriving DecidableEq, Repr

/-- Why a text has no meaning: a complaint about its form, or a number that cannot be read. -/
inductive Refusal where
  | assembly (error : AssemblyError)
  | numeral (bad : Text.BadNumeral)
  deriving DecidableEq, Repr

/-- What the names in an expression stand for. -/
abbrev SymbolValues := String → Option Int

namespace Expression

/-- The expression with the given tokens, which spans from the first to the last. -/
def ofTokens (first : Token) (rest : List Token) : Expression :=
  ⟨first :: rest, Token.spanOf first rest⟩

/-- The token texts without the blanks between them. -/
def text (expression : Expression) : String :=
  expression.tokens.foldl (fun text token => text ++ token.text) ""

/-- The state of an evaluation: the sum read so far, the sign of the term to come, whether a
term must come next, and the sum and the sign in front of every open parenthesis. -/
structure Progress where
  total : Int
  sign : Int
  termExpected : Bool
  enclosing : List (Int × Int)
  deriving DecidableEq, Repr

/-- The start of an evaluation. -/
def Progress.start : Progress := ⟨0, 1, true, []⟩

/-- The value of a token that stands for a number. -/
def termValue (symbols : SymbolValues) (dot : Int) (token : Token) : Except Refusal Int :=
  match token.kind with
  | .number =>
    match Text.readLiteral token.text with
    | .ok value => .ok value
    | .error bad => .error (.numeral bad)
  | .name =>
    if token.text = "." then .ok dot
    else
      match symbols token.text with
      | some value => .ok value
      | none => .error (.assembly ⟨.undefinedSymbol token.text, token.span⟩)
  | .punct => .error (.assembly ⟨.unexpectedInExpression token.text, token.span⟩)

/-- The state after one more token. -/
def advance (symbols : SymbolValues) (dot : Int) (progress : Progress) (token : Token) :
    Except Refusal Progress :=
  if token.isPunct "+" then .ok { progress with termExpected := true }
  else if token.isPunct "-" then
    .ok { progress with sign := -progress.sign, termExpected := true }
  else if token.isPunct "(" then
    if progress.termExpected then
      .ok ⟨0, 1, true, (progress.total, progress.sign) :: progress.enclosing⟩
    else .error (.assembly ⟨.operatorExpected, token.span⟩)
  else if token.isPunct ")" then
    match progress.enclosing, progress.termExpected with
    | (total, sign) :: enclosing, false =>
      .ok ⟨total + sign * progress.total, 1, false, enclosing⟩
    | _, _ => .error (.assembly ⟨.unbalancedParentheses, token.span⟩)
  else if progress.termExpected then do
    let value ← termValue symbols dot token
    return { progress with
      total := progress.total + progress.sign * value, sign := 1, termExpected := false }
  else .error (.assembly ⟨.operatorExpected, token.span⟩)

/-- The value of an expression under the given symbols and current address. -/
def evaluate (symbols : SymbolValues) (dot : Int) (expression : Expression) :
    Except Refusal Int := do
  let progress ← expression.tokens.foldlM (advance symbols dot) Progress.start
  if progress.termExpected || !progress.enclosing.isEmpty then
    throw (.assembly ⟨.incompleteExpression, expression.span⟩)
  return progress.total

end Expression

end A64Machine
