import A64Machine.Operand
import A64Machine.Proofs.Token

/-!
# Printed numbers as expressions

A printed number is a literal behind an optional sign. As an expression it denotes the number it
was printed from, whatever the symbols and the current address are.
-/

namespace A64Machine

namespace Token

/-- A token with a known lexeme is known but for its place. -/
theorem lexeme_eq {token : Token} {kind : TokenKind} {text : String} :
    token.lexeme = (kind, text) ↔ ∃ span, token = ⟨kind, text, span⟩ := by
  obtain ⟨kind', text', span⟩ := token
  simp [lexeme]

/-- A text of no token breaks off what is before it when it begins with a break. -/
theorem breaks_cons {c : Char} {rest : List Char} (isBreak : c = ' ' ∨ c = ',' ∨ c = ']') :
    Breaks (c :: rest) := by
  intro first same
  obtain rfl := Option.some.inj same
  exact isBreak

/-- Nothing breaks off what is before it. -/
theorem breaks_nil : Breaks [] := by simp [Breaks]

end Token

namespace Expression

/-- An expression denotes a number when that is its value under all symbols and addresses. -/
def Denotes (expression : Expression) (value : Int) : Prop :=
  ∀ symbols dot, expression.evaluate symbols dot = .ok value

/-- The lexemes of a number whose absolute value has the given digits. -/
def numberLexemes (value : Int) (digits : String) : List (TokenKind × String) :=
  (if value < 0 then [Token.mark "-"] else []) ++ [(.number, digits)]

/-- Tokens that are the lexemes of a number make an expression that denotes it. -/
theorem denotes_number {value : Int} {digits : String}
    (read : Text.readLiteral digits = .ok value.natAbs) {tokens : List Token}
    (spelled : tokens.map Token.lexeme = numberLexemes value digits) :
    ∃ expression, Operand.expression? tokens = some expression ∧ expression.Denotes value := by
  by_cases negative : value < 0
  · have natural : value = -(value.natAbs : Int) := by omega
    rw [numberLexemes, if_pos negative] at spelled
    simp only [Token.mark, List.cons_append, List.nil_append, List.map_eq_cons_iff,
      List.map_eq_nil_iff, Token.lexeme_eq] at spelled
    obtain ⟨_, _, rfl, ⟨minus, rfl⟩, _, _, rfl, ⟨number, rfl⟩, rfl⟩ := spelled
    refine ⟨_, rfl, fun symbols dot => ?_⟩
    rw [natural]
    simp [evaluate, ofTokens, advance, Progress.start, Token.isPunct, termValue, read, bind,
      Except.bind, pure, Except.pure]
  · have natural : value = (value.natAbs : Int) := by omega
    rw [numberLexemes, if_neg negative] at spelled
    simp only [List.nil_append, List.map_eq_cons_iff, List.map_eq_nil_iff,
      Token.lexeme_eq] at spelled
    obtain ⟨_, _, rfl, ⟨number, rfl⟩, rfl⟩ := spelled
    refine ⟨_, rfl, fun symbols dot => ?_⟩
    rw [natural]
    simp [evaluate, ofTokens, advance, Progress.start, Token.isPunct, termValue, read, bind,
      Except.bind, pure, Except.pure]

end Expression

end A64Machine
