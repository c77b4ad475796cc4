import A64Machine.Proofs.Refusals

/-!
# Expressions are signed sums

A sum is a term behind any number of signs, and further terms behind it, each with at least one
sign in front. A term is a number, the current address, a symbol that has a value, or a sum in
parentheses. The evaluation of an expression reads its tokens from left to right and keeps a stack
for the open parentheses. It yields a value just for the tokens that form a sum, and the value is
that of the sum.
-/

namespace A64Machine.Expression

open Token (isPunct_of_ne)

variable {symbols : SymbolValues} {dot : Int}

/-- The value of a token that is a term by itself. -/
inductive StandsFor (symbols : SymbolValues) (dot : Int) (token : Token) : Int → Prop
  /-- A number stands for what its text reads as. -/
  | number {value : Nat} (isNumber : token.kind = .number)
    (read : Text.readLiteral token.text = .ok value) : StandsFor symbols dot token value
  /-- A period stands for the current address. -/
  | dot (isName : token.kind = .name) (isDot : token.text = ".") : StandsFor symbols dot token dot
  /-- Any other name stands for the value of the symbol. -/
  | symbol {value : Int} (isName : token.kind = .name) (notDot : token.text ≠ ".")
    (known : symbols token.text = some value) : StandsFor symbols dot token value

/-- A run of signs and their product. -/
inductive Signs : List Token → Int → Prop
  | none : Signs [] 1
  | plus {sign : Token} {behind : List Token} {product : Int} (isPlus : sign.isPunct "+" = true)
    (signs : Signs behind product) : Signs (sign :: behind) product
  | minus {sign : Token} {behind : List Token} {product : Int} (isMinus : sign.isPunct "-" = true)
    (signs : Signs behind product) : Signs (sign :: behind) (-product)

mutual

/-- Tokens that form a sum, and its value. -/
inductive IsSum (symbols : SymbolValues) (dot : Int) : List Token → Int → Prop
  | first {signs term : List Token} {sign value : Int} (signed : Signs signs sign)
    (isTerm : IsTerm symbols dot term value) : IsSum symbols dot (signs ++ term) (sign * value)
  | further {sum signs term : List Token} {total sign value : Int}
    (isSum : IsSum symbols dot sum total) (isSigned : signs ≠ []) (signed : Signs signs sign)
    (isTerm : IsTerm symbols dot term value) :
    IsSum symbols dot (sum ++ signs ++ term) (total + sign * value)

/-- Tokens that form a term, and its value. -/
inductive IsTerm (symbols : SymbolValues) (dot : Int) : List Token → Int → Prop
  | single {token : Token} {value : Int} (stands : StandsFor symbols dot token value) :
    IsTerm symbols dot [token] value
  | parentheses {opening closing : Token} {inner : List Token} {value : Int}
    (opens : opening.isPunct "(" = true) (isSum : IsSum symbols dot inner value)
    (closes : closing.isPunct ")" = true) :
    IsTerm symbols dot (opening :: inner ++ [closing]) value

end

/-! ### Tokens -/

/-- A token that has a value of its own is no punctuation mark. -/
theorem StandsFor.isPunct {token : Token} {value : Int} (stands : StandsFor symbols dot token value)
    (text : String) : token.isPunct text = false := by
  cases stands with
  | number kind | dot kind | symbol kind => simp [Token.isPunct, kind]

/-- A token has a value of its own when it stands for it. -/
theorem termValue_eq_ok {token : Token} {value : Int} :
    termValue symbols dot token = .ok value ↔ StandsFor symbols dot token value := by
  constructor
  · intro valued
    unfold termValue at valued
    split at valued
    · rename_i isNumber
      split at valued
      · rename_i read
        exact Except.ok.inj valued ▸ .number isNumber read
      · contradiction
    · rename_i isName
      split at valued
      · rename_i isDot
        exact Except.ok.inj valued ▸ .dot isName isDot
      · rename_i notDot
        split at valued
        · rename_i known
          exact Except.ok.inj valued ▸ .symbol isName notDot known
        · contradiction
    · contradiction
  · intro stands
    cases stands with
    | number isNumber read => simp [termValue, isNumber, read]
    | dot isName isDot => simp [termValue, isName, isDot]
    | symbol isName notDot known => simp [termValue, isName, notDot, known]

/-- What a token does to the progress of an evaluation. -/
inductive Advances (symbols : SymbolValues) (dot : Int) (token : Token) :
    Progress → Progress → Prop
  /-- A plus sign keeps the sign of the term to come. -/
  | plus {progress : Progress} (isPlus : token.isPunct "+" = true) :
    Advances symbols dot token progress { progress with termExpected := true }
  /-- A minus sign turns the sign of the term to come. -/
  | minus {progress : Progress} (isMinus : token.isPunct "-" = true) :
    Advances symbols dot token progress
      { progress with sign := -progress.sign, termExpected := true }
  /-- A parenthesis is opened where a term is expected. -/
  | opening {total sign : Int} {enclosing : List (Int × Int)} (opens : token.isPunct "(" = true) :
    Advances symbols dot token ⟨total, sign, true, enclosing⟩
      ⟨0, 1, true, (total, sign) :: enclosing⟩
  /-- A parenthesis is closed behind a term, and what is in it is one. -/
  | closing {inner last total sign : Int} {enclosing : List (Int × Int)}
    (closes : token.isPunct ")" = true) :
    Advances symbols dot token ⟨inner, last, false, (total, sign) :: enclosing⟩
      ⟨total + sign * inner, 1, false, enclosing⟩
  /-- A term is added where one is expected. -/
  | term {total sign value : Int} {enclosing : List (Int × Int)}
    (stands : StandsFor symbols dot token value) :
    Advances symbols dot token ⟨total, sign, true, enclosing⟩
      ⟨total + sign * value, 1, false, enclosing⟩

variable {progress next : Progress} {token : Token}

/-- An evaluation goes on in these ways and in no other. -/
theorem advance_eq_ok :
    advance symbols dot progress token = .ok next ↔ Advances symbols dot token progress next := by
  constructor
  · intro read
    obtain ⟨total, sign, expected, enclosing⟩ := progress
    by_cases isPlus : token.isPunct "+" = true
    · rw [advance, if_pos isPlus] at read
      exact Except.ok.inj read ▸ .plus isPlus
    by_cases isMinus : token.isPunct "-" = true
    · rw [advance, if_neg isPlus, if_pos isMinus] at read
      exact Except.ok.inj read ▸ .minus isMinus
    by_cases opens : token.isPunct "(" = true
    · rw [advance, if_neg isPlus, if_neg isMinus, if_pos opens] at read
      cases expected with
      | true => exact Except.ok.inj read ▸ .opening opens
      | false => contradiction
    by_cases closes : token.isPunct ")" = true
    · rw [advance, if_neg isPlus, if_neg isMinus, if_neg opens, if_pos closes] at read
      cases enclosing with
      | nil => contradiction
      | cons outer enclosing =>
        cases expected with
        | true => contradiction
        | false => exact Except.ok.inj read ▸ .closing closes
    rw [advance, if_neg isPlus, if_neg isMinus, if_neg opens, if_neg closes] at read
    cases expected with
    | true =>
      obtain ⟨value, valued, read⟩ := bind_eq_ok.mp read
      exact Except.ok.inj read ▸ .term (termValue_eq_ok.mp valued)
    | false => contradiction
  · intro advances
    cases advances with
    | plus isPlus => rw [advance, if_pos isPlus]
    | minus isMinus =>
      rw [advance, isPunct_of_ne isMinus (by decide), if_neg (by decide), if_pos isMinus]
    | opening opens =>
      rw [advance, isPunct_of_ne opens (by decide), isPunct_of_ne opens (by decide), opens]
      rfl
    | closing closes =>
      rw [advance, isPunct_of_ne closes (by decide), isPunct_of_ne closes (by decide),
        isPunct_of_ne closes (by decide), closes]
      rfl
    | term stands =>
      simp [advance, stands.isPunct, termValue_eq_ok.mpr stands, bind, Except.bind, pure,
        Except.pure]

/-! ### Sums are evaluated -/

/-- Signs turn the sign of the term to come, which is expected behind them. -/
theorem foldlM_signs {signs : List Token} {product : Int} (signed : Signs signs product)
    (total sign : Int) (expected : Bool) (enclosing : List (Int × Int))
    (open' : signs = [] → expected = true) :
    signs.foldlM (advance symbols dot) ⟨total, sign, expected, enclosing⟩ =
      .ok ⟨total, sign * product, true, enclosing⟩ := by
  induction signed generalizing sign expected with
  | none =>
    rw [open' rfl, Int.mul_one]
    rfl
  | plus isPlus _ ih =>
    rw [List.foldlM_cons, ok_bind (advance_eq_ok.mpr (.plus isPlus))]
    exact ih sign true fun _ => rfl
  | @minus _ _ product isMinus _ ih =>
    rw [List.foldlM_cons, ok_bind (advance_eq_ok.mpr (.minus isMinus)), Int.mul_neg, ← Int.neg_mul]
    exact ih (-sign) true fun _ => rfl

mutual

/-- A sum at the start of an expression or of parentheses is evaluated to its value. -/
theorem IsSum.evaluated {tokens : List Token} {value : Int} (enclosing : List (Int × Int)) :
    IsSum symbols dot tokens value →
      tokens.foldlM (advance symbols dot) ⟨0, 1, true, enclosing⟩ =
        .ok ⟨value, 1, false, enclosing⟩
  | .first signed isTerm => by
    rw [List.foldlM_append, ok_bind (foldlM_signs signed 0 1 true enclosing fun _ => rfl),
      isTerm.evaluated, Int.one_mul, Int.zero_add]
  | .further isSum isSigned signed isTerm => by
    rw [List.append_assoc, List.foldlM_append, ok_bind (isSum.evaluated enclosing),
      List.foldlM_append, ok_bind (foldlM_signs signed _ 1 false enclosing fun none =>
        absurd none isSigned), isTerm.evaluated, Int.one_mul]

/-- A term is added with the sign in front of it. -/
theorem IsTerm.evaluated {tokens : List Token} {value : Int} (total sign : Int)
    (enclosing : List (Int × Int)) :
    IsTerm symbols dot tokens value →
      tokens.foldlM (advance symbols dot) ⟨total, sign, true, enclosing⟩ =
        .ok ⟨total + sign * value, 1, false, enclosing⟩
  | .single stands => by
    rw [List.foldlM_cons, ok_bind (advance_eq_ok.mpr (.term stands))]
    rfl
  | @IsTerm.parentheses _ _ opening closing inner _ opens isSum closes => by
    rw [List.cons_append, List.foldlM_cons, ok_bind (advance_eq_ok.mpr (.opening opens)),
      List.foldlM_append, ok_bind (isSum.evaluated _), List.foldlM_cons,
      ok_bind (advance_eq_ok.mpr (.closing closes))]
    rfl

end

/-! ### What is evaluated is a sum -/

/-- The product of two runs of signs is that of their products. -/
theorem Signs.append {first second : List Token} {product other : Int}
    (signed : Signs first product) (behind : Signs second other) :
    Signs (first ++ second) (product * other) := by
  induction signed with
  | none => rwa [Int.one_mul]
  | plus isPlus _ ih => exact .plus isPlus ih
  | minus isMinus _ ih =>
    rw [Int.neg_mul]
    exact .minus isMinus ih

/-- What was read since the innermost open parenthesis, if any: signs alone, a sum, or a sum with
signs behind it. -/
inductive Level (symbols : SymbolValues) (dot : Int) :
    (total sign : Int) → (termExpected : Bool) → List Token → Prop
  | signs {signs : List Token} {sign : Int} (signed : Signs signs sign) :
    Level symbols dot 0 sign true signs
  | sum {tokens : List Token} {total : Int} (isSum : IsSum symbols dot tokens total) :
    Level symbols dot total 1 false tokens
  | signedSum {sum signs : List Token} {total sign : Int} (isSum : IsSum symbols dot sum total)
    (isSigned : signs ≠ []) (signed : Signs signs sign) :
    Level symbols dot total sign true (sum ++ signs)

/-- What was read up to the innermost open parenthesis. -/
inductive Opened (symbols : SymbolValues) (dot : Int) : List (Int × Int) → List Token → Prop
  | none : Opened symbols dot [] []
  | parenthesis {enclosing : List (Int × Int)} {before tokens : List Token} {total sign : Int}
    {opening : Token} (opened : Opened symbols dot enclosing before)
    (level : Level symbols dot total sign true tokens) (opens : opening.isPunct "(" = true) :
    Opened symbols dot ((total, sign) :: enclosing) (before ++ tokens ++ [opening])

/-- The progress of an evaluation tells what was read: some open parentheses, and what is behind the
innermost of them. -/
structure Progress.Consumed (symbols : SymbolValues) (dot : Int) (progress : Progress)
    (tokens : List Token) : Prop where
  split : ∃ before inner, tokens = before ++ inner ∧
    Opened symbols dot progress.enclosing before ∧
    Level symbols dot progress.total progress.sign progress.termExpected inner

variable {total sign value : Int} {expected : Bool} {tokens term signs : List Token}

/-- Further signs are those of the term to come. -/
theorem Level.append_signs (level : Level symbols dot total sign expected tokens) {product : Int}
    (isSigned : signs ≠ []) (signed : Signs signs product) :
    Level symbols dot total (sign * product) true (tokens ++ signs) := by
  cases level with
  | signs before => exact .signs (before.append signed)
  | sum isSum =>
    rw [Int.one_mul]
    exact .signedSum isSum isSigned signed
  | signedSum isSum _ before =>
    rw [List.append_assoc]
    exact .signedSum isSum (by simp [isSigned]) (before.append signed)

/-- A term that was expected completes a sum. -/
theorem Level.append_term (level : Level symbols dot total sign true tokens)
    (isTerm : IsTerm symbols dot term value) :
    IsSum symbols dot (tokens ++ term) (total + sign * value) := by
  cases level with
  | signs signed =>
    rw [Int.zero_add]
    exact .first signed isTerm
  | signedSum isSum isSigned signed => exact .further isSum isSigned signed isTerm

/-- A token that is read is consumed. -/
theorem Progress.Consumed.advance (consumed : progress.Consumed symbols dot tokens)
    (read : advance symbols dot progress token = .ok next) :
    next.Consumed symbols dot (tokens ++ [token]) := by
  obtain ⟨before, inner, rfl, opened, level⟩ := consumed.split
  cases advance_eq_ok.mp read with
  | plus isPlus =>
    refine ⟨before, inner ++ [token], List.append_assoc .., opened, ?_⟩
    simpa using level.append_signs (List.cons_ne_nil _ _) (.plus isPlus .none)
  | minus isMinus =>
    refine ⟨before, inner ++ [token], List.append_assoc .., opened, ?_⟩
    simpa using level.append_signs (List.cons_ne_nil _ _) (.minus isMinus .none)
  | opening opens =>
    exact ⟨_, [], (List.append_nil _).symm, .parenthesis opened level opens, .signs .none⟩
  | closing closes =>
    cases opened with
    | @parenthesis _ outer front _ _ start opened enclosed opens =>
      cases level with
      | sum isSum =>
        refine ⟨outer, front ++ (start :: inner ++ [token]), by simp, opened, .sum ?_⟩
        exact enclosed.append_term (.parentheses opens isSum closes)
  | term stands =>
    refine ⟨before, inner ++ [token], List.append_assoc .., opened, .sum ?_⟩
    exact level.append_term (.single stands)

/-- Tokens that are read one after the other are consumed. -/
theorem Progress.Consumed.foldlM {behind : List Token}
    (consumed : progress.Consumed symbols dot tokens)
    (read : behind.foldlM (Expression.advance symbols dot) progress = .ok next) :
    next.Consumed symbols dot (tokens ++ behind) := by
  induction behind generalizing progress tokens with
  | nil =>
    obtain rfl := Except.ok.inj read
    rwa [List.append_nil]
  | cons token behind ih =>
    rw [List.foldlM_cons] at read
    obtain ⟨middle, here, later⟩ := bind_eq_ok.mp read
    rw [List.append_cons]
    exact ih (consumed.advance here) later

/-- An expression has a value when its tokens form a sum with that value. -/
theorem evaluate_eq_ok {expression : Expression} :
    expression.evaluate symbols dot = .ok value ↔
      IsSum symbols dot expression.tokens value := by
  constructor
  · intro evaluated
    obtain ⟨last, read, evaluated⟩ := bind_eq_ok.mp evaluated
    have start : Progress.start.Consumed symbols dot [] := ⟨[], [], rfl, .none, .signs .none⟩
    obtain ⟨before, inner, split, opened, level⟩ := (start.foldlM read).split
    obtain ⟨total, sign, expected, enclosing⟩ := last
    cases expected with
    | true => contradiction
    | false =>
      cases enclosing with
      | cons => contradiction
      | nil =>
        obtain rfl := Except.ok.inj evaluated
        cases opened with
        | none =>
          cases level with
          | sum isSum => rwa [← List.nil_append expression.tokens, split]
  · intro isSum
    have read : expression.tokens.foldlM (advance symbols dot) .start = .ok ⟨value, 1, false, []⟩ :=
      isSum.evaluated []
    rw [evaluate, ok_bind read]
    rfl

/-- An expression whose numbers can be read is evaluated to the value of the sum that its tokens
form, and it is refused with a complaint when they form none. -/
theorem evaluates_signed_sum (symbols : SymbolValues) (dot : Int) (expression : Expression)
    (readable : ∀ token ∈ expression.tokens, token.kind = .number →
      ∃ value, Text.readLiteral token.text = .ok value) :
    (∀ value, expression.evaluate symbols dot = .ok value ↔
      IsSum symbols dot expression.tokens value) ∧
    ((¬ ∃ value, IsSum symbols dot expression.tokens value) ↔
      ∃ error, expression.evaluate symbols dot = .error (.assembly error)) := by
  refine ⟨fun value => evaluate_eq_ok, ?_⟩
  cases evaluated : expression.evaluate symbols dot with
  | ok value =>
    have isSum := evaluate_eq_ok.mp evaluated
    exact iff_of_false (fun none => none ⟨value, isSum⟩) (by simp)
  | error refusal =>
    refine iff_of_true (fun ⟨value, isSum⟩ => ?_) ?_
    · rw [evaluate_eq_ok.mpr isSum] at evaluated
      contradiction
    cases refusal with
    | assembly error => exact ⟨error, rfl⟩
    | numeral bad =>
      obtain ⟨token, inside, isNumber, unread⟩ :=
        evaluate_failsOnly symbols dot (List.Subset.refl expression.tokens) _ evaluated
      obtain ⟨value, read⟩ := readable token inside isNumber
      rw [read] at unread
      contradiction

/-- Parentheses behind a sign, with a symbol inside them and the current address behind them. -/
theorem evaluates_signed_sum_negated :
    ∃ expression : Expression, expression.text = "-(2-x)+." ∧
      (∀ token ∈ expression.tokens, token.kind = .number →
        ∃ value, Text.readLiteral token.text = .ok value) ∧
      IsSum (fun name => if name = "x" then some 5 else none) 100 expression.tokens 103 := by
  let expression : Expression :=
    ⟨[⟨.punct, "-", ⟨0, 1⟩⟩, ⟨.punct, "(", ⟨1, 2⟩⟩, ⟨.number, "2", ⟨2, 3⟩⟩, ⟨.punct, "-", ⟨3, 4⟩⟩,
      ⟨.name, "x", ⟨4, 5⟩⟩, ⟨.punct, ")", ⟨5, 6⟩⟩, ⟨.punct, "+", ⟨6, 7⟩⟩, ⟨.name, ".", ⟨7, 8⟩⟩],
      ⟨0, 8⟩⟩
  have literals : ∀ token ∈ expression.tokens, token.kind = .number →
      (Text.readLiteral token.text).toOption = some 2 := by decide
  have readable : ∀ token ∈ expression.tokens, token.kind = .number →
      ∃ value, Text.readLiteral token.text = .ok value :=
    fun token inside isNumber => ⟨2, toOption_eq_some.mp (literals token inside isNumber)⟩
  refine ⟨expression, by decide, readable, ?_⟩
  exact ((evaluates_signed_sum _ 100 expression readable).1 103).mp
    (toOption_eq_some.mp (by decide))

end A64Machine.Expression
