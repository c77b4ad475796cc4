import A64Machine.Proofs.Numeral

/-!
# Tokens of a printed text

A printed text is a sequence of lexemes with blanks between some of them. Scanning it gives back
the kinds and the texts of the lexemes, provided that what follows a name or a number does not
carry it on.
-/

namespace A64Machine.Token

open Lexeme

/-- What a token is apart from its place. -/
def lexeme (token : Token) : TokenKind × String := (token.kind, token.text)

/-- A punctuation mark. -/
def mark (text : String) : TokenKind × String := (.punct, text)

/-- A text scans to lexemes when its tokens, wherever it begins, are those lexemes. -/
def Scans (text : List Char) (lexemes : List (TokenKind × String)) : Prop :=
  ∀ position, ∃ tokens, scan 0 position text = .ok tokens ∧ tokens.map lexeme = lexemes

/-- A text that carries no name or number on: none, or one that begins with a blank, a comma or a
closing bracket. -/
def Breaks (text : List Char) : Prop := ∀ c ∈ text.head?, c = ' ' ∨ c = ',' ∨ c = ']'

/-- A text lexes at the front of a longer one when it is the first token of it. -/
def Lexes (kind : TokenKind) (text rest : List Char) : Prop :=
  token? (text ++ rest) = some (kind, text.length) ∧ ∀ c ∈ text.head?, Text.isBlank c = false

/-- Skipping the characters of a token goes on behind it. -/
theorem scan_append (text rest : List Char) (position : Int) :
    scan text.length position (text ++ rest) = scan 0 (position + text.length) rest := by
  induction text generalizing position with
  | nil => simp
  | cons c text ih =>
    rw [List.cons_append, List.length_cons, scan, ih, Int.natCast_succ]
    exact congrArg (fun position => scan 0 position rest) (by omega)

/-- The empty text has no tokens. -/
theorem scans_nil : Scans [] [] := fun _ => ⟨[], rfl, rfl⟩

/-- A blank in front of a text changes no token. -/
theorem Scans.blank {text : List Char} {lexemes : List (TokenKind × String)}
    (scans : Scans text lexemes) : Scans (' ' :: text) lexemes := by
  intro position
  obtain ⟨tokens, scanned, same⟩ := scans (position + 1)
  exact ⟨tokens, scanned, same⟩

/-- A token in front of a text comes first. -/
theorem Scans.lexeme {kind : TokenKind} {text rest : List Char}
    {lexemes : List (TokenKind × String)} (lexes : Lexes kind text rest) (some : text ≠ [])
    (scans : Scans rest lexemes) :
    Scans (text ++ rest) ((kind, String.ofList text) :: lexemes) := by
  intro position
  obtain ⟨c, text, rfl⟩ := List.exists_cons_of_ne_nil some
  obtain ⟨read, notBlank⟩ := lexes
  obtain ⟨tokens, scanned, same⟩ := scans (position + 1 + text.length)
  rw [List.cons_append] at read
  rw [List.cons_append, scan, notBlank c rfl, if_neg (by simp), read]
  simp only [List.length_cons, Nat.add_sub_cancel, scan_append, scanned, Except.map]
  refine ⟨_, rfl, ?_⟩
  rw [List.map_cons, same, Token.lexeme]
  simp

/-! ### Lexemes -/

/-- A run ends where the class of its characters does. -/
theorem runLength_append {p : Char → Bool} {text rest : List Char}
    (inside : ∀ c ∈ text, p c = true) (outside : ∀ c ∈ rest.head?, p c = false) :
    runLength p (text ++ rest) = text.length := by
  induction text with
  | nil =>
    cases rest with
    | nil => rfl
    | cons c rest => simp [runLength, outside c rfl]
  | cons c text ih =>
    obtain ⟨first, inside⟩ := List.forall_mem_cons.mp inside
    rw [List.cons_append, runLength, List.takeWhile_cons_of_pos first, List.length_cons,
      ← runLength, ih inside, List.length_cons]

/-- A break belongs to no name and to no number. -/
theorem Breaks.outside {rest : List Char} (breaks : Breaks rest) :
    ∀ c ∈ rest.head?, continuesName c = false ∧ Text.isDigit c = false ∧ isHexDigit c = false ∧
      c ≠ 'x' ∧ c ≠ 'X' ∧ c ≠ 'b' ∧ c ≠ 'B' := by
  intro c first
  rcases breaks c first with rfl | rfl | rfl <;> decide

/-- Whether a text is a name that does not begin with a digit. -/
def isName : List Char → Bool
  | [] => false
  | c :: rest =>
    startsName c && !Text.isDigit c && !Text.isBlank c && c != '0' && rest.all continuesName

/-- A name lexes in front of a break. -/
theorem lexes_name {text rest : List Char} (name : isName text = true) (breaks : Breaks rest) :
    Lexes .name text rest := by
  cases text with
  | nil => contradiction
  | cons c text =>
    simp only [isName, Bool.and_eq_true, Bool.not_eq_true', List.all_eq_true, bne_iff_ne] at name
    obtain ⟨⟨⟨⟨starts, notDigit⟩, notBlank⟩, notZero⟩, inside⟩ := name
    have noNumber : numberLength (c :: (text ++ rest)) = 0 := by
      rw [numberLength]
      · simp [runLength, notDigit]
      · intro lead later zero
        exact absurd (List.cons.inj zero).1 notZero
    refine ⟨?_, by simpa using notBlank⟩
    rw [List.cons_append, token?, noNumber]
    simp only [ne_eq, not_true_eq_false, if_false, starts, if_true, List.length_cons,
      runLength_append inside fun c first => (breaks.outside c first).1]
    rw [Nat.add_comm]

/-- A punctuation mark lexes in front of everything. -/
theorem lexes_mark {c : Char} (isMark : isPunctuation c = true) (rest : List Char) :
    Lexes .punct [c] rest := by
  have known : c ∈ ['[', ']', '#', '!', ',', '+', '-', '(', ')'] := List.contains_iff_mem.mp isMark
  simp only [List.mem_cons, List.not_mem_nil, or_false] at known
  rcases known with rfl | rfl | rfl | rfl | rfl | rfl | rfl | rfl | rfl <;>
    exact ⟨rfl, fun _ first => Option.some.inj first ▸ rfl⟩

/-- Digits lex as a number in front of a break. -/
theorem lexes_digits {text rest : List Char} (some : text ≠ [])
    (inside : ∀ c ∈ text, Text.isDigit c = true ∧ Text.isBlank c = false ∧ c ≠ 'x' ∧ c ≠ 'X' ∧
      c ≠ 'b' ∧ c ≠ 'B') (breaks : Breaks rest) : Lexes .number text rest := by
  have length : runLength Text.isDigit (text ++ rest) = text.length :=
    runLength_append (fun c member => (inside c member).1) fun c first =>
      (breaks.outside c first).2.1
  have number : numberLength (text ++ rest) = text.length := by
    unfold numberLength
    split
    · rename_i lead later front
      have plain : ¬(lead = 'x' ∨ lead = 'X') ∧ ¬(lead = 'b' ∨ lead = 'B') := by
        have letters : lead ≠ 'x' ∧ lead ≠ 'X' ∧ lead ≠ 'b' ∧ lead ≠ 'B' := by
          cases text with
          | nil => contradiction
          | cons c text =>
            obtain ⟨rfl, behind⟩ := List.cons.inj front
            cases text with
            | nil =>
              have first : rest.head? = Option.some lead := by
                rw [show rest = lead :: later from behind, List.head?_cons]
              exact (breaks.outside lead first).2.2.2
            | cons d text =>
              obtain ⟨rfl, _⟩ := List.cons.inj behind
              exact (inside d (by simp)).2.2
        simp [letters]
      simp only [plain, if_false, if_true]
      rw [← front, length]
    · exact length
  refine ⟨?_, fun c first => (inside c (List.mem_of_mem_head? first)).2.1⟩
  cases text with
  | nil => contradiction
  | cons c text =>
    rw [List.cons_append] at number
    rw [List.cons_append, token?, number]
    simp

/-- A number in hexadecimal notation lexes in front of a break. -/
theorem lexes_hex {digits rest : List Char} (some : digits ≠ [])
    (inside : ∀ c ∈ digits, isHexDigit c = true) (breaks : Breaks rest) :
    Lexes .number ('0' :: 'x' :: digits) rest := by
  have length : runLength isHexDigit (digits ++ rest) = digits.length :=
    runLength_append inside fun c first => (breaks.outside c first).2.2.1
  have positive : digits.length ≠ 0 := fun none => some (List.length_eq_zero_iff.mp none)
  refine ⟨?_, fun c first => ?_⟩
  · simp [token?, numberLength, length, positive]
  · obtain rfl := Option.some.inj first
    decide

end A64Machine.Token
