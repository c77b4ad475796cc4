import A64Machine.Proofs.LongestLexeme
import A64Machine.Proofs.OperandGroups

/-!
# Where tokens stand

Cutting operand text into groups of tokens loses nothing. Every token is a longest lexeme of the
text and knows where it stands, the tokens come one behind the other, and what stands outside them
is blank or a comma at which a group ends. Such a comma has as many opening as closing brackets
before it. Text that begins elsewhere in its line has the same tokens, moved. It is refused just
where the reading comes to a character with which neither a token nor a blank begins.
-/

namespace A64Machine

/-- A span that is moved. -/
def Span.shift (distance : Int) (span : Span) : Span := ⟨span.start + distance, span.stop + distance⟩

/-- An error at a place that is moved. -/
def AssemblyError.shift (distance : Int) (error : AssemblyError) : AssemblyError :=
  { error with span := error.span.shift distance }

namespace Token

open Lexeme (IsLexeme IsLongest StartsToken)

/-- A token that is moved. -/
def shift (distance : Int) (token : Token) : Token :=
  { token with span := token.span.shift distance }

/-- The character at a position belongs to a token. -/
def Covers (token : Token) (position : Int) : Prop :=
  token.span.start ≤ position ∧ position < token.span.stop

/-- A token is a longest lexeme of a text, and its span is the place where this stands in the text,
which begins at an offset. -/
structure IsSlice (text : List Char) (offset : Int) (token : Token) : Prop where
  split : ∃ front behind, text = front ++ token.text.toList ++ behind ∧
    token.span = ⟨offset + front.length, offset + front.length + token.text.length⟩ ∧
    IsLongest token.kind token.text.toList (token.text.toList ++ behind)

/-! ### Reading a text -/

/-- The reading of a text has come to the end of its front, with the rest before it. It goes on by a
blank or by the longest lexeme. -/
inductive Reaches : (front rest : List Char) → Prop
  | start {text : List Char} : Reaches [] text
  | blank {front rest : List Char} {c : Char} (reached : Reaches front (c :: rest))
    (isBlank : Text.isBlank c = true) : Reaches (front ++ [c]) rest
  | token {front lexeme rest : List Char} {kind : TokenKind}
    (reached : Reaches front (lexeme ++ rest)) (longest : IsLongest kind lexeme (lexeme ++ rest)) :
    Reaches (front ++ lexeme) rest

/-- The tokens of a text that begins at a position. -/
inductive Reads : (position : Int) → (text : List Char) → List Token → Prop
  | done {position : Int} : Reads position [] []
  | blank {position : Int} {c : Char} {rest : List Char} {tokens : List Token}
    (isBlank : Text.isBlank c = true) (behind : Reads (position + 1) rest tokens) :
    Reads position (c :: rest) tokens
  | token {position : Int} {kind : TokenKind} {lexeme rest : List Char} {tokens : List Token}
    (longest : IsLongest kind lexeme (lexeme ++ rest))
    (behind : Reads (position + lexeme.length) rest tokens) :
    Reads position (lexeme ++ rest)
      (⟨kind, String.ofList lexeme, ⟨position, position + lexeme.length⟩⟩ :: tokens)

/-- A blank is passed over. -/
theorem scan_blank {c : Char} (isBlank : Text.isBlank c = true) (position : Int)
    (rest : List Char) : scan 0 position (c :: rest) = scan 0 (position + 1) rest := by
  rw [scan, if_pos isBlank]

/-- The longest lexeme is the first token of a text. -/
theorem scan_lexeme {kind : TokenKind} {lexeme rest : List Char}
    (longest : IsLongest kind lexeme (lexeme ++ rest)) (position : Int) :
    scan 0 position (lexeme ++ rest) =
      (scan 0 (position + lexeme.length) rest).map
        (⟨kind, String.ofList lexeme, ⟨position, position + lexeme.length⟩⟩ :: ·) := by
  have read := longest.token?_eq
  have notBlank := longest.isLexeme.not_isBlank
  obtain ⟨c, behind, rfl⟩ := longest.isLexeme.exists_cons
  rw [List.cons_append] at read
  rw [List.cons_append, scan, if_neg (by simp [notBlank c List.mem_cons_self]), read]
  simp only [List.length_cons, Nat.add_sub_cancel, scan_append, List.take_succ_cons,
    List.take_left', Int.natCast_succ]
  rw [Int.add_right_comm, Int.add_assoc]

/-- A character that begins neither a token nor a blank is refused. -/
theorem scan_stuck {c : Char} {rest : List Char} (notBlank : Text.isBlank c = false)
    (noToken : ¬StartsToken (c :: rest)) (position : Int) :
    scan 0 position (c :: rest) = .error ⟨.unexpectedCharacter c, ⟨position, position + 1⟩⟩ := by
  rw [scan, if_neg (by simp [notBlank]), Lexeme.token?_eq_none.mpr noToken]

/-- Behind a lexeme a text is shorter. -/
theorem length_lt_of_isLongest {kind : TokenKind} {lexeme rest : List Char}
    (longest : IsLongest kind lexeme (lexeme ++ rest)) : rest.length < (lexeme ++ rest).length := by
  obtain ⟨first, others, rfl⟩ := longest.isLexeme.exists_cons
  simp only [List.length_append, List.length_cons]
  omega

/-- A text begins with a blank or a lexeme, unless it is empty or its first character begins
neither. -/
theorem text_cases (text : List Char) :
    text = [] ∨ (∃ c rest, text = c :: rest ∧ Text.isBlank c = true) ∨
      (∃ kind lexeme rest, text = lexeme ++ rest ∧ IsLongest kind lexeme (lexeme ++ rest)) ∨
      ∃ c rest, text = c :: rest ∧ Text.isBlank c = false ∧ ¬StartsToken (c :: rest) := by
  cases text with
  | nil => exact .inl rfl
  | cons c rest =>
    cases isBlank : Text.isBlank c with
    | true => exact .inr (.inl ⟨c, rest, rfl, isBlank⟩)
    | false =>
      cases read : Lexeme.token? (c :: rest) with
      | none => exact .inr (.inr (.inr ⟨c, rest, rfl, isBlank, Lexeme.not_startsToken read⟩))
      | some token =>
        obtain ⟨kind, length⟩ := token
        have longest := (Lexeme.isLongest_of_token? read).2
        have split := (List.take_append_drop length (c :: rest)).symm
        exact .inr (.inr (.inl ⟨kind, _, _, split, split ▸ longest⟩))

/-- A text is read to its end, or to a character that begins neither a token nor a blank. -/
theorem Reaches.exists_end {front rest : List Char} (reached : Reaches front rest) :
    ∃ front' rest', front ++ rest = front' ++ rest' ∧ Reaches front' rest' ∧
      (rest' = [] ∨
        ∃ c behind, rest' = c :: behind ∧ Text.isBlank c = false ∧ ¬StartsToken (c :: behind)) := by
  induction length : rest.length using Nat.strongRecOn generalizing front rest with
  | ind length ih =>
    subst length
    rcases text_cases rest with rfl | ⟨c, behind, rfl, isBlank⟩ |
      ⟨kind, lexeme, behind, rfl, longest⟩ | ⟨c, behind, rfl, notBlank, noToken⟩
    · exact ⟨front, [], rfl, reached, .inl rfl⟩
    · obtain ⟨front', rest', split, ended⟩ := ih _ (by simp) (reached.blank isBlank) rfl
      exact ⟨front', rest', by rw [← split, List.append_assoc]; rfl, ended⟩
    · obtain ⟨front', rest', split, ended⟩ :=
        ih _ (length_lt_of_isLongest longest) (reached.token longest) rfl
      exact ⟨front', rest', by rw [← split, List.append_assoc], ended⟩
    · exact ⟨front, _, rfl, reached, .inr ⟨c, behind, rfl, notBlank, noToken⟩⟩

/-- The reading of a text fails as it does behind what was read of it. -/
theorem Reaches.scan_eq_error {front rest : List Char} (reached : Reaches front rest) (offset : Int)
    (error : AssemblyError) :
    scan 0 offset (front ++ rest) = .error error ↔
      scan 0 (offset + front.length) rest = .error error := by
  induction reached with
  | start => simp
  | @blank front rest c reached isBlank ih =>
    rw [List.append_assoc, List.singleton_append, ih, scan_blank isBlank, List.length_append,
      Int.natCast_add, Int.add_assoc]
    rfl
  | @token front lexeme rest kind reached longest ih =>
    rw [List.append_assoc, ih, scan_lexeme longest, map_eq_error, List.length_append,
      Int.natCast_add, Int.add_assoc]

/-- The reading of a text fails just where it comes to a character that begins neither a token nor a
blank. -/
theorem scan_eq_error {text : List Char} {offset : Int} {error : AssemblyError} :
    scan 0 offset text = .error error ↔
      ∃ front c behind, text = front ++ c :: behind ∧ Reaches front (c :: behind) ∧
        Text.isBlank c = false ∧ ¬StartsToken (c :: behind) ∧
        error = ⟨.unexpectedCharacter c,
          ⟨offset + front.length, offset + front.length + 1⟩⟩ := by
  constructor
  · intro failed
    obtain ⟨front, rest, rfl, reached, ended⟩ := (@Reaches.start text).exists_end
    have failed := (reached.scan_eq_error offset error).mp failed
    rcases ended with rfl | ⟨c, behind, rfl, notBlank, noToken⟩
    · contradiction
    · rw [scan_stuck notBlank noToken] at failed
      exact ⟨front, c, behind, rfl, reached, notBlank, noToken, (Except.error.inj failed).symm⟩
  · rintro ⟨front, c, behind, rfl, reached, notBlank, noToken, rfl⟩
    rw [reached.scan_eq_error, scan_stuck notBlank noToken]

/-- A text that is read to its end is read token by token. -/
theorem reads_of_scan {text : List Char} {position : Int} {tokens : List Token}
    (scanned : scan 0 position text = .ok tokens) : Reads position text tokens := by
  induction length : text.length using Nat.strongRecOn generalizing text position tokens with
  | ind length ih =>
    subst length
    rcases text_cases text with rfl | ⟨c, rest, rfl, isBlank⟩ | ⟨kind, lexeme, rest, rfl, longest⟩ |
      ⟨c, rest, rfl, notBlank, noToken⟩
    · obtain rfl := Except.ok.inj scanned
      exact .done
    · rw [scan_blank isBlank] at scanned
      exact .blank isBlank (ih _ (by simp) scanned rfl)
    · rw [scan_lexeme longest] at scanned
      obtain ⟨later, scannedLater, rfl⟩ := map_eq_ok.mp scanned
      exact .token longest (ih _ (length_lt_of_isLongest longest) scannedLater rfl)
    · rw [scan_stuck notBlank noToken] at scanned
      contradiction

/-! ### Cutting a text -/

/-- How many of the given marks are tokens that end before a position. -/
def countBefore (text : String) (tokens : List Token) (position : Int) : Nat :=
  tokens.countP fun token => token.isPunct text && decide (token.span.stop ≤ position)

/-- The depth of brackets before a position: that at the start, and one more for each opening
bracket and one less for each closing one. -/
def depthBefore (depth : Int) (tokens : List Token) (position : Int) : Int :=
  depth + countBefore "[" tokens position - countBefore "]" tokens position

/-- A text that begins at an offset, at some depth of brackets, is cut into groups of tokens at the
positions of some commas. -/
structure Cuts (text : List Char) (offset depth : Int) (groups : List (List Token))
    (commas : List Int) : Prop where
  /-- The tokens are lexemes of the text at their places. -/
  slices : ∀ token ∈ groups.flatten, IsSlice text offset token
  /-- The tokens come one behind the other. -/
  rising : groups.flatten.Pairwise fun first second => first.span.stop ≤ second.span.start
  /-- The characters outside the tokens are the blanks and the commas. -/
  outside : ∀ (place : Nat) c, text[place]? = some c →
    ((∀ token ∈ groups.flatten, ¬token.Covers (offset + place)) ↔
      Text.isBlank c = true ∨ offset + place ∈ commas)
  /-- The commas are those before which the brackets are balanced. -/
  balanced : ∀ position, position ∈ commas ↔ ∃ place : Nat, position = offset + place ∧
    text[place]? = some ',' ∧ depthBefore depth groups.flatten position = 0
  /-- The commas come one behind the other. -/
  ordered : commas.Pairwise (· < ·)
  /-- The first of the commas stands behind the first group and before the others, and so on. -/
  between : ∀ (index : Nat) position, commas[index]? = some position →
    (∀ token ∈ (groups.take (index + 1)).flatten, token.span.stop ≤ position) ∧
      ∀ token ∈ (groups.drop (index + 1)).flatten, position < token.span.start

section Cuts

variable {text front rest : List Char} {offset depth position : Int} {token : Token}
  {tokens : List Token} {groups : List (List Token)} {commas : List Int}

/-- The depth of brackets behind a token. -/
def depthBehind (depth : Int) (token : Token) : Int :=
  if token.isPunct "[" then depth + 1 else if token.isPunct "]" then depth - 1 else depth

/-- A token ends a group or belongs to the first group of the tokens behind it. -/
theorem groupAt_cons (depth : Int) (token : Token) (tokens : List Token) :
    groupAt depth (token :: tokens) =
      if token.isPunct "," = true ∧ depth = 0 then [] :: groupAt depth tokens
      else consToFirst token (groupAt (depthBehind depth token) tokens) :=
  rfl

/-- A token changes the depth behind it. -/
theorem depthBefore_cons_of_le (ends : token.span.stop ≤ position) :
    depthBefore depth (token :: tokens) position =
      depthBefore (depthBehind depth token) tokens position := by
  unfold depthBefore countBefore depthBehind
  simp only [List.countP_cons, ends, decide_true, Bool.and_true]
  cases opens : token.isPunct "[" with
  | true =>
    have noClosing : token.isPunct "]" = false := isPunct_of_ne opens (by decide)
    simp only [noClosing, if_true, if_false, Bool.false_eq_true]
    omega
  | false =>
    cases closes : token.isPunct "]" with
    | true =>
      simp only [if_true, if_false, Bool.false_eq_true]
      omega
    | false => simp only [if_false, Bool.false_eq_true, Nat.add_zero]

/-- Before all tokens the depth is that at the start. -/
theorem depthBefore_of_lt (later : ∀ token ∈ tokens, position < token.span.stop) :
    depthBefore depth tokens position = depth := by
  have none (text : String) : countBefore text tokens position = 0 := by
    apply List.countP_eq_zero.mpr
    intro token inside
    have behind := later token inside
    simp only [Bool.and_eq_true, decide_eq_true_eq, not_and]
    intro _
    omega
  rw [depthBefore, none, none]
  omega

/-- A lexeme of a text ends behind its start, which is in the text. -/
theorem IsSlice.bounds (slice : IsSlice text offset token) :
    offset ≤ token.span.start ∧ token.span.start < token.span.stop := by
  obtain ⟨front, behind, _, isSpan, longest⟩ := slice.split
  obtain ⟨first, others, isText⟩ := longest.isLexeme.exists_cons
  have length : token.text.length = others.length + 1 := by
    rw [← String.length_toList, isText, List.length_cons]
  rw [isSpan]
  simp only
  omega

/-- A lexeme of a text is one of a longer text. -/
theorem IsSlice.behind (slice : IsSlice rest (offset + front.length) token) :
    IsSlice (front ++ rest) offset token := by
  obtain ⟨before, behind, rfl, isSpan, longest⟩ := slice.split
  refine ⟨front ++ before, behind, by simp, ?_, longest⟩
  rw [isSpan, List.length_append, Int.natCast_add]
  simp only [Int.add_assoc]

/-- The tokens begin behind the start of the text. -/
theorem Cuts.le_start (cuts : Cuts text offset depth groups commas) :
    ∀ token ∈ groups.flatten, offset ≤ token.span.start ∧ token.span.start < token.span.stop :=
  fun token inside => (cuts.slices token inside).bounds

/-- The commas stand behind the start of the text. -/
theorem Cuts.le_comma (cuts : Cuts text offset depth groups commas) :
    ∀ position ∈ commas, offset ≤ position := by
  intro position inside
  obtain ⟨place, rfl, _⟩ := (cuts.balanced position).mp inside
  omega

/-- A character of two texts in a row is one of the first or one of the second. -/
theorem getElem?_append_eq_some {place : Nat} {c : Char} :
    (front ++ rest)[place]? = some c ↔ front[place]? = some c ∨
      ∃ place', place = front.length + place' ∧ rest[place']? = some c := by
  rcases Nat.lt_or_ge place front.length with inside | behind
  · rw [List.getElem?_append_left inside]
    refine ⟨.inl, fun either => either.elim id ?_⟩
    rintro ⟨place', rfl, _⟩
    omega
  · rw [List.getElem?_append_right behind]
    constructor
    · exact fun found => .inr ⟨place - front.length, by omega, found⟩
    · rintro (found | ⟨place', rfl, found⟩)
      · have inside := (List.getElem?_eq_some_iff.mp found).1
        omega
      · rwa [Nat.add_sub_cancel_left]

/-- A blank in front changes nothing. -/
theorem Cuts.blank {c : Char} (cuts : Cuts rest (offset + 1) depth groups commas)
    (isBlank : Text.isBlank c = true) : Cuts (c :: rest) offset depth groups commas := by
  refine ⟨fun token inside => ?_, cuts.rising, fun place c' found => ?_, fun position => ?_,
    cuts.ordered, cuts.between⟩
  · exact @IsSlice.behind [c] rest offset token (cuts.slices token inside)
  · cases place with
    | zero =>
      obtain rfl := Option.some.inj found
      refine iff_of_true (fun token inside covers => ?_) (.inl isBlank)
      have starts := (cuts.le_start token inside).1
      have covered := covers.1
      omega
    | succ place =>
      rw [show offset + ((place + 1 : Nat) : Int) = offset + 1 + place by omega]
      exact cuts.outside place c' found
  · rw [cuts.balanced]
    constructor
    · rintro ⟨place, rfl, found, balanced⟩
      exact ⟨place + 1, by omega, found, balanced⟩
    · rintro ⟨place, rfl, found, balanced⟩
      cases place with
      | zero =>
        obtain rfl := Option.some.inj found
        contradiction
      | succ place => exact ⟨place, by omega, found, balanced⟩

/-- A comma in front at which the brackets are balanced ends a group. -/
theorem Cuts.comma (cuts : Cuts rest (offset + 1) 0 groups commas) :
    Cuts (',' :: rest) offset 0 ([] :: groups) (offset :: commas) := by
  have starts := cuts.le_start
  have behind := cuts.le_comma
  have same : ([] :: groups).flatten = groups.flatten := rfl
  refine ⟨fun token inside => ?_, cuts.rising, fun place c found => ?_, fun position => ?_, ?_,
    fun index position there => ?_⟩
  · exact @IsSlice.behind [','] rest offset token (cuts.slices token inside)
  · rw [same]
    cases place with
    | zero =>
      refine iff_of_true (fun token inside covers => ?_) (.inr (by simp))
      have starts := (starts token inside).1
      have covered := covers.1
      omega
    | succ place =>
      rw [show offset + ((place + 1 : Nat) : Int) = offset + 1 + place by omega,
        cuts.outside place c found, List.mem_cons]
      have apart : offset + 1 + (place : Int) ≠ offset := by omega
      simp [apart]
  · rw [same, List.mem_cons, cuts.balanced]
    constructor
    · rintro (rfl | ⟨place, rfl, found, balanced⟩)
      · refine ⟨0, by simp, rfl, depthBefore_of_lt fun token inside => ?_⟩
        have starts := starts token inside
        omega
      · exact ⟨place + 1, by omega, found, balanced⟩
    · rintro ⟨place, rfl, found, balanced⟩
      cases place with
      | zero => exact .inl (by simp)
      | succ place => exact .inr ⟨place, by omega, found, balanced⟩
  · refine List.pairwise_cons.mpr ⟨fun position inside => ?_, cuts.ordered⟩
    have behind := behind position inside
    omega
  · cases index with
    | zero =>
      obtain rfl := Option.some.inj there
      refine ⟨fun token absent => by contradiction, fun token inside => ?_⟩
      have starts := (starts token inside).1
      omega
    | succ index => exact cuts.between index position there

/-- A token in front of the groups adds no group to them. -/
theorem length_consToFirst (some : groups ≠ []) :
    (consToFirst token groups).length = groups.length := by
  cases groups with
  | nil => contradiction
  | cons group groups => rfl

/-- A token in front of the groups belongs to the first of them. -/
theorem flatten_take_consToFirst (token : Token) (groups : List (List Token)) (count : Nat) :
    ((consToFirst token groups).take (count + 1)).flatten =
      token :: (groups.take (count + 1)).flatten := by
  cases groups with
  | nil => simp [consToFirst]
  | cons group groups => rfl

/-- A token in front of the groups belongs to none behind the first. -/
theorem drop_consToFirst (token : Token) (groups : List (List Token)) (count : Nat) :
    (consToFirst token groups).drop (count + 1) = groups.drop (count + 1) := by
  cases groups with
  | nil => simp [consToFirst]
  | cons group groups => rfl

/-- A lexeme in front that ends no group belongs to the first one. -/
theorem Cuts.cons {kind : TokenKind} {lexeme : List Char}
    (longest : IsLongest kind lexeme (lexeme ++ rest))
    (isToken : token = ⟨kind, String.ofList lexeme, ⟨offset, offset + lexeme.length⟩⟩)
    (goesOn : ¬(token.isPunct "," = true ∧ depth = 0))
    (cuts : Cuts rest (offset + lexeme.length) (depthBehind depth token) groups commas) :
    Cuts (lexeme ++ rest) offset depth (consToFirst token groups) commas := by
  have starts := cuts.le_start
  have behind := cuts.le_comma
  have begins : token.span.start = offset := by rw [isToken]
  have ends : token.span.stop = offset + lexeme.length := by rw [isToken]
  have isText : token.text.toList = lexeme := by rw [isToken, String.toList_ofList]
  have slice : IsSlice (lexeme ++ rest) offset token := by
    refine ⟨[], rest, by rw [isText]; rfl, ?_, ?_⟩
    · rw [isToken]
      simp
    · rw [isText, isToken]
      exact longest
  refine ⟨?_, ?_, fun place c found => ?_, fun position => ?_, cuts.ordered,
    fun index position there => ?_⟩
  · rw [flatten_consToFirst]
    refine List.forall_mem_cons.mpr ⟨slice, fun token inside => ?_⟩
    exact (cuts.slices token inside).behind
  · rw [flatten_consToFirst]
    refine List.pairwise_cons.mpr ⟨fun other inside => ?_, cuts.rising⟩
    rw [ends]
    exact (starts other inside).1
  · rw [flatten_consToFirst, List.forall_mem_cons]
    rcases getElem?_append_eq_some.mp found with inside | ⟨place', rfl, inside⟩
    · have short := (List.getElem?_eq_some_iff.mp inside).1
      refine iff_of_false (fun uncovered => uncovered.1 ⟨by omega, by omega⟩) ?_
      rintro (isBlank | among)
      · rw [longest.isLexeme.not_isBlank c (List.mem_of_getElem? inside)] at isBlank
        contradiction
      · have behind := behind _ among
        omega
    · rw [show offset + ((lexeme.length + place' : Nat) : Int) = offset + lexeme.length + place' by
        omega, ← cuts.outside place' c inside]
      refine and_iff_right fun covers => ?_
      have covered := covers.2
      omega
  · rw [flatten_consToFirst, cuts.balanced]
    constructor
    · rintro ⟨place, rfl, found, balanced⟩
      refine ⟨lexeme.length + place, by omega,
        getElem?_append_eq_some.mpr (.inr ⟨place, rfl, found⟩), ?_⟩
      rwa [depthBefore_cons_of_le (by omega)]
    · rintro ⟨place, rfl, found, balanced⟩
      rcases getElem?_append_eq_some.mp found with inside | ⟨place', rfl, inside⟩
      · -- A comma is a lexeme by itself, and this one would have ended the group.
        obtain ⟨rfl, rfl⟩ := longest.isLexeme.eq_comma (List.mem_of_getElem? inside)
        have first : place < 1 := (List.getElem?_eq_some_iff.mp inside).1
        rw [depthBefore_of_lt] at balanced
        · exact absurd ⟨by rw [isToken]; rfl, balanced⟩ goesOn
        · rw [List.length_singleton] at ends
          refine List.forall_mem_cons.mpr ⟨by omega, fun other inside => ?_⟩
          have starts := starts other inside
          rw [List.length_singleton] at starts
          omega
      · refine ⟨place', by omega, inside, ?_⟩
        rwa [depthBefore_cons_of_le (by omega)] at balanced
  · rw [flatten_take_consToFirst, drop_consToFirst, List.forall_mem_cons]
    obtain ⟨before, after⟩ := cuts.between index position there
    refine ⟨⟨?_, before⟩, after⟩
    have behind := behind position (List.mem_of_getElem? there)
    omega

/-- A text that is read is cut into groups at the commas that are balanced. -/
theorem Reads.exists_cuts (reads : Reads offset text tokens) (depth : Int) :
    ∃ commas, Cuts text offset depth (groupAt depth tokens) commas ∧
      (groupAt depth tokens).length = commas.length + 1 := by
  induction reads generalizing depth with
  | done =>
    refine ⟨[], ⟨?_, ?_, ?_, ?_, .nil, ?_⟩, rfl⟩ <;> simp [groupAt]
  | blank isBlank behind ih =>
    obtain ⟨commas, cuts, count⟩ := ih depth
    exact ⟨commas, cuts.blank isBlank, count⟩
  | @token position kind lexeme rest tokens longest behind ih =>
    rw [groupAt_cons]
    split
    · rename_i ended
      obtain ⟨isComma, rfl⟩ := ended
      obtain rfl : lexeme = [','] := by
        simp only [isPunct, Bool.and_eq_true, beq_iff_eq] at isComma
        have same := congrArg String.toList isComma.2
        rwa [String.toList_ofList] at same
      obtain ⟨commas, cuts, count⟩ := ih 0
      exact ⟨position :: commas, cuts.comma, congrArg (· + 1) count⟩
    · rename_i goesOn
      obtain ⟨commas, cuts, count⟩ := ih (depthBehind depth _)
      refine ⟨commas, Cuts.cons longest rfl goesOn cuts, ?_⟩
      rw [length_consToFirst (List.ne_nil_of_length_eq_add_one count)]
      exact count

end Cuts

/-! ### Moving a text -/

/-- The groups or the error of a text that is moved. -/
def moved (distance : Int) (outcome : Except AssemblyError (List (List Token))) :
    Except AssemblyError (List (List Token)) :=
  (outcome.map (List.map (List.map (shift distance)))).mapError (AssemblyError.shift distance)

/-- A text that is moved has the same tokens, moved, or the same error. -/
theorem scan_moved (distance position : Int) (skip : Nat) (text : List Char) :
    scan skip (position + distance) text =
      ((scan skip position text).map (List.map (shift distance))).mapError
        (AssemblyError.shift distance) := by
  induction text generalizing skip position with
  | nil => cases skip <;> rfl
  | cons c rest ih =>
    have next : position + distance + 1 = position + 1 + distance := by omega
    cases skip with
    | succ skip => rw [scan, scan, next, ih]
    | zero =>
      rw [scan, scan, next]
      split
      · rw [ih]
      · split
        · rfl
        · rename_i kind length _
          have stop : position + distance + (length : Int) = position + length + distance := by
            omega
          rw [ih, stop]
          cases scan (length - 1) (position + 1) rest <;> rfl

/-- Tokens that are moved are in the same groups. -/
theorem groupAt_moved (distance depth : Int) (tokens : List Token) :
    groupAt depth (tokens.map (shift distance)) =
      (groupAt depth tokens).map (List.map (shift distance)) := by
  have added (token : Token) (groups : List (List Token)) :
      (consToFirst token groups).map (List.map (shift distance)) =
        consToFirst (token.shift distance) (groups.map (List.map (shift distance))) := by
    cases groups <;> rfl
  have same (token : Token) (text : String) :
      (token.shift distance).isPunct text = token.isPunct text := rfl
  induction tokens generalizing depth with
  | nil => rfl
  | cons token tokens ih =>
    rw [List.map_cons, groupAt, groupAt]
    simp only [same]
    split
    · rw [ih, List.map_cons, List.map_nil]
    · rw [ih, added]

/-! ### Groups of a text -/

/-- The groups of some tokens, of which there are none without tokens. -/
def groupsOf (tokens : List Token) : List (List Token) :=
  match groupAt 0 tokens with
  | [[]] => []
  | groups => groups

/-- The groups of a text are those of its tokens. -/
theorem groups_eq (text : String) (offset : Int) :
    groups text offset = (scan 0 offset text.toList).map groupsOf := by
  rw [groups]
  cases scan 0 offset text.toList with
  | error error => rfl
  | ok tokens =>
    rw [Except.map, groupsOf]
    show (match groupAt 0 tokens with
      | [[]] => pure []
      | groups => pure groups : Except AssemblyError (List (List Token))) = _
    split <;> rfl

/-- The groups of tokens that are moved are moved. -/
theorem groupsOf_moved (distance : Int) (tokens : List Token) :
    groupsOf (tokens.map (shift distance)) = (groupsOf tokens).map (List.map (shift distance)) := by
  rw [groupsOf, groupsOf, groupAt_moved]
  rcases groupAt 0 tokens with _ | ⟨_ | ⟨token, group⟩, _ | ⟨next, groups⟩⟩ <;> rfl

/-- A text that is moved has the same groups, moved, or the same error. -/
theorem groups_moved (text : String) (distance offset : Int) :
    groups text (offset + distance) = moved distance (groups text offset) := by
  rw [groups_eq, groups_eq, scan_moved]
  cases scan 0 offset text.toList with
  | error error => rfl
  | ok tokens =>
    exact congrArg Except.ok (groupsOf_moved distance tokens)

/-- A blank text has no tokens. -/
theorem scan_blanks {text : List Char} (blanks : ∀ c ∈ text, Text.isBlank c = true)
    (position : Int) : scan 0 position text = .ok [] := by
  induction text generalizing position with
  | nil => rfl
  | cons c rest ih =>
    obtain ⟨here, later⟩ := List.forall_mem_cons.mp blanks
    rw [scan_blank here, ih later]

/-- A text is cut into its groups, one more than there are commas between them unless there is
none. -/
theorem exists_cuts {text : String} {offset : Int} {result : List (List Token)}
    (cut : groups text offset = .ok result) :
    ∃ commas, Cuts text.toList offset 0 result commas ∧
      (result.length = commas.length + 1 ∨ result = [] ∧ commas = []) := by
  rw [groups_eq] at cut
  obtain ⟨tokens, scanned, rfl⟩ := map_eq_ok.mp cut
  obtain ⟨commas, cuts, count⟩ := (reads_of_scan scanned).exists_cuts 0
  refine ⟨commas, ?_⟩
  unfold groupsOf
  split
  · rename_i empty
    rw [empty] at cuts count
    obtain rfl : commas = [] := List.length_eq_zero_iff.mp (Nat.succ.inj count).symm
    exact ⟨⟨cuts.slices, cuts.rising, cuts.outside, cuts.balanced, .nil, by simp⟩, .inr ⟨rfl, rfl⟩⟩
  · exact ⟨cuts, .inl count⟩

/-- A text has no groups just when it is blank. -/
theorem groups_eq_nil {text : String} {offset : Int} :
    groups text offset = .ok [] ↔ ∀ c ∈ text.toList, Text.isBlank c = true := by
  constructor
  · intro cut c inside
    obtain ⟨commas, cuts, count⟩ := exists_cuts cut
    obtain rfl : commas = [] := count.elim (fun count => by contradiction) And.right
    obtain ⟨place, found⟩ := List.mem_iff_getElem?.mp inside
    have outside := (cuts.outside place c found).mp fun token absent => by contradiction
    exact outside.elim id fun absent => by contradiction
  · intro blanks
    rw [groups_eq, scan_blanks blanks]
    rfl

/-- Operand text is cut into groups without loss: its tokens stand where their spans say, and
outside them are only blanks and the commas that part the groups, one fewer than there are groups. A
blank text has no groups, and a text that is moved has the same ones, moved. A text is refused just
for a character to which the reading comes and with which neither a token nor a blank begins. -/
theorem groups_cut (text : String) (offset : Int) :
    (∀ result, groups text offset = .ok result → ∃ commas,
      Cuts text.toList offset 0 result commas ∧
        (result.length = commas.length + 1 ∨ result = [] ∧ commas = [])) ∧
    (groups text offset = .ok [] ↔ ∀ c ∈ text.toList, Text.isBlank c = true) ∧
    groups text offset = moved offset (groups text 0) ∧
    ∀ error, groups text offset = .error error ↔
      ∃ front c behind, text.toList = front ++ c :: behind ∧ Reaches front (c :: behind) ∧
        Text.isBlank c = false ∧ ¬StartsToken (c :: behind) ∧
        error = ⟨.unexpectedCharacter c,
          ⟨offset + front.length, offset + front.length + 1⟩⟩ := by
  refine ⟨fun result => exists_cuts, groups_eq_nil, ?_, fun error => ?_⟩
  · rw [← groups_moved, Int.zero_add]
  · rw [groups_eq, map_eq_error, scan_eq_error]

/-- The comma inside brackets parts nothing, and a lead without digits is a zero and a name. -/
theorem groups_cut_bracketedComma :
    ∃ result commas, groups "[x1,8] ,0xg" 4 = .ok result ∧
      (result.map (List.map fun token => (token.text, token.span.start, token.span.stop)) =
        [[("[", 4, 5), ("x1", 5, 7), (",", 7, 8), ("8", 8, 9), ("]", 9, 10)],
          [("0", 12, 13), ("xg", 13, 15)]]) ∧
      Cuts "[x1,8] ,0xg".toList 4 0 result commas ∧ commas.length = 1 := by
  have tokens : (groups "[x1,8] ,0xg" 4).toOption.map
      (List.map (List.map fun token => (token.text, token.span.start, token.span.stop))) =
        some [[("[", 4, 5), ("x1", 5, 7), (",", 7, 8), ("8", 8, 9), ("]", 9, 10)],
          [("0", 12, 13), ("xg", 13, 15)]] := by
    decide +kernel
  obtain ⟨result, read, texts⟩ := Option.map_eq_some_iff.mp tokens
  have cut := toOption_eq_some.mp read
  obtain ⟨commas, cuts, count⟩ := (groups_cut "[x1,8] ,0xg" 4).1 result cut
  have two : result.length = 2 := by simpa using congrArg List.length texts
  refine ⟨result, commas, cut, texts, cuts, ?_⟩
  rcases count with count | ⟨empty, _⟩
  · omega
  · rw [empty] at two
    contradiction

end Token

end A64Machine
