import A64Machine.Proofs.SourceColumns

/-!
# Comments at the end of a line

Block comments are looked for before the marks that begin a comment at the end of a line, and they
are looked for behind such a mark as well. So the text behind a mark is of no account only as long as
all block comments in it are closed. An open one refuses the whole line, and a star just behind two
slashes begins a block comment with the second of them.
-/

namespace A64Machine

namespace SourceLine

variable {text front comment rest line mark : List Char}

/-! ### Where a mark may begin -/

/-- No mark begins in the front of a text, whatever stands behind it. -/
def NoneWithin (mark front rest : List Char) : Prop :=
  ∀ ending, ending <:+ front → ending ≠ [] → ¬mark <+: ending ++ rest

theorem NoneWithin.tail {c : Char} (absent : NoneWithin mark (c :: front) rest) :
    NoneWithin mark front rest :=
  fun ending suffix => absent ending (suffix.trans (List.suffix_cons c front))

/-- A mark begins only where its first character is. -/
theorem noneWithin_of_notMem {first : Char} (absent : first ∉ front) :
    NoneWithin (first :: mark) front rest := by
  intro ending suffix some begins
  obtain ⟨c, others, rfl⟩ := List.exists_cons_of_ne_nil some
  obtain ⟨rfl, _⟩ := List.cons_prefix_cons.mp begins
  exact absent (suffix.subset List.mem_cons_self)

/-- A mark of two characters begins where both are, or with the last character of the front. -/
theorem noneWithin_pair {first second : Char} (absent : ¬[first, second] <:+: front)
    (apart : front.getLast? ≠ some first ∨ rest.head? ≠ some second) :
    NoneWithin [first, second] front rest := by
  intro ending suffix some begins
  rcases ending with _ | ⟨c, _ | ⟨next, others⟩⟩
  · contradiction
  · obtain ⟨same, begins⟩ := List.cons_prefix_cons.mp begins
    obtain ⟨before, rfl⟩ := suffix
    obtain ⟨behind, rfl⟩ := begins
    rcases apart with apart | apart
    · exact apart (by simp [same])
    · exact apart rfl
  · obtain ⟨same, begins⟩ := List.cons_prefix_cons.mp begins
    obtain ⟨same', _⟩ := List.cons_prefix_cons.mp begins
    rw [← same, ← same'] at suffix
    exact absent ((List.prefix_append [first, second] others).isInfix.trans suffix.isInfix)

/-- The first mark of a text is behind a front in which none begins. -/
theorem position?_append (absent : NoneWithin mark front rest) :
    position? mark (front ++ rest) = (position? mark rest).map (· + front.length) := by
  induction front with
  | nil => simp
  | cons c front ih =>
    have differs : startsWith mark (c :: (front ++ rest)) = false := by
      rw [Bool.eq_false_iff, Ne, startsWith_iff]
      exact absent (c :: front) List.suffix_rfl (List.cons_ne_nil _ _)
    rw [List.cons_append, position?, differs, ih absent.tail]
    cases position? mark rest <;> rfl

/-- A front in which no mark begins stands before the first one. -/
theorem before_append (absent : NoneWithin mark front rest) :
    before mark (front ++ rest) = front ++ before mark rest := by
  unfold before
  rw [position?_append absent]
  cases position? mark rest with
  | none => rfl
  | some place =>
    simp only [Option.map_some, Nat.add_comm place, List.take_length_add_append]

/-- A mark ends what stands before it. -/
theorem before_mark {c : Char} : before (c :: mark) (c :: mark ++ rest) = [] := by
  have starts : startsWith (c :: mark) (c :: (mark ++ rest)) = true :=
    startsWith_iff.mpr (List.prefix_append (c :: mark) rest)
  simp [before, position?, starts]

/-- A character with which no comment begins stays. -/
theorem blankComments_plain {c : Char} (noComment : ¬['/', '*'] <+: c :: rest) :
    blankComments 0 (c :: rest) = c :: blankComments 0 rest := by
  have plain : commentTail? c rest = none := by
    unfold commentTail?
    split
    · rename_i body
      exact absurd (List.prefix_append ['/', '*'] body) noComment
    · rfl
  rw [blankComments, plain]

/-- A front in which no block comment begins stays. -/
theorem blankComments_append (absent : NoneWithin ['/', '*'] front rest) :
    blankComments 0 (front ++ rest) = front ++ blankComments 0 rest := by
  induction front with
  | nil => rfl
  | cons c front ih =>
    have noComment := absent (c :: front) List.suffix_rfl (List.cons_ne_nil _ _)
    exact (blankComments_plain noComment).trans (congrArg _ (ih absent.tail))

/-! ### Closed comments -/

/-- A text whose block comments are all closed. A comment is closed by the first closing mark behind
its opening one. -/
inductive ClosesComments : List Char → Prop
  | nil : ClosesComments []
  | plain {c : Char} {rest : List Char} (noComment : ¬['/', '*'] <+: c :: rest)
    (later : ClosesComments rest) : ClosesComments (c :: rest)
  | comment {body rest : List Char} (first : ¬['*', '/'] <:+: body ++ ['*'])
    (later : ClosesComments rest) :
    ClosesComments ('/' :: '*' :: (body ++ '*' :: '/' :: rest))

theorem pair_prefix_iff {first second c : Char} :
    [first, second] <+: c :: rest ↔ c = first ∧ rest.head? = some second := by
  rw [List.cons_prefix_cons, List.singleton_prefix_iff_head?_eq_some, eq_comm (a := first)]

/-- A comment ends with the first closing mark. -/
theorem commentEnd?_closed {body : List Char} (oneLine : '\n' ∉ body)
    (first : ¬['*', '/'] <:+: body ++ ['*']) (rest : List Char) :
    commentEnd? (body ++ '*' :: '/' :: rest) = some (body.length + 2) := by
  induction body with
  | nil => simp [commentEnd?]
  | cons c body ih =>
    obtain ⟨notEnd, oneLine⟩ := not_or.mp (mt List.mem_cons.mpr oneLine)
    rw [List.cons_append, List.infix_cons_iff, not_or, pair_prefix_iff, List.head?_append] at first
    have open' : ¬(c = '*' ∧ (body ++ '*' :: '/' :: rest).head? = some '/') := by
      rw [List.head?_append]
      exact first.1
    rw [List.cons_append, commentEnd?, if_neg open', if_neg (Ne.symm notEnd), ih oneLine first.2]
    rfl

/-- A comment that ends is closed. -/
theorem exists_of_commentEnd? {count : Nat} (ends : commentEnd? text = some count) :
    ∃ body rest, text = body ++ '*' :: '/' :: rest ∧ count = body.length + 2 ∧
      ¬['*', '/'] <:+: body ++ ['*'] := by
  induction text generalizing count with
  | nil => contradiction
  | cons c rest ih =>
    rw [commentEnd?] at ends
    split at ends
    · rename_i closes
      obtain ⟨rfl, slash⟩ := closes
      obtain ⟨rest, rfl⟩ := List.head?_eq_some_iff.mp slash
      exact ⟨[], rest, rfl, (Option.some.inj ends).symm, by decide⟩
    · rename_i goesOn
      split at ends
      · contradiction
      · obtain ⟨count, later, rfl⟩ := Option.map_eq_some_iff.mp ends
        obtain ⟨body, behind, rfl, rfl, first⟩ := ih later
        refine ⟨c :: body, behind, rfl, rfl, ?_⟩
        rw [List.head?_append] at goesOn
        rw [List.cons_append, List.infix_cons_iff, not_or, pair_prefix_iff, List.head?_append]
        exact ⟨goesOn, first⟩

/-- What still belongs to a comment gives way to blanks. -/
theorem blankComments_inside (inside rest : List Char) :
    blankComments inside.length (inside ++ rest) =
      List.replicate inside.length ' ' ++ blankComments 0 rest := by
  induction inside with
  | nil => rfl
  | cons c inside ih =>
    rw [List.length_cons, List.cons_append, blankComments, ih]
    rfl

/-- A closed comment gives way to blanks. -/
theorem blankComments_comment {body : List Char} (oneLine : '\n' ∉ body)
    (first : ¬['*', '/'] <:+: body ++ ['*']) (rest : List Char) :
    blankComments 0 ('/' :: '*' :: (body ++ '*' :: '/' :: rest)) =
      List.replicate (body.length + 4) ' ' ++ blankComments 0 rest := by
  have inside := blankComments_inside ('*' :: (body ++ ['*', '/'])) rest
  have count : ('*' :: (body ++ ['*', '/'])).length = body.length + 3 := by simp
  rw [count, List.cons_append, List.append_assoc] at inside
  rw [blankComments, commentTail?, commentEnd?_closed oneLine first]
  exact congrArg (' ' :: ·) inside

/-- No mark of a comment is left of a text just when its comments are closed. -/
theorem closesComments_iff (oneLine : '\n' ∉ text) :
    ClosesComments text ↔ position? ['/', '*'] (blankComments 0 text) = none := by
  have behindBlanks (count : Nat) (rest : List Char) :
      position? ['/', '*'] (List.replicate count ' ' ++ rest) = none ↔
        position? ['/', '*'] rest = none := by
    rw [position?_append (noneWithin_of_notMem (by simp)), Option.map_eq_none_iff]
  have behindPlain {c : Char} {rest : List Char} (noComment : ¬['/', '*'] <+: c :: rest) :
      position? ['/', '*'] (blankComments 0 (c :: rest)) = none ↔
        position? ['/', '*'] (blankComments 0 rest) = none := by
    have noMark : startsWith ['/', '*'] (c :: blankComments 0 rest) = false := by
      rw [Bool.eq_false_iff, Ne, startsWith_iff, pair_prefix_iff, List.head?_eq_getElem?]
      rintro ⟨rfl, star⟩
      refine noComment (pair_prefix_iff.mpr ⟨rfl, ?_⟩)
      rw [List.head?_eq_getElem?]
      exact (shownIn_blankComments 0 rest).same 0 '*' star (by decide)
    rw [blankComments_plain noComment, position?, noMark]
    exact Option.map_eq_none_iff
  constructor
  · intro closes
    induction closes with
    | nil => rfl
    | plain noComment later ih =>
      exact (behindPlain noComment).mpr (ih fun inside => oneLine (List.mem_cons_of_mem _ inside))
    | comment first later ih =>
      simp only [List.mem_cons, List.mem_append, not_or] at oneLine
      rw [blankComments_comment oneLine.2.2.1 first]
      exact (behindBlanks _ _).mpr (ih oneLine.2.2.2.2.2)
  · intro noMark
    induction length : text.length using Nat.strongRecOn generalizing text with
    | ind length ih =>
      subst length
      rcases text with _ | ⟨c, rest⟩
      · exact .nil
      · by_cases comment : ['/', '*'] <+: c :: rest
        · obtain ⟨inner, split⟩ := comment
          rw [← split] at noMark oneLine ih ⊢
          cases ends : commentEnd? inner with
          | none => simp [blankComments, commentTail?, ends, position?, startsWith] at noMark
          | some count =>
            obtain ⟨body, behind, rfl, _, first⟩ := exists_of_commentEnd? ends
            simp only [List.cons_append, List.nil_append, List.mem_cons, List.mem_append,
              not_or] at oneLine noMark ⊢
            rw [blankComments_comment oneLine.2.2.1 first] at noMark
            refine .comment first (ih _ ?_ oneLine.2.2.2.2.2 ((behindBlanks _ _).mp noMark) rfl)
            simp only [List.cons_append, List.nil_append, List.length_cons, List.length_append]
            omega
        · refine .plain comment (ih _ (Nat.lt_succ_self _) ?_ ((behindPlain comment).mp noMark) rfl)
          exact fun inside => oneLine (List.mem_cons_of_mem _ inside)

/-! ### Comments to the end of the line -/

/-- A text of one line that has no mark of a comment and does not end with the start of one. -/
structure Plain (text : List Char) : Prop where
  oneLine : ∀ c ∈ text, isLineEnd c = false
  noSlashes : ¬['/', '/'] <:+: text
  noSemicolon : ';' ∉ text
  noComment : ¬['/', '*'] <:+: text
  noSlash : text.getLast? ≠ some '/'

/-- Comments are taken out of what stands behind a plain text, which stays. -/
theorem withoutComments_append (plain : Plain text) (oneLine : ∀ c ∈ rest, isLineEnd c = false) :
    withoutComments (text ++ rest) =
      match position? ['/', '*'] (blankComments 0 rest) with
      | some start => .error ⟨.unterminatedComment,
          ⟨(start + text.length : Nat), (text ++ rest).length⟩⟩
      | none => .ok (text ++ before [';'] (before ['/', '/'] (blankComments 0 rest))) := by
  have ends : Text.dropEndWhile isLineEnd (text ++ rest) = text ++ rest :=
    Text.dropEndWhile_of_none (List.forall_mem_append.mpr ⟨plain.oneLine, oneLine⟩)
  have comments (rest : List Char) : NoneWithin ['/', '*'] text rest :=
    noneWithin_pair plain.noComment (.inl plain.noSlash)
  have slashes (rest : List Char) : NoneWithin ['/', '/'] text rest :=
    noneWithin_pair plain.noSlashes (.inl plain.noSlash)
  unfold withoutComments
  simp only [ends, blankComments_append (comments _), position?_append (comments _)]
  cases position? ['/', '*'] (blankComments 0 rest) with
  | some start =>
    simp only [Option.map_some, List.length_append, length_blankComments]
  | none =>
    simp only [Option.map_none]
    rw [before_append (slashes _), before_append (noneWithin_of_notMem plain.noSemicolon)]

/-- A character behind a line that is not blank changes its parts. -/
theorem ofCut_ne {c : Char} (ink : Text.isBlank c = false) :
    ofCut (front ++ c :: rest) ≠ ofCut front := by
  intro same
  obtain ⟨before, behind, split, column, isBlank⟩ := split_ofCut (front ++ c :: rest)
  obtain ⟨before', behind', split', column', _⟩ := split_ofCut front
  rw [same] at split column
  -- Both lines have their operands at one place, but what stands behind them in the longer one is
  -- blank, so they end behind the character.
  have short : before.length + (ofCut front).operands.toList.length ≤ front.length := by
    have count := congrArg List.length split'
    simp only [List.length_append] at count
    omega
  have found : (before ++ (ofCut front).operands.toList ++ behind)[front.length]? = some c := by
    rw [← split, List.getElem?_append_right (Nat.le_refl _), Nat.sub_self]
    rfl
  rw [List.getElem?_append_right (by rwa [List.length_append])] at found
  exact Bool.false_ne_true (ink.symm.trans (isBlank c (List.mem_of_getElem? found)))

theorem withoutComments_plain (plain : Plain text) : withoutComments text = .ok text := by
  have alone := @withoutComments_append text [] plain fun c absent => nomatch absent
  rw [List.append_nil] at alone
  rw [alone]
  exact congrArg Except.ok (List.append_nil text)

/-- A mark with which no block comment begins cuts the line, unless a block comment behind it is not
closed. -/
theorem withoutComments_mark (plain : Plain text)
    (oneLine : ∀ c ∈ mark ++ comment, isLineEnd c = false)
    (apart : NoneWithin ['/', '*'] mark comment)
    (apart' : NoneWithin ['/', '*'] mark (blankComments 0 comment))
    (cuts : ∀ rest, before [';'] (before ['/', '/'] (mark ++ rest)) = []) :
    (ClosesComments comment → withoutComments (text ++ (mark ++ comment)) = .ok text) ∧
      (¬ClosesComments comment → ∃ start : Nat, withoutComments (text ++ (mark ++ comment)) =
        .error ⟨.unterminatedComment, ⟨start, (text ++ (mark ++ comment)).length⟩⟩) := by
  have noFeed : '\n' ∉ comment := fun inside =>
    Bool.false_ne_true (oneLine _ (List.mem_append_right _ inside)).symm
  rw [withoutComments_append plain oneLine, closesComments_iff noFeed, blankComments_append apart,
    position?_append apart']
  constructor
  · intro closes
    rw [closes, Option.map_none, cuts, List.append_nil]
  · intro opens
    obtain ⟨start, found⟩ := Option.ne_none_iff_exists'.mp opens
    exact ⟨start + mark.length + text.length, by rw [found]; rfl⟩

/-- A semicolon and two slashes without a star behind them are such marks. -/
theorem withoutComments_cut (plain : Plain text) (oneLine : ∀ c ∈ comment, isLineEnd c = false)
    (isMark : mark = [';'] ∨ mark = ['/', '/'] ∧ comment.head? ≠ some '*') :
    (ClosesComments comment → withoutComments (text ++ (mark ++ comment)) = .ok text) ∧
      (¬ClosesComments comment → ∃ start : Nat, withoutComments (text ++ (mark ++ comment)) =
        .error ⟨.unterminatedComment, ⟨start, (text ++ (mark ++ comment)).length⟩⟩) := by
  rcases isMark with rfl | ⟨rfl, noStar⟩
  · refine withoutComments_mark plain (List.forall_mem_append.mpr ⟨by decide, oneLine⟩)
      (noneWithin_of_notMem (by decide)) (noneWithin_of_notMem (by decide)) fun rest => ?_
    rw [before_append (noneWithin_of_notMem (by decide))]
    exact before_mark
  · have noStar' : (blankComments 0 comment).head? ≠ some '*' := by
      rw [List.head?_eq_getElem?] at noStar ⊢
      exact fun star => noStar ((shownIn_blankComments 0 comment).same 0 '*' star (by decide))
    refine withoutComments_mark plain (List.forall_mem_append.mpr ⟨by decide, oneLine⟩)
      (noneWithin_pair (by decide) (.inr noStar)) (noneWithin_pair (by decide) (.inr noStar'))
      fun rest => ?_
    rw [before_mark]
    rfl

/-- A star behind two slashes begins a block comment with the second of them. So the first one is
left of the line, if it is not refused. -/
theorem withoutComments_star (plain : Plain text) {body : List Char}
    (oneLine : ∀ c ∈ '/' :: '/' :: '*' :: body, isLineEnd c = false)
    (removed : withoutComments (text ++ '/' :: '/' :: '*' :: body) = .ok line) :
    ∃ rest, line = text ++ '/' :: rest := by
  have slash : blankComments 0 ('/' :: '/' :: '*' :: body) =
      '/' :: blankComments 0 ('/' :: '*' :: body) :=
    blankComments_plain (by simp)
  rw [withoutComments_append plain oneLine, slash] at removed
  cases ends : commentEnd? body with
  | none => simp [blankComments, commentTail?, ends, position?, startsWith] at removed
  | some count =>
    have blanked : blankComments 0 ('/' :: '*' :: body) =
        ' ' :: blankComments (count + 1) ('*' :: body) := by
      simp [blankComments, commentTail?, ends]
    have apart : NoneWithin ['/', '/'] ['/'] (' ' :: blankComments (count + 1) ('*' :: body)) :=
      noneWithin_pair (by decide) (by simp)
    have left := before_append apart
    have left' := @before_append ['/']
      (before ['/', '/'] (' ' :: blankComments (count + 1) ('*' :: body))) [';']
      (noneWithin_of_notMem (by decide))
    split at removed
    · contradiction
    · rw [List.singleton_append] at left
      rw [blanked, left, left'] at removed
      exact ⟨_, (Except.ok.inj removed).symm⟩

/-- A comment to the end of a plain line is of no account just when all block comments in it are
closed and, behind slashes, it does not begin with a star. Otherwise a block comment that is not
closed refuses the line. -/
theorem parse_comment {text comment : String} (plain : Plain text.toList)
    (oneLine : ∀ c ∈ comment.toList, isLineEnd c = false) :
    (∃ line, parse text = .ok line) ∧
      (parse (text ++ ";" ++ comment) = parse text ↔ ClosesComments comment.toList) ∧
      (parse (text ++ "//" ++ comment) = parse text ↔
        ClosesComments comment.toList ∧ comment.toList.head? ≠ some '*') ∧
      ∀ mark, mark = ";" ∨ mark = "//" ∧ comment.toList.head? ≠ some '*' →
        ¬ClosesComments comment.toList → ∃ start : Nat, parse (text ++ mark ++ comment) =
          .error ⟨.unterminatedComment, ⟨start, (text ++ mark ++ comment).length⟩⟩ := by
  have own : parse text = .ok (ofCut text.toList) := by
    rw [parse_eq, withoutComments_plain plain]
    rfl
  have whole (mark : String) :
      (text ++ mark ++ comment).toList = text.toList ++ (mark.toList ++ comment.toList) := by
    simp [String.toList_append]
  have marked (mark : String)
      (isMark : mark = ";" ∨ mark = "//" ∧ comment.toList.head? ≠ some '*') :
      (ClosesComments comment.toList → parse (text ++ mark ++ comment) = parse text) ∧
        (¬ClosesComments comment.toList → ∃ start : Nat, parse (text ++ mark ++ comment) =
          .error ⟨.unterminatedComment, ⟨start, (text ++ mark ++ comment).length⟩⟩) := by
    rw [own, parse_eq, ← String.length_toList, whole]
    have cut := withoutComments_cut plain oneLine
      (isMark.imp (congrArg String.toList) (And.imp_left (congrArg String.toList)))
    refine ⟨fun closes => by rw [cut.1 closes]; rfl, fun opens => ?_⟩
    obtain ⟨start, refused⟩ := cut.2 opens
    exact ⟨start, by rw [refused]; rfl⟩
  have decided (mark : String)
      (isMark : mark = ";" ∨ mark = "//" ∧ comment.toList.head? ≠ some '*') :
      parse (text ++ mark ++ comment) = parse text ↔ ClosesComments comment.toList := by
    refine ⟨fun same => ?_, (marked mark isMark).1⟩
    refine Classical.byContradiction fun opens => ?_
    obtain ⟨start, refused⟩ := (marked mark isMark).2 opens
    rw [same, own] at refused
    contradiction
  refine ⟨⟨_, own⟩, decided ";" (.inl rfl), ?_, fun mark isMark => (marked mark isMark).2⟩
  by_cases star : comment.toList.head? = some '*'
  · refine iff_of_false (fun same => ?_) fun both => both.2 star
    obtain ⟨body, begins⟩ := List.head?_eq_some_iff.mp star
    rw [own, parse_eq, whole, begins] at same
    obtain ⟨line, removed, same⟩ := map_eq_ok.mp same
    rw [begins] at oneLine
    have slashes : ∀ c ∈ ['/', '/'], isLineEnd c = false := by decide
    obtain ⟨rest, rfl⟩ := withoutComments_star plain
      (List.forall_mem_append.mpr ⟨slashes, oneLine⟩) removed
    exact ofCut_ne (by decide) same
  · rw [decided "//" (.inr ⟨rfl, star⟩), and_iff_left star]

/-- An opening mark in what the slashes cut off still has to be closed, so this line is not read as
the one without the comment. -/
theorem parse_comment_open :
    Plain "nop ".toList ∧ (∀ c ∈ " see /*".toList, isLineEnd c = false) ∧
      ¬ClosesComments " see /*".toList ∧ parse ("nop " ++ "//" ++ " see /*") ≠ parse "nop " := by
  have plain : Plain "nop ".toList :=
    ⟨by decide, by decide, by decide, by decide, by decide⟩
  have oneLine : ∀ c ∈ " see /*".toList, isLineEnd c = false := by decide
  have opens : ¬ClosesComments " see /*".toList := by
    rw [closesComments_iff (by decide)]
    decide
  exact ⟨plain, oneLine, opens, fun same =>
    opens ((parse_comment plain oneLine).2.2.1.mp same).1⟩

/-- A star behind the slashes leaves the first of them in the operands. -/
example : (parse "b x //* see */ y").toOption.map (·.operands) = some "x /          y" := by
  decide +kernel

end SourceLine

end A64Machine
