import A64Machine.Proofs.Bits
import A64Machine.Proofs.FieldAssignment
import A64Machine.Proofs.InstructionSet

/-!
# Finding the form of a word in a checked table

Whatever a table is built from, its checks are what the reader of a word relies on. The base form of
an operation accepts every word of the operation's forms and its fields together with its literals
are the whole word, so the fields that are executed lose nothing. And the numbers of the forms tell
their priority: they are the places of their lines among all lines, those without a pattern
included, and the search ends at the least number whose form takes the word.
-/

namespace A64Machine.OpcodeTable

open BitPattern (ofTemplate)

variable {basis : TableBasis} {definitions : List (String × List FormLine)} {table : OpcodeTable}

/-! ### The order of declaration -/

/-- All lines of a definition with their mnemonics, in the order of their declaration. -/
def linesOf (definitions : List (String × List FormLine)) : List (String × FormLine) :=
  definitions.flatMap fun group => group.2.map fun line => (group.1, line)

/-- The entries of a mnemonic are numbered one after the other. -/
theorem entriesFrom_eq_map_zipIdx (mnemonic : String) (index : Nat) (lines : List FormLine) :
    entriesFrom mnemonic index lines =
      ((lines.map fun line => (mnemonic, line)).zipIdx index).map fun line =>
        entryOf line.1.1 line.2 line.1.2 := by
  induction lines generalizing index with
  | nil => rfl
  | cons line rest ih => rw [entriesFrom, ih, List.map_cons, List.zipIdx_cons, List.map_cons]

/-- The entries of all groups are numbered one after the other. -/
theorem flatMap_groupsFrom (index : Nat) (definitions : List (String × List FormLine)) :
    (groupsFrom index definitions).flatMap Prod.snd =
      ((linesOf definitions).zipIdx index).map fun line => entryOf line.1.1 line.2 line.1.2 := by
  induction definitions generalizing index with
  | nil => rfl
  | cons group rest ih =>
    obtain ⟨mnemonic, lines⟩ := group
    have first : linesOf ((mnemonic, lines) :: rest) =
        (lines.map fun line => (mnemonic, line)) ++ linesOf rest := List.flatMap_cons
    rw [groupsFrom, List.flatMap_cons, ih, entriesFrom_eq_map_zipIdx, first, List.zipIdx_append,
      List.map_append, List.length_map]

/-- An entry carries the number that it was given. -/
theorem index_entryOf (mnemonic : String) (index : Nat) (line : FormLine) :
    (entryOf mnemonic index line).head.index = index := by
  unfold entryOf
  split <;> rfl

/-- A form that a line describes carries the number of the line. -/
theorem index_of_entryOf {mnemonic : String} {index : Nat} {line : FormLine}
    {form : InstructionForm} (described : entryOf mnemonic index line = .implemented form) :
    form.index = index := by
  have numbered := index_entryOf mnemonic index line
  rw [described] at numbered
  exact numbered

/-- The forms of a built table come from its lines, numbered from zero. -/
theorem BuiltFrom.decodeOrder_eq (built : BuiltFrom basis definitions table) :
    table.decodeOrder = (linesOf definitions).zipIdx.filterMap fun line =>
      (entryOf line.1.1 line.2 line.1.2).form? := by
  rw [decodeOrder, built.groups, flatMap_groupsFrom, List.filterMap_map]
  rfl

/-- An entry with a form is that form. -/
theorem form?_eq_some {entry : OpcodeEntry} {form : InstructionForm} :
    entry.form? = some form ↔ entry = .implemented form := by
  cases entry <;> simp [OpcodeEntry.form?]

/-- The number of a form is the place of its line among all lines. -/
theorem BuiltFrom.mem_decodeOrder_iff_line (built : BuiltFrom basis definitions table)
    {form : InstructionForm} :
    form ∈ table.decodeOrder ↔ ∃ mnemonic line,
      (linesOf definitions)[form.index]? = some (mnemonic, line) ∧
        entryOf mnemonic form.index line = .implemented form := by
  rw [built.decodeOrder_eq, List.mem_filterMap]
  simp only [form?_eq_some, Prod.exists, List.mem_zipIdx_iff_getElem?]
  constructor
  · rintro ⟨mnemonic, line, index, here, described⟩
    obtain rfl := index_of_entryOf described
    exact ⟨mnemonic, line, here, described⟩
  · rintro ⟨mnemonic, line, here, described⟩
    exact ⟨mnemonic, line, form.index, here, described⟩

/-- A word is compared with the forms in the order of their numbers. -/
theorem BuiltFrom.pairwise_index (built : BuiltFrom basis definitions table) :
    table.decodeOrder.Pairwise fun earlier later => earlier.index < later.index := by
  rw [built.decodeOrder_eq, List.pairwise_filterMap]
  have numbered : ((linesOf definitions).zipIdx.map Prod.snd).Pairwise (· < ·) := by
    rw [List.zipIdx_map_snd]
    exact List.pairwise_lt_range'
  refine (List.pairwise_map.mp numbered).imp ?_
  intro line other less form described form' described'
  rw [index_of_entryOf (form?_eq_some.mp described),
    index_of_entryOf (form?_eq_some.mp described')]
  exact less

/-! ### The search -/

section Search

variable {ε : Type} {admits : InstructionForm → List (Char × Nat) → Except ε Bool} {word : Nat}
  {forms : List InstructionForm} {form : InstructionForm}

/-- Among numbered forms, the first one that takes a word is the one of the least number. -/
theorem isFirst_iff_of_pairwise
    (numbered : forms.Pairwise fun earlier later => earlier.index < later.index) :
    IsFirst admits word forms form ↔
      form ∈ forms ∧ form.pattern.accepts word = true ∧
        admits form (form.pattern.decode word) = .ok true ∧
        ∀ other ∈ forms, other.index < form.index → Refuses admits word other := by
  constructor
  · rintro ⟨earlier, later, rfl, refused, accepted, admitted⟩
    refine ⟨by simp, accepted, admitted, fun other member less => ?_⟩
    obtain ⟨-, behind, -⟩ := List.pairwise_append.mp numbered
    rcases List.mem_append.mp member with before | after
    · exact refused other before
    · rcases List.mem_cons.mp after with rfl | after
      · exact absurd less (Nat.lt_irrefl _)
      · exact absurd less (Nat.lt_asymm ((List.pairwise_cons.mp behind).1 other after))
  · rintro ⟨member, accepted, admitted, refused⟩
    obtain ⟨earlier, later, rfl⟩ := List.append_of_mem member
    refine ⟨earlier, later, rfl, fun other before => ?_, accepted, admitted⟩
    obtain ⟨-, -, across⟩ := List.pairwise_append.mp numbered
    exact refused other (List.mem_append_left _ before)
      (across other before form List.mem_cons_self)

/-- The search for the form of a word finds none just when each of them refuses it. -/
theorem firstForm_eq_none_iff :
    firstForm admits word forms = .ok none ↔ ∀ form ∈ forms, Refuses admits word form := by
  refine ⟨fun found => ?_, firstForm_eq_none⟩
  induction forms with
  | nil => exact fun _ member => by contradiction
  | cons first rest ih =>
    have refused : Refuses admits word first := by
      intro accepted
      rw [firstForm, if_pos accepted] at found
      obtain ⟨admitted, decided, found⟩ := bind_eq_ok.mp found
      cases admitted with
      | true => exact absurd (Except.ok.inj found) (by simp)
      | false => exact decided
    rw [firstForm_cons_of_refuses refused] at found
    exact List.forall_mem_cons.mpr ⟨refused, ih found⟩

/-- A filter that decides every form leaves the search with a form or with none. -/
theorem firstForm_isOk_of_decided
    (decided : ∀ form ∈ forms, ∃ admitted, admits form (form.pattern.decode word) = .ok admitted) :
    ∃ found, firstForm admits word forms = .ok found := by
  by_cases taken : ∃ form ∈ forms, form.pattern.accepts word = true ∧
      admits form (form.pattern.decode word) = .ok true
  · obtain ⟨form, member, accepted, admitted⟩ := taken
    obtain ⟨first, isFirst⟩ := exists_isFirst decided member accepted admitted
    exact ⟨_, firstForm_eq_some.mpr ⟨isFirst, rfl⟩⟩
  · refine ⟨none, firstForm_eq_none fun form member accepted => ?_⟩
    obtain ⟨admitted, decision⟩ := decided form member
    cases admitted with
    | true => exact absurd ⟨form, member, accepted, decision⟩ taken
    | false => exact decision

end Search

/-! ### What is executed -/

/-- The base form of a form accepts its words and is all that is needed to tell them apart. -/
theorem BuiltFrom.exists_base (built : BuiltFrom basis definitions table) {form : InstructionForm}
    (member : form ∈ table.decodeOrder) :
    ∃ base, table.baseForm? form.op = some base ∧
      ∀ word < 2 ^ 32, form.pattern.accepts word = true →
        base.accepts word = true ∧
          base.encode (fun letter => ((base.decode word).lookup letter).map Int.ofNat) =
            .ok word := by
  obtain ⟨base, known, wider⟩ := (built.checked form member).accepts_base
  refine ⟨base, known, fun word small accepted => ⟨wider word accepted, ?_⟩⟩
  have member := mem_of_lookup known
  have wellFormed : base.WellFormed := by
    rw [built.baseForms] at member
    obtain ⟨line, -, same⟩ := List.mem_map.mp member
    obtain ⟨-, rfl⟩ := Prod.mk.inj same
    exact BitPattern.wellFormed_ofTemplate _
  refine wellFormed.encode_decode ?_ (wider word accepted)
  rw [built.baseBits _ member]
  exact small

/-- The checks of a table guarantee what decoding relies on, whatever the table is built from. The
numbers of the forms are the places of their lines and their order of comparison. The fields of the
base form make up the whole word of any form. A word made by a form is found, at that form or at one
declared before. And with a filter the search ends at the first form in the order of declaration
that matches and is not refused, or with none when there is no such form. -/
theorem search_of_checked_table (built : build basis definitions = .ok table) :
    ((table.decodeOrder.Pairwise fun earlier later => earlier.index < later.index) ∧
      ∀ form, form ∈ table.decodeOrder ↔ ∃ mnemonic line,
        (linesOf definitions)[form.index]? = some (mnemonic, line) ∧
          entryOf mnemonic form.index line = .implemented form) ∧
    (∀ form ∈ table.decodeOrder, ∃ base, table.baseForm? form.op = some base ∧
      ∀ word < 2 ^ 32, form.pattern.accepts word = true →
        base.accepts word = true ∧
          base.encode (fun letter => ((base.decode word).lookup letter).map Int.ofNat) =
            .ok word) ∧
    (∀ bound word address instruction,
      (Codec.mk table bound).decode word address = .ok (some instruction) →
        ∃ base, table.baseForm? instruction.form.op = some base ∧
          base.encode (fun letter => (instruction.fields.lookup letter).map Int.ofNat) =
            .ok (Instruction.wordBits word)) ∧
    (∀ ε : Type, ∀ form ∈ table.decodeOrder, ∀ values word, form.pattern.encode values = .ok word →
      ∃ first ∈ table.decodeOrder, first.index ≤ form.index ∧
        table.resolve (fun _ _ => (.ok true : Except ε Bool)) word =
          .ok (some (first, first.pattern.decode word))) ∧
    ∀ (ε : Type) (admits : InstructionForm → Fields → Except ε Bool) (word : Nat),
      (∀ first fields, table.resolve admits word = .ok (some (first, fields)) ↔
        fields = first.pattern.decode word ∧ first ∈ table.decodeOrder ∧
          first.pattern.accepts word = true ∧ admits first fields = .ok true ∧
          ∀ other ∈ table.decodeOrder, other.index < first.index →
            other.pattern.accepts word = true →
              admits other (other.pattern.decode word) = .ok false) ∧
      (table.resolve admits word = .ok none ↔ ∀ form ∈ table.decodeOrder,
        form.pattern.accepts word = true → admits form (form.pattern.decode word) = .ok false) ∧
      ((∀ form ∈ table.decodeOrder,
          ∃ admitted, admits form (form.pattern.decode word) = .ok admitted) →
        ∃ found, table.resolve admits word = .ok found) := by
  have built := builtFrom_of_build built
  have numbered := built.pairwise_index
  refine ⟨⟨numbered, fun form => built.mem_decodeOrder_iff_line⟩,
    fun form member => built.exists_base member, fun bound word address instruction decoded => ?_,
    fun ε form member values word made => ?_,
    fun ε admits word => ⟨fun first fields => ?_, firstForm_eq_none_iff, firstForm_isOk_of_decided⟩⟩
  · obtain ⟨isFirst, -, -, fields, -⟩ := InstructionSet.decode_eq_some decoded
    obtain ⟨member, accepted, -, -⟩ := (isFirst_iff_of_pairwise numbered).mp isFirst
    obtain ⟨base, known, whole⟩ := built.exists_base member
    refine ⟨base, known, ?_⟩
    rw [fields, known]
    exact (whole _ (Bits.wrap_lt 32 word) accepted).2
  · obtain ⟨-, accepted, -⟩ :=
      BitPattern.gather_of_encode (built.checked form member).wellFormed made
    obtain ⟨first, isFirst⟩ : ∃ first, IsFirst (fun _ _ => (.ok true : Except ε Bool)) word
        table.decodeOrder first :=
      exists_isFirst (fun _ _ => ⟨true, rfl⟩) member accepted rfl
    obtain ⟨among, -, -, refused⟩ := (isFirst_iff_of_pairwise numbered).mp isFirst
    refine ⟨first, among, Nat.le_of_not_lt fun less => ?_, firstForm_eq_some.mpr ⟨isFirst, rfl⟩⟩
    exact absurd (Except.ok.inj (refused form member less accepted)) (by simp)
  · rw [resolve, firstForm_eq_some, isFirst_iff_of_pairwise numbered]
    constructor
    · rintro ⟨⟨among, accepted, admitted, refused⟩, rfl⟩
      exact ⟨rfl, among, accepted, admitted, refused⟩
    · rintro ⟨rfl, among, accepted, admitted, refused⟩
      exact ⟨⟨among, accepted, admitted, refused⟩, rfl⟩

/-- A basis with one operation, which copies a value. -/
def copyBasis : TableBasis where
  baseForms := [(.other "copy", "1ddd dccc 00000000 00000000 00000000".toList)]
  kindLetters := [('v', none)]
  widths := [('d', 4)]

/-- Two overlapping forms of the one operation, behind a line without a pattern. -/
def copyLines : List (String × List FormLine) :=
  let copy := fun text : String =>
    FormLine.mk ['v'] [['d']] (some text.toList) (some (.other "copy")) none false
  [("reserved", [⟨['v'], [['d']], none, none, none, false⟩]),
    ("zero", [copy "1ddd d000 00000000 00000000 00000000"]),
    ("copy", [copy "1ddd dccc 00000000 00000000 00000000"])]

/-- A word that the later of two overlapping forms makes is found at the earlier one. -/
theorem search_of_checked_table_overlapping :
    ∃ table, build copyBasis copyLines = .ok table ∧
      table.decodeOrder.map (fun form => (form.index, form.mnemonic)) =
        [(1, "zero"), (2, "copy")] ∧
      ∃ form ∈ table.decodeOrder, form.mnemonic = "copy" ∧
        form.pattern.encode (fun letter => if letter = 'd' then some 2 else some 0) =
          .ok 0x90000000 ∧
        ∃ first ∈ table.decodeOrder, first.index ≤ form.index ∧
          table.resolve (fun _ _ => (.ok true : Except Unit Bool)) 0x90000000 =
            .ok (some (first, first.pattern.decode 0x90000000)) := by
  let pattern := ofTemplate (plain "1ddd dccc 00000000 00000000 00000000".toList)
  let form : InstructionForm :=
    ⟨⟨"copy", ['v'], [['d']], none, false, 2⟩, pattern, .other "copy"⟩
  have built : build copyBasis copyLines =
      .ok ⟨groupsFrom 0 copyLines, [(.other "copy", pattern)]⟩ := toOption_eq_some.mp (by decide)
  have made : form.pattern.encode (fun letter => if letter = 'd' then some 2 else some 0) =
      .ok 0x90000000 := toOption_eq_some.mp (by decide)
  obtain ⟨-, -, -, found, -⟩ := search_of_checked_table built
  exact ⟨_, built, by decide, form, by decide, rfl, made,
    found Unit form (by decide) _ _ made⟩

end A64Machine.OpcodeTable
