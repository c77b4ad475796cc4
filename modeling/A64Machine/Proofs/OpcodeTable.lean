import A64Machine.OpcodeTable
import A64Machine.Proofs.Outcome
import A64Machine.Proofs.Pattern

/-!
# What a checked table guarantees

Building a table either fails or gives, line by line, the entries that the definition describes,
in their order and with their numbers. So a built table can be written down without its checks,
and every form of it has what the checks ask for: a pattern of 32 bits that is what its template
says, a base form that accepts all of its words, and the fields that its operands set.
-/

namespace A64Machine

namespace OpcodeTable

open BitPattern (ofTemplate)

/-- A condition that is required and met holds. -/
theorem require_eq_ok {condition : Bool} {error : TableError} {u : Unit} :
    require condition error = .ok u ↔ condition = true := by
  unfold require
  split <;> simp_all

/-- A template without its separators. -/
def plain (template : List Char) : List Char :=
  template.filter fun c => !BitPattern.isSeparator c

/-- The entry that a line describes at its place in the table. -/
def entryOf (mnemonic : String) (index : Nat) (line : FormLine) : OpcodeEntry :=
  match line.pattern, line.op with
  | some template, some op =>
    .implemented
      ⟨⟨mnemonic, line.shape, line.roles, line.size, line.pair, index⟩,
        ofTemplate (plain template), op⟩
  | _, _ => .declared ⟨mnemonic, line.shape, line.roles, line.size, line.pair, index⟩

/-- The entries that the lines of a mnemonic describe, numbered from `index`. -/
def entriesFrom (mnemonic : String) : (index : Nat) → List FormLine → List OpcodeEntry
  | _, [] => []
  | index, line :: rest => entryOf mnemonic index line :: entriesFrom mnemonic (index + 1) rest

/-- The groups that a definition describes, with their entries numbered from `index`. -/
def groupsFrom : (index : Nat) → List (String × List FormLine) →
    List (String × List OpcodeEntry)
  | _, [] => []
  | index, (mnemonic, lines) :: rest =>
    (mnemonic, entriesFrom mnemonic index lines) :: groupsFrom (index + lines.length) rest

/-- What the construction of a table checks of an instruction form. -/
structure Checked (basis : TableBasis) (baseForms : List (Operation × BitPattern))
    (form : InstructionForm) : Prop where
  /-- The pattern is what its template says. -/
  wellFormed : form.pattern.WellFormed
  /-- The pattern is one of 32-bit words. -/
  bits : form.pattern.bits = 32
  /-- Every operand has a role. -/
  roles : form.roles.length = form.shape.length
  /-- Every operand kind is one of the basis. -/
  kinds : ∀ kind ∈ form.shape, (basis.kindLetters.lookup kind).isSome = true
  /-- The literal bits of the base form are among those of the form. -/
  base : ∃ base, baseForms.lookup form.op = some base ∧
    base.literalMask &&& form.pattern.literalMask = base.literalMask ∧
    form.pattern.literalValue &&& base.literalMask = base.literalValue
  /-- The pattern has the fields that the operands set. -/
  fields : ∀ kind role, (kind, role) ∈ form.shape.zip form.roles →
    ∀ letter ∈ (basis.kindLetters.lookup kind).join.getD role, form.pattern.hasField letter = true

/-- A form accepts no word that its base form does not accept. -/
theorem Checked.accepts_base {basis : TableBasis} {baseForms : List (Operation × BitPattern)}
    {form : InstructionForm} (checked : Checked basis baseForms form) :
    ∃ base, baseForms.lookup form.op = some base ∧
      ∀ word, form.pattern.accepts word = true → base.accepts word = true := by
  obtain ⟨base, known, within, agrees⟩ := checked.base
  refine ⟨base, known, fun word accepted => ?_⟩
  rw [BitPattern.accepts, beq_iff_eq] at accepted ⊢
  calc word &&& base.literalMask
      = word &&& form.pattern.literalMask &&& base.literalMask := by
        rw [Nat.and_assoc, Nat.and_comm form.pattern.literalMask, within]
    _ = base.literalValue := by rw [accepted, agrees]

/-- A compiled template is the pattern of its characters without separators. -/
theorem compilePattern_eq_ok {widths : List (Char × Int)} {template : List Char}
    {pattern : BitPattern} (compiled : compilePattern widths template = .ok pattern) :
    pattern = ofTemplate (plain template) ∧ pattern.bits = 32 := by
  obtain ⟨same, bits⟩ := BitPattern.eq_ofTemplate_of_compile (mapError_eq_ok.mp compiled)
  exact ⟨same, by omega⟩

/-- The compiled base forms are the patterns of their templates. -/
theorem compileBaseForms_eq_ok {widths : List (Char × Int)}
    {templates : List (Operation × List Char)} {baseForms : List (Operation × BitPattern)}
    (compiled : compileBaseForms widths templates = .ok baseForms) :
    baseForms = templates.map (fun base => (base.1, ofTemplate (plain base.2))) ∧
      ∀ base ∈ baseForms, base.2.bits = 32 := by
  induction templates generalizing baseForms with
  | nil =>
    obtain rfl := Except.ok.inj compiled
    simp
  | cons base rest ih =>
    rw [compileBaseForms] at compiled
    obtain ⟨pattern, first, compiled⟩ := bind_eq_ok.mp compiled
    obtain ⟨others, tail, compiled⟩ := bind_eq_ok.mp compiled
    obtain rfl := Except.ok.inj compiled
    obtain ⟨same, bits⟩ := compilePattern_eq_ok first
    obtain ⟨rfl, others⟩ := ih tail
    exact ⟨by rw [same, List.map_cons], List.forall_mem_cons.mpr ⟨bits, others⟩⟩

/-- The check of the operands finds every field that they set. -/
theorem checkOperands_eq_ok {mnemonic : String} {kindLetters : List (Char × Option (List Char))}
    {pattern : BitPattern} {operands : List (Char × List Char)} {u : Unit}
    (passed : checkOperands mnemonic kindLetters pattern operands = .ok u) :
    ∀ kind role, (kind, role) ∈ operands →
      ∀ letter ∈ (kindLetters.lookup kind).join.getD role, pattern.hasField letter = true := by
  induction operands with
  | nil => intro _ _ member; contradiction
  | cons operand rest ih =>
    obtain ⟨kind, role⟩ := operand
    rw [checkOperands] at passed
    obtain ⟨_, _, passed⟩ := bind_eq_ok.mp passed
    cases missing : ((kindLetters.lookup kind).join.getD role).find? fun letter =>
        !pattern.hasField letter with
    | some letter =>
      simp [missing, throw, throwThe, MonadExceptOf.throw, bind, Except.bind] at passed
    | none =>
      simp only [missing] at passed
      intro kind' role' member letter inside
      rcases List.mem_cons.mp member with same | later
      · obtain ⟨rfl, rfl⟩ := Prod.mk.inj same
        simpa using List.find?_eq_none.mp missing letter inside
      · exact ih passed kind' role' later letter inside

/-- An entry is built as its line describes it, and a form among the entries is checked. -/
theorem buildEntry_eq_ok {basis : TableBasis} {baseForms : List (Operation × BitPattern)}
    {mnemonic : String} {line : FormLine} {index : Nat} {entry : OpcodeEntry}
    (built : buildEntry basis baseForms mnemonic line index = .ok entry) :
    entry = entryOf mnemonic index line ∧
      ∀ form, entry = .implemented form → Checked basis baseForms form := by
  rw [buildEntry] at built
  obtain ⟨_, roles, built⟩ := bind_eq_ok.mp built
  rw [require_eq_ok, beq_iff_eq] at roles
  cases kinds : line.shape.find? fun kind => (basis.kindLetters.lookup kind).isNone with
  | some kind =>
    simp [kinds, throw, throwThe, MonadExceptOf.throw, bind, Except.bind] at built
  | none =>
    cases template : line.pattern with
    | none =>
      simp only [kinds, template] at built
      obtain rfl := Except.ok.inj built
      exact ⟨by rw [entryOf, template], fun form h => by contradiction⟩
    | some characters =>
      simp only [kinds, template] at built
      obtain ⟨pattern, compiled, built⟩ := bind_eq_ok.mp built
      obtain ⟨rfl, bits⟩ := compilePattern_eq_ok compiled
      cases known : line.op.bind fun op => (baseForms.lookup op).map fun base => (op, base) with
      | none => simp [known, throw, throwThe, MonadExceptOf.throw] at built
      | some found =>
        simp only [known] at built
        obtain ⟨_, included, built⟩ := bind_eq_ok.mp built
        obtain ⟨_, operands, built⟩ := bind_eq_ok.mp built
        obtain rfl := Except.ok.inj built
        rw [require_eq_ok, Bool.and_eq_true, beq_iff_eq, beq_iff_eq] at included
        obtain ⟨op, given, known⟩ := Option.bind_eq_some_iff.mp known
        obtain ⟨base, present, rfl⟩ := Option.map_eq_some_iff.mp known
        refine ⟨by rw [entryOf, template, given], ?_⟩
        rintro form ⟨rfl⟩
        exact
          { wellFormed := BitPattern.wellFormed_ofTemplate _
            bits := bits
            roles := roles
            kinds := fun kind member => by
              simpa [Option.isSome_iff_ne_none] using List.find?_eq_none.mp kinds kind member
            base := ⟨base, present, included⟩
            fields := checkOperands_eq_ok operands }

/-- The entries of a mnemonic are built as its lines describe them. -/
theorem buildEntries_eq_ok {basis : TableBasis} {baseForms : List (Operation × BitPattern)}
    {mnemonic : String} {lines : List FormLine} {index : Nat} {entries : List OpcodeEntry}
    (built : buildEntries basis baseForms mnemonic index lines = .ok entries) :
    entries = entriesFrom mnemonic index lines ∧
      ∀ form, .implemented form ∈ entries → Checked basis baseForms form := by
  induction lines generalizing index entries with
  | nil =>
    obtain rfl := Except.ok.inj built
    exact ⟨rfl, fun form member => by contradiction⟩
  | cons line rest ih =>
    rw [buildEntries] at built
    obtain ⟨entry, first, built⟩ := bind_eq_ok.mp built
    obtain ⟨others, tail, built⟩ := bind_eq_ok.mp built
    obtain rfl := Except.ok.inj built
    obtain ⟨rfl, checked⟩ := buildEntry_eq_ok first
    obtain ⟨rfl, others⟩ := ih tail
    refine ⟨rfl, fun form member => ?_⟩
    rcases List.mem_cons.mp member with same | later
    · exact checked form same.symm
    · exact others form later

/-- The groups are built as the definition describes them, no mnemonic twice. -/
theorem buildGroups_eq_ok {basis : TableBasis} {baseForms : List (Operation × BitPattern)}
    {seen : List String} {index : Nat} {definitions : List (String × List FormLine)}
    {groups : List (String × List OpcodeEntry)}
    (built : buildGroups basis baseForms seen index definitions = .ok groups) :
    groups = groupsFrom index definitions ∧
      (definitions.map Prod.fst).Nodup ∧ (∀ mnemonic ∈ definitions.map Prod.fst, mnemonic ∉ seen) ∧
      ∀ group ∈ groups, ∀ form, .implemented form ∈ group.2 → Checked basis baseForms form := by
  induction definitions generalizing seen index groups with
  | nil =>
    obtain rfl := Except.ok.inj built
    simp [groupsFrom]
  | cons definition rest ih =>
    obtain ⟨mnemonic, lines⟩ := definition
    rw [buildGroups] at built
    obtain ⟨_, fresh, built⟩ := bind_eq_ok.mp built
    obtain ⟨entries, first, built⟩ := bind_eq_ok.mp built
    obtain ⟨others, tail, built⟩ := bind_eq_ok.mp built
    obtain rfl := Except.ok.inj built
    obtain ⟨rfl, checked⟩ := buildEntries_eq_ok first
    obtain ⟨rfl, distinct, unseen, others⟩ := ih tail
    have fresh : mnemonic ∉ seen := by simpa using require_eq_ok.mp fresh
    refine ⟨rfl, ?_, ?_, ?_⟩
    · exact List.nodup_cons.mpr ⟨fun again => unseen mnemonic again List.mem_cons_self, distinct⟩
    · refine List.forall_mem_cons.mpr ⟨fresh, fun later member again => ?_⟩
      exact unseen later member (List.mem_cons_of_mem _ again)
    · exact List.forall_mem_cons.mpr ⟨checked, others⟩

/-! ### Built tables -/

/-- A table that the given definition describes and that has passed the checks. -/
structure BuiltFrom (basis : TableBasis) (definitions : List (String × List FormLine))
    (table : OpcodeTable) : Prop where
  groups : table.groups = groupsFrom 0 definitions
  baseForms : table.baseForms =
    basis.baseForms.map fun base => (base.1, ofTemplate (plain base.2))
  baseBits : ∀ base ∈ table.baseForms, base.2.bits = 32
  distinct : (table.groups.map Prod.fst).Nodup
  checked : ∀ form ∈ table.decodeOrder, Checked basis table.baseForms form

/-- The described groups have the mnemonics of the definition. -/
theorem map_fst_groupsFrom (index : Nat) (definitions : List (String × List FormLine)) :
    (groupsFrom index definitions).map Prod.fst = definitions.map Prod.fst := by
  induction definitions generalizing index with
  | nil => rfl
  | cons definition rest ih => rw [groupsFrom, List.map_cons, List.map_cons, ih]

/-- The forms that are compared with a word are the implemented entries of the groups. -/
theorem mem_decodeOrder {table : OpcodeTable} {form : InstructionForm} :
    form ∈ table.decodeOrder ↔ ∃ group ∈ table.groups, .implemented form ∈ group.2 := by
  simp only [decodeOrder, List.mem_filterMap, List.mem_flatMap]
  constructor
  · rintro ⟨entry, ⟨group, member, inside⟩, implemented⟩
    cases entry with
    | declared head => contradiction
    | implemented other =>
      obtain rfl := Option.some.inj implemented
      exact ⟨group, member, inside⟩
  · rintro ⟨group, member, inside⟩
    exact ⟨_, ⟨group, member, inside⟩, rfl⟩

/-- A table that is built is the described one. -/
theorem builtFrom_of_build {basis : TableBasis} {definitions : List (String × List FormLine)}
    {table : OpcodeTable} (built : build basis definitions = .ok table) :
    BuiltFrom basis definitions table := by
  rw [build] at built
  obtain ⟨baseForms, compiled, built⟩ := bind_eq_ok.mp built
  obtain ⟨groups, grouped, built⟩ := bind_eq_ok.mp built
  obtain rfl := Except.ok.inj built
  obtain ⟨sameBases, baseBits⟩ := compileBaseForms_eq_ok compiled
  obtain ⟨sameGroups, distinct, _, checked⟩ := buildGroups_eq_ok grouped
  refine ⟨sameGroups, sameBases, baseBits, ?_, fun form member => ?_⟩
  · rw [sameGroups, map_fst_groupsFrom]
    exact distinct
  · obtain ⟨group, member, inside⟩ := mem_decodeOrder.mp member
    exact checked group member form inside

/-- In a list with distinct keys the lookup of a key finds its entry. -/
theorem lookup_eq_some_of_mem {β : Type} {entries : List (String × β)} {key : String} {value : β}
    (distinct : (entries.map Prod.fst).Nodup) (member : (key, value) ∈ entries) :
    entries.lookup key = some value := by
  induction entries with
  | nil => contradiction
  | cons entry rest ih =>
    obtain ⟨fresh, distinct⟩ := List.nodup_cons.mp distinct
    rw [List.lookup_cons]
    rcases List.mem_cons.mp member with rfl | later
    · simp
    · have apart : key ≠ entry.1 := fun same =>
        fresh (same ▸ List.mem_map_of_mem (f := Prod.fst) later)
      simp [beq_false_of_ne apart, ih distinct later]

/-- Looking a key up finds an entry of the list. -/
theorem mem_of_lookup {α β : Type} [BEq α] [LawfulBEq α] {entries : List (α × β)} {key : α}
    {value : β} (found : entries.lookup key = some value) : (key, value) ∈ entries := by
  induction entries with
  | nil => contradiction
  | cons entry rest ih =>
    rw [List.lookup_cons] at found
    split at found
    · rename_i same
      obtain rfl := Option.some.inj found
      rw [eq_of_beq same]
      exact List.mem_cons_self
    · exact List.mem_cons_of_mem _ (ih found)

/-- The mnemonic of a described entry is that of its group. -/
theorem mnemonic_of_mem_entriesFrom {mnemonic : String} {index : Nat} {lines : List FormLine}
    {entry : OpcodeEntry} (member : entry ∈ entriesFrom mnemonic index lines) :
    entry.head.mnemonic = mnemonic := by
  induction lines generalizing index with
  | nil => contradiction
  | cons line rest ih =>
    rcases List.mem_cons.mp member with rfl | later
    · unfold entryOf
      split <;> rfl
    · exact ih later

/-- The entries of a group carry its mnemonic. -/
theorem mnemonic_of_mem_groupsFrom {index : Nat} {definitions : List (String × List FormLine)}
    {group : String × List OpcodeEntry} (member : group ∈ groupsFrom index definitions)
    {entry : OpcodeEntry} (inside : entry ∈ group.2) : entry.head.mnemonic = group.1 := by
  induction definitions generalizing index with
  | nil => contradiction
  | cons definition rest ih =>
    rcases List.mem_cons.mp member with rfl | later
    · exact mnemonic_of_mem_entriesFrom inside
    · exact ih later

/-- An entry of a mnemonic is in its group. -/
theorem exists_group_of_mem_entries {table : OpcodeTable} {mnemonic : String} {entry : OpcodeEntry}
    (inside : entry ∈ table.entries mnemonic) :
    ∃ group, (mnemonic, group) ∈ table.groups ∧ entry ∈ group := by
  rw [entries] at inside
  cases found : table.groups.lookup mnemonic with
  | none => rw [found] at inside; contradiction
  | some group =>
    rw [found] at inside
    exact ⟨group, mem_of_lookup found, inside⟩

/-- In a built table the forms of a mnemonic carry it, and a word is compared with them. -/
theorem BuiltFrom.of_mem_entries {basis : TableBasis}
    {definitions : List (String × List FormLine)} {table : OpcodeTable}
    (built : BuiltFrom basis definitions table) {mnemonic : String} {form : InstructionForm}
    (inside : .implemented form ∈ table.entries mnemonic) :
    form ∈ table.decodeOrder ∧ form.mnemonic = mnemonic := by
  obtain ⟨group, grouped, inside⟩ := exists_group_of_mem_entries inside
  have named := mnemonic_of_mem_groupsFrom (built.groups ▸ grouped) inside
  exact ⟨mem_decodeOrder.mpr ⟨_, grouped, inside⟩, named⟩

/-- In a built table the forms that are compared with a word are those that an encoding with
their mnemonic tries. -/
theorem BuiltFrom.mem_decodeOrder_iff {basis : TableBasis}
    {definitions : List (String × List FormLine)} {table : OpcodeTable}
    (built : BuiltFrom basis definitions table) {form : InstructionForm} :
    form ∈ table.decodeOrder ↔ .implemented form ∈ table.entries form.mnemonic := by
  refine ⟨fun member => ?_, fun inside => (built.of_mem_entries inside).1⟩
  obtain ⟨⟨mnemonic, group⟩, grouped, inside⟩ := mem_decodeOrder.mp member
  have named : form.mnemonic = mnemonic :=
    mnemonic_of_mem_groupsFrom (built.groups ▸ grouped) inside
  rw [entries, named, lookup_eq_some_of_mem built.distinct grouped]
  exact inside

/-! ### The form of a word -/

/-- A form does not take a word: its literal bits disagree, or it refuses the field values. -/
def Refuses {ε : Type} (admits : InstructionForm → List (Char × Nat) → Except ε Bool)
    (word : Nat) (form : InstructionForm) : Prop :=
  form.pattern.accepts word = true → admits form (form.pattern.decode word) = .ok false

/-- A form takes a word that no form before it takes. -/
def IsFirst {ε : Type} (admits : InstructionForm → List (Char × Nat) → Except ε Bool)
    (word : Nat) (forms : List InstructionForm) (form : InstructionForm) : Prop :=
  ∃ earlier later, forms = earlier ++ form :: later ∧
    (∀ other ∈ earlier, Refuses admits word other) ∧ form.pattern.accepts word = true ∧
    admits form (form.pattern.decode word) = .ok true

section FirstForm

variable {ε : Type} {admits : InstructionForm → List (Char × Nat) → Except ε Bool} {word : Nat}
  {form : InstructionForm} {earlier rest : List InstructionForm}

/-- A form that does not take the word leaves the search to the later ones. -/
theorem firstForm_cons_of_refuses (refused : Refuses admits word form) :
    firstForm admits word (form :: rest) = firstForm admits word rest := by
  rw [firstForm]
  split
  · rename_i accepted
    simp [refused accepted, bind, Except.bind]
  · rfl

/-- Forms that do not take the word leave the search to the later ones. -/
theorem firstForm_append_of_refuses (refused : ∀ other ∈ earlier, Refuses admits word other) :
    firstForm admits word (earlier ++ rest) = firstForm admits word rest := by
  induction earlier with
  | nil => rfl
  | cons first earlier ih =>
    obtain ⟨here, later⟩ := List.forall_mem_cons.mp refused
    rw [List.cons_append, firstForm_cons_of_refuses here, ih later]

/-- The search for the form of a word finds the first form that takes it. -/
theorem firstForm_eq_some {forms : List InstructionForm} {fields : List (Char × Nat)} :
    firstForm admits word forms = .ok (some (form, fields)) ↔
      IsFirst admits word forms form ∧ fields = form.pattern.decode word := by
  constructor
  · intro found
    induction forms with
    | nil => exact absurd (Except.ok.inj found) (by simp)
    | cons first rest ih =>
      have further (found : firstForm admits word rest = .ok (some (form, fields)))
          (refused : Refuses admits word first) :
          IsFirst admits word (first :: rest) form ∧ fields = form.pattern.decode word := by
        obtain ⟨⟨earlier, later, rfl, before, here⟩, same⟩ := ih found
        exact ⟨⟨first :: earlier, later, rfl, List.forall_mem_cons.mpr ⟨refused, before⟩, here⟩, same⟩
      rw [firstForm] at found
      split at found
      · rename_i accepted
        obtain ⟨admitted, decided, found⟩ := bind_eq_ok.mp found
        cases admitted with
        | true =>
          obtain ⟨rfl, rfl⟩ := Prod.mk.inj (Option.some.inj (Except.ok.inj found))
          exact ⟨⟨[], rest, rfl, by simp, accepted, decided⟩, rfl⟩
        | false => exact further found fun _ => decided
      · rename_i apart
        exact further found fun accepted => absurd accepted apart
  · rintro ⟨⟨earlier, later, rfl, refused, accepted, admitted⟩, rfl⟩
    rw [firstForm_append_of_refuses refused]
    simp [firstForm, accepted, admitted, bind, Except.bind, pure, Except.pure]

/-- No form takes a word when each of them refuses it. -/
theorem firstForm_eq_none {forms : List InstructionForm}
    (refused : ∀ other ∈ forms, Refuses admits word other) :
    firstForm admits word forms = .ok none := by
  rw [← List.append_nil forms, firstForm_append_of_refuses refused, firstForm]

/-- When admission is decided and some form takes a word, there is a first one. -/
theorem exists_isFirst {forms : List InstructionForm}
    (decided : ∀ other ∈ forms, ∃ admitted, admits other (other.pattern.decode word) = .ok admitted)
    (member : form ∈ forms) (accepted : form.pattern.accepts word = true)
    (admitted : admits form (form.pattern.decode word) = .ok true) :
    ∃ first, IsFirst admits word forms first := by
  induction forms with
  | nil => contradiction
  | cons first rest ih =>
    obtain ⟨⟨taken, decision⟩, further⟩ := List.forall_mem_cons.mp decided
    have laterFirst (refused : Refuses admits word first) :
        ∃ other, IsFirst admits word (first :: rest) other := by
      have later : form ∈ rest := by
        rcases List.mem_cons.mp member with rfl | later
        · exact absurd ((refused accepted).symm.trans admitted) (by simp)
        · exact later
      obtain ⟨other, earlier, behind, rfl, before, taken⟩ := ih further later
      exact ⟨other, first :: earlier, behind, rfl, List.forall_mem_cons.mpr ⟨refused, before⟩, taken⟩
    cases taken with
    | false => exact laterFirst fun _ => decision
    | true =>
      cases accepts : first.pattern.accepts word with
      | true => exact ⟨first, [], rest, rfl, by simp, accepts, decision⟩
      | false => exact laterFirst fun accepted => absurd (accepts.symm.trans accepted) (by simp)

end FirstForm

end OpcodeTable

end A64Machine
