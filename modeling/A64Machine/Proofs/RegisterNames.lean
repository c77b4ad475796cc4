import A64Machine.NamedRegister
import A64Machine.Proofs.OpcodeTable
import Mathlib

/-!
# The names of registers

A name stands for a register when it is one of the spellings, in either case. Some letters of other
scripts have a lower-case form that is an ASCII letter, but this letter stands in no spelling, so only
the case of ASCII letters counts.
-/

namespace A64Machine

namespace Text

/-- The characters that spell registers. The sign for the unit of temperature is a capital of the one
letter that is left out. -/
def spellingCharacters : List Char := "abcdefghijlmnopqrstuvwxyz0123456789".toList

theorem range_of_spelling : ∀ c ∈ spellingCharacters, 0 < c.toNat ∧ c.toNat < 128 ∧ c.toNat ≠ 107 := by
  decide +kernel

/-- Beyond ASCII one capital letter has its lower-case form in ASCII. -/
theorem range_of_caseRun : ∀ run ∈ caseRuns,
    128 ≤ (run.first : Int) + run.shift ∨
      run.first = 0x212a ∧ run.last = 0x212a ∧ run.shift = 107 - 0x212a := by
  decide +kernel

/-- The case of letters beyond ASCII is left alone when only ASCII counts. -/
theorem toLower_of_le {c : Char} (beyond : 128 ≤ c.toNat) : c.toLower = c := by
  refine Char.toLower_eq_of_not_isUpper fun capital => ?_
  simp only [Char.isUpper, decide_eq_true_eq] at capital
  have below : c.toNat ≤ 90 := UInt32.le_iff_toNat_le.mp capital.2
  omega

/-- No letter beyond ASCII has a character that spells registers as its lower-case form. -/
theorem lowerChar_ne {c letter : Char} (spells : letter ∈ spellingCharacters)
    (beyond : 128 ≤ c.toNat) : lowerChar c ≠ letter := by
  obtain ⟨positive, small, notK⟩ := range_of_spelling letter spells
  rw [lowerChar, if_neg (Nat.not_lt.mpr beyond)]
  split
  · rename_i run found
    have inside := List.find?_some found
    have range := range_of_caseRun run (List.mem_of_find?_eq_some found)
    simp only [decide_eq_true_eq] at inside
    intro same
    have code := Char.toNat_ofNat ((c.toNat : Int) + run.shift).toNat
    rw [same] at code
    split at code <;> omega
  · rintro rfl
    omega

/-- A character that spells registers is the lower-case form of ASCII characters only. -/
theorem lowerChar_eq_iff {c letter : Char} (spells : letter ∈ spellingCharacters) :
    lowerChar c = letter ↔ c.toLower = letter := by
  by_cases ascii : c.toNat < 128
  · rw [lowerChar, if_pos ascii]
  · have beyond := Nat.le_of_not_lt ascii
    have apart : c ≠ letter := by
      rintro rfl
      exact ascii (range_of_spelling c spells).2.1
    rw [toLower_of_le beyond]
    exact iff_of_false (lowerChar_ne spells beyond) apart

/-- A word that spells a register is the lower-case form of a text just when the text differs from it
in the case of ASCII letters only. -/
theorem lowerFrom_eq_iff {word : List Char} (spells : ∀ c ∈ word, c ∈ spellingCharacters)
    (before text : List Char) : lowerFrom before text = word ↔ text.map Char.toLower = word := by
  induction text generalizing before word with
  | nil => rfl
  | cons c rest ih =>
    have foreign {other : Char} {behind : List Char} (beyond : other ∉ spellingCharacters) :
        other :: behind ≠ word := fun same => beyond (spells other (same ▸ List.mem_cons_self))
    rw [lowerFrom, List.map_cons]
    by_cases dotted : c = '\u0130'
    · subst dotted
      refine iff_of_false (fun same => ?_) (foreign (by decide))
      exact absurd (spells '\u0307' (same ▸ by simp)) (by decide)
    by_cases sigma : c = 'Σ'
    · subst sigma
      refine iff_of_false ?_ (foreign (by decide))
      rw [if_neg dotted, if_pos rfl]
      split <;> exact foreign (by decide)
    rw [if_neg dotted, if_neg sigma]
    cases word with
    | nil => simp
    | cons letter word =>
      obtain ⟨here, later⟩ := List.forall_mem_cons.mp spells
      rw [List.singleton_append, List.cons.injEq, List.cons.injEq, lowerChar_eq_iff here, ih later]

/-- A text is read as a word that spells a register just when it is the word in some case. -/
theorem lower_eq_iff {word : String} (spells : ∀ c ∈ word.toList, c ∈ spellingCharacters)
    (text : String) : lower text = word ↔ text.toLower = word := by
  rw [← String.toList_inj, ← String.toList_inj, lower, String.toList_ofList,
    lowerFrom_eq_iff spells, ← String.toList_map]
  rfl

end Text

namespace NamedRegister

/-- The spellings of registers in lower case. A general register has a letter for its width and a
number; the zero register and three general registers have further names. -/
inductive Spelling : String → NamedRegister → Prop
  | pc : Spelling "pc" .pc
  | nzcv : Spelling "nzcv" .nzcv
  | full {slot : Nat} (general : slot < 31) : Spelling ("x" ++ toString slot) (.general ⟨slot, true⟩)
  | half {slot : Nat} (general : slot < 31) : Spelling ("w" ++ toString slot) (.general ⟨slot, false⟩)
  | fullZero : Spelling "xzr" (.general ⟨31, true⟩)
  | halfZero : Spelling "wzr" (.general ⟨31, false⟩)
  | stack : Spelling "sp" (.general ⟨28, true⟩)
  | frame : Spelling "fp" (.general ⟨29, true⟩)
  | link : Spelling "lr" (.general ⟨30, true⟩)

/-- A name in either case stands for a register. -/
def Denotes (name : String) (register : NamedRegister) : Prop := Spelling name.toLower register

/-- All spellings. -/
def spellings : List (String × NamedRegister) :=
  ("pc", .pc) :: ("nzcv", .nzcv) :: Register.names.map fun entry => (entry.1, .general entry.2)

theorem nodup_spellings : (spellings.map Prod.fst).Nodup := by
  decide +kernel

theorem spelled : ∀ entry ∈ spellings, ∀ c ∈ entry.1.toList, c ∈ Text.spellingCharacters := by
  decide +kernel

/-- The name under which a register is shown is a spelling of it. -/
theorem spelling_name {slot : Nat} (named : slot < 32) (wide : Bool) :
    Spelling (Register.name ⟨slot, wide⟩) (.general ⟨slot, wide⟩) := by
  have numbered : ∀ slot < 31, Register.name ⟨slot, true⟩ = "x" ++ toString slot ∧
      Register.name ⟨slot, false⟩ = "w" ++ toString slot := by decide +kernel
  by_cases general : slot < 31
  · obtain ⟨full, half⟩ := numbered slot general
    cases wide with
    | true => exact full ▸ .full general
    | false => exact half ▸ .half general
  · obtain rfl : slot = 31 := by omega
    cases wide with
    | true => exact .fullZero
    | false => exact .halfZero

/-- The spellings are those of the list. -/
theorem spelling_iff {word : String} {register : NamedRegister} :
    Spelling word register ↔ (word, register) ∈ spellings := by
  constructor
  · have numbered : ∀ slot < 31, ("x" ++ toString slot, .general ⟨slot, true⟩) ∈ spellings ∧
        ("w" ++ toString slot, .general ⟨slot, false⟩) ∈ spellings := by decide +kernel
    intro spells
    cases spells with
    | full general => exact (numbered _ general).1
    | half general => exact (numbered _ general).2
    | pc | nzcv | fullZero | halfZero | stack | frame | link => decide
  · intro listed
    simp only [spellings, Register.names, List.mem_cons, List.mem_map, List.mem_append,
      List.mem_flatMap, List.mem_range, List.not_mem_nil, or_false, Prod.mk.injEq] at listed
    obtain ⟨rfl, rfl⟩ | ⟨rfl, rfl⟩ | ⟨_, ⟨slot, named, rfl | rfl⟩ | rfl | rfl | rfl, rfl, rfl⟩ :=
      listed
    · exact .pc
    · exact .nzcv
    · exact spelling_name named true
    · exact spelling_name named false
    · exact .stack
    · exact .frame
    · exact .link

/-- A name is looked up among the spellings. -/
theorem ofName?_eq_lookup (name : String) :
    ofName? name = spellings.lookup (Text.lower name) := by
  simp only [ofName?, spellings, List.lookup_cons, Register.ofName?, BitPattern.lookup_map_value]
  split
  · rename_i pc
    simp [pc]
  · rename_i notPc
    split
    · rename_i nzcv
      simp [nzcv]
    · rename_i notNzcv
      simp [beq_false_of_ne notPc, beq_false_of_ne notNzcv]

/-- A name is read as the register that it stands for. -/
theorem ofName?_eq_some_iff {name : String} {register : NamedRegister} :
    ofName? name = some register ↔ Denotes name register := by
  rw [ofName?_eq_lookup, Denotes, spelling_iff]
  constructor
  · intro found
    have listed := OpcodeTable.mem_of_lookup found
    rwa [(Text.lower_eq_iff (spelled _ listed) name).mp rfl]
  · intro listed
    rw [(Text.lower_eq_iff (spelled _ listed) name).mpr rfl]
    exact OpcodeTable.lookup_eq_some_of_mem nodup_spellings listed

/-- A name stands for one register at most. -/
theorem Denotes.unique {name : String} {register other : NamedRegister}
    (denotes : Denotes name register) (denotes' : Denotes name other) : register = other :=
  Option.some.inj ((ofName?_eq_some_iff.mpr denotes).symm.trans (ofName?_eq_some_iff.mpr denotes'))

end NamedRegister

end A64Machine
