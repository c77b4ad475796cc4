import A64Machine.Proofs.Effects
import A64Machine.Proofs.Executable

/-!
# The effects of instructions

Which registers an instruction depends on and with how many bits, which ones it writes and with how
many bits, whether it sets the flags and whether it writes to memory: all of this can be told from
the operation and the fields of the instruction, without a state. Every instruction keeps to the
effects that are told here, whether it was decoded from a word or not.
-/

namespace A64Machine

/-- How many of the lowest bits of its source a bitfield move depends on. A move that does not turn
a full register takes the bits up to the top of the field. -/
def fieldBits (size n r s : Nat) : Nat :=
  if size = 64 ∧ n = 1 ∧ r = 0 ∧ s < 64 then s + 1 else size

namespace Transfer

/-- The register that a transfer of some bytes stores, if it stores one. -/
def storedRegister (code width : Nat) (letter : Char) : List (Char × Nat) :=
  if code = 0 then [(letter, min (8 * width) 64)] else []

/-- The register that a transfer of some bytes loads, if it loads one. -/
def loadedRegister (code width : Nat) (letter : Char) : List (Char × Nat) :=
  if code = 0 then []
  else [(letter, if code = 2 then 64 else if code = 3 then 32 else 8 * width)]

/-- The base of an address that is written back in the modes of pre-indexing and post-indexing. -/
def writtenBase (mode : Nat) : List (Char × Nat) := if mode = 1 ∨ mode = 3 then [('n', 64)] else []

end Transfer

namespace Operation

open Transfer

/-- The registers that an operation depends on, by the letters of their fields, and how many of
their lowest bits, for a data size and for the values of the fields. -/
def sources (op : Operation) (size : Nat) (value : Char → Nat) : List (Char × Nat) :=
  let pairCode := if value 'L' ≠ 0 then 1 else 0
  let pairWidth := if (value 'c').testBit 1 then 8 else 4
  match op with
  | .addSubExtended => [('n', size), ('m', Modifier.extendWidth (value 'o'))]
  | .addSubShifted | .addSubCarry | .logicShifted | .extract | .twoSource =>
    [('n', size), ('m', size)]
  | .addSubImmediate | .logicImmediate | .oneSource => [('n', size)]
  | .moveWide => if value 'c' = 3 then [('d', size)] else []
  | .bitfield =>
    ('n', fieldBits size (value 'N') (value 'r') (value 's')) ::
      if value 'c' = 1 then [('d', size)] else []
  | .threeSource =>
    if value 'c' = 0 then [('n', size), ('m', size), ('a', size)]
    else if value 'c' = 2 ∨ value 'c' = 6 then [('n', 64), ('m', 64)]
    else [('n', 32), ('m', 32), ('a', 64)]
  | .compareBranch => [('t', size)]
  | .testBranch => [('t', value 'b' + 1)]
  | .branchRegister => [('n', 64)]
  | .transferScaled | .transferNear => ('n', 64) :: storedRegister (value 'c') (2 ^ value 'x') 't'
  | .transferIndexed =>
    ('n', 64) :: ('m', Modifier.extendWidth (value 'o')) ::
      storedRegister (value 'c') (2 ^ value 'x') 't'
  | .transferPair =>
    ('n', 64) ::
      (storedRegister pairCode pairWidth 't' ++ storedRegister pairCode pairWidth 'u')
  | .pcRelative | .branchImmediate | .branchConditional | .hint | .exception | .transferLiteral
  | .other _ => []

/-- The registers that an operation writes if it completes, by the letters of their fields, and how
many bits it leaves in them, for a data size and for the values of the fields. -/
def targets (op : Operation) (size : Nat) (value : Char → Nat) : List (Char × Nat) :=
  let pairCode := if value 'L' ≠ 0 then 1 else 0
  let pairWidth := if (value 'c').testBit 1 then 8 else 4
  match op with
  | .addSubExtended | .addSubShifted | .addSubImmediate | .addSubCarry | .logicShifted
  | .logicImmediate | .moveWide | .bitfield | .extract | .oneSource | .twoSource => [('d', size)]
  | .threeSource => [('d', if value 'c' = 0 then size else 64)]
  | .pcRelative => [('d', 64)]
  | .transferScaled | .transferIndexed => loadedRegister (value 'c') (2 ^ value 'x') 't'
  | .transferNear => loadedRegister (value 'c') (2 ^ value 'x') 't' ++ writtenBase (value 'w')
  | .transferLiteral =>
    loadedRegister (if value 'c' = 2 then 2 else 1)
      (if value 'c' = 0 ∨ value 'c' = 2 then 4 else 8) 't'
  | .transferPair =>
    loadedRegister pairCode pairWidth 't' ++ loadedRegister pairCode pairWidth 'u' ++
      writtenBase (value 'w')
  | .branchImmediate | .branchConditional | .compareBranch | .testBranch | .branchRegister | .hint
  | .exception | .other _ => []

/-- Whether an operation writes the link register, for the values of the fields. -/
def links (op : Operation) (value : Char → Nat) : Bool :=
  match op with
  | .branchImmediate => value 'p' != 0
  | .branchRegister => value 'c' == 1
  | _ => false

/-- Whether an operation sets the flags, for the values of the fields. -/
def setsFlags (op : Operation) (value : Char → Nat) : Bool :=
  match op with
  | .addSubExtended | .addSubShifted | .addSubImmediate | .addSubCarry => value 'f' != 0
  | .logicShifted | .logicImmediate => value 'c' == 3
  | _ => false

/-- Whether an operation writes to memory, for the values of the fields. -/
def stores (op : Operation) (value : Char → Nat) : Bool :=
  match op with
  | .transferScaled | .transferNear | .transferIndexed => value 'c' == 0
  | .transferPair => value 'L' == 0
  | _ => false

end Operation

namespace Instruction

/-- The registers that an instruction depends on, by the letters of their fields, and how many of
their lowest bits. -/
def sources (instruction : Instruction) : List (Char × Nat) :=
  instruction.form.op.sources (Execution.dataSize instruction) instruction.value

/-- The registers that an instruction writes if it completes, by the letters of their fields, and
how many bits it leaves in them. -/
def targets (instruction : Instruction) : List (Char × Nat) :=
  instruction.form.op.targets (Execution.dataSize instruction) instruction.value

/-- Whether an instruction writes the link register. -/
def links (instruction : Instruction) : Bool := instruction.form.op.links instruction.value

/-- Whether an instruction sets the flags. -/
def setsFlags (instruction : Instruction) : Bool := instruction.form.op.setsFlags instruction.value

/-- Whether an instruction writes to memory. -/
def stores (instruction : Instruction) : Bool := instruction.form.op.stores instruction.value

/-- Whether a transfer of two registers loads them, as the code of each transfer. -/
def pairCode (instruction : Instruction) : Nat := if instruction.value 'L' ≠ 0 then 1 else 0

/-- The effects of an instruction. -/
def effects (instruction : Instruction) : Execution.Effects where
  reads slot bits :=
    ∃ letter, (letter, bits) ∈ instruction.sources ∧ slot = instruction.value letter
  writes slot bits :=
    (∃ letter, (letter, bits) ∈ instruction.targets ∧ slot = instruction.value letter) ∨
      (instruction.links = true ∧ slot = Register.linkSlot ∧ bits = 64)
  setsFlags := instruction.setsFlags = true
  stores := instruction.stores = true

/-- The registers that an instruction writes if it completes. -/
def written (instruction : Instruction) : List Nat :=
  (instruction.targets.map fun target => instruction.value target.1) ++
    if instruction.links then [Register.linkSlot] else []

end Instruction

namespace Execution

variable {α : Type} {instruction : Instruction} {effects : Effects} {written : List Nat}

/-! ### Fields and their registers -/

namespace Does

/-- A field that is known has its value. -/
theorem given {letter : Char} {next : Nat → Execution α}
    (rest : Does effects written (next (instruction.value letter))) :
    Does effects written (Execution.field instruction letter >>= next) := by
  refine .field fun value known => ?_
  rw [Instruction.value, known] at rest
  exact rest

/-- An execution that writes nothing comes first. -/
theorem andThen {β : Type} {first : Execution β} {next : β → Execution α}
    (one : Does effects [] first) (other : ∀ value, Does effects written (next value)) :
    Does effects written (first >>= next) :=
  one.bind other

/-- The register of a field is read. -/
theorem readField {letter : Char} {size : Nat} {next : Nat → Execution α}
    (allowed : effects.reads (instruction.value letter) size)
    (rest : ∀ value, Does effects written (next value)) :
    Does effects written (Execution.readField instruction letter size >>= next) := by
  rw [Execution.readField, bind_assoc]
  exact .given (.andThen (.read allowed) rest)

/-- The register of a field is read, and only some of its bits count. -/
theorem readLow {letter : Char} {size bits : Nat} {next : Nat → Execution α}
    (allowed : effects.reads (instruction.value letter) bits)
    (blind : ∀ one other, one % 2 ^ bits = other % 2 ^ bits →
      next (one % 2 ^ size) = next (other % 2 ^ size))
    (rest : ∀ value, Does effects written (next value)) :
    Does effects written (Execution.readField instruction letter size >>= next) := by
  rw [Execution.readField, bind_assoc]
  exact .given (.readRegister allowed blind fun value => rest _)

/-- The register of a field is written. -/
theorem writeField {letter : Char} {value : Int} {size : Nat}
    (allowed : effects.writes (instruction.value letter) size) :
    Does effects [instruction.value letter] (Execution.writeField instruction letter value size) :=
  .given (.write allowed (Bits.wrap_lt size value))

/-- The masks of a packed immediate are known, or the execution faults. -/
theorem masks {size : Nat} {strict : Bool} {next : Nat × Nat → Execution α}
    (rest : ∀ unpacked, LogicalImmediate.decode (instruction.value 'N') (instruction.value 's')
      (instruction.value 'r') size strict = some unpacked → Does effects written (next unpacked)) :
    Does effects written (DataProcessing.masks instruction size strict >>= next) := by
  simp only [DataProcessing.masks, bind_assoc]
  refine .given (.given (.given ?_))
  cases decoded : LogicalImmediate.decode (instruction.value 'N') (instruction.value 's')
      (instruction.value 'r') size strict with
  | some unpacked => exact rest unpacked decoded
  | none => exact .throw _ _

end Does

/-- Executions that go on alike with the value of a field are the same. -/
theorem field_congr {letter : Char} {next next' : Nat → Execution α}
    (same : next (instruction.value letter) = next' (instruction.value letter)) :
    (field instruction letter >>= next) = (field instruction letter >>= next') := by
  funext state
  rw [bind_eq, bind_eq]
  unfold field Fields.read
  unfold Instruction.value at same
  cases known : instruction.fields.lookup letter with
  | none => rfl
  | some value =>
    rw [known] at same
    exact congrFun same state

/-! ### Data processing -/

section DataProcessing

open DataProcessing

/-- An addition writes its result, and sets the flags if the instruction does. -/
theorem does_addSub {x y carry size : Nat} (d : effects.writes (instruction.value 'd') size)
    (sets : instruction.value 'f' ≠ 0 → effects.setsFlags) :
    Does effects [instruction.value 'd'] (addSub instruction x y carry size) := by
  refine .given (.bind (.writeField d) fun _ => .given ?_)
  split
  · rename_i set
    rw [← bind_pure (setFlags _)]
    exact .setFlags (sets set) (.pure ())
  · exact .pure ()

/-- An extension depends only on the bits that it keeps. -/
theorem extendValue_congr {one other code : Nat}
    (same : one % 2 ^ Modifier.extendWidth code = other % 2 ^ Modifier.extendWidth code)
    (shift size : Nat) :
    extendValue (one % 2 ^ 64) code shift size = extendValue (other % 2 ^ 64) code shift size := by
  have small : Modifier.extendWidth code ≤ 64 := by
    have codes : ∀ code < 4, 8 <<< code ≤ 64 := by decide
    exact codes _ (Nat.mod_lt _ (by decide))
  have low (value : Nat) :
      value % 2 ^ 64 % 2 ^ Modifier.extendWidth code = value % 2 ^ Modifier.extendWidth code :=
    Nat.mod_mod_of_dvd _ (Nat.pow_dvd_pow 2 small)
  have signed (value : Nat) : Bits.signExtend value (Modifier.extendWidth code) =
      Bits.signExtend (value % 2 ^ Modifier.extendWidth code : Nat)
        (Modifier.extendWidth code) := by
    rw [Bits.signExtend, Bits.signExtend, Int.natCast_emod, Int.emod_bmod]
  unfold extendValue
  simp only [low, same, signed (one % 2 ^ 64), signed (other % 2 ^ 64)]

theorem does_addSubExtended
    (n : effects.reads (instruction.value 'n') (dataSize instruction))
    (m : effects.reads (instruction.value 'm') (Modifier.extendWidth (instruction.value 'o')))
    (d : effects.writes (instruction.value 'd') (dataSize instruction))
    (sets : instruction.value 'f' ≠ 0 → effects.setsFlags) :
    Does effects [instruction.value 'd'] (addSubExtended instruction) := by
  refine .readField n fun x => .readLow m (fun one other same => ?_) fun source => ?_
  · exact field_congr (field_congr (by rw [extendValue_congr same]))
  · exact .given (.given (.given (does_addSub d sets)))

theorem does_addSubShifted
    (n : effects.reads (instruction.value 'n') (dataSize instruction))
    (m : effects.reads (instruction.value 'm') (dataSize instruction))
    (d : effects.writes (instruction.value 'd') (dataSize instruction))
    (sets : instruction.value 'f' ≠ 0 → effects.setsFlags) :
    Does effects [instruction.value 'd'] (addSubShifted instruction) :=
  .readField n fun _ => .readField m fun _ => .given (.given (.given (does_addSub d sets)))

theorem does_addSubImmediate
    (n : effects.reads (instruction.value 'n') (dataSize instruction))
    (d : effects.writes (instruction.value 'd') (dataSize instruction))
    (sets : instruction.value 'f' ≠ 0 → effects.setsFlags) :
    Does effects [instruction.value 'd'] (addSubImmediate instruction) :=
  .readField n fun _ => .given (.given (.given (does_addSub d sets)))

theorem does_addSubCarry
    (n : effects.reads (instruction.value 'n') (dataSize instruction))
    (m : effects.reads (instruction.value 'm') (dataSize instruction))
    (d : effects.writes (instruction.value 'd') (dataSize instruction))
    (sets : instruction.value 'f' ≠ 0 → effects.setsFlags) :
    Does effects [instruction.value 'd'] (addSubCarry instruction) :=
  .readField n fun _ => .readField m fun _ => .flags fun _ => does_addSub d sets

/-- A logical operation writes its result, and one of code 3 sets the flags. -/
theorem does_logic {x y size : Nat} (d : effects.writes (instruction.value 'd') size)
    (sets : instruction.value 'c' = 3 → effects.setsFlags) :
    Does effects [instruction.value 'd'] (logic instruction x y size) := by
  refine .given (.bind (.writeField d) fun _ => ?_)
  split
  · rename_i set
    rw [← bind_pure (setFlags _)]
    exact .setFlags (sets set) (.pure ())
  · exact .pure ()

theorem does_logicShifted
    (n : effects.reads (instruction.value 'n') (dataSize instruction))
    (m : effects.reads (instruction.value 'm') (dataSize instruction))
    (d : effects.writes (instruction.value 'd') (dataSize instruction))
    (sets : instruction.value 'c' = 3 → effects.setsFlags) :
    Does effects [instruction.value 'd'] (logicShifted instruction) :=
  .readField m fun _ => .given (.given (.given (.readField n fun _ => does_logic d sets)))

theorem does_logicImmediate
    (n : effects.reads (instruction.value 'n') (dataSize instruction))
    (d : effects.writes (instruction.value 'd') (dataSize instruction))
    (sets : instruction.value 'c' = 3 → effects.setsFlags) :
    Does effects [instruction.value 'd'] (logicImmediate instruction) :=
  .masks fun _ _ => .readField n fun _ => does_logic d sets

theorem does_moveWide
    (current : instruction.value 'c' = 3 →
      effects.reads (instruction.value 'd') (dataSize instruction))
    (d : effects.writes (instruction.value 'd') (dataSize instruction)) :
    Does effects [instruction.value 'd'] (moveWide instruction) := by
  refine .given (.given (.given ?_))
  split
  · rename_i keeps
    exact .readField (current keeps) fun _ => .writeField d
  · split <;> exact .writeField d

/-- Where a full register is not turned, the mask of the word has the bits up to the top. -/
theorem testBit_wordMask {s bit : Nat} (small : s < 64) {unpacked : Nat × Nat}
    (decoded : LogicalImmediate.decode 1 s 0 64 false = some unpacked) :
    unpacked.1.testBit bit = decide (bit < 64 ∧ bit < s + 1) := by
  have length : ∀ s < 64, (1 <<< 6 ||| (63 - s % 64)).log2 = 6 := by decide
  rw [LogicalImmediate.decode, length s small, if_neg (by decide), if_neg (by simp),
    if_neg (by decide)] at decoded
  obtain rfl := Option.some.inj decoded
  simp only [LogicalImmediate.masks]
  rw [show (64 : Nat) = 2 ^ 6 * 1 from rfl,
    Bits.testBit_replicate (Bits.rotateRight_lt _ _ _) (by decide)]
  by_cases below : bit < 64
  · have inside : bit % 2 ^ 6 < 2 ^ 6 := Nat.mod_lt _ (by decide)
    rw [Bits.testBit_rotateRight _ _ inside, Bits.testBit_mask]
    simp only [Nat.reducePow, Nat.mul_one, Nat.zero_mod, Nat.add_zero,
      Nat.mod_eq_of_lt below, Nat.mod_eq_of_lt small, below, decide_true, Bool.true_and, true_and]
  · simp [below]

/-- What a bitfield move takes from its source depends on no more bits than it says. -/
theorem fieldBits_spec {size n r s : Nat} {unpacked : Nat × Nat}
    (decoded : LogicalImmediate.decode n s r size false = some unpacked) {one other : Nat}
    (same : one % 2 ^ fieldBits size n r s =
      other % 2 ^ fieldBits size n r s) :
    Bits.rotateRight (one % 2 ^ size) r size &&& unpacked.1 =
        Bits.rotateRight (other % 2 ^ size) r size &&& unpacked.1 ∧
      (one % 2 ^ size).testBit s = (other % 2 ^ size).testBit s := by
  unfold fieldBits at same
  split at same
  · rename_i unturned
    obtain ⟨rfl, rfl, rfl, small⟩ := unturned
    have agree (bit : Nat) (low : bit < s + 1) : one.testBit bit = other.testBit bit := by
      have := congrArg (·.testBit bit) same
      simpa [Nat.testBit_mod_two_pow, low] using this
    refine ⟨?_, ?_⟩
    case refine_2 =>
      rw [Nat.testBit_mod_two_pow, Nat.testBit_mod_two_pow, agree s (Nat.lt_succ_self s)]
    apply Nat.eq_of_testBit_eq
    intro bit
    rw [Nat.testBit_and, Nat.testBit_and, testBit_wordMask small decoded]
    by_cases inside : bit < 64 ∧ bit < s + 1
    · rw [Bits.testBit_rotateRight _ _ inside.1, Bits.testBit_rotateRight _ _ inside.1,
        Nat.add_zero, Nat.mod_eq_of_lt inside.1, Nat.testBit_mod_two_pow, Nat.testBit_mod_two_pow,
        agree bit inside.2]
    · rw [decide_eq_false inside, Bool.and_false, Bool.and_false]
  · rw [same]
    exact ⟨rfl, rfl⟩

theorem does_bitfield
    (n : effects.reads (instruction.value 'n')
      (fieldBits (dataSize instruction) (instruction.value 'N') (instruction.value 'r')
        (instruction.value 's')))
    (current : instruction.value 'c' = 1 →
      effects.reads (instruction.value 'd') (dataSize instruction))
    (d : effects.writes (instruction.value 'd') (dataSize instruction)) :
    Does effects [instruction.value 'd'] (bitfield instruction) := by
  refine .given (.given (.masks fun unpacked decoded => ?_))
  refine .readLow n (fun one other same => ?_) fun source => .given ?_
  · obtain ⟨sameBottom, sameTop⟩ := fieldBits_spec decoded same
    simp only [sameBottom, sameTop]
  · split
    · rename_i keeps
      exact .readField (current keeps) fun _ => .andThen (.pure _) fun _ => .writeField d
    · split <;> exact .andThen (.pure _) fun _ => .writeField d

theorem does_extract
    (n : effects.reads (instruction.value 'n') (dataSize instruction))
    (m : effects.reads (instruction.value 'm') (dataSize instruction))
    (d : effects.writes (instruction.value 'd') (dataSize instruction)) :
    Does effects [instruction.value 'd'] (extract instruction) :=
  .readField n fun _ => .readField m fun _ => .given (.writeField d)

theorem does_oneSource
    (n : effects.reads (instruction.value 'n') (dataSize instruction))
    (d : effects.writes (instruction.value 'd') (dataSize instruction)) :
    Does effects [instruction.value 'd'] (oneSource instruction) := by
  refine .readField n fun value => .given ?_
  split <;> first | exact .throw _ _ | exact .andThen (.pure _) fun _ => .writeField d

theorem does_twoSource
    (n : effects.reads (instruction.value 'n') (dataSize instruction))
    (m : effects.reads (instruction.value 'm') (dataSize instruction))
    (d : effects.writes (instruction.value 'd') (dataSize instruction)) :
    Does effects [instruction.value 'd'] (twoSource instruction) := by
  refine .readField n fun x => .readField m fun y => .given ?_
  split <;> first | exact .throw _ _ | exact .andThen (.pure _) fun _ => .writeField d

theorem does_accumulate {product : Int} {size : Nat}
    (a : effects.reads (instruction.value 'a') size)
    (d : effects.writes (instruction.value 'd') size) :
    Does effects [instruction.value 'd'] (accumulate instruction product size) :=
  .readField a fun _ => .given (.writeField d)

theorem does_multiplyHigh {signed : Bool} (n : effects.reads (instruction.value 'n') 64)
    (m : effects.reads (instruction.value 'm') 64) (d : effects.writes (instruction.value 'd') 64) :
    Does effects [instruction.value 'd'] (multiplyHigh instruction signed) :=
  .readField n fun _ => .readField m fun _ => .writeField d

theorem does_threeSource
    (plain : instruction.value 'c' = 0 →
      effects.reads (instruction.value 'n') (dataSize instruction) ∧
        effects.reads (instruction.value 'm') (dataSize instruction) ∧
        effects.reads (instruction.value 'a') (dataSize instruction) ∧
        effects.writes (instruction.value 'd') (dataSize instruction))
    (high : instruction.value 'c' = 2 ∨ instruction.value 'c' = 6 →
      effects.reads (instruction.value 'n') 64 ∧ effects.reads (instruction.value 'm') 64 ∧
        effects.writes (instruction.value 'd') 64)
    (long : instruction.value 'c' ≠ 0 → ¬ (instruction.value 'c' = 2 ∨ instruction.value 'c' = 6) →
      effects.reads (instruction.value 'n') 32 ∧ effects.reads (instruction.value 'm') 32 ∧
        effects.reads (instruction.value 'a') 64 ∧ effects.writes (instruction.value 'd') 64) :
    Does effects [instruction.value 'd'] (threeSource instruction) := by
  refine .given ?_
  split
  · rename_i code
    obtain ⟨n, m, a, d⟩ := plain code
    exact .readField n fun _ => .readField m fun _ => does_accumulate a d
  · rename_i code
    obtain ⟨n, m, d⟩ := high (.inl code)
    exact does_multiplyHigh n m d
  · rename_i code
    obtain ⟨n, m, d⟩ := high (.inr code)
    exact does_multiplyHigh n m d
  · rename_i notPlain notSigned notUnsigned
    obtain ⟨n, m, a, d⟩ := long notPlain fun code => code.elim notSigned notUnsigned
    refine .readField n fun _ => .readField m fun _ => ?_
    split
    · exact does_accumulate a d
    · exact does_accumulate a d
    · exact .throw _ _

theorem does_pcRelative (d : effects.writes (instruction.value 'd') 64) :
    Does effects [instruction.value 'd'] (pcRelative instruction) :=
  .given (.given (.given (.writeField d)))

end DataProcessing

/-! ### Branches -/

section Branches

open Branch

theorem does_relative {width : Nat} : Does effects [] (relative instruction width) :=
  .given (.pure _)

/-- The target of a branch that is taken. -/
theorem does_target {width : Nat} :
    Does effects [] (do return some (← relative instruction width)) :=
  .andThen does_relative fun _ => .pure _

theorem does_link (allowed : effects.writes Register.linkSlot 64) :
    Does effects [Register.linkSlot] (link instruction) :=
  .write allowed (Bits.wrap_lt 64 _)

theorem does_branchImmediate
    (allowed : instruction.value 'p' ≠ 0 → effects.writes Register.linkSlot 64) :
    Does effects (if instruction.value 'p' ≠ 0 then [Register.linkSlot] else [])
      (immediate instruction) := by
  refine .given ?_
  split
  · rename_i links
    exact .bind (does_link (allowed links)) fun _ => does_target
  · exact does_target

theorem does_branchConditional : Does effects [] (conditional instruction) := by
  refine .given (.flags fun flags => ?_)
  split
  · exact does_target
  · exact .pure none

theorem does_compareBranch
    (t : effects.reads (instruction.value 't') (dataSize instruction)) :
    Does effects [] (compare instruction) := by
  refine .readField t fun value => .given ?_
  split
  · exact does_target
  · exact .pure none

theorem does_testBranch
    (t : effects.reads (instruction.value 't') (instruction.value 'b' + 1)) :
    Does effects [] (test instruction) := by
  refine .readLow t (fun one other same => field_congr ?_) fun value => .given (.given ?_)
  · have bit := congrArg (·.testBit (instruction.value 'b')) same
    simp only [Nat.testBit_mod_two_pow, Nat.lt_succ_self, decide_true, Bool.true_and] at bit
    rw [Nat.testBit_mod_two_pow, Nat.testBit_mod_two_pow, bit]
  · split
    · exact does_target
    · exact .pure none

theorem does_branchRegister (n : effects.reads (instruction.value 'n') 64)
    (allowed : instruction.value 'c' = 1 → effects.writes Register.linkSlot 64) :
    Does effects (if instruction.value 'c' = 1 then [Register.linkSlot] else [])
      (register instruction) := by
  refine .readField n fun target => .given ?_
  split
  · rename_i links
    exact .bind (does_link (allowed links)) fun _ => .pure _
  · exact .pure _

end Branches

/-! ### Transfers -/

section Transfers

open Transfer

/-- A loaded value has as many bits as it says. -/
theorem wrap_loaded_lt {code width value : Nat} (small : value < 2 ^ (8 * width)) :
    Bits.wrap 64 (loaded code width value) <
      2 ^ (if code = 2 then 64 else if code = 3 then 32 else 8 * width) := by
  unfold loaded
  split
  · exact Bits.wrap_lt 64 _
  · rw [if_neg (by decide), if_pos rfl, Bits.wrap_natCast]
    exact Nat.lt_of_le_of_lt (Nat.mod_le _ _) (Bits.wrap_lt 32 _)
  · rename_i notSigned notHalf
    rw [if_neg notSigned, if_neg notHalf, Bits.wrap_natCast]
    exact Nat.lt_of_le_of_lt (Nat.mod_le _ _) small

/-- What a transfer reads and writes of its register. -/
theorem does_transfer {code width address : Nat} {letter : Char}
    (reads : ∀ source ∈ storedRegister code width letter,
      effects.reads (instruction.value source.1) source.2)
    (writes : ∀ target ∈ loadedRegister code width letter,
      effects.writes (instruction.value target.1) target.2)
    (stores : code = 0 → effects.stores) :
    Does effects ((loadedRegister code width letter).map fun target =>
      instruction.value target.1) (transfer code width address (instruction.value letter)) := by
  unfold transfer
  unfold storedRegister at reads
  unfold loadedRegister at writes ⊢
  split
  · rename_i isStore
    rw [if_pos isStore] at reads
    refine .andThen (.read (reads _ (List.mem_singleton.mpr rfl))) fun value => ?_
    refine .andThen .checkWidth fun _ => ?_
    rw [← bind_pure (store _ _ _)]
    exact .store (stores isStore) (.pure ())
  · rename_i isLoad
    rw [if_neg isLoad] at writes
    refine .load fun value small => .write (writes _ (List.mem_singleton.mpr rfl)) ?_
    exact wrap_loaded_lt small

theorem does_writeBack {mode base : Nat} {offset : Int}
    (writes : ∀ target ∈ writtenBase mode,
      effects.writes (instruction.value target.1) target.2) :
    Does effects ((writtenBase mode).map fun target => instruction.value target.1)
      (writeBack instruction mode base offset) := by
  unfold writeBack
  unfold writtenBase at writes ⊢
  split
  · rename_i changes
    rw [if_pos changes] at writes
    exact .writeField (writes _ (List.mem_singleton.mpr rfl))
  · exact .pure ()

theorem does_scaled (n : effects.reads (instruction.value 'n') 64)
    (reads : ∀ source ∈ storedRegister (instruction.value 'c') (2 ^ instruction.value 'x') 't',
      effects.reads (instruction.value source.1) source.2)
    (writes : ∀ target ∈ loadedRegister (instruction.value 'c') (2 ^ instruction.value 'x') 't',
      effects.writes (instruction.value target.1) target.2)
    (stores : instruction.value 'c' = 0 → effects.stores) :
    Does effects
      ((loadedRegister (instruction.value 'c') (2 ^ instruction.value 'x') 't').map
        fun target => instruction.value target.1) (scaled instruction) :=
  .given (.readField n fun _ => .given (.given (.given (does_transfer reads writes stores))))

theorem does_near (n : effects.reads (instruction.value 'n') 64)
    (reads : ∀ source ∈ storedRegister (instruction.value 'c') (2 ^ instruction.value 'x') 't',
      effects.reads (instruction.value source.1) source.2)
    (writes : ∀ target ∈ loadedRegister (instruction.value 'c') (2 ^ instruction.value 'x') 't' ++
        writtenBase (instruction.value 'w'),
      effects.writes (instruction.value target.1) target.2)
    (stores : instruction.value 'c' = 0 → effects.stores) :
    Does effects
      ((loadedRegister (instruction.value 'c') (2 ^ instruction.value 'x') 't' ++
          writtenBase (instruction.value 'w')).map
        fun target => instruction.value target.1) (near instruction) := by
  obtain ⟨transfers, base⟩ := List.forall_mem_append.mp writes
  rw [List.map_append]
  refine .given (.readField n fun _ => .given (.given (.given (.given ?_))))
  exact .bind (does_transfer reads transfers stores) fun _ => does_writeBack base

theorem does_indexed (n : effects.reads (instruction.value 'n') 64)
    (m : effects.reads (instruction.value 'm') (Modifier.extendWidth (instruction.value 'o')))
    (reads : ∀ source ∈ storedRegister (instruction.value 'c') (2 ^ instruction.value 'x') 't',
      effects.reads (instruction.value source.1) source.2)
    (writes : ∀ target ∈ loadedRegister (instruction.value 'c') (2 ^ instruction.value 'x') 't',
      effects.writes (instruction.value target.1) target.2)
    (stores : instruction.value 'c' = 0 → effects.stores) :
    Does effects
      ((loadedRegister (instruction.value 'c') (2 ^ instruction.value 'x') 't').map
        fun target => instruction.value target.1) (indexed instruction) := by
  refine .given (.given (.readLow m (fun one other same => field_congr ?_) fun source => ?_))
  · rw [extendValue_congr same]
  · exact .given (.readField n fun _ => .given (.given (does_transfer reads writes stores)))

theorem does_literal
    (writes : ∀ target ∈ loadedRegister (if instruction.value 'c' = 2 then 2 else 1)
        (if instruction.value 'c' = 0 ∨ instruction.value 'c' = 2 then 4 else 8) 't',
      effects.writes (instruction.value target.1) target.2) :
    Does effects
      ((loadedRegister (if instruction.value 'c' = 2 then 2 else 1)
          (if instruction.value 'c' = 0 ∨ instruction.value 'c' = 2 then 4 else 8) 't').map
        fun target => instruction.value target.1) (literal instruction) := by
  refine .given (.given ?_)
  by_cases signed : instruction.value 'c' = 2
  · simp only [signed, if_true, or_true] at writes ⊢
    exact .given (does_transfer (by simp [storedRegister]) writes (by simp))
  · simp only [signed, if_false, or_false] at writes ⊢
    have width : (if instruction.value 'c' ≠ 0 then 8 else 4) =
        if instruction.value 'c' = 0 then 4 else 8 := by
      by_cases zero : instruction.value 'c' = 0 <;> simp [zero]
    rw [width]
    exact .given (does_transfer (by simp [storedRegister]) writes (by simp))

theorem does_pair (n : effects.reads (instruction.value 'n') 64)
    (reads : ∀ source ∈ storedRegister instruction.pairCode (pairWidth instruction) 't' ++
        storedRegister instruction.pairCode (pairWidth instruction) 'u',
      effects.reads (instruction.value source.1) source.2)
    (writes : ∀ target ∈ loadedRegister instruction.pairCode (pairWidth instruction) 't' ++
        loadedRegister instruction.pairCode (pairWidth instruction) 'u' ++
        writtenBase (instruction.value 'w'),
      effects.writes (instruction.value target.1) target.2)
    (stores : instruction.pairCode = 0 → effects.stores) :
    Does effects
      ((loadedRegister instruction.pairCode (pairWidth instruction) 't' ++
          loadedRegister instruction.pairCode (pairWidth instruction) 'u' ++
          writtenBase (instruction.value 'w')).map
        fun target => instruction.value target.1) (pair instruction) := by
  obtain ⟨readsFirst, readsSecond⟩ := List.forall_mem_append.mp reads
  obtain ⟨transfers, base⟩ := List.forall_mem_append.mp writes
  obtain ⟨writesFirst, writesSecond⟩ := List.forall_mem_append.mp transfers
  rw [List.map_append, List.map_append, List.append_assoc]
  refine .given (.readField n fun _ => .given (.given (.given (.given ?_))))
  refine .bind (does_transfer readsFirst writesFirst stores) fun _ => .given ?_
  exact .bind (does_transfer readsSecond writesSecond stores) fun _ => does_writeBack base

end Transfers

/-! ### Instructions -/

/-- An execution that never branches has the effects of its steps. -/
theorem does_sequential {steps : Execution Unit} (does : Does effects written steps) :
    Does effects written (sequential steps) := by
  rw [← List.append_nil written]
  exact does.bind fun _ => .pure none

/-- Every instruction keeps to its effects. -/
theorem does_perform (instruction : Instruction) :
    Does instruction.effects instruction.written (perform instruction) := by
  have reads {letter : Char} {bits : Nat} (source : (letter, bits) ∈ instruction.sources) :
      instruction.effects.reads (instruction.value letter) bits := ⟨letter, source, rfl⟩
  have writes {letter : Char} {bits : Nat} (target : (letter, bits) ∈ instruction.targets) :
      instruction.effects.writes (instruction.value letter) bits := .inl ⟨letter, target, rfl⟩
  have link (links : instruction.links = true) :
      instruction.effects.writes Register.linkSlot 64 := .inr ⟨links, rfl, rfl⟩
  have sets (set : instruction.setsFlags = true) : instruction.effects.setsFlags := set
  have stores (set : instruction.stores = true) : instruction.effects.stores := set
  unfold perform Instruction.written
  unfold Instruction.sources Operation.sources at reads
  unfold Instruction.targets Operation.targets at writes ⊢
  unfold Instruction.links Operation.links at link ⊢
  unfold Instruction.setsFlags Operation.setsFlags at sets
  unfold Instruction.stores Operation.stores at stores
  cases op : instruction.form.op <;> simp only [op] at reads writes link sets stores ⊢
  case addSubExtended =>
    exact does_sequential (does_addSubExtended (reads (by simp)) (reads (by simp))
      (writes (by simp)) fun set => sets (by simpa using set))
  case addSubShifted =>
    exact does_sequential (does_addSubShifted (reads (by simp)) (reads (by simp)) (writes (by simp))
      fun set => sets (by simpa using set))
  case addSubImmediate =>
    exact does_sequential (does_addSubImmediate (reads (by simp)) (writes (by simp))
      fun set => sets (by simpa using set))
  case addSubCarry =>
    exact does_sequential (does_addSubCarry (reads (by simp)) (reads (by simp)) (writes (by simp))
      fun set => sets (by simpa using set))
  case logicShifted =>
    exact does_sequential (does_logicShifted (reads (by simp)) (reads (by simp)) (writes (by simp))
      fun set => sets (by simpa using set))
  case logicImmediate =>
    exact does_sequential (does_logicImmediate (reads (by simp)) (writes (by simp))
      fun set => sets (by simpa using set))
  case moveWide =>
    exact does_sequential (does_moveWide (fun keeps => reads (by simp [keeps])) (writes (by simp)))
  case bitfield =>
    exact does_sequential (does_bitfield (reads (by simp)) (fun keeps => reads (by simp [keeps]))
      (writes (by simp)))
  case extract =>
    exact does_sequential (does_extract (reads (by simp)) (reads (by simp)) (writes (by simp)))
  case oneSource => exact does_sequential (does_oneSource (reads (by simp)) (writes (by simp)))
  case twoSource =>
    exact does_sequential (does_twoSource (reads (by simp)) (reads (by simp)) (writes (by simp)))
  case threeSource =>
    refine does_sequential (does_threeSource (fun code => ?_) (fun code => ?_) fun plain high => ?_)
    · simp only [code, if_true] at reads writes
      exact ⟨reads (by simp), reads (by simp), reads (by simp), writes (by simp)⟩
    · have notPlain : instruction.value 'c' ≠ 0 := by omega
      simp only [code, notPlain, if_true, if_false] at reads writes
      exact ⟨reads (by simp), reads (by simp), writes (by simp)⟩
    · simp only [plain, high, if_false] at reads writes
      exact ⟨reads (by simp), reads (by simp), reads (by simp), writes (by simp)⟩
  case pcRelative => exact does_sequential (does_pcRelative (writes (by simp)))
  case branchImmediate =>
    have does := does_branchImmediate fun links => link (by simpa using links)
    simpa using does
  case branchConditional => exact does_branchConditional
  case compareBranch => exact does_compareBranch (reads (by simp))
  case testBranch => exact does_testBranch (reads (by simp))
  case branchRegister =>
    have does := does_branchRegister (reads (by simp)) fun links => link (by simpa using links)
    simpa using does
  case hint => exact .pure none
  case exception => exact .pure none
  case transferScaled =>
    refine does_sequential ((List.append_nil _).symm ▸ does_scaled (reads (by simp))
      (fun source inside => reads (.tail _ inside)) (fun target inside => writes inside)
      fun set => stores (by simpa using set))
  case transferNear =>
    refine does_sequential ((List.append_nil _).symm ▸ does_near (reads (by simp))
      (fun source inside => reads (.tail _ inside)) (fun target inside => writes inside)
      fun set => stores (by simpa using set))
  case transferIndexed =>
    refine does_sequential ((List.append_nil _).symm ▸ does_indexed (reads (by simp))
      (reads (by simp)) (fun source inside => reads (.tail _ (.tail _ inside)))
      (fun target inside => writes inside) fun set => stores (by simpa using set))
  case transferLiteral =>
    exact does_sequential ((List.append_nil _).symm ▸
      does_literal fun target inside => writes inside)
  case transferPair =>
    refine does_sequential ((List.append_nil _).symm ▸ does_pair (reads (by simp))
      (fun source inside => reads (.tail _ inside)) (fun target inside => writes inside)
      fun set => stores ?_)
    unfold Instruction.pairCode at set
    split at set
    · contradiction
    · rename_i isStore
      simpa using isStore
  case other name => exact .throw _ _

end Execution

namespace CoreState

/-- The state after an instruction is the one that its execution leaves. -/
theorem left_perform (state : CoreState) (instruction : Instruction) :
    Execution.left (Execution.perform instruction state) = (state.execute instruction).2 := by
  unfold execute
  cases Execution.perform instruction state <;> rfl

/-- An instruction that completes is executed to its end. -/
theorem execute_eq_ok {state after : CoreState} {instruction : Instruction} {target : Option Nat} :
    state.execute instruction = (.ok target, after) ↔
      Execution.perform instruction state = .ok target after := by
  unfold execute
  cases Execution.perform instruction state <;> simp

/-- A relation that holds over every primitive step holds between the states before and after an
instruction. -/
theorem holds_execute (R : CoreState → CoreState → Prop) [Execution.HoldsOverSteps R]
    (state : CoreState) (instruction : Instruction) : R state (state.execute instruction).2 := by
  rw [← left_perform]
  exact (Execution.does_perform instruction).holds state

/-- From two states that agree in what an instruction depends on, it ends in the same way. -/
theorem execute_alike {instruction : Instruction} {R : CoreState → CoreState → Prop}
    (both : Execution.HoldsOverBoth instruction.effects.reads R) {one other : CoreState}
    (related : R one other) :
    (one.execute instruction).1 = (other.execute instruction).1 ∧
      R (one.execute instruction).2 (other.execute instruction).2 := by
  have ended := (Execution.does_perform instruction).alike both related
  unfold execute
  generalize Execution.perform instruction one = first at ended
  generalize Execution.perform instruction other = second at ended
  cases ended with
  | completed sameValue sameState => exact ⟨congrArg Except.ok sameValue, sameState⟩
  | faulted sameState => exact ⟨rfl, sameState⟩

end CoreState

end A64Machine
