import A64Machine.Proofs.SecondOperand

/-!
# Carry chains

Numbers of many words are added and subtracted word by word from the lowest one: the first instruction
leaves a carry flag, and each further one takes the flag of the one before it. One step computes an
exact sum with a carry, and sums of parts join, so the words of the results are those of the whole and
the flags behind the last instruction are those of the whole.
-/

namespace A64Machine

open Bits

/-! ### Numbers of many words -/

/-- The number that words of some size make, from the lowest one. -/
def joinedWords (size : Nat) : List Nat → Nat
  | [] => 0
  | word :: rest => word + 2 ^ size * joinedWords size rest

variable {size : Nat} {words : List Nat}

/-- Words of some size make a number of as many bits as they have together. -/
theorem joinedWords_lt (small : ∀ word ∈ words, word < 2 ^ size) :
    joinedWords size words < 2 ^ (words.length * size) := by
  induction words with
  | nil => exact Nat.two_pow_pos _
  | cons word rest ih =>
    obtain ⟨least, small⟩ := List.forall_mem_cons.mp small
    rw [List.length_cons, Nat.succ_mul, Nat.add_comm]
    exact (join_lt_iff least _).mpr (ih small)

/-- The complements of the words make the complement of the number. -/
theorem joinedWords_complement (small : ∀ word ∈ words, word < 2 ^ size) :
    joinedWords size (words.map (complement size)) =
      complement (words.length * size) (joinedWords size words) := by
  induction words with
  | nil => simp [joinedWords, complement]
  | cons word rest ih =>
    obtain ⟨least, small⟩ := List.forall_mem_cons.mp small
    have below := Nat.mul_le_mul_left (2 ^ size) (Nat.succ_le_of_lt (joinedWords_lt small))
    rw [Nat.mul_succ] at below
    rw [List.map_cons, joinedWords, joinedWords, ih small, List.length_cons, Nat.succ_mul,
      Nat.add_comm _ size]
    simp only [complement, Nat.pow_add, Nat.mul_sub, Nat.mul_one]
    omega

/-- The addends of the words make the addend of the number. -/
theorem joinedWords_addend (subtracts : Bool) (small : ∀ word ∈ words, word < 2 ^ size) :
    joinedWords size (words.map (addend subtracts size)) =
      addend subtracts (words.length * size) (joinedWords size words) := by
  cases subtracts with
  | false => exact congrArg _ (List.map_id words)
  | true => exact joinedWords_complement small

/-- A sum or a difference of two numbers of some size: the result represents it, and the flags tell
its sign, whether a sum does not fit or a difference is not negative, and whether the signed one does
not fit. -/
structure Computes (subtracts : Bool) (size x y result : Nat) (flags : Flags) : Prop where
  represents : result = wrap size (if subtracts then (x : Int) - y else x + y)
  carry : flags.c = true ↔ if subtracts then y ≤ x else 2 ^ size ≤ x + y
  negative : flags.n = true ↔ result.testBit (size - 1) = true
  overflow : flags.v = true ↔ ¬IsSigned size
    (if subtracts then signExtend x size - signExtend y size
      else signExtend x size + signExtend y size)

theorem Sums.computes {subtracts : Bool} {x y result : Nat} {flags : Flags}
    (sums : Sums size x (addend subtracts size y) subtracts.toNat result flags)
    (positive : 0 < size) (small : y < 2 ^ size) : Computes subtracts size x y result flags := by
  have negative := sums.negative.trans (testBit_top positive sums.small).symm
  cases subtracts with
  | false =>
    exact ⟨sums.result_eq.trans (wrap_natCast size (x + y)).symm, sums.carry_iff, negative,
      sums.overflow_iff⟩
  | true =>
    exact ⟨sums.result_eq_sub small, sums.carry_iff_sub small, negative,
      sums.overflow_iff_sub positive small⟩

/-! ### Chains -/

/-- The registers of one word of a chain: its destination and both operands. -/
structure Limb where
  d : RegisterOperand
  n : RegisterOperand
  m : RegisterOperand

namespace Limb

def operands (limb : Limb) : List Operand :=
  [.register limb.d, .register limb.n, .register limb.m]

/-- The registers are plain and of one width, and the destination is not the zero register. -/
structure Fits (limb : Limb) (wide : Bool) : Prop where
  target : limb.d.Plain
  first : limb.n.Plain
  second : limb.m.Plain
  targetWidth : limb.d.register.wide = wide
  firstWidth : limb.n.register.wide = wide
  secondWidth : limb.m.register.wide = wide
  general : limb.d.register.slot ≠ Register.zeroSlot

/-- The destination of a word is neither an operand nor the destination of a later word. -/
structure Spares (limb later : Limb) : Prop where
  first : later.n.register.slot ≠ limb.d.register.slot
  second : later.m.register.slot ≠ limb.d.register.slot
  target : limb.d.register.slot ≠ later.d.register.slot

end Limb

/-- The operands of a word when it is computed, and the result that it leaves. -/
structure Word where
  x : Nat
  y : Nat
  result : Nat
  deriving DecidableEq, Repr

/-- The values in the registers of a word, before and after it is computed. -/
def Limb.word (limb : Limb) (before after : CoreState) : Word :=
  ⟨before.contents limb.n.register, before.contents limb.m.register,
    after.contents limb.d.register⟩

namespace InstructionSet

open InstructionForm (dataSize)

/-- The instruction of a word: the first one, for the lowest word, takes no carry flag. -/
def chainName (subtracts first : Bool) : String :=
  if subtracts then if first then "subs" else "sbcs" else if first then "adds" else "adcs"

/-- The carry that goes into a word. -/
def carryInto (subtracts first : Bool) (before : CoreState) : Nat :=
  if first then subtracts.toNat else before.status.flags.c.toNat

/-- Words are computed one after the other. Between two of them anything may happen that keeps the
status. -/
inductive ComputesWords (evaluate : Evaluator) (subtracts : Bool) :
    (first : Bool) → List Limb → (before after : CoreState) → List Word → Prop where
  | last {first : Bool} {limb : Limb} {here : Int} {before after : CoreState}
      (step : AssembledStep here evaluate (chainName subtracts first) limb.operands before after) :
      ComputesWords evaluate subtracts first [limb] before after [limb.word before after]
  | more {first : Bool} {limb : Limb} {rest : List Limb} {here : Int}
      {before middle later after : CoreState} {words : List Word}
      (step : AssembledStep here evaluate (chainName subtracts first) limb.operands before middle)
      (kept : later.status = middle.status)
      (computes : ComputesWords evaluate subtracts false rest later after words) :
      ComputesWords evaluate subtracts first (limb :: rest) before after
        (limb.word before middle :: words)

/-- The instructions of a chain, from the lowest word. -/
def chain (subtracts first : Bool) : List Limb → List (String × List Operand)
  | [] => []
  | limb :: rest => (chainName subtracts first, limb.operands) :: chain subtracts false rest

/-! ### One word -/

/-- The instruction set has both forms for registers of one width. -/
theorem hasChainForms : ∀ subtracts : Bool,
    HasForm (chainName subtracts true) .addSubShifted
        [reg 'd', reg 'n', (.arithmeticShifted, own)] (sumCodes subtracts) ∧
      HasForm (chainName subtracts false) .addSubCarry [reg 'd', reg 'n', reg 'm']
        (sumCodes subtracts) := by
  decide +kernel

/-- A word receives the sum of its operands and a carry. -/
def ReceivesWord (wide subtracts : Bool) (limb : Limb) (before after : CoreState) (carry : Nat) :
    Prop :=
  before.ReceivesSum after limb.d.register (before.contents limb.n.register)
    (addend subtracts (dataSize wide) (before.contents limb.m.register)) carry

section Word

variable {evaluate : Evaluator} {here : Int} {subtracts first wide : Bool} {limb : Limb}
  {before middle after : CoreState}

/-- The lowest word is computed without the carry flag. -/
theorem exists_lowest (fits : limb.Fits wide) (before : CoreState) :
    ∃ after, AssembledStep here evaluate (chainName subtracts true) limb.operands before after ∧
      ReceivesWord wide subtracts limb before after subtracts.toNat := by
  have plain := fits.second
  have second := @SecondOperand.shifted evaluate wide .lsl .arithmeticShifted
    (.inr ⟨rfl, by decide⟩) limb.m plain.regular (by rw [plain.plain]; rfl) fits.secondWidth 0
    (by rw [plain.regular.written plain.plain]; rfl) (dataSize_range wide).1
  obtain ⟨fields, sets, distinct, ensures⟩ := second.exists_sum (by decide)
  have plainValue : wrap (dataSize wide) (Shift.lsl.result (before.contents limb.m.register) 0
      (dataSize wide)) = before.contents limb.m.register := by
    rw [Shift.result, Nat.pow_zero, Nat.mul_one]
    exact wrap_of_lt (fits.secondWidth ▸ before.contents_lt limb.m.register)
  obtain rfl := fits.targetWidth
  refine (hasChainForms subtracts).1.exists_step_of_setsAll
    (.cons (sets_first fits.target) (.cons (sets_register fits.first fits.firstWidth) (.cons sets .nil)))
    (by simpa using distinct) fun instruction coded => ?_
  rw [flag_some] at coded
  have isTarget : instruction.value 'd' = _ := coded.codes ('d', limb.d.register.slot) (by simp)
  have isFirst : instruction.value 'n' = _ := coded.codes ('n', limb.n.register.slot) (by simp)
  have done := ensures before subtracts instruction (coded.mono (by simp))
  refine done.imp fun _ after leaves => ⟨leaves.1, ?_⟩
  have sum := leaves.2
  rwa [isTarget, isFirst, Register.eta rfl, Register.eta fits.firstWidth, plainValue] at sum

/-- A further word is computed with the carry flag. -/
theorem exists_further (fits : limb.Fits wide) (before : CoreState) :
    ∃ after, AssembledStep here evaluate (chainName subtracts false) limb.operands before after ∧
      ReceivesWord wide subtracts limb before after before.status.flags.c.toNat := by
  obtain rfl := fits.targetWidth
  refine (hasChainForms subtracts).2.exists_triple fits.target fits.first fits.second fits.firstWidth
    fits.secondWidth (fun d n m after => before.ReceivesSum after d (before.contents n)
      (addend subtracts (dataSize d.wide) (before.contents m)) before.status.flags.c.toNat)
    fun instruction coded => ?_
  exact Execution.ensures_addSubCarry subtracts (coded.offers _ (by decide)) coded.op
    (coded.codes ('p', subtracts.toNat) List.mem_cons_self)
    (coded.codes ('f', 1) (by simp [sumCodes]))
    (coded.dataSize (by simp [sumCodes]) (by decide))

/-- Each word can be computed in each state. -/
theorem exists_word (first : Bool) (fits : limb.Fits wide) (before : CoreState) :
    ∃ after, AssembledStep here evaluate (chainName subtracts first) limb.operands before after ∧
      ReceivesWord wide subtracts limb before after (carryInto subtracts first before) := by
  cases first with
  | true => exact exists_lowest fits before
  | false => exact exists_further fits before

/-- A word that was computed has received its sum. -/
theorem receivesWord_of_step (fits : limb.Fits wide)
    (step : AssembledStep here evaluate (chainName subtracts first) limb.operands before after) :
    ReceivesWord wide subtracts limb before after (carryInto subtracts first before) := by
  obtain ⟨other, step', word⟩ := @exists_word evaluate here subtracts wide limb first fits before
  rwa [step.unique step']

/-- The sum of a word, told of the registers. -/
theorem ReceivesWord.sums {carry : Nat} (word : ReceivesWord wide subtracts limb before after carry)
    (fits : limb.Fits wide) :
    Sums (dataSize wide) (limb.word before after).x
      (addend subtracts (dataSize wide) (limb.word before after).y) carry
      (limb.word before after).result after.status.flags := by
  obtain ⟨result, flags, sums, -, receives⟩ := word
  obtain rfl := fits.targetWidth
  rw [Limb.word, receives.contents fits.general, receives.status, wrap_of_lt sums.small]
  exact sums

end Word

/-! ### Whole chains -/

section Chain

variable {evaluate : Evaluator} {subtracts first wide : Bool} {limbs : List Limb}
  {before after : CoreState} {words : List Word}

/-- There is a word for each limb. -/
theorem ComputesWords.length_eq
    (computes : ComputesWords evaluate subtracts first limbs before after words) :
    words.length = limbs.length ∧ 0 < limbs.length := by
  induction computes with
  | last => exact ⟨rfl, Nat.zero_lt_one⟩
  | more _ _ _ ih => exact ⟨congrArg (· + 1) ih.1, Nat.succ_pos _⟩

/-- The second operands are words. -/
theorem ComputesWords.words_lt
    (computes : ComputesWords evaluate subtracts first limbs before after words)
    (fits : ∀ limb ∈ limbs, limb.Fits wide) :
    ∀ word ∈ words.map Word.y, word < 2 ^ dataSize wide := by
  induction computes with
  | @last _ limb _ before _ _ =>
    rw [List.map_singleton, List.forall_mem_singleton, ← (fits limb List.mem_cons_self).secondWidth]
    exact before.contents_lt limb.m.register
  | @more _ limb _ _ before _ _ _ _ _ _ _ ih =>
    obtain ⟨fitsHere, fitsRest⟩ := List.forall_mem_cons.mp fits
    refine List.forall_mem_cons.mpr ⟨?_, ih fitsRest⟩
    rw [← fitsHere.secondWidth]
    exact before.contents_lt limb.m.register

/-- The sums of the words make the sum of the whole, with the flags that the last one leaves. -/
theorem ComputesWords.sums
    (computes : ComputesWords evaluate subtracts first limbs before after words)
    (fits : ∀ limb ∈ limbs, limb.Fits wide) :
    Sums (limbs.length * dataSize wide) (joinedWords (dataSize wide) (words.map Word.x))
      (joinedWords (dataSize wide) ((words.map Word.y).map (addend subtracts (dataSize wide))))
      (carryInto subtracts first before) (joinedWords (dataSize wide) (words.map Word.result))
      after.status.flags := by
  -- along the words; the carry flag of the lower part goes into the upper part
  induction computes with
  | last step =>
    have fits := fits _ List.mem_cons_self
    have sums := (receivesWord_of_step fits step).sums fits
    simpa [joinedWords] using sums
  | more step kept computes ih =>
    obtain ⟨fitsHere, fitsRest⟩ := List.forall_mem_cons.mp fits
    have lower := (receivesWord_of_step fitsHere step).sums fitsHere
    have upper := ih fitsRest
    rw [carryInto, if_neg Bool.false_ne_true, kept] at upper
    have joined := lower.join (Nat.mul_pos computes.length_eq.2 (dataSize_range wide).1) upper
    rw [List.length_cons, Nat.succ_mul, Nat.add_comm]
    exact joined

/-- A chain that runs without interruption computes its words on the values that their operands have
in the beginning, and the results are there in the end, when no result is written over an operand or a
result of a later word. Other registers keep their values. -/
theorem exists_run_chain (fits : ∀ limb ∈ limbs, limb.Fits wide) (some : limbs ≠ [])
    (spares : limbs.Pairwise Limb.Spares) (zero : before.registers.value Register.zeroSlot = 0)
    (first : Bool) (here : Int) :
    ∃ after, AssembledRun evaluate here (chain subtracts first limbs) before after ∧
      ComputesWords evaluate subtracts first limbs before after
        (limbs.map fun limb => limb.word before after) ∧
      ∀ register : Register, register.slot < 32 →
        (∀ limb ∈ limbs, register.slot ≠ limb.d.register.slot) →
          after.contents register = before.contents register := by
  induction limbs generalizing first before here with
  | nil => contradiction
  | cons limb rest ih =>
    obtain ⟨fitsHere, fitsRest⟩ := List.forall_mem_cons.mp fits
    obtain ⟨apart, spares⟩ := List.pairwise_cons.mp spares
    obtain ⟨middle, step, _, _, _, _, receives⟩ :=
      @exists_word evaluate here subtracts wide limb first fitsHere before
    have kept (register : Register) (named : register.slot < 32)
        (other : register.slot ≠ limb.d.register.slot) :
        middle.contents register = before.contents register :=
      receives.contents_of_apart zero named other
    cases rest with
    | nil =>
      exact ⟨middle, .cons step .nil, .last step, fun register named other =>
        kept register named (other limb List.mem_cons_self)⟩
    | cons next rest =>
      obtain ⟨after, run, computes, keeps⟩ := ih fitsRest (List.cons_ne_nil _ _) spares receives.zero
        false (here + Instruction.byteLength)
      have target : limb.word before middle = limb.word before after :=
        congrArg (Word.mk _ _) (keeps limb.d.register fitsHere.target.slot_lt
          fun later inside => (apart later inside).target).symm
      have operands : (next :: rest).map (fun later => later.word middle after) =
          (next :: rest).map fun later => later.word before after := by
        refine List.map_congr_left fun later inside => ?_
        rw [Limb.word, kept _ (fitsRest later inside).first.slot_lt (apart later inside).first,
          kept _ (fitsRest later inside).second.slot_lt (apart later inside).second]
        rfl
      rw [operands] at computes
      refine ⟨after, .cons step run, ?_, fun register named other => ?_⟩
      · rw [List.map_cons, ← target]
        exact .more step rfl computes
      · obtain ⟨here, there⟩ := List.forall_mem_cons.mp other
        rw [keeps register named there, kept register named here]

/-- A chain computes the sum or the difference of two numbers of many words with the flags of the
whole. Its instructions always complete. Whatever comes between them, if only the status is kept, the
result is that of the operands which the words have had, and when nothing comes between them and no
operand is written before it is used, the operands are those of the beginning. -/
theorem chain_computes (subtracts : Bool) (evaluate : Evaluator)
    (fits : ∀ limb ∈ limbs, limb.Fits wide) :
    (∀ limb ∈ limbs, ∀ (first : Bool) (here : Int) (before : CoreState), ∃ after,
      AssembledStep here evaluate (chainName subtracts first) limb.operands before after) ∧
    (∀ (before after : CoreState) (words : List Word),
      ComputesWords evaluate subtracts true limbs before after words →
        Computes subtracts (limbs.length * dataSize wide)
          (joinedWords (dataSize wide) (words.map Word.x))
          (joinedWords (dataSize wide) (words.map Word.y))
          (joinedWords (dataSize wide) (words.map Word.result)) after.status.flags) ∧
    (limbs ≠ [] → limbs.Pairwise Limb.Spares → ∀ (here : Int) (before : CoreState),
      before.InRange → ∃ after, AssembledRun evaluate here (chain subtracts true limbs) before after ∧
        Computes subtracts (limbs.length * dataSize wide)
          (joinedWords (dataSize wide) (limbs.map fun limb => before.contents limb.n.register))
          (joinedWords (dataSize wide) (limbs.map fun limb => before.contents limb.m.register))
          (joinedWords (dataSize wide) (limbs.map fun limb => after.contents limb.d.register))
          after.status.flags) := by
  have whole (before after : CoreState) (words : List Word)
      (computes : ComputesWords evaluate subtracts true limbs before after words) :
      Computes subtracts (limbs.length * dataSize wide)
        (joinedWords (dataSize wide) (words.map Word.x))
        (joinedWords (dataSize wide) (words.map Word.y))
        (joinedWords (dataSize wide) (words.map Word.result)) after.status.flags := by
    obtain ⟨count, some⟩ := computes.length_eq
    have small := computes.words_lt fits
    have sums := computes.sums fits
    rw [joinedWords_addend subtracts small, List.length_map, count] at sums
    have below := joinedWords_lt small
    rw [List.length_map, count] at below
    exact sums.computes (Nat.mul_pos some (dataSize_range wide).1) below
  refine ⟨fun limb inside first here before => ?_, whole, fun some spares here before inRange => ?_⟩
  · obtain ⟨after, step, _⟩ := exists_word first (fits limb inside) before
    exact ⟨after, step⟩
  · have zero : before.registers.value Register.zeroSlot = 0 := by
      rw [RegisterFile.value_of_lt _ (show Register.zeroSlot < 32 by decide)]
      exact inRange.registers.zero
    obtain ⟨after, run, computes, _⟩ :=
      @exists_run_chain evaluate subtracts wide limbs before fits some spares zero true here
    have computed := whole before after _ computes
    simp only [List.map_map] at computed
    exact ⟨after, run, computed⟩

end Chain

/-- One is subtracted from a number of two words, of which the lower one is zero: the borrow goes
into the upper word. -/
theorem chain_computes_borrow :
    ∃ (lower upper : List Operand) (before after : CoreState),
      Operand.parse "x0, x2, x4" 0 = .ok lower ∧ Operand.parse "x1, x3, x5" 0 = .ok upper ∧
      joinedWords 64 [before.registers.value 2, before.registers.value 3] = 2 ^ 64 ∧
      joinedWords 64 [before.registers.value 4, before.registers.value 5] = 1 ∧
      AssembledRun (Codec.addressOnly 0) 0 [("subs", lower), ("sbcs", upper)] before after ∧
      joinedWords 64 [after.contents ⟨0, true⟩, after.contents ⟨1, true⟩] = 2 ^ 64 - 1 ∧
      after.status.flags.c = true := by
  let register (name : String) (slot : Nat) (start : Int) : RegisterOperand :=
    ⟨name, ⟨slot, true⟩, none, none, ⟨start, start + 2⟩⟩
  let lower : Limb := ⟨register "x0" 0 0, register "x2" 2 4, register "x4" 4 8⟩
  let upper : Limb := ⟨register "x1" 1 0, register "x3" 3 4, register "x5" 5 8⟩
  let before : CoreState :=
    ⟨⟨((Vector.replicate 32 0).set 3 1).set 4 1, false, []⟩, .clear, .ofBytes .little #[]⟩
  have plain {name : String} {slot : Nat} (named : Register.ofName? name = some ⟨slot, true⟩)
      (start : Int) : (register name slot start).Plain :=
    RegisterOperand.plain_of_ofName? named _
  have fits : ∀ limb ∈ [lower, upper], limb.Fits true := by
    refine List.forall_mem_cons.mpr ⟨?_, List.forall_mem_singleton.mpr ?_⟩
    · exact ⟨plain (by decide) 0, plain (by decide) 4, plain (by decide) 8, rfl, rfl, rfl, by decide⟩
    · exact ⟨plain (by decide) 0, plain (by decide) 4, plain (by decide) 8, rfl, rfl, rfl, by decide⟩
  have spares : [lower, upper].Pairwise Limb.Spares :=
    .cons (List.forall_mem_singleton.mpr ⟨by decide, by decide, by decide⟩)
      (List.pairwise_singleton _ _)
  have inRange : before.InRange := ⟨⟨by decide +kernel, by decide +kernel⟩, rfl⟩
  obtain ⟨after, run, computed⟩ :=
    (chain_computes true (Codec.addressOnly 0) fits).2.2 (List.cons_ne_nil _ _) spares 0 before inRange
  exact ⟨lower.operands, upper.operands, before, after, toOption_eq_some.mp (by decide +kernel),
    toOption_eq_some.mp (by decide +kernel), by decide +kernel, by decide +kernel, run,
    computed.represents.trans (by decide +kernel), computed.carry.mpr (by decide +kernel)⟩

end InstructionSet

end A64Machine
