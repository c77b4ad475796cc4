import A64Machine.LogicalImmediate
import A64Machine.Proofs.Bits

/-!
# Packed immediates are rotated runs

The masks that have a packed form are the repetitions of an element, of a power of two of bits,
that is a run of ones turned around its ring. The run neither is empty nor fills the ring, so it
has one place where a one is followed by a zero: that rules out a shorter element and a second
rotation. Packing finds the element by halving and the rotation by trial, and hence finds just
the form that unpacking came from.
-/

namespace A64Machine.LogicalImmediate

open Bits

/-- A number is a run of ones from bit zero on when adding one clears all of its bits. -/
theorem exists_eq_mask {value : Nat} (clears : value &&& (value + 1) = 0) :
    ∃ count, value = mask count := by
  induction value using Nat.strongRecOn with
  | ind value ih =>
    rcases Nat.eq_zero_or_pos value with rfl | positive
    · exact ⟨0, rfl⟩
    · have halves : value / 2 &&& (value + 1) / 2 = 0 := by
        rw [← Nat.and_div_two, clears]
      rcases Nat.mod_two_eq_zero_or_one value with even | odd
      · rw [show (value + 1) / 2 = value / 2 by omega, Nat.and_self] at halves
        omega
      · rw [show (value + 1) / 2 = value / 2 + 1 by omega] at halves
        obtain ⟨count, half⟩ := ih (value / 2) (by omega) halves
        refine ⟨count + 1, ?_⟩
        have grown := mask_add_one count
        have whole := mask_add_one (count + 1)
        rw [Nat.pow_succ] at whole
        omega

/-- Adding one to a run of ones from bit zero on clears all of its bits. -/
theorem mask_and_succ (count : Nat) : mask count &&& (mask count + 1) = 0 := by
  apply Nat.eq_of_testBit_eq
  intro bit
  rw [mask_add_one, Nat.testBit_and, testBit_mask, Nat.testBit_two_pow, Nat.zero_testBit]
  by_cases below : bit < count
  · simp [Nat.ne_of_gt below]
  · simp [below]

/-- A run of ones from bit zero on is as long as the number has bits. -/
theorem bitLength_mask (count : Nat) : bitLength (mask count) = count := by
  cases count with
  | zero => rfl
  | succ count =>
    have lower : 2 ^ count ≤ mask (count + 1) := by
      have := mask_add_one (count + 1)
      have := Nat.two_pow_pos count
      rw [Nat.pow_succ] at *
      omega
    have upper : mask (count + 1) < 2 ^ (count + 1) := by
      have := mask_add_one (count + 1)
      omega
    have positive : mask (count + 1) ≠ 0 := by
      have := Nat.two_pow_pos count
      omega
    rw [bitLength, if_neg positive, (Nat.log2_eq_iff positive).mpr ⟨lower, upper⟩]

/-! ### The element -/

/-- What halving finds: an element of a power of two of bits, two at least, that repeats over the
whole and has no half of it that repeats. -/
theorem elementSize_spec (value : Nat) {length fuel : Nat} (enough : length ≤ fuel + 1)
    (positive : 1 ≤ length) :
    ∃ found, 1 ≤ found ∧ found ≤ length ∧ elementSize value fuel (2 ^ length) = 2 ^ found ∧
      (∀ bit < 2 ^ length, value.testBit bit = value.testBit (bit % 2 ^ found)) ∧
      (found = 1 ∨ ∃ bit < 2 ^ (found - 1),
        value.testBit bit ≠ value.testBit (bit + 2 ^ (found - 1))) := by
  induction length generalizing fuel with
  | zero => omega
  | succ length ih =>
    rcases Nat.eq_zero_or_pos length with rfl | long
    · refine ⟨1, Nat.le_refl 1, Nat.le_refl 1, ?_, fun bit below => ?_, .inl rfl⟩
      · cases fuel <;> rfl
      · rw [Nat.mod_eq_of_lt below]
    · obtain ⟨fuel, rfl⟩ : ∃ smaller, fuel = smaller + 1 := ⟨fuel - 1, by omega⟩
      have double : 2 ^ (length + 1) = 2 * 2 ^ length := by rw [Nat.pow_succ, Nat.mul_comm]
      have half : 2 ^ (length + 1) / 2 = 2 ^ length := by omega
      have large : 2 ^ (length + 1) > 2 := by
        have : 2 ^ 1 ≤ 2 ^ length := Nat.pow_le_pow_right (by decide) long
        omega
      simp only [elementSize, half, large, true_and]
      split
      · rename_i agree
        obtain ⟨found, least, most, same, repeats, minimal⟩ := @ih fuel (by omega) long
        refine ⟨found, least, by omega, same, fun bit below => ?_, minimal⟩
        by_cases low : bit < 2 ^ length
        · exact repeats bit low
        · have lower : bit - 2 ^ length < 2 ^ length := by omega
          have moved : value.testBit bit = value.testBit (bit - 2 ^ length) := by
            have bits := congrArg (Nat.testBit · (bit - 2 ^ length)) agree
            simp only [Nat.testBit_mod_two_pow, lower, decide_true, Bool.true_and,
              Nat.testBit_shiftRight] at bits
            rw [bits, Nat.add_sub_cancel' (Nat.le_of_not_lt low)]
          obtain ⟨factor, split⟩ := Nat.pow_dvd_pow 2 most
          rw [moved, repeats _ lower]
          congr 1
          rw [show bit = bit - 2 ^ length + 2 ^ found * factor by omega, Nat.add_mul_mod_self_left]
          congr 1
          omega
      · rename_i differ
        refine ⟨length + 1, by omega, Nat.le_refl _, rfl,
          fun bit below => by rw [Nat.mod_eq_of_lt below], .inr ?_⟩
        rw [Nat.add_sub_cancel]
        refine Decidable.byContradiction fun none => differ (Nat.eq_of_testBit_eq fun bit => ?_)
        rw [Nat.testBit_mod_two_pow, Nat.testBit_mod_two_pow, Nat.testBit_shiftRight]
        by_cases below : bit < 2 ^ length
        · have same : value.testBit bit = value.testBit (bit + 2 ^ length) :=
            Decidable.byContradiction fun apart => none ⟨bit, below, apart⟩
          rw [same, Nat.add_comm]
        · simp [below]

/-! ### Runs on a ring -/

/-- The lowest `size` bits of a value are copies of a ring on which `count` ones in a row stand,
turned right by `turn`. -/
def IsRun (value size width turn count : Nat) : Prop :=
  ∀ bit < size, value.testBit bit = decide ((bit + turn) % width < count)

/-- Every place of a ring is reached from some bit. -/
theorem exists_place (turn : Nat) {width place : Nat} (inside : place < width) :
    ∃ bit < width, (bit + turn) % width = place := by
  have positive : 0 < width := Nat.lt_of_le_of_lt (Nat.zero_le _) inside
  have small := Nat.mod_lt turn positive
  refine ⟨(place + (width - turn % width)) % width, Nat.mod_lt _ positive, ?_⟩
  rw [Nat.mod_add_mod, ← Nat.add_mod_mod,
    show place + (width - turn % width) + turn % width = place + width by omega,
    Nat.add_mod_right, Nat.mod_eq_of_lt inside]

/-- A run that neither is empty nor fills its ring changes when it is turned by half of it. -/
theorem exists_place_half {half count : Nat} (some : 0 < count) (gap : count < 2 * half) :
    ∃ place < 2 * half,
      decide (place < count) ≠ decide ((place + half) % (2 * half) < count) := by
  by_cases short : count ≤ half
  · refine ⟨0, by omega, ?_⟩
    rw [Nat.zero_add, Nat.mod_eq_of_lt (by omega)]
    simp [some, Nat.not_lt.mpr short]
  · refine ⟨count, gap, ?_⟩
    rw [Nat.mod_eq_sub_mod (by omega), Nat.mod_eq_of_lt (by omega)]
    simp only [Nat.lt_irrefl, decide_false, ne_eq, false_eq_decide_iff, Nat.not_lt, Nat.not_le]
    omega

/-- Halving finds the ring of a run. -/
theorem elementSize_of_run {value whole length turn count fuel : Nat}
    (run : IsRun value (2 ^ whole) (2 ^ length) turn count) (positive : 1 ≤ length)
    (fits : length ≤ whole) (some : 0 < count) (gap : count < 2 ^ length)
    (enough : whole ≤ fuel + 1) : elementSize value fuel (2 ^ whole) = 2 ^ length := by
  obtain ⟨found, least, most, same, repeats, minimal⟩ :=
    elementSize_spec value enough (Nat.le_trans positive fits)
  have wholeLe : 2 ^ length ≤ 2 ^ whole := Nat.pow_le_pow_right (by decide) fits
  rcases Nat.lt_trichotomy found length with shorter | rfl | longer
  · -- A shorter element would make the run agree with itself turned by half of its ring.
    obtain ⟨half, rfl⟩ : ∃ smaller, length = smaller + 1 := ⟨length - 1, by omega⟩
    have double : 2 ^ (half + 1) = 2 * 2 ^ half := by rw [Nat.pow_succ, Nat.mul_comm]
    rw [double] at run gap wholeLe
    obtain ⟨place, inside, differ⟩ := exists_place_half some gap
    obtain ⟨bit, below, here⟩ := exists_place turn inside
    have around : (bit + 2 ^ half) % (2 * 2 ^ half) < 2 * 2 ^ half := Nat.mod_lt _ (by omega)
    have divides : 2 ^ found ∣ 2 ^ half := Nat.pow_dvd_pow 2 (by omega)
    have turned : value.testBit bit = value.testBit ((bit + 2 ^ half) % (2 * 2 ^ half)) := by
      rw [repeats bit (by omega), repeats _ (Nat.lt_of_lt_of_le around wholeLe),
        Nat.mod_mod_of_dvd _ (Nat.dvd_trans divides (Nat.dvd_mul_left _ 2))]
      obtain ⟨factor, split⟩ := divides
      rw [split, Nat.add_mul_mod_self_left]
    rw [run bit (by omega), run _ (Nat.lt_of_lt_of_le around wholeLe), here, Nat.mod_add_mod,
      show bit + 2 ^ half + turn = bit + turn + 2 ^ half by omega, ← Nat.mod_add_mod, here]
      at turned
    exact absurd turned differ
  · exact same
  · rcases minimal with rfl | ⟨bit, below, differ⟩
    · omega
    · -- In a longer element both halves would show the same bits of the ring.
      refine absurd ?_ differ
      obtain ⟨factor, split⟩ := Nat.pow_dvd_pow 2 (show length ≤ found - 1 by omega)
      have double : 2 ^ found = 2 * 2 ^ (found - 1) := by
        rw [← Nat.pow_succ', Nat.succ_eq_add_one, show found - 1 + 1 = found by omega]
      have foundLe : 2 ^ found ≤ 2 ^ whole := Nat.pow_le_pow_right (by decide) most
      rw [run bit (by omega), run (bit + 2 ^ (found - 1)) (by omega),
        show bit + 2 ^ (found - 1) + turn = bit + turn + 2 ^ (found - 1) by omega, split,
        Nat.add_mul_mod_self_left]

/-- The mask of a packed immediate is a run on its ring. -/
theorem isRun_masks (length imms immr count : Nat) :
    IsRun (masks length imms immr (2 ^ length * count)).1 (2 ^ length * count) (2 ^ length) immr
      (imms % 2 ^ length + 1) := by
  intro bit below
  have positive := Nat.two_pow_pos length
  have inside := Nat.mod_lt bit positive
  simp only [masks]
  rw [testBit_replicate (rotateRight_lt _ _ _) positive, testBit_rotateRight _ _ inside,
    testBit_mask]
  simp [below, Nat.add_mod]

/-- The mask of a packed immediate fits the size. -/
theorem masks_lt (length imms immr count : Nat) :
    (masks length imms immr (2 ^ length * count)).1 < 2 ^ (2 ^ length * count) :=
  replicate_lt (rotateRight_lt _ _ _) (Nat.two_pow_pos length) count

/-! ### Packing and unpacking -/

/-- The only number of a range that gives a result is the one that is found. -/
theorem findSome?_range {α : Type} {f : Nat → Option α} {limit index : Nat} {result : α}
    (inside : index < limit) (here : f index = some result)
    (only : ∀ other < limit, other ≠ index → f other = none) :
    (List.range limit).findSome? f = some result := by
  have found : ((List.range limit).findSome? f).isSome = true :=
    List.findSome?_isSome_iff.mpr ⟨index, List.mem_range.mpr inside, by rw [here]; rfl⟩
  obtain ⟨result', found⟩ := Option.isSome_iff_exists.mp found
  obtain ⟨other, member, there⟩ := List.exists_of_findSome?_eq_some found
  by_cases same : other = index
  · rw [found, ← there, same, here]
  · rw [only other (List.mem_range.mp member) same] at there
    contradiction

/-- A run that starts at bit zero is not turned: everywhere else its first place is behind a place
without a one. -/
theorem eq_zero_of_isRun_mask {value width turn count other : Nat}
    (run : IsRun value width width turn count) (mask : value = mask other) (small : turn < width)
    (some : 0 < count) (gap : count < width) : turn = 0 := by
  refine Decidable.byContradiction fun turned => ?_
  have first := run (width - turn) (by omega)
  have before := run (width - turn - 1) (by omega)
  rw [mask, testBit_mask, show width - turn + turn = width by omega, Nat.mod_self] at first
  rw [mask, testBit_mask, show width - turn - 1 + turn = width - 1 by omega,
    Nat.mod_eq_of_lt (by omega)] at before
  simp only [decide_eq_decide] at first before
  omega

/-- Turning an element back by the rotation of its run. -/
theorem isRun_rotateRight {value size width turn count rotation : Nat}
    (run : IsRun value size width turn count) (fits : width ≤ size) (small : rotation < width) :
    IsRun (rotateRight (value % 2 ^ width) (width - rotation) width) width width
      ((width - rotation + turn) % width) count := by
  intro bit below
  have inside : (bit + (width - rotation)) % width < width := Nat.mod_lt _ (by omega)
  rw [testBit_rotateRight _ _ below, Nat.testBit_mod_two_pow, run _ (by omega)]
  simp [inside, Nat.add_assoc]

/-- Numbers of a width with the same run are equal. -/
theorem eq_of_isRun {value other size width turn count : Nat} (small : value < 2 ^ size)
    (small' : other < 2 ^ size) (run : IsRun value size width turn count)
    (run' : IsRun other size width turn count) : value = other :=
  eq_of_testBit_lt small small' fun bit below => (run bit below).trans (run' bit below).symm

/-- The run that starts at bit zero. -/
theorem isRun_mask {count width : Nat} : IsRun (mask count) width width 0 count := by
  intro bit below
  rw [testBit_mask, Nat.add_zero, Nat.mod_eq_of_lt below]

/-- Packing a run finds its ring, its rotation and its length. -/
theorem encode_of_isRun {value whole length turn count : Nat}
    (run : IsRun value (2 ^ whole) (2 ^ length) turn count) (small : value < 2 ^ 2 ^ whole)
    (positive : 1 ≤ length) (fits : length ≤ whole) (some : 0 < count) (gap : count < 2 ^ length) :
    encode value (2 ^ whole) =
      .some (if 2 ^ length = 64 then 1 else 0, turn % 2 ^ length,
        (63 - (2 * 2 ^ length - 1) % 64) ||| (count - 1)) := by
  have wholeLe : 2 ^ length ≤ 2 ^ whole := Nat.pow_le_pow_right (by decide) fits
  have ring := Nat.two_pow_pos length
  obtain ⟨one, oneBelow, atOne⟩ := exists_place turn ring
  obtain ⟨gapBit, gapBelow, atGap⟩ := exists_place turn gap
  have notZero : value ≠ 0 := by
    rintro rfl
    have set := run one (by omega)
    rw [atOne] at set
    simp [some] at set
  have notFull : value ≠ mask (2 ^ whole) := by
    intro full
    have clear := run gapBit (by omega)
    rw [atGap, full, testBit_mask] at clear
    simp only [Nat.lt_irrefl, decide_false, decide_eq_false_iff_not] at clear
    omega
  have element := @elementSize_of_run _ _ _ _ _ whole run positive fits some gap (by omega)
  rw [encode, wrap_of_lt small, if_neg (by simp [notZero, notFull]), Nat.log2_two_pow]
  simp only [element]
  have turnSmall := Nat.mod_lt turn ring
  have width := Nat.pow_lt_pow_right (show 1 < 2 by decide) gap
  refine findSome?_range turnSmall ?_ fun rotation below apart => ?_
  · have turned := isRun_rotateRight run wholeLe turnSmall
    rw [← Nat.add_mod_mod, show 2 ^ length - turn % 2 ^ length + turn % 2 ^ length = 2 ^ length by
      omega, Nat.mod_self] at turned
    have low : mask count < 2 ^ 2 ^ length := by
      have := mask_add_one count
      omega
    rw [eq_of_isRun (rotateRight_lt _ _ _) low turned isRun_mask, if_pos (mask_and_succ count),
      bitLength_mask]
  · have turned := isRun_rotateRight run wholeLe below
    rw [if_neg]
    intro clears
    obtain ⟨other, low⟩ := exists_eq_mask clears
    have back := eq_zero_of_isRun_mask turned low (Nat.mod_lt _ ring) some gap
    refine apart ?_
    rw [← Nat.add_mod_mod] at back
    by_cases lower : 2 ^ length - rotation + turn % 2 ^ length < 2 ^ length
    · rw [Nat.mod_eq_of_lt lower] at back
      omega
    · rw [Nat.mod_eq_sub_mod (Nat.le_of_not_lt lower), Nat.mod_eq_of_lt (by omega)] at back
      omega

/-- What is packed is a run on a ring. -/
theorem isRun_of_encode {value : Int} {whole n immr imms : Nat} (long : 1 ≤ whole)
    (packed : encode value (2 ^ whole) = some (n, immr, imms)) :
    ∃ length count, 1 ≤ length ∧ length ≤ whole ∧ 0 < count ∧ count < 2 ^ length ∧
      IsRun (wrap (2 ^ whole) value) (2 ^ whole) (2 ^ length) immr count ∧ immr < 2 ^ length ∧
      n = (if 2 ^ length = 64 then 1 else 0) ∧
      imms = (63 - (2 * 2 ^ length - 1) % 64) ||| (count - 1) := by
  have small := wrap_lt (2 ^ whole) value
  simp only [encode] at packed
  generalize wrap (2 ^ whole) value = value at packed small
  split at packed
  · contradiction
  · rename_i proper
    rw [not_or] at proper
    rw [Nat.log2_two_pow] at packed
    obtain ⟨length, positive, fits, element, repeats, _⟩ :=
      @elementSize_spec value whole whole (Nat.le_succ whole) long
    rw [element] at packed
    have wholeLe : 2 ^ length ≤ 2 ^ whole := Nat.pow_le_pow_right (by decide) fits
    have ring := Nat.two_pow_pos length
    obtain ⟨rotation, member, found⟩ := List.exists_of_findSome?_eq_some packed
    have below := List.mem_range.mp member
    split at found
    · rename_i clears
      obtain ⟨rfl, rfl, rfl⟩ : (if 2 ^ length = 64 then 1 else 0) = n ∧ rotation = immr ∧ _ = imms := by
        simpa using found
      obtain ⟨count, low⟩ := exists_eq_mask clears
      have run : IsRun value (2 ^ whole) (2 ^ length) rotation count := by
        intro bit inside
        have place := Nat.mod_lt (bit + rotation) ring
        have turned := testBit_rotateRight (value % 2 ^ 2 ^ length) (2 ^ length - rotation) place
        rw [low, testBit_mask, Nat.mod_add_mod,
          show bit + rotation + (2 ^ length - rotation) = bit + 2 ^ length by omega,
          Nat.add_mod_right, Nat.testBit_mod_two_pow] at turned
        rw [repeats bit inside, turned]
        simp [Nat.mod_lt bit ring]
      have some : 0 < count := by
        refine Nat.pos_of_ne_zero fun none => proper.1 (Nat.eq_of_testBit_eq fun bit => ?_)
        rw [Nat.zero_testBit]
        by_cases inside : bit < 2 ^ whole
        · rw [run bit inside, none]; rfl
        · exact Nat.testBit_lt_two_pow (Nat.lt_of_lt_of_le small
            (Nat.pow_le_pow_right (by decide) (Nat.le_of_not_lt inside)))
      have gap : count < 2 ^ length := by
        refine Decidable.byContradiction fun full => proper.2 ?_
        have maskSmall : mask (2 ^ whole) < 2 ^ 2 ^ whole := by
          have := mask_add_one (2 ^ whole)
          omega
        refine eq_of_testBit_lt small maskSmall fun bit inside => ?_
        have place := Nat.mod_lt (bit + rotation) ring
        rw [run bit inside, testBit_mask]
        simp only [inside, decide_true, decide_eq_true_eq, gt_iff_lt]
        omega
      exact ⟨length, count, positive, fits, some, gap, run, below, rfl, by rw [low, bitLength_mask]⟩
    · contradiction

/-- The packed numbers of a ring and a run determine the ring and the run. -/
theorem unpack_numbers :
    ∀ length < 7, 1 ≤ length → ∀ count < 2 ^ length, 0 < count →
      let n := if 2 ^ length = 64 then 1 else 0
      let imms := (63 - (2 * 2 ^ length - 1) % 64) ||| (count - 1)
      imms < 64 ∧ (n <<< 6 ||| (63 - imms % 64)).log2 = length ∧
        imms % 2 ^ length = count - 1 := by
  decide +kernel

/-- The ring and the run of packed numbers determine the numbers. -/
theorem pack_numbers :
    ∀ n < 2, ∀ imms < 64,
      let length := (n <<< 6 ||| (63 - imms % 64)).log2
      1 ≤ length →
        (if 2 ^ length = 64 then 1 else 0) = n ∧
          (63 - (2 * 2 ^ length - 1) % 64) ||| imms % 2 ^ length = imms := by
  decide +kernel

/-- Number of the bits of the element of a packed immediate. -/
def ringSize (n imms : Nat) : Nat := 2 ^ (n <<< 6 ||| (63 - imms % 64)).log2

/-- What was packed can be unpacked again. -/
theorem decode_encode {value : Int} {whole n immr imms : Nat} (long : 1 ≤ whole) (short : whole < 7)
    (packed : encode value (2 ^ whole) = some (n, immr, imms)) :
    n < 2 ∧ immr < 64 ∧ imms < 64 ∧ (whole < 6 → n = 0) ∧
      ∃ other, decode n imms immr (2 ^ whole) true = some (wrap (2 ^ whole) value, other) := by
  obtain ⟨length, count, positive, fits, some, gap, run, below, rfl, rfl⟩ :=
    isRun_of_encode long packed
  obtain ⟨small, ring, rest⟩ := unpack_numbers length (by omega) positive count gap some
  have wholeLe : 2 ^ length ≤ 2 ^ whole := Nat.pow_le_pow_right (by decide) fits
  have widest : 2 ^ whole ≤ 2 ^ 6 := Nat.pow_le_pow_right (by decide) (by omega)
  refine ⟨by split <;> omega, by omega, small, fun narrow => ?_, ?_⟩
  · have : 2 ^ whole ≤ 2 ^ 5 := Nat.pow_le_pow_right (by decide) (by omega)
    rw [if_neg (by omega)]
  · have full : mask length ≠ count - 1 := by
      have := mask_add_one length
      omega
    generalize (63 - (2 * 2 ^ length - 1) % 64) ||| (count - 1) = imms at ring rest ⊢
    generalize (if 2 ^ length = 64 then 1 else 0) = n at ring ⊢
    refine ⟨(masks length imms immr (2 ^ whole)).2, ?_⟩
    simp only [decode, ring, rest]
    rw [if_neg (by omega), if_neg (by simp; omega), if_neg (by omega)]
    refine congrArg Option.some (Prod.ext ?_ rfl)
    obtain ⟨factor, split⟩ := Nat.pow_dvd_pow 2 fits
    rw [split]
    refine eq_of_isRun (masks_lt _ _ _ _) (wrap_lt _ _) (isRun_masks _ _ _ _) ?_
    rw [rest, show count - 1 + 1 = count by omega, ← split]
    exact run

/-- Packing what was unpacked gives the same packed immediate, with the rotation reduced to the size
of the element. -/
theorem encode_decode {whole n immr imms mask other : Nat} (small : n < 2) (small' : imms < 64)
    (unpacked : decode n imms immr (2 ^ whole) true = some (mask, other)) :
    encode mask (2 ^ whole) = some (n, immr % ringSize n imms, imms) := by
  have numbers := pack_numbers n small imms small'
  simp only [decode] at unpacked
  simp only at numbers
  rw [ringSize]
  generalize (n <<< 6 ||| (63 - imms % 64)).log2 = length at unpacked numbers ⊢
  split at unpacked
  · contradiction
  · rename_i positive
    split at unpacked
    · contradiction
    · rename_i proper
      split at unpacked
      · contradiction
      · rename_i fits
        obtain ⟨first, second⟩ := numbers (by omega)
        have within : length ≤ whole :=
          (Nat.pow_le_pow_iff_right (by decide)).mp (Nat.le_of_not_lt fits)
        have gap : imms % 2 ^ length + 1 < 2 ^ length := by
          have ones : imms % 2 ^ length ≠ Bits.mask length := by simpa using proper
          have := Nat.mod_lt imms (Nat.two_pow_pos length)
          have := mask_add_one length
          omega
        obtain ⟨factor, split⟩ := Nat.pow_dvd_pow 2 within
        have run := isRun_masks length imms immr factor
        have fitsSize := masks_lt length imms immr factor
        have same : (masks length imms immr (2 ^ whole)).1 = mask :=
          congrArg Prod.fst (Option.some.inj unpacked)
        rw [← split, same] at run fitsSize
        rw [encode_of_isRun run fitsSize (by omega) within (by omega) gap, Nat.add_sub_cancel,
          first, second]

/-- A rotation by a multiple of the element size more denotes the same masks. -/
theorem decode_mod_ringSize (n imms immr size : Nat) (strict : Bool) :
    decode n imms (immr % ringSize n imms) size strict = decode n imms immr size strict := by
  simp only [decode, masks, ringSize, Nat.mod_mod]

/-- A mask that was unpacked has no bits beyond the register. -/
theorem lt_of_decode {whole n immr imms mask other : Nat} (long : 1 ≤ whole) (short : whole < 7)
    (small : n < 2) (small' : imms < 64)
    (unpacked : decode n imms immr (2 ^ whole) true = some (mask, other)) :
    mask < 2 ^ 2 ^ whole := by
  obtain ⟨_, _, _, _, other', unpacked'⟩ :=
    decode_encode long short (encode_decode small small' unpacked)
  rw [decode_mod_ringSize, unpacked] at unpacked'
  have same : mask = wrap (2 ^ whole) mask := congrArg Prod.fst (Option.some.inj unpacked')
  rw [same]
  exact wrap_lt _ _

/-- Packing looks at the lowest bits of a value only. -/
theorem encode_wrap (value : Int) (size : Nat) :
    encode (wrap size value) size = encode value size := by
  simp only [encode, wrap_of_lt (wrap_lt size value)]

/-! ### Exactness -/

/-- The numbers are fields of an instruction and unpack to the mask. -/
def Unpacks (size n immr imms mask : Nat) : Prop :=
  n < 2 ∧ immr < 64 ∧ imms < 64 ∧ ∃ other, decode n imms immr size true = some (mask, other)

/-- For both register sizes, packing fails just for the values that no numbers unpack to, finds
numbers that unpack to the value, and finds the numbers of every mask again up to the bits of the
rotation that the element size leaves without effect. -/
theorem encode_exact {size : Nat} (sizes : size = 32 ∨ size = 64) :
    (∀ value : Int,
      encode value size = none ↔ ¬ ∃ n immr imms, Unpacks size n immr imms (wrap size value)) ∧
    (∀ (value : Int) (n immr imms : Nat),
      encode value size = some (n, immr, imms) → Unpacks size n immr imms (wrap size value)) ∧
    (∀ n immr imms mask : Nat, Unpacks size n immr imms mask →
      encode mask size = some (n, immr % ringSize n imms, imms)) := by
  obtain ⟨whole, long, short, rfl⟩ : ∃ whole, 1 ≤ whole ∧ whole < 7 ∧ size = 2 ^ whole := by
    rcases sizes with rfl | rfl
    · exact ⟨5, by decide, by decide, rfl⟩
    · exact ⟨6, by decide, by decide, rfl⟩
  have sound (value : Int) (n immr imms : Nat)
      (packed : encode value (2 ^ whole) = some (n, immr, imms)) :
      Unpacks (2 ^ whole) n immr imms (wrap (2 ^ whole) value) := by
    obtain ⟨smallN, smallR, smallS, -, unpacked⟩ := decode_encode long short packed
    exact ⟨smallN, smallR, smallS, unpacked⟩
  have complete (n immr imms mask : Nat) (unpacks : Unpacks (2 ^ whole) n immr imms mask) :
      encode mask (2 ^ whole) = some (n, immr % ringSize n imms, imms) := by
    obtain ⟨smallN, -, smallS, other, unpacked⟩ := unpacks
    exact encode_decode smallN smallS unpacked
  refine ⟨fun value => ⟨?_, fun none => ?_⟩, sound, complete⟩
  · rintro failed ⟨n, immr, imms, unpacks⟩
    have packed := complete n immr imms _ unpacks
    rw [encode_wrap, failed] at packed
    contradiction
  · refine Option.eq_none_iff_forall_ne_some.mpr ?_
    rintro ⟨n, immr, imms⟩ packed
    exact none ⟨n, immr, imms, sound value n immr imms packed⟩

/-- A run of eight ones in a register of 32 bits, with a rotation that exceeds the element. -/
theorem encode_exact_byte :
    (32 = 32 ∨ 32 = 64) ∧ Unpacks 32 0 32 7 0xff ∧ encode 0xff 32 = some (0, 0, 7) :=
  have unpacks : Unpacks 32 0 32 7 0xff := ⟨by decide, by decide, by decide, 0xff, by decide⟩
  ⟨.inl rfl, unpacks, (encode_exact (.inl rfl)).2.2 0 32 7 0xff unpacks⟩

end A64Machine.LogicalImmediate
