import A64Machine.Proofs.Memory

/-!
# Memory as a map of bytes

After any requests a memory holds at each address the byte that was last written there since its
origin was last copied, or else the byte of the origin. Values are written and read byte by byte in
the byte order of the memory, whatever their widths are and however they overlap. A request that
leaves the bounds is a fault of access and changes nothing, not even the record of accesses.
-/

namespace A64Machine

namespace Endianness

/-- What the byte at a place counts for in a value of some width. -/
def weight (order : Endianness) (width place : Nat) : Nat :=
  match order with
  | .little => 256 ^ place
  | .big => 256 ^ (width - 1 - place)

/-- The byte that a value of some width has at a place. -/
def byteOf (order : Endianness) (width : Nat) (value : Int) (place : Nat) : UInt8 :=
  UInt8.ofNat (value / (order.weight width place : Nat) % 256).toNat

/-- A value is made of the bytes from an address on. -/
structure Makes (order : Endianness) (byteAt : Nat → Option UInt8) (address width value : Nat) :
    Prop where
  bounded : value < 2 ^ (8 * width)
  bytes : ∀ place < width, byteAt (address + place) = some (order.byteOf width value place)

theorem getElem?_littleBytes {width place : Nat} (value : Nat) (inside : place < width) :
    (littleBytes width value)[place]? = some (UInt8.ofNat (value / 256 ^ place % 256)) := by
  induction width generalizing value place with
  | zero => contradiction
  | succ width ih =>
    cases place with
    | zero => simp [littleBytes]
    | succ place =>
      rw [littleBytes, List.getElem?_cons_succ, ih _ (Nat.lt_of_succ_lt_succ inside),
        Nat.div_div_eq_div_mul, Nat.pow_succ, Nat.mul_comm]

/-- A value is laid down as its bytes. -/
theorem getElem?_bytesOf (order : Endianness) {width place : Nat} (value : Nat)
    (inside : place < width) :
    (order.bytesOf width value)[place]? = some (order.byteOf width value place) := by
  have byte (weight : Nat) : ((value : Int) / (weight : Nat) % 256).toNat = value / weight % 256 := by
    omega
  cases order with
  | little =>
    rw [bytesOf, getElem?_littleBytes value inside, byteOf, byte, weight]
  | big =>
    rw [bytesOf, List.getElem?_reverse (by rwa [length_littleBytes]), length_littleBytes,
      getElem?_littleBytes value (by omega), byteOf, byte, weight]

/-- A byte that is kept with others below and above it is the same as before. -/
theorem emod_ediv_emod (value : Int) {below : Nat} (positive : 0 < below) (above : Nat) :
    value % (below * (256 * above) : Nat) / (below : Nat) % 256 = value / (below : Nat) % 256 := by
  have parts := Int.emod_add_mul_ediv value (below * (256 * above) : Nat)
  have notZero : (below : Int) ≠ 0 := by omega
  conv => rhs; rw [← parts]
  rw [Int.natCast_mul, Int.natCast_mul, Int.mul_assoc, Int.add_mul_ediv_left _ _ notZero,
    Int.mul_assoc]
  exact (Int.add_mul_emod_self_left ..).symm

/-- The lowest bytes of a value have the same bytes. -/
theorem emod_ediv_pow (value : Int) {power width : Nat} (inside : power < width) :
    value % (2 ^ (8 * width) : Nat) / (256 ^ power : Nat) % 256 =
      value / (256 ^ power : Nat) % 256 := by
  obtain ⟨rest, rfl⟩ : ∃ rest, width = power + 1 + rest := Nat.exists_eq_add_of_le inside
  have split : 2 ^ (8 * (power + 1 + rest)) = 256 ^ power * (256 * 256 ^ rest) := by
    rw [Nat.pow_mul, show (2 : Nat) ^ 8 = 256 from rfl, Nat.pow_add, Nat.pow_succ, Nat.mul_assoc]
  rw [split, emod_ediv_emod value (Nat.pow_pos (by decide))]

/-- Only the lowest bytes of a value are written. -/
theorem byteOf_wrap (order : Endianness) {width place : Nat} (value : Int) (inside : place < width) :
    order.byteOf width (Bits.wrap (8 * width) value) place = order.byteOf width value place := by
  rw [byteOf, byteOf, Bits.natCast_wrap]
  cases order with
  | little => exact congrArg (fun byte => UInt8.ofNat byte.toNat) (emod_ediv_pow value inside)
  | big =>
    have inside : width - 1 - place < width := by omega
    exact congrArg (fun byte => UInt8.ofNat byte.toNat) (emod_ediv_pow value inside)

/-- Bytes make their value. -/
theorem makes_valueOf (order : Endianness) {byteAt : Nat → Option UInt8} {address : Nat}
    {bytes : List UInt8}
    (found : ∀ place < bytes.length, byteAt (address + place) = bytes[place]?) :
    order.Makes byteAt address bytes.length (order.valueOf bytes) := by
  refine ⟨valueOf_lt order bytes, fun place inside => ?_⟩
  rw [found place inside, ← getElem?_bytesOf order _ inside, bytesOf_valueOf]

/-- No two values are made of the same bytes. -/
theorem Makes.unique {order : Endianness} {byteAt : Nat → Option UInt8}
    {address width value other : Nat} (makes : order.Makes byteAt address width value)
    (makes' : order.Makes byteAt address width other) : value = other := by
  have same : order.bytesOf width value = order.bytesOf width other := by
    apply List.ext_getElem?
    intro place
    rcases Nat.lt_or_ge place width with inside | outside
    · rw [getElem?_bytesOf order _ inside, getElem?_bytesOf order _ inside,
        ← makes.bytes place inside, ← makes'.bytes place inside]
    · rw [List.getElem?_eq_none (by rwa [length_bytesOf]),
        List.getElem?_eq_none (by rwa [length_bytesOf])]
  have values := congrArg order.valueOf same
  rwa [valueOf_bytesOf, valueOf_bytesOf, Nat.mod_eq_of_lt makes.bounded,
    Nat.mod_eq_of_lt makes'.bounded] at values

end Endianness

namespace Memory

/-- What may be asked of a memory. -/
inductive Request where
  | read (address : Int) (width : Nat)
  | peek (address : Int) (width : Nat)
  | write (address : Int) (width : Nat) (value : Int)
  | reset
  | load (image : Array UInt8)

/-- What a memory answers to a request: a value, that it was done, or why it was not. -/
inductive Answer where
  | value (value : Nat)
  | done
  | fault (fault : MemoryFault)
  | refused (error : SetupError)

/-- Whether a request was answered by a fault of access. -/
def Answer.isAccessFault : Answer → Bool
  | .fault cause => cause.isAccessFault
  | .value _ | .done | .refused _ => false

/-- The answer to a request and the memory after it, which is the same where the request fails. -/
def serve (memory : Memory) : Request → Answer × Memory
  | .read address width =>
    match memory.read address width with
    | .ok (value, after) => (.value value, after)
    | .error fault => (.fault fault, memory)
  | .peek address width =>
    match memory.peek address width with
    | .ok value => (.value value, memory)
    | .error fault => (.fault fault, memory)
  | .write address width value =>
    match memory.write address width value with
    | .ok after => (.done, after)
    | .error fault => (.fault fault, memory)
  | .reset => (.done, memory.reset)
  | .load image =>
    match memory.loadOrigin image with
    | .ok after => (.done, after)
    | .error error => (.refused error, memory)

/-- The memory after some requests. -/
def afterRequests (memory : Memory) (requests : List Request) : Memory :=
  requests.foldl (fun memory request => (memory.serve request).2) memory

/-! ### What was asked for -/

/-- The origin after some requests, which are listed from the latest, given the one before them. -/
def originAfter (image : Array UInt8) : List Request → Array UInt8
  | [] => image
  | .load loaded :: earlier => if loaded.isEmpty then originAfter image earlier else loaded
  | _ :: earlier => originAfter image earlier

/-- The byte that was last written at a place by some requests, which are listed from the latest,
since the origin was last copied. -/
def lastWritten? (order : Endianness) (image : Array UInt8) : List Request → (place : Nat) →
    Option UInt8
  | [], _ => none
  | .write address width value :: earlier, place =>
    if holds (originAfter image earlier).size address width ∧ address ≤ place ∧
        place < address + width then
      some (order.byteOf width value (place - address.toNat))
    else lastWritten? order image earlier place
  | .reset :: _, _ => none
  | .load loaded :: earlier, place =>
    if loaded.isEmpty then lastWritten? order image earlier place else none
  | _ :: earlier, place => lastWritten? order image earlier place

/-- The byte at a place after some requests, which are listed from the latest: the one that was last
written there, or else that of the origin. -/
def byteAfter (order : Endianness) (image : Array UInt8) (earlier : List Request) (place : Nat) :
    Option UInt8 :=
  (lastWritten? order image earlier place).or (originAfter image earlier)[place]?

/-- A memory holds what some requests have made of an image. They are listed from the latest. -/
structure Holds (order : Endianness) (image : Array UInt8) (earlier : List Request)
    (memory : Memory) : Prop where
  endianness : memory.endianness = order
  origin : memory.origin = originAfter image earlier
  size : memory.size = memory.origin.size
  bytes : ∀ place, memory.bytes[place]? = byteAfter order image earlier place

/-! ### Single requests -/

variable {memory after : Memory} {order : Endianness} {image : Array UInt8} {earlier : List Request}
  {address value : Int} {width : Nat}

/-- An access within the bounds begins at a natural number. -/
theorem exists_natCast_of_holds {size : Nat} (inside : holds size address width = true) :
    ∃ start : Nat, address = start ∧ start + width ≤ size := by
  simp only [holds, decide_eq_true_eq] at inside
  exact ⟨address.toNat, by omega, by omega⟩

theorem peek_outside (outside : holds memory.size address width = false) :
    memory.peek address width = .error (.outside address width memory.size) := by
  rw [peek, readBytes, outside]
  rfl

/-- An access that leaves the bounds is refused, and nothing is changed. -/
theorem serve_outside (outside : holds memory.size address width = false) (value : Int) :
    ∀ request ∈ [.read address width, .peek address width, .write address width value],
      memory.serve request = (.fault (.outside address width memory.size), memory) := by
  have peeked := peek_outside outside
  have read : memory.read address width = .error (.outside address width memory.size) := by
    rw [read, peeked]
    rfl
  have written : memory.write address width value =
      .error (.outside address width memory.size) := by
    rw [write, peeked]
    rfl
  simp only [List.forall_mem_cons, serve, read, peeked, written, true_and]
  exact fun request absent => absurd absent List.not_mem_nil

/-- What is looked at is made of the bytes in memory. -/
theorem peek_inside (inside : holds memory.size address width = true) :
    ∃ value, memory.peek address width = .ok value ∧
      memory.endianness.Makes (memory.bytes[·]?) address.toNat width value := by
  obtain ⟨start, rfl, fits⟩ := exists_natCast_of_holds inside
  refine ⟨_, by rw [peek_natCast, if_pos fits], ?_⟩
  have full : (stretch memory.bytes start width).length = width := length_stretch fits
  have makes := @Endianness.makes_valueOf memory.endianness (memory.bytes[·]?) start
    (stretch memory.bytes start width) fun place inside => by
      rw [getElem?_stretch, if_pos (by omega)]
  rw [full] at makes
  exact makes

/-- A write lays down the bytes of its value and nothing else. -/
theorem write_inside (inside : holds memory.size address width = true) (value : Int) :
    ∃ log bytes, memory.write address width value = .ok { memory with log := log, bytes := bytes } ∧
      bytes.size = memory.size ∧
      ∀ place : Nat, bytes[place]? =
        if address ≤ place ∧ place < address + width then
          some (memory.endianness.byteOf width value (place - address.toNat))
        else memory.bytes[place]? := by
  obtain ⟨start, rfl, fits⟩ := exists_natCast_of_holds inside
  obtain ⟨log, written⟩ := memory.write_intCast start width value
  rw [if_pos fits] at written
  refine ⟨log, _, written, size_overwrite .., fun place => ?_⟩
  rw [getElem?_overwrite _ (by rwa [Endianness.length_bytesOf]), Endianness.length_bytesOf]
  by_cases covered : start ≤ place ∧ place < start + width
  · rw [if_pos covered, if_pos (by omega), Endianness.getElem?_bytesOf _ _ (by omega),
      Endianness.byteOf_wrap _ _ (by omega), Int.toNat_natCast]
  · rw [if_neg covered, if_neg (by omega)]

/-- A read changes the record at most. -/
theorem exists_serve_read (memory : Memory) (address : Int) (width : Nat) :
    ∃ log, (memory.serve (.read address width)).2 = { memory with log := log } := by
  cases inside : holds memory.size address width with
  | false =>
    rw [serve_outside inside 0 _ List.mem_cons_self]
    exact ⟨memory.log, rfl⟩
  | true =>
    obtain ⟨value, peeked, _⟩ := peek_inside inside
    obtain ⟨log, same⟩ := memory.recorded_eq .read address.toNat value value width
    refine ⟨log, ?_⟩
    rw [serve, read, peeked, ← same]
    rfl

/-- What a memory holds after one more request, whatever the request. -/
theorem Holds.serve (made : Holds order image earlier memory) (request : Request) :
    Holds order image (request :: earlier) (memory.serve request).2 := by
  have size : (originAfter image earlier).size = memory.size := made.origin ▸ made.size.symm
  cases request with
  | read address width =>
    obtain ⟨log, same⟩ := memory.exists_serve_read address width
    rw [same]
    exact ⟨made.endianness, made.origin, made.size, made.bytes⟩
  | peek address width =>
    have same : (memory.serve (.peek address width)).2 = memory := by
      rw [Memory.serve]
      split <;> rfl
    rw [same]
    exact ⟨made.endianness, made.origin, made.size, made.bytes⟩
  | write address width value =>
    cases inside : holds memory.size address width with
    | false =>
      rw [serve_outside inside value _ (by simp)]
      refine ⟨made.endianness, made.origin, made.size, fun place => ?_⟩
      rw [made.bytes, byteAfter, byteAfter, lastWritten?, size, inside, if_neg (by simp)]
      rfl
    | true =>
      obtain ⟨log, bytes, written, sameSize, found⟩ := write_inside inside value
      have same : (memory.serve (.write address width value)).2 =
          { memory with log := log, bytes := bytes } := by
        rw [Memory.serve, written]
      rw [same]
      refine ⟨made.endianness, made.origin, sameSize.trans made.size, fun place => ?_⟩
      show bytes[place]? = _
      rw [found, byteAfter, lastWritten?, size, inside, made.endianness]
      simp only [true_and]
      split
      · rfl
      · exact made.bytes place
  | reset =>
    refine ⟨made.endianness, made.origin, rfl, fun place => ?_⟩
    show memory.origin[place]? = _
    rw [made.origin]
    rfl
  | load loaded =>
    cases empty : loaded.isEmpty with
    | true =>
      have same : (memory.serve (.load loaded)).2 = memory := by
        rw [Memory.serve, loadOrigin, empty]
        rfl
      rw [same]
      refine ⟨made.endianness, ?_, made.size, fun place => ?_⟩
      · rw [made.origin, originAfter, empty]
        rfl
      · rw [made.bytes, byteAfter, byteAfter, lastWritten?, originAfter, empty]
        rfl
    | false =>
      have same : (memory.serve (.load loaded)).2 = { memory with origin := loaded }.reset := by
        rw [Memory.serve, loadOrigin, empty]
        rfl
      rw [same]
      refine ⟨made.endianness, ?_, rfl, fun place => ?_⟩
      · rw [originAfter, empty]
        rfl
      · rw [byteAfter, lastWritten?, originAfter, empty]
        rfl

/-- A memory holds what all requests have made of its image. -/
theorem Holds.afterRequests (made : Holds order image earlier memory) (requests : List Request) :
    Holds order image (requests.reverse ++ earlier) (memory.afterRequests requests) := by
  induction requests generalizing memory earlier with
  | nil => exact made
  | cons request rest ih =>
    rw [List.reverse_cons, List.append_assoc]
    exact ih (made.serve request)

/-! ### Runs -/

/-- Two accesses have no byte in common. -/
def Apart (address : Int) (width : Nat) (other : Int) (otherWidth : Nat) : Prop :=
  address + width ≤ other ∨ other + otherWidth ≤ address

/-- An access leaves the bounds of a memory: it is a fault of access, and nothing is changed. -/
structure Refused (memory : Memory) (address : Int) (width : Nat) (answer : Answer)
    (after : Memory) : Prop where
  isFault : answer = .fault (.outside address width memory.size)
  isAccessFault : answer.isAccessFault = true
  unchanged : after = memory

/-- An answer that agrees with the bytes of a memory. An access within the bounds succeeds: what it
reads is made of the bytes in place, and what it writes is read again, cut to its width, but not by
accesses to other bytes. An access that leaves the bounds is refused and changes nothing. -/
def Request.Answered (byteAt : Nat → Option UInt8) (memory : Memory) (answer : Answer)
    (after : Memory) : Request → Prop
  | .read address width | .peek address width =>
    if holds memory.size address width then
      ∃ value, answer = .value value ∧
        memory.endianness.Makes byteAt address.toNat width value
    else Refused memory address width answer after
  | .write address width value =>
    if holds memory.size address width then
      answer = .done ∧ after.peek address width = .ok (Bits.wrap (8 * width) value) ∧
        ∀ other (otherWidth : Nat), Apart address width other otherWidth →
          after.peek other otherWidth = memory.peek other otherWidth
    else Refused memory address width answer after
  | .reset => answer = .done
  | .load image =>
    if image.isEmpty then answer = .refused .emptyOrigin ∧ after = memory else answer = .done

/-- What was written is looked at as it was cut, and what is apart from it as before. -/
theorem peek_written (inside : holds memory.size address width = true)
    (written : memory.write address width value = .ok after) :
    after.peek address width = .ok (Bits.wrap (8 * width) value) ∧
      ∀ other (otherWidth : Nat), Apart address width other otherWidth →
        after.peek other otherWidth = memory.peek other otherWidth := by
  obtain ⟨log, bytes, isWritten, sameSize, found⟩ := write_inside inside value
  obtain rfl := Except.ok.inj (isWritten.symm.trans written)
  have sameSize : size { memory with log := log, bytes := bytes } = memory.size := sameSize
  refine ⟨?_, fun other otherWidth apart => ?_⟩
  · obtain ⟨seen, peeked, makes⟩ := peek_inside (sameSize.symm ▸ inside)
    have own : memory.endianness.Makes (bytes[·]?) address.toNat width
        (Bits.wrap (8 * width) value) := by
      obtain ⟨start, rfl, fits⟩ := exists_natCast_of_holds inside
      refine ⟨Bits.wrap_lt _ _, fun place below => ?_⟩
      show bytes[_]? = _
      rw [found, if_pos (by omega), Endianness.byteOf_wrap _ _ below, Int.toNat_natCast,
        Nat.add_sub_cancel_left]
    rw [peeked, makes.unique own]
  · cases inside' : holds memory.size other otherWidth with
    | false => rw [peek_outside inside', peek_outside (sameSize.symm ▸ inside'), sameSize]
    | true =>
      obtain ⟨start, rfl, fits⟩ := exists_natCast_of_holds inside'
      rw [peek_natCast, peek_natCast, sameSize, if_pos fits, if_pos fits]
      congr 2
      apply stretch_congr
      intro place above below
      have outside : ¬(address ≤ place ∧ place < address + width) := by
        unfold Apart at apart
        omega
      rw [found, if_neg outside]

/-- Requests are answered with the bytes of the memory. -/
theorem answered (memory : Memory) (request : Request) :
    request.Answered (memory.bytes[·]?) memory (memory.serve request).1 (memory.serve request).2 := by
  cases request with
  | read address width =>
    cases inside : holds memory.size address width with
    | false =>
      rw [serve_outside inside 0 _ List.mem_cons_self, Request.Answered, if_neg (by simp [inside])]
      exact ⟨rfl, rfl, rfl⟩
    | true =>
      obtain ⟨value, peeked, makes⟩ := peek_inside inside
      rw [Request.Answered, if_pos inside]
      exact ⟨value, by rw [serve, read, peeked]; rfl, makes⟩
  | peek address width =>
    cases inside : holds memory.size address width with
    | false =>
      rw [serve_outside inside 0 _ (by simp), Request.Answered, if_neg (by simp [inside])]
      exact ⟨rfl, rfl, rfl⟩
    | true =>
      obtain ⟨value, peeked, makes⟩ := peek_inside inside
      rw [Request.Answered, if_pos inside]
      exact ⟨value, by rw [serve, peeked], makes⟩
  | write address width value =>
    cases inside : holds memory.size address width with
    | false =>
      rw [serve_outside inside value _ (by simp), Request.Answered, if_neg (by simp [inside])]
      exact ⟨rfl, rfl, rfl⟩
    | true =>
      obtain ⟨log, bytes, written, _⟩ := write_inside inside value
      rw [Request.Answered, if_pos inside, serve, written]
      exact ⟨rfl, peek_written inside written⟩
  | reset => exact rfl
  | load image =>
    cases empty : image.isEmpty with
    | true =>
      rw [Request.Answered, if_pos empty, serve, loadOrigin, if_pos empty]
      exact ⟨rfl, rfl⟩
    | false =>
      rw [Request.Answered, if_neg (by simp [empty]), serve, loadOrigin, if_neg (by simp [empty])]

/-- Memory is a map of bytes: after any requests it holds at each place the byte last written there,
or that of its origin, and the next request is answered with these. Only the latest image decides the
origin and the size. An access that leaves the bounds, whatever its width, is a fault of access. -/
theorem serves_byteMap (order : Endianness) (image : Array UInt8) (tracking : Bool)
    (requests : List Request) (request : Request) :
    let memory := { ofBytes order image with tracking := tracking }.afterRequests requests
    Holds order image requests.reverse memory ∧
      request.Answered (byteAfter order image requests.reverse) memory (memory.serve request).1
        (memory.serve request).2 := by
  intro memory
  have start : Holds order image [] { ofBytes order image with tracking := tracking } :=
    ⟨rfl, rfl, rfl, fun place => rfl⟩
  have made : Holds order image requests.reverse memory :=
    List.append_nil requests.reverse ▸ start.afterRequests requests
  have same : byteAfter order image requests.reverse = (memory.bytes[·]?) :=
    funext fun place => (made.bytes place).symm
  exact ⟨made, same ▸ answered memory request⟩

end Memory

end A64Machine
