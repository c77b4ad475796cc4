import A64Machine.IntelHex
import A64Machine.Proofs.HexText

/-!
# Record lines

A record line is a colon, four numerals of fixed width and a text of bytes between the third and the
fourth. The reader accepts just the lines of this form whose text of bytes is as long as the first
numeral says and whose sum is told by the last one.
-/

namespace A64Machine.IntelHex

open Text

/-- A line is read as a record. Its numerals have two, four, two and two characters, and the text of
bytes has twice as many as the record declares. -/
inductive Reads : List Char → Record → Prop
  | intro {length address type check : List Char} {record : Record}
    (sizes : length.length = 2 ∧ address.length = 4 ∧ type.length = 2 ∧ check.length = 2)
    (lengthRead : IsHexNumeral length record.length)
    (addressRead : IsHexNumeral address record.address)
    (typeRead : IsHexNumeral type record.type)
    (declared : (record.text.length : Int) = record.length * 2)
    (dataRead : IsByteText isByteGap record.text record.data)
    (checkRead : IsHexNumeral check record.checksum) :
    Reads (':' :: (length ++ (address ++ (type ++ (record.text ++ check))))) record

/-! ### The places of the fields -/

/-- The characters of a text from one place up to another. -/
def slice (start stop : Nat) (text : List Char) : List Char := (text.take stop).drop start

/-- The slices of a line are the parts of a record. -/
structure HasFields (line : List Char) (record : Record) : Prop where
  long : 11 ≤ line.length
  lengthRead : IsHexNumeral (slice 1 3 line) record.length
  addressRead : IsHexNumeral (slice 3 7 line) record.address
  typeRead : IsHexNumeral (slice 7 9 line) record.type
  isText : slice 9 (line.length - 2) line = record.text
  checkRead : IsHexNumeral (slice (line.length - 2) line.length line) record.checksum
  declared : (record.text.length : Int) = record.length * 2
  dataRead : IsByteText isByteGap record.text record.data

/-- The reader takes the fields from the slices of a line. -/
theorem readRecord_eq_ok_iff_fields {number : Nat} {line : List Char} {record : Record} :
    readRecord number line = .ok record ↔ HasFields line record := by
  unfold readRecord
  constructor
  · intro read
    split at read
    · cases read
    rename_i long
    simp only [bind_eq_ok, mapError_eq_ok, readNumeral_eq_ok] at read
    obtain ⟨length, lengthRead, address, addressRead, type, typeRead, check, checkRead, read⟩ :=
      read
    split at read
    · cases read
    rename_i declared
    simp only [bind_eq_ok, mapError_eq_ok, readBytes_eq_ok] at read
    obtain ⟨data, dataRead, read⟩ := read
    split at read
    · cases read
    rename_i same
    obtain rfl := Except.ok.inj read
    exact ⟨Nat.le_of_not_lt long, lengthRead, addressRead, typeRead, rfl,
      Decidable.not_not.mp same ▸ checkRead, Decidable.not_not.mp declared, dataRead⟩
  · rintro ⟨long, lengthRead, addressRead, typeRead, isText, checkRead, declared, dataRead⟩
    have field {start stop : Nat} {value : Int}
        (isRead : IsHexNumeral (slice start stop line) value) :
        (readNumeral 16 (String.ofList ((line.take stop).drop start))).mapError
          (RecordError.numeral number line) = .ok value :=
      mapError_eq_ok.mpr (readNumeral_eq_ok.mpr isRead)
    have data : (readBytes record.text).mapError (RecordError.data number line) =
        .ok record.data :=
      mapError_eq_ok.mpr (readBytes_eq_ok.mpr dataRead)
    rw [slice] at isText
    rw [if_neg (Nat.not_lt.mpr long)]
    simp only [field lengthRead, field addressRead, field typeRead, field checkRead, isText, data]
    have kept := Decidable.not_not.mpr declared
    simp only [bind, Except.bind, if_neg kept]
    exact if_neg fun differs => differs rfl

/-- A part in the middle of a text is the slice at its place. -/
theorem slice_append {front middle behind : List Char} {start stop : Nat}
    (isStart : start = front.length) (isStop : stop = start + middle.length) :
    slice start stop (front ++ (middle ++ behind)) = middle := by
  subst isStart isStop
  rw [slice, ← List.append_assoc, ← List.length_append, List.take_left, List.drop_left]

/-- A text from one place on is the slice up to a second place and the text from there on. -/
theorem drop_eq_slice_append {start stop : Nat} (text : List Char) (ordered : start ≤ stop) :
    text.drop start = slice start stop text ++ text.drop stop := by
  have behind : text.drop stop = (text.drop start).drop (stop - start) := by
    rw [List.drop_drop, Nat.add_sub_cancel' ordered]
  rw [slice, List.drop_take, behind, List.take_append_drop]

theorem length_slice {start stop : Nat} {text : List Char} (inside : stop ≤ text.length) :
    (slice start stop text).length = stop - start := by
  rw [slice, List.length_drop, List.length_take, Nat.min_eq_left inside]

/-- A line of a colon and enough characters is cut at the places of the fields. -/
theorem fields_append {line : List Char} (starts : line.head? = some ':')
    (long : 11 ≤ line.length) :
    line = ':' :: (slice 1 3 line ++ (slice 3 7 line ++ (slice 7 9 line ++
      (slice 9 (line.length - 2) line ++ slice (line.length - 2) line.length line)))) := by
  have last : slice (line.length - 2) line.length line = line.drop (line.length - 2) := by
    rw [slice, List.take_length]
  rw [last, ← drop_eq_slice_append line (by omega : 9 ≤ line.length - 2),
    ← drop_eq_slice_append line (by omega : 7 ≤ 9), ← drop_eq_slice_append line (by omega : 3 ≤ 7),
    ← drop_eq_slice_append line (by omega : 1 ≤ 3)]
  cases line with
  | nil => cases starts
  | cons c rest =>
    obtain rfl := Option.some.inj starts
    rfl

/-- The slices of a line that is made of parts of the right sizes are the parts. -/
theorem hasFields_iff {length address type text check : List Char} {record : Record}
    (sizes : length.length = 2 ∧ address.length = 4 ∧ type.length = 2 ∧ check.length = 2) :
    HasFields (':' :: (length ++ (address ++ (type ++ (text ++ check))))) record ↔
      text = record.text ∧ IsHexNumeral length record.length ∧
        IsHexNumeral address record.address ∧ IsHexNumeral type record.type ∧
        (text.length : Int) = record.length * 2 ∧ IsByteText isByteGap text record.data ∧
        IsHexNumeral check record.checksum := by
  obtain ⟨two, four, two', two''⟩ := sizes
  generalize whole : ':' :: (length ++ (address ++ (type ++ (text ++ check)))) = line
  have total : line.length = 11 + text.length := by
    rw [← whole]
    simp only [List.length_cons, List.length_append]
    omega
  have first : slice 1 3 line = length := by
    rw [← whole]
    exact @slice_append [':'] _ _ _ _ rfl (by omega)
  have second : slice 3 7 line = address := by
    rw [← whole, ← List.cons_append]
    exact slice_append (by simp [two]) (by omega)
  have third : slice 7 9 line = type := by
    rw [← whole, ← List.append_assoc, ← List.cons_append]
    exact slice_append (by simp [two, four]) (by omega)
  have fourth : slice 9 (line.length - 2) line = text := by
    rw [total, ← whole, ← List.append_assoc, ← List.append_assoc, ← List.cons_append]
    exact slice_append (by simp [two, four, two']) (by omega)
  have fifth : slice (line.length - 2) line.length line = check := by
    rw [slice, List.take_length, total, ← whole, ← List.append_assoc, ← List.append_assoc,
      ← List.append_assoc, ← List.cons_append]
    refine List.drop_left' ?_
    simp only [List.length_cons, List.length_append]
    omega
  constructor
  · rintro ⟨_, lengthRead, addressRead, typeRead, isText, checkRead, declared, dataRead⟩
    rw [fourth] at isText
    rw [← isText] at declared dataRead
    exact ⟨isText, first ▸ lengthRead, second ▸ addressRead, third ▸ typeRead, declared, dataRead,
      fifth ▸ checkRead⟩
  · rintro ⟨rfl, lengthRead, addressRead, typeRead, declared, dataRead, checkRead⟩
    exact ⟨by omega, first.symm ▸ lengthRead, second.symm ▸ addressRead, third.symm ▸ typeRead,
      fourth, fifth.symm ▸ checkRead, declared, dataRead⟩

/-- Records are read from the lines that have their form, and from no others. -/
theorem readRecord_eq_ok {number : Nat} {line : List Char} {record : Record}
    (starts : line.head? = some ':') :
    readRecord number line = .ok record ↔ Reads line record := by
  rw [readRecord_eq_ok_iff_fields]
  constructor
  · rintro ⟨long, lengthRead, addressRead, typeRead, isText, checkRead, declared, dataRead⟩
    have parts := fields_append starts long
    rw [isText] at parts
    rw [parts]
    exact .intro ⟨length_slice (by omega), length_slice (by omega), length_slice (by omega),
      (length_slice (Nat.le_refl _)).trans (by omega)⟩ lengthRead addressRead typeRead declared
      dataRead checkRead
  · rintro ⟨sizes, lengthRead, addressRead, typeRead, declared, dataRead, checkRead⟩
    exact (hasFields_iff sizes).mpr
      ⟨rfl, lengthRead, addressRead, typeRead, declared, dataRead, checkRead⟩

theorem Reads.starts {line : List Char} {record : Record} (reads : Reads line record) :
    line.head? = some ':' := by
  cases reads
  rfl

/-- A line is not read as two records. -/
theorem Reads.unique {line : List Char} {record record' : Record} (reads : Reads line record)
    (reads' : Reads line record') : record = record' := by
  have read := (@readRecord_eq_ok 0 _ _ reads.starts).mpr reads
  rw [(readRecord_eq_ok reads.starts).mpr reads'] at read
  exact (Except.ok.inj read).symm

/-- The number of data bytes that a record declares tells the number of characters of its line. Its
bytes are fewer by half the number of gaps in their text. -/
theorem Reads.exists_declared {line : List Char} {record : Record} (reads : Reads line record) :
    ∃ declared : Nat, record.length = declared ∧ line.length = 11 + 2 * declared ∧
      2 * record.data.length + record.text.countP isByteGap = 2 * declared := by
  obtain ⟨sizes, _, _, _, declared, dataRead, _⟩ := reads
  have size := dataRead.length_eq
  refine ⟨record.length.toNat, by omega, ?_, by omega⟩
  simp only [List.length_cons, List.length_append]
  omega

/-- Behind the colon are hexadecimal digits, and characters that the reader lets through beside
them. -/
theorem Reads.mem {line : List Char} {record : Record} (reads : Reads line record) :
    ∀ c ∈ line.tail, Lexeme.isHexDigit c = true ∨ IsLenient c := by
  obtain ⟨_, lengthRead, addressRead, typeRead, _, dataRead, checkRead⟩ := reads
  simp only [List.tail_cons, List.mem_append]
  rintro c (inside | inside | inside | inside | inside)
  · exact lengthRead.mem c inside
  · exact addressRead.mem c inside
  · exact typeRead.mem c inside
  · exact (dataRead.mem c inside).imp_right .of_isByteGap
  · exact checkRead.mem c inside

/-! ### Records in pairs of digits -/

/-- The sum of bytes. -/
def byteSum : List UInt8 → Nat
  | [] => 0
  | byte :: rest => byte.toNat + byteSum rest

/-- The sum of bytes is a multiple of 256. -/
def Balanced (bytes : List UInt8) : Prop := byteSum bytes % 256 = 0

theorem byteSum_append (front back : List UInt8) :
    byteSum (front ++ back) = byteSum front + byteSum back := by
  induction front with
  | nil => exact (Nat.zero_add _).symm
  | cons byte rest ih => rw [List.cons_append, byteSum, byteSum, ih, Nat.add_assoc]

theorem foldl_toNat (data : List UInt8) (total : Nat) :
    data.foldl (fun total byte => total + byte.toNat) total = total + byteSum data := by
  induction data generalizing total with
  | nil => rfl
  | cons byte rest ih => rw [List.foldl_cons, ih, byteSum, Nat.add_assoc]

variable {length high low type checksum : UInt8} {data : List UInt8} {digits text : List Char}

/-- The record whose parts are bytes. -/
def recordOf (length high low type : UInt8) (text : List Char) (data : List UInt8) : Record :=
  ⟨length.toNat, joinBytes 0 [high, low], type.toNat, text, data⟩

/-- The checksum of a record is the byte that balances the others. -/
theorem checksum_recordOf :
    ((recordOf length high low type text data).checksum : Int) = checksum.toNat ↔
      Balanced (length :: high :: low :: type :: (data ++ [checksum])) := by
  have small := checksum.toNat_lt
  have lowSmall := low.toNat_lt
  simp only [Record.checksum, recordOf, Balanced, joinBytes, foldl_toNat, List.foldl_cons,
    List.foldl_nil, byteSum, byteSum_append]
  omega

/-- The pairs of digits of a record are parts for its fields. -/
theorem exists_parts
    (spells : Spells digits (length :: high :: low :: type :: (data ++ [checksum]))) :
    ∃ first second third text last, digits = first ++ (second ++ (third ++ (text ++ last))) ∧
      Spells first [length] ∧ Spells second [high, low] ∧ Spells third [type] ∧
      Spells text data ∧ Spells last [checksum] := by
  obtain ⟨first, rest, rfl, here, spells⟩ :=
    @Spells.exists_append _ [length] (high :: low :: type :: (data ++ [checksum])) spells
  obtain ⟨second, rest, rfl, here', spells⟩ :=
    @Spells.exists_append _ [high, low] (type :: (data ++ [checksum])) spells
  obtain ⟨third, rest, rfl, here'', spells⟩ :=
    @Spells.exists_append _ [type] (data ++ [checksum]) spells
  obtain ⟨text, last, rfl, inside, there⟩ := spells.exists_append
  exact ⟨first, second, third, text, last, rfl, here, here', here'', inside, there⟩

/-- A line of a colon and pairs of digits is read if the first byte is the number of data bytes and
the bytes are balanced, and only then. -/
theorem reads_iff_of_spells
    (spells : Spells digits (length :: high :: low :: type :: (data ++ [checksum]))) :
    ∃ text, Spells text data ∧ ∀ record, Reads (':' :: digits) record ↔
      data.length = length.toNat ∧
        Balanced (length :: high :: low :: type :: (data ++ [checksum])) ∧
        record = recordOf length high low type text data := by
  obtain ⟨first, second, third, text, last, rfl, here, here', here'', inside, there⟩ :=
    exists_parts spells
  -- The parts are numerals for their bytes, so no record with other fields is read.
  have sizes : first.length = 2 ∧ second.length = 4 ∧ third.length = 2 ∧ last.length = 2 :=
    ⟨here.length_eq, here'.length_eq, here''.length_eq, there.length_eq⟩
  have size := inside.length_eq
  have lengthRead : IsHexNumeral first length.toNat := by simpa [joinBytes] using here.isHexNumeral
  have addressRead := here'.isHexNumeral (by simp)
  have typeRead : IsHexNumeral third type.toNat := by simpa [joinBytes] using here''.isHexNumeral
  have checkRead : IsHexNumeral last checksum.toNat := by
    simpa [joinBytes] using there.isHexNumeral
  refine ⟨text, inside, fun record => ?_⟩
  rw [← @readRecord_eq_ok 0 _ _ rfl, readRecord_eq_ok_iff_fields, hasFields_iff sizes]
  constructor
  · rintro ⟨isText, lengthRead', addressRead', typeRead', declared, dataRead, checkRead'⟩
    have same : record = recordOf length high low type text data := by
      cases record
      rw [recordOf, Record.mk.injEq]
      exact ⟨lengthRead'.unique lengthRead, addressRead'.unique addressRead,
        typeRead'.unique typeRead, isText.symm, dataRead.unique inside.isByteText⟩
    subst same
    have declared : (text.length : Int) = length.toNat * 2 := declared
    exact ⟨by omega, checksum_recordOf.mp (checkRead'.unique checkRead), rfl⟩
  · rintro ⟨declared, balanced, rfl⟩
    refine ⟨rfl, lengthRead, addressRead, typeRead, ?_, inside.isByteText, ?_⟩
    · show (text.length : Int) = length.toNat * 2
      omega
    · rw [checksum_recordOf.mpr balanced]
      exact checkRead

/-! ### The record on a line -/

/-- A line shows bytes: a colon and their pairs of digits, with blanks around them, and behind them
there may be a comment. -/
inductive Shows : List Char → List UInt8 → Prop
  | intro {before digits behind comment : List Char} {bytes : List UInt8}
    (blankBefore : ∀ c ∈ before, isBlank c = true) (blankBehind : ∀ c ∈ behind, isBlank c = true)
    (isComment : comment = [] ∨ comment.head? = some ';') (spells : Spells digits bytes) :
    Shows (before ++ (':' :: digits ++ (behind ++ comment))) bytes

/-- A line ends the image if it is read as a record of type one. -/
def EndsImage (line : List Char) : Prop :=
  ∃ text record, recordText? line = some text ∧ Reads text record ∧ record.type = 1

/-- A colon stays when the blanks around it are removed. -/
theorem trimBlanks_colon {before : List Char} (blankBefore : ∀ c ∈ before, isBlank c = true)
    (behind : List Char) :
    trimBlanks (before ++ ':' :: behind) = ':' :: dropEndWhile isBlank behind := by
  rw [trimBlanks, List.dropWhile_append_of_pos blankBefore,
    List.dropWhile_cons_of_neg (by decide)]
  exact @dropEndWhile_append isBlank ':' (by decide) [] behind

/-- What stands for a record on a line begins with a colon. -/
theorem head_recordText? {line text : List Char} (holds : recordText? line = some text) :
    text.head? = some ':' := by
  unfold recordText? at holds
  simp only at holds
  generalize trimBlanks line = trimmed at holds
  split at holds
  · rename_i starts
    split at holds
    · cases trimmed with
      | nil => cases starts
      | cons c rest =>
        obtain rfl := Option.some.inj starts
        obtain rfl := Option.some.inj holds
        have kept : (':' :: rest).takeWhile (· != ';') = ':' :: rest.takeWhile (· != ';') := rfl
        rw [kept, ← List.nil_append (':' :: _), trimBlanks_colon (by simp)]
        rfl
    · obtain rfl := Option.some.inj holds
      exact starts
  · cases holds

/-- Pairs of digits and blanks begin no comment. -/
theorem noComment {behind : List Char} {bytes : List UInt8} (spells : Spells digits bytes)
    (blankBehind : ∀ c ∈ behind, isBlank c = true) :
    ∀ c ∈ ':' :: (digits ++ behind), (c != ';') = true := by
  refine List.forall_mem_cons.mpr ⟨rfl, fun c inside => bne_iff_ne.mpr ?_⟩
  rintro rfl
  rcases List.mem_append.mp inside with inside | inside
  · exact absurd (spells.isHexDigit _ inside) (by decide)
  · exact absurd (blankBehind _ inside) (by decide)

/-- What stands for a record on a line that shows bytes are the digits that it shows. -/
theorem Shows.recordText? {line : List Char} {bytes : List UInt8} (shows : Shows line bytes) :
    ∃ digits, recordText? line = some (':' :: digits) ∧ Spells digits bytes := by
  obtain ⟨blankBefore, blankBehind, isComment, spells⟩ := shows
  rename_i before digits behind comment
  have plain := noComment spells blankBehind
  have unblank : dropEndWhile isBlank (digits ++ behind) = digits := by
    rw [dropEndWhile_append_of_pos blankBehind]
    refine dropEndWhile_of_none fun c inside => ?_
    obtain ⟨digit, known⟩ :=
      Option.isSome_iff_exists.mp (baseDigit?_hex (spells.isHexDigit c inside))
    exact not_blank_of_baseDigit? known
  refine ⟨digits, ?_, spells⟩
  rw [IntelHex.recordText?, List.cons_append, trimBlanks_colon blankBefore]
  cases comment with
  | nil =>
    have none : ¬(':' :: digits).contains ';' = true := by
      intro inside
      have among : ';' ∈ ':' :: (digits ++ behind) :=
        List.cons_subset_cons _ (List.subset_append_left ..) (List.contains_iff_mem.mp inside)
      exact bne_iff_ne.mp (plain ';' among) rfl
    rw [List.append_nil, unblank]
    exact (if_pos rfl).trans (if_neg none)
  | cons c comment =>
    obtain rfl : c = ';' := by simpa using isComment
    have cut : (':' :: (digits ++ (behind ++ ';' :: dropEndWhile isBlank comment))).takeWhile
        (· != ';') = ':' :: (digits ++ behind) := by
      rw [← List.append_assoc, ← List.cons_append, List.takeWhile_append_of_pos plain]
      simp
    rw [← List.append_assoc, dropEndWhile_append (by decide), List.append_assoc]
    simp only [cut]
    rw [List.head?_cons, if_pos rfl, if_pos (List.contains_iff_mem.mpr (by simp)),
      ← List.nil_append (':' :: (digits ++ behind)), trimBlanks_colon (by simp), unblank]

end A64Machine.IntelHex
