import A64Machine.Proofs.Bits
import A64Machine.Proofs.RecordText

/-!
# The loading of records

Each data record places its bytes from an address on, which depends on the latest record that set
the base, and a record of type one ends the image. Records in pairs of digits are loaded if every
byte is placed inside of the image, and then the image differs from the old one in these bytes only.
A change of one byte of such a record is found. What is accepted beside such records is said by the
form of the lines that are read.
-/

namespace A64Machine.IntelHex

open Text

/-! ### Bytes in an image -/

/-- An image after bytes were stored at their places in turn. -/
def put (image : Array UInt8) (entries : List (UInt8 × Nat)) : Array UInt8 :=
  entries.foldl (fun image entry => image.setIfInBounds entry.2 entry.1) image

theorem put_append (image : Array UInt8) (entries later : List (UInt8 × Nat)) :
    put image (entries ++ later) = put (put image entries) later :=
  List.foldl_append ..

@[simp] theorem size_put (image : Array UInt8) (entries : List (UInt8 × Nat)) :
    (put image entries).size = image.size := by
  induction entries generalizing image with
  | nil => rfl
  | cons entry rest ih =>
    rw [put, List.foldl_cons]
    exact (ih _).trans (Array.size_setIfInBounds ..)

/-- A place at which nothing is stored keeps its byte. -/
theorem getElem?_put {image : Array UInt8} {entries : List (UInt8 × Nat)} {place : Nat}
    (untouched : ∀ entry ∈ entries, entry.2 ≠ place) :
    (put image entries)[place]? = image[place]? := by
  induction entries generalizing image with
  | nil => rfl
  | cons entry rest ih =>
    obtain ⟨here, later⟩ := List.forall_mem_cons.mp untouched
    rw [put, List.foldl_cons]
    exact (ih later).trans (Array.getElem?_setIfInBounds_ne here)

/-- All bytes are placed inside of an image. -/
def Inside (size : Nat) (entries : List (UInt8 × Nat)) : Prop := ∀ entry ∈ entries, entry.2 < size

theorem inside_nil (size : Nat) : Inside size [] := List.forall_mem_nil _

/-- Bytes outside of an image are not stored. -/
theorem put_outside {image : Array UInt8} {entries : List (UInt8 × Nat)}
    (outside : ∀ entry ∈ entries, image.size ≤ entry.2) : put image entries = image := by
  induction entries with
  | nil => rfl
  | cons entry rest ih =>
    obtain ⟨here, later⟩ := List.forall_mem_cons.mp outside
    rw [put, List.foldl_cons, Array.setIfInBounds_eq_of_size_le here]
    exact ih later

/-- Storing puts the bytes at successive places, and succeeds if all of them are inside. -/
theorem store_spec (number : Nat) (image : Array UInt8) (address : Nat) (data : List UInt8) :
    ((store number image address data).1 = .ok () ↔ Inside image.size (data.zipIdx address)) ∧
      (store number image address data).2 = put image (data.zipIdx address) := by
  induction data generalizing image address with
  | nil => exact ⟨iff_of_true rfl (inside_nil _), rfl⟩
  | cons byte rest ih =>
    rw [store, List.zipIdx_cons, Inside, List.forall_mem_cons]
    split
    · rename_i here
      obtain ⟨succeeds, stored⟩ := ih (image.setIfInBounds address byte) (address + 1)
      rw [Array.size_setIfInBounds] at succeeds
      exact ⟨succeeds.trans (and_iff_right here).symm, stored⟩
    · rename_i outside
      refine ⟨iff_of_false (by simp) fun inside => outside inside.1, ?_⟩
      -- The places behind the first one outside are outside as well.
      refine (put_outside fun entry among => ?_).symm
      rcases List.mem_cons.mp among with rfl | among
      · exact Nat.not_lt.mp outside
      · have behind := List.le_snd_of_mem_zipIdx among
        exact Nat.le_trans (Nat.not_lt.mp outside) (Nat.le_of_succ_le behind)

/-! ### What a record does -/

/-- The bytes of a record: a sum that is a multiple of 256, one of the known types, and two data
bytes if the record sets the base. -/
structure RecordBytes where
  high : UInt8
  low : UInt8
  type : UInt8
  data : List UInt8
  checksum : UInt8
  short : data.length < 256
  known : type ∈ [0, 1, 3, 5] ∨ type ∈ [2, 4] ∧ data.length = 2
  balanced : Balanced (UInt8.ofNat data.length :: high :: low :: type :: (data ++ [checksum]))

namespace RecordBytes

/-- All bytes of a record in order, of which the first is the number of data bytes. -/
def bytes (record : RecordBytes) : List UInt8 :=
  UInt8.ofNat record.data.length :: record.high :: record.low :: record.type ::
    (record.data ++ [record.checksum])

/-- The bytes that a record stores and their places, from the base before it. -/
def entries (record : RecordBytes) (base : Nat) : List (UInt8 × Nat) :=
  if record.type = 0 then
    record.data.zipIdx ((base + joinBytes 0 [record.high, record.low]) % 2 ^ 32)
  else []

/-- The base after a record, from the base before it. -/
def rebase (record : RecordBytes) (base : Nat) : Nat :=
  if record.type = 4 then joinBytes 0 record.data * 2 ^ 16
  else if record.type = 2 then joinBytes 0 record.data * 2 ^ 4
  else base

end RecordBytes

/-- The bytes that records store and their places, from a base on. A record of type one ends the
image. -/
def placed : (base : Nat) → List RecordBytes → List (UInt8 × Nat)
  | _, [] => []
  | base, record :: rest =>
    if record.type = 1 then [] else record.entries base ++ placed (record.rebase base) rest

/-- A line that shows the bytes of a record. -/
structure RecordLine where
  line : String
  record : RecordBytes
  shows : Shows line.toList record.bytes

/-- What a record line is read as. -/
theorem RecordLine.exists_reads (shown : RecordLine) :
    ∃ digits text, recordText? shown.line.toList = some (':' :: digits) ∧
      Spells text shown.record.data ∧
      Reads (':' :: digits) (recordOf (UInt8.ofNat shown.record.data.length) shown.record.high
        shown.record.low shown.record.type text shown.record.data) := by
  obtain ⟨digits, holds, spells⟩ := shown.shows.recordText?
  obtain ⟨text, inside, reads⟩ := reads_iff_of_spells spells
  refine ⟨digits, text, holds, inside, (reads _).mpr ⟨?_, shown.record.balanced, rfl⟩⟩
  rw [UInt8.toNat_ofNat', Nat.mod_eq_of_lt shown.record.short]

variable {image : Array UInt8} {base number : Nat} {text : List Char} {length : UInt8}

/-- Pairs of digits set the base to the number of their bytes, shifted left. -/
theorem baseAddress_of_spells {record : Record} {data : List UInt8}
    (spells : Spells record.text data) (some : data ≠ []) (shift : Nat) :
    baseAddress record shift = .ok ((joinBytes 0 data * 2 ^ shift : Nat) : Int) := by
  rw [baseAddress, readNumeral_eq_ok.mpr (spells.isHexNumeral some), Int.natCast_mul]
  rfl

/-- A data record stores its bytes if all of them are inside of the image. -/
theorem applyRecord_data {progress : Progress} {record : Record} (isData : record.type = 0) :
    let entries := record.data.zipIdx (Bits.wrap 32 (progress.base + record.address))
    (Inside progress.image.size entries →
      applyRecord number progress record =
        (.ok false, { progress with image := put progress.image entries })) ∧
      (¬Inside progress.image.size entries →
        ∃ error after, applyRecord number progress record = (.error error, after)) := by
  intro entries
  obtain ⟨succeeds, stored⟩ := store_spec number progress.image
    (Bits.wrap 32 (progress.base + record.address)) record.data
  simp only [applyRecord, if_pos isData]
  generalize store number progress.image (Bits.wrap 32 (progress.base + record.address))
    record.data = outcome at succeeds stored ⊢
  obtain ⟨result, after⟩ := outcome
  cases result with
  | ok =>
    exact ⟨fun _ => by rw [← stored]; rfl, fun outside => absurd (succeeds.mp rfl) outside⟩
  | error error =>
    exact ⟨fun inside => absurd (succeeds.mpr inside) (by simp), fun _ => ⟨error, _, rfl⟩⟩

/-- A record of type one ends the image. -/
theorem applyRecord_end {progress : Progress} {record : Record} (isEnd : record.type = 1) :
    applyRecord number progress record = (.ok true, progress) := by
  simp [applyRecord, isEnd]

/-- A base record sets the base. -/
theorem applyRecord_base {progress : Progress} {record : Record} {shift : Nat} {value : Int}
    (isBase : record.type = 4 ∧ shift = 16 ∨ record.type = 2 ∧ shift = 4)
    (read : baseAddress record shift = .ok value) :
    applyRecord number progress record = (.ok false, { progress with base := value }) := by
  rcases isBase with ⟨four, rfl⟩ | ⟨two, rfl⟩
  · simp [applyRecord, four, read]
  · simp [applyRecord, two, read]

/-- A record of bytes that does not end the image stores its bytes and sets the base, if all of its
bytes are inside of the image. -/
theorem applyRecord_recordOf (record : RecordBytes) (goesOn : record.type ≠ 1)
    (spells : Spells text record.data) :
    let read := recordOf length record.high record.low record.type text record.data
    (Inside image.size (record.entries base) →
      applyRecord number ⟨image, base⟩ read =
        (.ok false, ⟨put image (record.entries base), record.rebase base⟩)) ∧
      (¬Inside image.size (record.entries base) →
        ∃ error progress, applyRecord number ⟨image, base⟩ read = (.error error, progress)) := by
  obtain ⟨high, low, type, data, checksum, short, known, balanced⟩ := record
  simp only [List.mem_cons, List.not_mem_nil, or_false] at known
  rcases known with (rfl | rfl | rfl | rfl) | ⟨rfl | rfl, two⟩
  · have placed : Bits.wrap 32 ((base : Int) + (joinBytes 0 [high, low] : Nat)) =
        (base + joinBytes 0 [high, low]) % 2 ^ 32 := by
      rw [← Int.natCast_add, Bits.wrap_natCast]
    have stores := @applyRecord_data number ⟨image, base⟩ (recordOf length high low 0 text data) rfl
    simp only [recordOf, placed] at stores
    exact stores
  · contradiction
  · exact ⟨fun _ => rfl, absurd (inside_nil _)⟩
  · exact ⟨fun _ => rfl, absurd (inside_nil _)⟩
  all_goals
    refine ⟨fun _ => ?_, absurd (inside_nil _)⟩
    have some : data ≠ [] := by
      rintro rfl
      contradiction
  · exact applyRecord_base (.inr ⟨rfl, rfl⟩) (baseAddress_of_spells spells some 4)
  · exact applyRecord_base (.inl ⟨rfl, rfl⟩) (baseAddress_of_spells spells some 16)

/-! ### Runs over lines -/

/-- Record lines are loaded if all of their bytes are inside of the image, and then these bytes are
stored in turn. -/
theorem loadFrom_records (records : List RecordLine) :
    let entries := placed base (records.map RecordLine.record)
    let outcome := loadFrom ⟨image, base⟩ number (records.map RecordLine.line)
    (outcome.1 = .ok () ↔ Inside image.size entries) ∧
      (outcome.1 = .ok () → outcome.2 = put image entries) := by
  induction records generalizing image base number with
  | nil => exact ⟨iff_of_true rfl (inside_nil _), fun _ => rfl⟩
  | cons shown rest ih =>
    obtain ⟨digits, text, holds, spells, reads⟩ := shown.exists_reads
    have read := (@readRecord_eq_ok number _ _ rfl).mpr reads
    simp only [List.map_cons, loadFrom, holds, read, placed]
    by_cases ends : shown.record.type = 1
    · rw [applyRecord_end (by rw [recordOf, ends]; rfl), if_pos ends]
      exact ⟨iff_of_true rfl (inside_nil _), fun _ => rfl⟩
    · rw [if_neg ends, Inside, List.forall_mem_append, put_append]
      obtain ⟨stores, refuses⟩ := applyRecord_recordOf shown.record ends spells
      by_cases inside : Inside image.size (shown.record.entries base)
      · rw [stores inside]
        obtain ⟨succeeds, stored⟩ := @ih (put image (shown.record.entries base))
          (shown.record.rebase base) (number + 1)
        rw [size_put] at succeeds
        exact ⟨succeeds.trans (and_iff_right inside).symm, stored⟩
      · obtain ⟨error, progress, refused⟩ := refuses inside
        rw [refused]
        exact ⟨iff_of_false (by simp) fun within => inside within.1,
          fun same => absurd same (by simp)⟩

/-- Only a record of type one ends the image. -/
theorem type_of_applyRecord {progress after : Progress} {record : Record}
    (ended : applyRecord number progress record = (.ok true, after)) : record.type = 1 := by
  unfold applyRecord at ended
  split at ended
  · obtain ⟨_, _, same⟩ := map_eq_ok.mp (congrArg Prod.fst ended)
    contradiction
  · split at ended
    · assumption
    · simp only at ended
      split at ended
      · split at ended <;> cases ended
      · split at ended
        · split at ended <;> cases ended
        · split at ended <;> cases ended

/-- Lines that do not end the image either have an error or are gone through, whatever follows
them. -/
theorem loadFrom_before {progress : Progress} {before : List String}
    (goesOn : ∀ line ∈ before, ¬EndsImage line.toList) :
    (∃ error image, ∀ rest, loadFrom progress number (before ++ rest) = (.error error, image)) ∨
      ∃ later, ∀ rest, loadFrom progress number (before ++ rest) =
        loadFrom later (number + before.length) rest := by
  induction before generalizing progress number with
  | nil => exact .inr ⟨progress, fun _ => rfl⟩
  | cons line before ih =>
    obtain ⟨here, later⟩ := List.forall_mem_cons.mp goesOn
    have shift : number + (line :: before).length = number + 1 + before.length := by
      rw [List.length_cons]
      omega
    simp only [List.cons_append, loadFrom, shift]
    cases holds : recordText? line.toList with
    | none => exact ih later
    | some text =>
      cases read : readRecord number text with
      | error error =>
        simp only [read]
        exact .inl ⟨error, _, fun _ => rfl⟩
      | ok record =>
        simp only [read]
        generalize applied : applyRecord number progress record = outcome
        match outcome with
        | (.error error, _) => exact .inl ⟨error, _, fun _ => rfl⟩
        | (.ok false, _) => exact ih later
        | (.ok true, _) =>
          have reads := (readRecord_eq_ok (head_recordText? holds)).mp read
          exact absurd ⟨text, record, holds, reads, type_of_applyRecord applied⟩ here

/-- A record line ends the image if its record is of type one. -/
theorem RecordLine.endsImage_iff (shown : RecordLine) :
    EndsImage shown.line.toList ↔ shown.record.type = 1 := by
  obtain ⟨digits, text, holds, _, reads⟩ := shown.exists_reads
  constructor
  · rintro ⟨text', record, holds', reads', isEnd⟩
    obtain rfl := Option.some.inj (holds.symm.trans holds')
    rw [reads'.unique reads] at isEnd
    have same : (shown.record.type.toNat : Int) = 1 := isEnd
    exact UInt8.toNat_inj.mp (Int.ofNat.inj same)
  · intro isEnd
    refine ⟨_, _, holds, reads, ?_⟩
    rw [recordOf, isEnd]
    rfl

/-! ### Changed bytes -/

/-- Bytes of which one is changed have another sum. -/
theorem not_balanced_of_ne {front back : List UInt8} {old new : UInt8}
    (balanced : Balanced (front ++ old :: back)) (changed : new ≠ old) :
    ¬Balanced (front ++ new :: back) := by
  intro balanced'
  have differ : new.toNat ≠ old.toNat := fun same => changed (UInt8.toNat_inj.mp same)
  have small := new.toNat_lt
  have small' := old.toNat_lt
  simp only [Balanced, byteSum_append, byteSum] at balanced balanced'
  omega

/-- Five bytes or more are four of them, others and a last one. -/
theorem exists_form {bytes : List UInt8} (long : 5 ≤ bytes.length) :
    ∃ length high low type data checksum,
      bytes = length :: high :: low :: type :: (data ++ [checksum]) := by
  match bytes, long with
  | length :: high :: low :: type :: last :: rest, _ =>
    have split := List.dropLast_concat_getLast (List.cons_ne_nil last rest)
    exact ⟨length, high, low, type, _, _, by rw [split]⟩

/-- A line that shows bytes of another sum is not read. -/
theorem not_reads_of_not_balanced {line : List Char} {bytes : List UInt8}
    (shows : Shows line bytes) (long : 5 ≤ bytes.length) (unbalanced : ¬Balanced bytes) :
    ∃ text, recordText? line = some text ∧ ∀ record, ¬Reads text record := by
  obtain ⟨length, high, low, type, data, checksum, rfl⟩ := exists_form long
  obtain ⟨digits, holds, spells⟩ := shows.recordText?
  obtain ⟨_, _, reads⟩ := reads_iff_of_spells spells
  exact ⟨_, holds, fun record isRead => unbalanced ((reads record).mp isRead).2.1⟩

/-- Loading fails at a line that is not read, if it does not fail before. -/
theorem loadFrom_unread {progress : Progress} {before after : List String} {line : String}
    (goesOn : ∀ earlier ∈ before, ¬EndsImage earlier.toList)
    (holds : recordText? line.toList = some text) (unread : ∀ record, ¬Reads text record) :
    ∃ error, (loadFrom progress number (before ++ line :: after)).1 = .error error := by
  rcases @loadFrom_before number progress before goesOn with
    ⟨error, _, failed⟩ | ⟨later, goneThrough⟩
  · exact ⟨error, by rw [failed]⟩
  · rw [goneThrough]
    simp only [loadFrom, holds]
    cases read : readRecord (number + before.length) text with
    | error error => exact ⟨error, rfl⟩
    | ok record =>
      exact absurd ((readRecord_eq_ok (head_recordText? holds)).mp read) (unread record)

/-- A line shows the bytes of a record, of which one is changed. -/
def RecordBytes.ChangedIn (record : RecordBytes) (line : String) : Prop :=
  ∃ front old back new, record.bytes = front ++ old :: back ∧ new ≠ old ∧
    Shows line.toList (front ++ new :: back)

/-- A record of which one byte is changed is not loaded. -/
theorem load_changed {before after : List RecordLine} {shown : RecordLine} {line : String}
    (noEnd : ∀ earlier ∈ before, earlier.record.type ≠ 1) (changed : shown.record.ChangedIn line) :
    ∃ error, (load (before.map RecordLine.line ++ line :: after.map RecordLine.line) image).1 =
      .error error := by
  obtain ⟨front, old, back, new, isBytes, differs, shows⟩ := changed
  have balanced : Balanced (front ++ old :: back) := isBytes ▸ shown.record.balanced
  have long : 5 ≤ (front ++ new :: back).length := by
    have size := congrArg List.length isBytes
    simp only [RecordBytes.bytes, List.length_cons, List.length_append, List.length_nil] at size ⊢
    omega
  obtain ⟨text, holds, unread⟩ :=
    not_reads_of_not_balanced shows long (not_balanced_of_ne balanced differs)
  refine loadFrom_unread ?_ holds unread
  rintro _ inside
  obtain ⟨earlier, among, rfl⟩ := List.mem_map.mp inside
  exact fun ends => noEnd earlier among (earlier.endsImage_iff.mp ends)

/-- Record lines are loaded if every byte that is placed before the first record of type one is
inside of the image, and then the image is the old one with these bytes stored in turn. If one byte
of a record up to this one is changed, loading fails. -/
theorem load_recordLines (records : List RecordLine) (image : Array UInt8) :
    let entries := placed 0 (records.map RecordLine.record)
    let outcome := load (records.map RecordLine.line) image
    (outcome.1 = .ok () ↔ Inside image.size entries) ∧
      (outcome.1 = .ok () → outcome.2 = put image entries ∧
        ∀ place, (∀ entry ∈ entries, entry.2 ≠ place) → outcome.2[place]? = image[place]?) ∧
      ∀ before shown after line, records = before ++ shown :: after →
        (∀ earlier ∈ before, earlier.record.type ≠ 1) → shown.record.ChangedIn line →
        ∃ error, (load (before.map RecordLine.line ++ line :: after.map RecordLine.line) image).1 =
          .error error := by
  obtain ⟨succeeds, stored⟩ := @loadFrom_records image 0 1 records
  refine ⟨succeeds, fun loaded => ⟨stored loaded, fun place untouched => ?_⟩, ?_⟩
  · exact (congrArg (·[place]?) (stored loaded)).trans (getElem?_put untouched)
  · intro before shown after line _ noEnd changed
    exact load_changed noEnd changed

/-- A line of nothing but a colon and the pairs of digits of some bytes. -/
theorem shows_digits {line : String} {digits : List Char} {bytes : List UInt8}
    (isLine : line.toList = ':' :: digits) (isRead : (readBytes digits).toOption = some bytes)
    (noGap : ∀ c ∈ digits, isByteGap c = false) : Shows line.toList bytes := by
  have isText := readBytes_eq_ok.mp (toOption_eq_some.mp isRead)
  have shows := @Shows.intro [] digits [] [] bytes (by simp) (by simp) (.inl rfl)
    (isText.spells noGap)
  rw [isLine]
  simpa using shows

/-- Two data bytes for the start of an image. -/
def twoBytes : RecordLine where
  line := ":020000001234b8"
  record := {
    high := 0, low := 0, type := 0, data := [0x12, 0x34], checksum := 0xb8
    short := by decide
    known := by decide
    balanced := by unfold Balanced; decide }
  shows := shows_digits rfl (by decide +kernel) (by decide)

/-- The end of an image. -/
def noBytes : RecordLine where
  line := ":00000001FF"
  record := {
    high := 0, low := 0, type := 1, data := [], checksum := 0xff
    short := by decide
    known := by decide
    balanced := by unfold Balanced; decide }
  shows := shows_digits rfl (by decide +kernel) (by decide)

/-- Two bytes are stored into an image of three, and the second of them is not taken for another. -/
theorem load_recordLines_twoBytes :
    ((load [":020000001234b8", ":00000001FF"] #[0, 0, 7]).1 = .ok () ∧
      (load [":020000001234b8", ":00000001FF"] #[0, 0, 7]).2 = #[0x12, 0x34, 7]) ∧
      ∃ error, (load [":020000001235b8", ":00000001FF"] #[0, 0, 7]).1 = .error error := by
  obtain ⟨succeeds, stored, caught⟩ := load_recordLines [twoBytes, noBytes] #[0, 0, 7]
  have loaded := succeeds.mpr (by unfold Inside; decide)
  refine ⟨⟨loaded, (stored loaded).1.trans (by decide +kernel)⟩, ?_⟩
  exact caught [] twoBytes [noBytes] ":020000001235b8" rfl (List.forall_mem_nil _)
    ⟨[2, 0, 0, 0, 0x12], 0x34, [0xb8], 0x35, rfl, by decide,
      shows_digits rfl (by decide +kernel) (by decide)⟩

/-! ### Accepted lines -/

/-- Applying a record keeps the size of the image. -/
theorem size_applyRecord (progress : Progress) (record : Record) :
    (applyRecord number progress record).2.image.size = progress.image.size := by
  simp only [applyRecord]
  split
  · simp only [store_spec, size_put]
  · split
    · rfl
    · split
      · split <;> rfl
      · split
        · split <;> rfl
        · split <;> rfl

/-- Loading keeps the size of the image. -/
theorem size_loadFrom (progress : Progress) (lines : List String) :
    (loadFrom progress number lines).2.size = progress.image.size := by
  induction lines generalizing progress number with
  | nil => rfl
  | cons line rest ih =>
    rw [loadFrom]
    split
    · exact ih progress
    · split
      · rfl
      · rename_i record _
        have size := @size_applyRecord number progress record
        generalize applyRecord number progress record = outcome at size ⊢
        match outcome with
        | (.error _, _) | (.ok true, _) => exact size
        | (.ok false, later) => exact (ih later).trans size

/-- On every line that holds a record and is gone through by a loading that succeeds, there is a
colon, and as many characters behind it as the record declares. They are hexadecimal digits and, in
other than strict records, characters that the reader lets through beside them. A data record stores
its bytes, of which there are fewer than declared by half the number of gaps between them. -/
theorem accepted_line {before after : List String} {line : String} {image : Array UInt8}
    {text : List Char} (accepted : (load (before ++ line :: after) image).1 = .ok ())
    (goesOn : ∀ earlier ∈ before, ¬EndsImage earlier.toList)
    (holds : recordText? line.toList = some text) :
    ∃ (record : Record) (declared : Nat) (behind : List Char),
      Reads text record ∧ record.length = declared ∧
      text = ':' :: behind ∧ behind.length = 10 + 2 * declared ∧
      (∀ c ∈ behind, Lexeme.isHexDigit c = true ↔ ¬IsLenient c) ∧
      2 * record.data.length + record.text.countP isByteGap = 2 * declared ∧
      (record.type = 0 → ∃ address, Inside image.size (record.data.zipIdx address) ∧
        (load (before ++ [line]) image).2 =
          put (load before image).2 (record.data.zipIdx address)) := by
  -- An error before the line would be the outcome, so the line is read from a later state.
  rcases @loadFrom_before 1 ⟨image, 0⟩ before goesOn with ⟨error, _, failed⟩ | ⟨later, goneThrough⟩
  · rw [load, failed] at accepted
    cases accepted
  have size : later.image.size = image.size := by
    have kept := @size_loadFrom 1 ⟨image, 0⟩ (before ++ [])
    rwa [goneThrough] at kept
  have reached : (load before image).2 = later.image := by
    rw [load, ← List.append_nil before, goneThrough]
    rfl
  rw [load, goneThrough] at accepted
  rw [load, goneThrough, reached]
  simp only [loadFrom, holds] at accepted ⊢
  cases read : readRecord (1 + before.length) text with
  | error error =>
    rw [read] at accepted
    cases accepted
  | ok record =>
    have reads := (readRecord_eq_ok (head_recordText? holds)).mp read
    obtain ⟨declared, isDeclared, long, bytes⟩ := reads.exists_declared
    cases text with
    | nil => cases reads.starts
    | cons c behind =>
      obtain rfl := Option.some.inj reads.starts
      refine ⟨record, declared, behind, reads, isDeclared, rfl, ?_, fun c inside => ?_, bytes, ?_⟩
      · rw [List.length_cons] at long
        omega
      · exact ⟨fun isDigit lenient => lenient.not_isHexDigit isDigit,
          (reads.mem c inside).resolve_right⟩
      · intro isData
        obtain ⟨stores, refuses⟩ := @applyRecord_data (1 + before.length) later record isData
        rw [size] at stores refuses
        refine ⟨Bits.wrap 32 (later.base + record.address), ?_⟩
        by_cases inside : Inside image.size
            (record.data.zipIdx (Bits.wrap 32 (later.base + record.address)))
        · refine ⟨inside, ?_⟩
          simp only [stores inside]
        · obtain ⟨error, _, refused⟩ := refuses inside
          simp only [read, refused] at accepted
          cases accepted

/-- A line with two blanks for the second of two declared bytes is accepted and stores one byte. -/
theorem accepted_line_gaps :
    ((load [":0200000012  EC"] #[0, 0]).1 = .ok () ∧
      (load [":0200000012  EC"] #[0, 0]).2 = #[0x12, 0]) ∧
      ∃ (record : Record) (declared : Nat) (behind : List Char),
        Reads ":0200000012  EC".toList record ∧ record.length = declared ∧
        ":0200000012  EC".toList = ':' :: behind ∧ behind.length = 10 + 2 * declared ∧
        (∀ c ∈ behind, Lexeme.isHexDigit c = true ↔ ¬IsLenient c) ∧
        2 * record.data.length + record.text.countP isByteGap = 2 * declared ∧
        (record.type = 0 → ∃ address, Inside 2 (record.data.zipIdx address) ∧
          (load ([] ++ [":0200000012  EC"]) #[0, 0]).2 =
            put (load [] #[0, 0]).2 (record.data.zipIdx address)) := by
  have accepted : (load [":0200000012  EC"] #[0, 0]).1 = .ok () :=
    toOption_eq_some.mp (by decide +kernel)
  refine ⟨⟨accepted, by decide +kernel⟩, ?_⟩
  exact @accepted_line [] [] ":0200000012  EC" #[0, 0] _ accepted
    (List.forall_mem_nil _) (by decide +kernel)

end A64Machine.IntelHex
