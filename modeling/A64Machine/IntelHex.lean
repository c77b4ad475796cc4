import A64Machine.Memory
import A64Machine.Text.ByteDigits

/-!
# Intel HEX images

An image in Intel HEX form is a list of records, each on a line that begins with a colon: the
number of data bytes, an address, a type, the data and a checksum that makes the sum of all
bytes a multiple of 256. Other lines are passed over, and a semicolon begins a comment. Data
records are stored at once, so an error leaves what was stored before it.
-/

namespace A64Machine.IntelHex

/-- Why a list of records cannot be loaded. -/
inductive RecordError where
  | tooShort (number : Nat) (line : List Char)
  | numeral (number : Nat) (line : List Char) (bad : Text.BadNumeral)
  | lengthMismatch (number : Nat)
  | data (number : Nat) (line : List Char) (bad : Text.BadByteText)
  | checksum (number calculated : Nat) (expected : Int)
  | outside (number place size : Nat)
  | address (bad : Text.BadNumeral)
  | unknownType (number : Nat) (type : Int)
  deriving DecidableEq, Repr

/-- The text in front of what is wrong in a line. -/
def parsingMessage (number : Nat) (line : List Char) (cause : String) : String :=
  "Error parsing Intel HEX line " ++ Text.decimal number ++ ": " ++ String.ofList line ++ " - " ++
    cause

open Text (decimal hex upperHex) in
/-- The text of a record error. -/
def RecordError.message : RecordError → String
  | .tooShort number line =>
    "Invalid Intel HEX record format on line " ++ decimal number ++ ": Too short - " ++
      String.ofList line
  | .numeral number line bad => parsingMessage number line bad.message
  | .lengthMismatch number => "Data length mismatch on line " ++ decimal number
  | .data number line bad => parsingMessage number line bad.message
  | .checksum number calculated expected =>
    "Checksum mismatch on line " ++ decimal number ++ ": Calculated " ++ upperHex 2 calculated ++
      ", Expected " ++ upperHex 2 expected
  | .outside number place size =>
    "Intel HEX data at " ++ hex place ++ " on line " ++ decimal number ++
      " outside memory image of size " ++ decimal size
  | .address bad => bad.message
  | .unknownType number type =>
    "Unknown Intel HEX record type " ++ upperHex 2 type ++ " on line " ++ decimal number

/-- A record: the declared number of data bytes, the address, the type, the data as text and as
bytes. -/
structure Record where
  length : Int
  address : Int
  type : Int
  text : List Char
  data : List UInt8

/-- The checksum of a record: what its sum lacks to a multiple of 256. -/
def Record.checksum (record : Record) : Nat :=
  let sum :=
    record.length + record.address / 256 + record.address % 256 + record.type +
      (record.data.foldl (fun total byte => total + byte.toNat) 0 : Nat)
  (-sum % 256).toNat

/-- The line without surrounding blanks and without its comment, if it holds a record. -/
def recordText? (line : List Char) : Option (List Char) :=
  let line := Text.trimBlanks line
  if line.head? = some ':' then
    if line.contains ';' then some (Text.trimBlanks (line.takeWhile (· != ';'))) else some line
  else none

/-- Reads the record of a line. -/
def readRecord (number : Nat) (line : List Char) : Except RecordError Record := do
  if line.length < 11 then throw (.tooShort number line)
  let field (start stop : Nat) : Except RecordError Int :=
    (Text.readNumeral 16 (String.ofList ((line.take stop).drop start))).mapError
      (.numeral number line)
  let length ← field 1 3
  let address ← field 3 7
  let type ← field 7 9
  let text := (line.take (line.length - 2)).drop 9
  let expected ← field (line.length - 2) line.length
  if (text.length : Int) ≠ length * 2 then throw (.lengthMismatch number)
  let data ← (Text.readBytes text).mapError (.data number line)
  let record : Record := ⟨length, address, type, text, data⟩
  if (record.checksum : Int) ≠ expected then
    throw (.checksum number record.checksum expected)
  return record

/-- The image and the base address while records are loaded. -/
structure Progress where
  image : Array UInt8
  base : Int

/-- Stores bytes from an address on, up to the end of the image. -/
def store (number : Nat) (image : Array UInt8) :
    (address : Nat) → List UInt8 → Except RecordError Unit × Array UInt8
  | _, [] => (.ok (), image)
  | address, byte :: rest =>
    if address < image.size then
      store number (image.setIfInBounds address byte) (address + 1) rest
    else (.error (.outside number address image.size), image)

/-- The new base address that a record holds, shifted left. -/
def baseAddress (record : Record) (shift : Nat) : Except RecordError Int :=
  ((Text.readNumeral 16 (String.ofList record.text)).mapError .address).map (· * (2 ^ shift : Nat))

/-- Applies a record; the answer tells whether it ends the image. -/
def applyRecord (number : Nat) (progress : Progress) (record : Record) :
    Except RecordError Bool × Progress :=
  let rebase (shift : Nat) : Except RecordError Bool × Progress :=
    match baseAddress record shift with
    | .ok base => (.ok false, { progress with base := base })
    | .error error => (.error error, progress)
  if record.type = 0 then
    let address := Bits.wrap 32 (progress.base + record.address)
    let (stored, image) := store number progress.image address record.data
    (stored.map fun _ => false, { progress with image := image })
  else if record.type = 1 then (.ok true, progress)
  else if record.type = 4 then rebase 16
  else if record.type = 2 then rebase 4
  else if record.type = 3 ∨ record.type = 5 then (.ok false, progress)
  else (.error (.unknownType number record.type), progress)

/-- Loads lines in order, numbering them from `number`. -/
def loadFrom (progress : Progress) :
    (number : Nat) → List String → Except RecordError Unit × Array UInt8
  | _, [] => (.ok (), progress.image)
  | number, line :: rest =>
    match recordText? line.toList with
    | none => loadFrom progress (number + 1) rest
    | some text =>
      match readRecord number text with
      | .error error => (.error error, progress.image)
      | .ok record =>
        match applyRecord number progress record with
        | (.error error, progress) => (.error error, progress.image)
        | (.ok true, progress) => (.ok (), progress.image)
        | (.ok false, progress) => loadFrom progress (number + 1) rest

/-- Loads lines into an image: the image afterwards, and the error that ended the loading. -/
def load (lines : List String) (image : Array UInt8) : Except RecordError Unit × Array UInt8 :=
  loadFrom ⟨image, 0⟩ 1 lines

end A64Machine.IntelHex
