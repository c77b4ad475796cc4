import A64Machine.Text.Letter
import A64Machine.Text.Number

/-!
# Bit patterns

A pattern lists the bits of a word, most significant first. Digits are literal bits and letters
belong to fields, so that a field may be scattered over the word; its first position is its most
significant bit. A pattern is compiled once into the positions of its bits and then serves both
directions: it places field values into a word and takes them out again.
-/

namespace A64Machine

/-- Why a template is not a pattern. -/
inductive PatternError where
  | length (template : List Char) (found : Nat) (expected : Int)
  | illegalCharacter (character : Char) (template : List Char)
  | declaredWidth (letter : Char) (template : List Char) (found : Nat) (declared : Int)
  deriving DecidableEq, Repr

/-- Why field values do not make a word. -/
inductive FieldError where
  | missing (letter : Char) (template : List Char)
  | doesNotFit (value : Int) (width : Nat) (letter : Char)
  deriving DecidableEq, Repr

open Text (decimal) in
/-- The text of a template error. -/
def PatternError.message : PatternError → String
  | .length template found expected =>
    "Pattern '" ++ String.ofList template ++ "' has " ++ decimal found ++ " bits, expected " ++
      decimal expected
  | .illegalCharacter character template =>
    "Illegal character '" ++ character.toString ++ "' in pattern '" ++ String.ofList template ++ "'"
  | .declaredWidth letter template found declared =>
    "Field '" ++ letter.toString ++ "' in pattern '" ++ String.ofList template ++ "' spans " ++
      decimal found ++ " bits, declared " ++ decimal declared

/-- The text of a field error. -/
def FieldError.message : FieldError → String
  | .missing letter template =>
    "Missing value for field '" ++ letter.toString ++ "' in pattern '" ++
      String.ofList template ++ "'"
  | .doesNotFit value width letter =>
    Text.aroundDecimal value fun digits =>
      "Value " ++ digits ++ " does not fit " ++ Text.decimal width ++ "-bit field '" ++
        letter.toString ++ "'"

/-- A compiled pattern. Each field lists the word positions of its bits, most significant
first. -/
structure BitPattern where
  template : List Char
  literalMask : Nat
  literalValue : Nat
  fields : List (Char × List Nat)
  deriving DecidableEq, Repr

namespace BitPattern

/-- Whether the character separates groups of bits without standing for one. -/
def isSeparator (c : Char) : Bool := c == ' ' || c == '_'

/-- Whether the character is a literal bit. -/
def isLiteral (c : Char) : Bool := c == '0' || c == '1'

/-- The word whose set bits are the places of the template that satisfy the condition. -/
def placesWhere (p : Char → Bool) : List Char → Nat
  | [] => 0
  | c :: rest => (if p c then 2 ^ rest.length else 0) ||| placesWhere p rest

/-- The word positions of a letter, most significant first. -/
def positionsOf (letter : Char) : List Char → List Nat
  | [] => []
  | c :: rest =>
    if c = letter then rest.length :: positionsOf letter rest else positionsOf letter rest

/-- The fields of a template in the order of their first letters. -/
def fieldsOf (template : List Char) : List (Char × List Nat) :=
  (template.filter fun c => !isLiteral c).eraseDups.map fun letter =>
    (letter, positionsOf letter template)

/-- The pattern of a template for words of `bits` bits. Every field that has a declared width
must span just that many bits. -/
def compile (template : List Char) (widths : List (Char × Int)) (bits : Int) :
    Except PatternError BitPattern := do
  let text := template.filter fun c => !isSeparator c
  if (text.length : Int) ≠ bits then
    throw (.length template text.length bits)
  if let some c := text.find? fun c => !isLiteral c && !Text.isLetter c then
    throw (.illegalCharacter c template)
  let fields := fieldsOf text
  for (letter, positions) in fields do
    if let some declared := widths.lookup letter then
      if declared ≠ positions.length then
        throw (.declaredWidth letter template positions.length declared)
  return ⟨text, placesWhere isLiteral text, placesWhere (· == '1') text, fields⟩

/-- Number of bits of the words. -/
def bits (pattern : BitPattern) : Nat := pattern.template.length

/-- The positions of a field's bits, if the pattern has the field. -/
def positions? (pattern : BitPattern) (letter : Char) : Option (List Nat) :=
  pattern.fields.lookup letter

/-- The width of a field, if the pattern has it. -/
def width? (pattern : BitPattern) (letter : Char) : Option Nat :=
  (pattern.positions? letter).map List.length

/-- Whether the pattern has the field. -/
def hasField (pattern : BitPattern) (letter : Char) : Bool := (pattern.positions? letter).isSome

/-- The value whose bits stand at the given positions of the word. -/
def gather (word : Nat) : List Nat → Nat
  | [] => 0
  | position :: rest => (if word.testBit position then 2 ^ rest.length else 0) ||| gather word rest

/-- The word that has the bits of the value at the given positions. -/
def scatter (value : Nat) : List Nat → Nat
  | [] => 0
  | position :: rest =>
    (if value.testBit rest.length then 2 ^ position else 0) ||| scatter value rest

/-- Whether the literal bits agree with the word. -/
def accepts (pattern : BitPattern) (word : Nat) : Bool :=
  word &&& pattern.literalMask == pattern.literalValue

/-- The field values of a word, whether the literal bits agree or not. -/
def decode (pattern : BitPattern) (word : Nat) : List (Char × Nat) :=
  pattern.fields.map fun (letter, positions) => (letter, gather word positions)

/-- The bits that the fields contribute to a word. -/
def encodeFields (template : List Char) (values : Char → Option Int) :
    List (Char × List Nat) → Except FieldError Nat
  | [] => .ok 0
  | (letter, positions) :: rest =>
    match values letter with
    | none => .error (.missing letter template)
    | some value =>
      if 0 ≤ value ∧ value < (2 ^ positions.length : Nat) then
        (encodeFields template values rest).map (scatter value.toNat positions ||| ·)
      else .error (.doesNotFit value positions.length letter)

/-- The word with the given field values. -/
def encode (pattern : BitPattern) (values : Char → Option Int) : Except FieldError Nat :=
  (encodeFields pattern.template values pattern.fields).map (pattern.literalValue ||| ·)

/-- The pairs of a field bit and its word bit, most significant first. -/
def bitPairs : List Nat → List (Nat × Nat)
  | [] => []
  | position :: rest => (rest.length, position) :: bitPairs rest

/-- The pattern as it is shown. -/
def describe (pattern : BitPattern) : String :=
  "BitPattern('" ++ String.ofList pattern.template ++ "')"

end BitPattern

end A64Machine
