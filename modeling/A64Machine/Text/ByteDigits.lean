import A64Machine.Text.Numeral

/-!
# Bytes in hexadecimal notation

Every byte is written as two hexadecimal digits, and bytes may be separated by ASCII blanks.
-/

namespace A64Machine.Text

/-- The position of the first character that does not belong to a text of bytes. -/
structure BadByteText where
  position : Nat
  deriving DecidableEq, Repr

/-- The text about a character that does not belong. -/
def BadByteText.message (bad : BadByteText) : String :=
  "non-hexadecimal number found in fromhex() arg at position " ++ decimal bad.position

/-- Whether the character may stand between two bytes. -/
def isByteGap (c : Char) : Bool := c == ' ' || decide (9 ≤ c.toNat ∧ c.toNat ≤ 13)

/-- The bytes of a text, of which some characters were read already. -/
def readBytesFrom : (position : Nat) → List Char → Except BadByteText (List UInt8)
  | _, [] => .ok []
  | position, high :: rest =>
    if isByteGap high then readBytesFrom (position + 1) rest
    else
      match asciiDigit? 16 high, rest with
      | none, _ => .error ⟨position⟩
      | some _, [] => .error ⟨position + 1⟩
      | some top, low :: rest =>
        match asciiDigit? 16 low with
        | none => .error ⟨position + 1⟩
        | some bottom =>
          (readBytesFrom (position + 2) rest).map (UInt8.ofNat (16 * top + bottom) :: ·)

/-- The bytes of a text. A character beyond ASCII is found before any other that does not
belong. -/
def readBytes (text : List Char) : Except BadByteText (List UInt8) :=
  match text.findIdx? fun c => decide (128 ≤ c.toNat) with
  | some position => .error ⟨position⟩
  | none => readBytesFrom 0 text

/-- Bytes written without gaps. -/
def byteDigits (bytes : List UInt8) : String :=
  String.ofList (bytes.flatMap fun byte => number 16 [] 2 byte.toNat)

end A64Machine.Text
