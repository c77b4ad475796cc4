import A64Machine.Text.Number
import A64Machine.Text.Printable

/-!
# Quoted text

A text between quotes on one line. Single quotes are used unless the text holds single quotes
and no double ones. The quote in use and the reverse solidus are escaped, and characters that
are not printable are shown by a letter or by their code.
-/

namespace A64Machine.Text

/-- A character by its code, in the shortest of the three fixed widths that holds it. -/
def escapedCode (c : Char) : List Char :=
  if c.toNat < 256 then ['\\', 'x'] ++ number 16 [] 2 c.toNat
  else if c.toNat < 65536 then ['\\', 'u'] ++ number 16 [] 4 c.toNat
  else ['\\', 'U'] ++ number 16 [] 8 c.toNat

/-- A character as it stands between the given quotes. -/
def quotedChar (quote c : Char) : List Char :=
  if c = quote ∨ c = '\\' then ['\\', c]
  else if c = '\n' then ['\\', 'n']
  else if c = '\r' then ['\\', 'r']
  else if c = '\t' then ['\\', 't']
  else if isPrintable c then [c]
  else escapedCode c

/-- The text between quotes. -/
def quoted (text : String) : String :=
  let cs := text.toList
  let quote := if cs.contains '\'' && !cs.contains '"' then '"' else '\''
  String.ofList (quote :: cs.flatMap (quotedChar quote) ++ [quote])

end A64Machine.Text
