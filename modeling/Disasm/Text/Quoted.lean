import Disasm.Text.Numeral
import Disasm.Text.Printable
/-!
# Quoted text — how a message shows a name

Messages show a path or a word in quotes so that its blanks, control
characters and quotes can be told apart. Single quotes are used unless
the text holds a single quote and no double quote.
-/

namespace Disasm.Text.Quoted

/-- The quote a text is put in. -/
def mark (cs : List Char) : Char :=
  if cs.contains '\'' && !cs.contains '"' then '"' else '\''

/-- The escape of a character by its code point, in two, four or eight
hexadecimal digits. -/
def byCode (c : Char) : List Char :=
  let n := c.toNat
  let (letter, width) := if n < 0x100 then ('x', 2) else if n < 0x10000 then ('u', 4) else ('U', 8)
  '\\' :: letter :: (Numeral.padLeft width '0' (Numeral.hexNat n)).toList

/-- A character between quotes `q`; printable ones stand as they are. -/
def escape (q c : Char) : List Char :=
  if c = q ∨ c = '\\' then ['\\', c]
  else if c = '\t' then ['\\', 't']
  else if c = '\n' then ['\\', 'n']
  else if c = '\r' then ['\\', 'r']
  else if isPrintable c then [c]
  else byCode c

/-- A text in quotes. -/
def write (s : String) : String :=
  let cs := s.toList
  let q := mark cs
  String.ofList (q :: cs.flatMap (escape q) ++ [q])

/-- A text with the characters beyond ASCII given by their code points. -/
def toAscii (s : String) : String :=
  String.ofList (s.toList.flatMap fun c => if c.toNat < 0x80 then [c] else byCode c)

/-- A list of texts in quotes, between brackets. -/
def writeList (words : List String) : String :=
  "[" ++ String.intercalate ", " (words.map write) ++ "]"

end Disasm.Text.Quoted
