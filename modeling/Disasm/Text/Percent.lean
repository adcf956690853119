import Disasm.Text.Utf8
/-!
# Percent decoding

In the path of a URL, `%` and two hexadecimal digits stand for a byte.
Each run of ASCII characters is turned into bytes and read as UTF-8 on
its own, ill-formed bytes being replaced; a character past ASCII stays as
it is and ends the run. A `%` without two digits behind it stands for
itself.
-/

namespace Disasm.Text.Percent

/-- The value of an ASCII hexadecimal digit. -/
def nibble? (c : Char) : Option Nat :=
  if '0' ≤ c ∧ c ≤ '9' then some (c.toNat - '0'.toNat)
  else if 'a' ≤ c ∧ c ≤ 'f' then some (c.toNat - 'a'.toNat + 10)
  else if 'A' ≤ c ∧ c ≤ 'F' then some (c.toNat - 'A'.toNat + 10)
  else none

/-- The byte that two hexadecimal digits write. -/
def octet? (hi lo : Char) : Option UInt8 := do
  let h ← nibble? hi
  let l ← nibble? lo
  return UInt8.ofNat (h * 16 + l)

/-- The bytes of a run of ASCII characters. -/
def bytes : List Char → Bytes
  | [] => []
  | '%' :: hi :: lo :: rest =>
    match octet? hi lo with
    | some b => b :: bytes rest
    | none => UInt8.ofNat '%'.toNat :: bytes (hi :: lo :: rest)
  | c :: rest => UInt8.ofNat c.toNat :: bytes rest

/-- Whether a character belongs to an ASCII run. -/
def isAscii (c : Char) : Bool :=
  c.toNat < 0x80

/-- Decodes a text, given the ASCII run before it in reverse. -/
def decodeFrom (run : List Char) : List Char → List Char
  | [] => (Utf8.decodeLenient (bytes run.reverse)).toList
  | c :: rest =>
    if isAscii c then decodeFrom (c :: run) rest
    else (Utf8.decodeLenient (bytes run.reverse)).toList ++ c :: decodeFrom [] rest

/-- The text that a percent-encoded text stands for. -/
def decode (s : String) : String :=
  String.ofList (decodeFrom [] s.toList)

end Disasm.Text.Percent
