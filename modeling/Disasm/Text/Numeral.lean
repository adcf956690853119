import Disasm.Text.Blank
import Disasm.Text.Digit
/-!
# Numerals — integers as text

Writing is decimal or lower-case hexadecimal. Reading takes what a person
may type: blanks around the numeral, a sign, decimal digits of any script
and single underscores between digits; base sixteen also takes the
letters of either case and a leading `0x`. Decimal numerals longer than
`maxDigits` digits are refused, since reading them takes quadratic time.
-/

namespace Disasm.Text.Numeral

/-- The longest decimal numeral that is read. -/
def maxDigits : Nat := 4300

/-- The lower-case hexadecimal numeral of a natural number. -/
def hexNat (n : Nat) : String :=
  String.ofList (Nat.toDigits 16 n)

/-- The hexadecimal numeral of an integer, with its sign in front of `0x`. -/
def hex (n : Int) : String :=
  (if n < 0 then "-0x" else "0x") ++ hexNat n.natAbs

/-- The hexadecimal digits of an integer, with its sign in front of them. -/
def hexDigits (n : Int) : String :=
  (if n < 0 then "-" else "") ++ hexNat n.natAbs

/-- A text with `fill` put in front until it has `width` characters. -/
def padLeft (width : Nat) (fill : Char) (s : String) : String :=
  String.ofList (List.replicate (width - s.length) fill) ++ s

/-- A text with blanks put behind it until it has `width` characters. -/
def padRight (width : Nat) (s : String) : String :=
  s ++ String.ofList (List.replicate (width - s.length) ' ')

/-- The value of a digit in base sixteen: a decimal digit of any script or
an ASCII letter. -/
def hexDigit? (c : Char) : Option Nat :=
  match digit? c with
  | some d => some d
  | none =>
    if 'a' ≤ c ∧ c ≤ 'f' then some (c.toNat - 'a'.toNat + 10)
    else if 'A' ≤ c ∧ c ≤ 'F' then some (c.toNat - 'A'.toNat + 10)
    else none

/-- The digits of a numeral; an underscore stands only between two digits. -/
def digits? (digit : Char → Option Nat) : List Char → Option (List Nat)
  | [] => some []
  | ['_'] => none
  | '_' :: '_' :: _ => none
  | '_' :: rest => digits? digit rest
  | c :: rest => do
    let d ← digit c
    let ds ← digits? digit rest
    return d :: ds

/-- The number that digits write in a base, most significant first. -/
def ofDigits (base : Nat) (ds : List Nat) : Nat :=
  ds.foldl (fun n d => n * base + d) 0

/-- Splits a sign off a numeral: whether it is negative, and the rest. -/
def splitSign : List Char → Bool × List Char
  | '-' :: rest => (true, rest)
  | '+' :: rest => (false, rest)
  | cs => (false, cs)

/-- An integer from its sign and its size. -/
def signed (negative : Bool) (n : Nat) : Int :=
  if negative then -(n : Int) else n

/-- Reads a decimal integer. -/
def readDecimal? (s : String) : Option Int := do
  let (negative, cs) := splitSign (trimChars s.toList)
  if cs.head? = some '_' then none
  let ds ← digits? digit? cs
  if ds.isEmpty || maxDigits < ds.length then none
  return signed negative (ofDigits 10 ds)

/-- The ASCII digit of the same value, for a decimal digit of any script. -/
def asciiDigit (c : Char) : Char :=
  match digit? c with
  | some d => Char.ofNat ('0'.toNat + d)
  | none => c

/-- Reads a hexadecimal integer, of any size. After `0x` one underscore may
stand. -/
def readHex? (s : String) : Option Int := do
  let (negative, cs) := splitSign ((trimChars s.toList).map asciiDigit)
  if cs.head? = some '_' then none
  let body := match cs with
    | '0' :: 'x' :: rest => rest
    | '0' :: 'X' :: rest => rest
    | _ => cs
  let ds ← digits? hexDigit? body
  if ds.isEmpty then none
  return signed negative (ofDigits 16 ds)

end Disasm.Text.Numeral
