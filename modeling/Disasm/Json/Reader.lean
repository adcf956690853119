import Disasm.Json.Basic
import Disasm.Text.Percent
/-!
# Reading JSON

The reader takes the JSON grammar, with the names of the infinities and
of not-a-number besides. It fails for one of three reasons: the text is
malformed, an integer has too many digits, or values are nested too deep.
The first failure from the left is the one reported.
-/

namespace Disasm.Json

/-- Why a text was not read. -/
inductive ReadFault where
  | malformed
  /-- An integer of this many digits. -/
  | tooManyDigits (count : Nat)
  /-- Nested too deep, in a list or in an object. -/
  | tooDeep (inList : Bool)
  deriving Repr, DecidableEq

/-- The text without the blanks in front of it. -/
def skipBlanks (cs : List Char) : List Char :=
  cs.dropWhile fun c => c = ' ' || c = '\t' || c = '\n' || c = '\r'

/-- The UTF-16 unit that four hexadecimal digits write. -/
def unit? (a b c d : Char) : Option Nat := do
  let a ← Text.Percent.nibble? a
  let b ← Text.Percent.nibble? b
  let c ← Text.Percent.nibble? c
  let d ← Text.Percent.nibble? d
  return ((a * 16 + b) * 16 + c) * 16 + d

/-- Whether a unit is the first of a surrogate pair. -/
def isHigh (n : Nat) : Bool := 0xD800 ≤ n && n ≤ 0xDBFF

/-- Whether a unit is the second of a surrogate pair. -/
def isLow (n : Nat) : Bool := 0xDC00 ≤ n && n ≤ 0xDFFF

/-- What a single unit stands for: a character, or a surrogate that is
alone. -/
def unitPoint (n : Nat) : Point :=
  if h : 0xD800 ≤ n ∧ n ≤ 0xDFFF then .lone ⟨n, h.1, h.2⟩ else .char (Char.ofNat n)

/-- The character of a surrogate pair. -/
def pairChar (high low : Nat) : Char :=
  Char.ofNat (0x10000 + (high - 0xD800) * 0x400 + (low - 0xDC00))

/-- The character that a one-letter escape stands for. -/
def escaped? (c : Char) : Option Char :=
  if c = '"' ∨ c = '\\' ∨ c = '/' then some c
  else if c = 'b' then some (Char.ofNat 0x08)
  else if c = 'f' then some (Char.ofNat 0x0C)
  else if c = 'n' then some '\n'
  else if c = 'r' then some '\r'
  else if c = 't' then some '\t'
  else none

/-- What a string literal is made of: characters, and UTF-16 units written
by number. -/
inductive Mark where
  | char (c : Char)
  | unit (n : Nat)
  deriving Repr, DecidableEq

/-- The marks of a string literal, after its opening quote, up to the
closing one. -/
def marks : List Char → Except ReadFault (List Mark × List Char)
  | [] => .error .malformed
  | '"' :: rest => .ok ([], rest)
  | '\\' :: 'u' :: a :: b :: c :: d :: rest =>
    match unit? a b c d with
    | none => .error .malformed
    | some n => (marks rest).map fun (ms, tail) => (.unit n :: ms, tail)
  | '\\' :: c :: rest =>
    match escaped? c with
    | none => .error .malformed
    | some e => (marks rest).map fun (ms, tail) => (.char e :: ms, tail)
  | c :: rest =>
    if c.toNat < 0x20 then .error .malformed
    else (marks rest).map fun (ms, tail) => (.char c :: ms, tail)

/-- What marks stand for: two units that form a surrogate pair are one
character. -/
def unmark : List Mark → List Point
  | [] => []
  | .char c :: rest => .char c :: unmark rest
  | .unit n :: .unit m :: rest =>
    if isHigh n && isLow m then .char (pairChar n m) :: unmark rest
    else unitPoint n :: unmark (.unit m :: rest)
  | .unit n :: rest => unitPoint n :: unmark rest

/-- A string literal after its opening quote. -/
def string (cs : List Char) : Except ReadFault (Script × List Char) :=
  (marks cs).map fun (ms, rest) => (Script.ofPoints (unmark ms), rest)

/-- The digits in front of a text, and the rest. -/
def spanDigits (cs : List Char) : List Char × List Char :=
  (cs.takeWhile Char.isDigit, cs.dropWhile Char.isDigit)

/-- The digits of a fraction, if one follows, and the rest. -/
def fraction (cs : List Char) : List Char × List Char :=
  match cs with
  | '.' :: rest => if (spanDigits rest).1.isEmpty then ([], cs) else spanDigits rest
  | _ => ([], cs)

/-- The sign and the digits of an exponent, if one follows, and the rest. -/
def exponent (cs : List Char) : Option Int × List Char :=
  match cs with
  | c :: rest =>
    if c = 'e' ∨ c = 'E' then
      let (negative, body) := Text.Numeral.splitSign rest
      let (ds, tail) := spanDigits body
      if ds.isEmpty then (none, cs)
      else (some (Text.Numeral.signed negative (Nat.ofDigitChars 10 ds 0)), tail)
    else (none, cs)
  | [] => (none, cs)

/-- The integer part of a number: a zero, or digits without a leading zero. -/
def whole (cs : List Char) : List Char × List Char :=
  match cs with
  | '0' :: rest => (['0'], rest)
  | _ => spanDigits cs

/-- A number without its sign. A fraction or an exponent makes it a double. -/
def number (negative : Bool) (cs : List Char) : Except ReadFault (Json × List Char) :=
  let (ds, rest) := whole cs
  if ds.isEmpty then .error .malformed
  else
    let (part, rest) := fraction rest
    let (power?, rest) := exponent rest
    if part.isEmpty && power?.isNone then
      if Text.Numeral.maxDigits < ds.length then .error (.tooManyDigits ds.length)
      else .ok (.int (Text.Numeral.signed negative (Nat.ofDigitChars 10 ds 0)), rest)
    else
      .ok (.float (Binary64.ofDecimal negative (Nat.ofDigitChars 10 (ds ++ part) 0)
        (power?.getD 0 - part.length)), rest)

/-- The words of the grammar and what they stand for. -/
def words : List (String × Json) :=
  [("null", .null), ("true", .bool true), ("false", .bool false), ("NaN", .float .nan),
   ("Infinity", .float (.infinite false)), ("-Infinity", .float (.infinite true))]

/-- A word of the grammar in front of a text. -/
def word? (cs : List Char) : Option (Json × List Char) :=
  words.findSome? fun (w, v) =>
    if w.toList.isPrefixOf cs then some (v, cs.drop w.length) else none

/-- A word or a number. -/
def atom (cs : List Char) : Except ReadFault (Json × List Char) :=
  match word? cs with
  | some found => .ok found
  | none =>
    match cs with
    | '-' :: rest => number true rest
    | _ => number false cs

mutual

/-- A value with up to `depth` levels of nesting below it. Each step of the
reader takes one unit of `fuel`. -/
def value : (fuel depth : Nat) → List Char → Except ReadFault (Json × List Char)
  | 0, _, _ => .error .malformed
  | fuel + 1, depth, cs =>
    match cs with
    | '"' :: rest => do
      let (s, rest) ← string rest
      return (.ofScript s, rest)
    | '[' :: rest =>
      if depth = 0 then .error (.tooDeep true)
      else match skipBlanks rest with
        | ']' :: rest => .ok (.arr [], rest)
        | rest => do
          let (items, rest) ← items fuel (depth - 1) rest
          return (.arr items, rest)
    | '\x7b' :: rest =>
      if depth = 0 then .error (.tooDeep false)
      else match skipBlanks rest with
        | '\x7d' :: rest => .ok (.obj [], rest)
        | rest => do
          let (members, rest) ← members fuel (depth - 1) [] rest
          return (object members, rest)
    | _ => atom cs

/-- The items of a list, after its bracket, up to the closing one. -/
def items : (fuel depth : Nat) → List Char → Except ReadFault (List Json × List Char)
  | 0, _, _ => .error .malformed
  | fuel + 1, depth, cs => do
    let (v, rest) ← value fuel depth cs
    match skipBlanks rest with
    | ']' :: rest => return ([v], rest)
    | ',' :: rest =>
      let (vs, rest) ← items fuel depth (skipBlanks rest)
      return (v :: vs, rest)
    | _ => .error .malformed

/-- The members of an object after those already `held`, up to the closing
bracket. -/
def members : (fuel depth : Nat) → List (Script × Json) → List Char →
    Except ReadFault (List (Script × Json) × List Char)
  | 0, _, _, _ => .error .malformed
  | fuel + 1, depth, held, cs =>
    match cs with
    | '"' :: rest => do
      let (name, rest) ← string rest
      match skipBlanks rest with
      | ':' :: rest =>
        let (v, rest) ← value fuel depth (skipBlanks rest)
        let held := setMember held name v
        match skipBlanks rest with
        | '\x7d' :: rest => return (held, rest)
        | ',' :: rest => members fuel depth held (skipBlanks rest)
        | _ => .error .malformed
      | _ => .error .malformed
    | _ => .error .malformed

end

/-- How deep values may be nested for a reader that is called near the start
of the stack. -/
def usualDepth : Nat := 970

/-- Reads a text that holds one value and blanks around it. The values may be
nested to a depth that the stack leaves room for, which is the caller's to
say. -/
def read (s : String) (depth : Nat := usualDepth) : Except ReadFault Json := do
  let cs := s.toList
  let (v, rest) ← value (2 * cs.length + 2) depth (skipBlanks cs)
  if (skipBlanks rest).isEmpty then return v else .error .malformed

end Disasm.Json
