import Disasm.Number.Binary64
import Disasm.Text.Numeral
/-!
# Numbers — integers and doubles side by side

Settings and time limits are integers of any size or doubles. The two are
written differently, so they are kept apart, and they are compared by
their exact values.
-/

namespace Disasm

/-- An integer or a double. -/
inductive Number where
  | int (n : Int)
  | float (x : Binary64)
  deriving Repr, DecidableEq

namespace Number

/-- The text of a number. -/
def text : Number → String
  | .int n => toString n
  | .float x => x.text

/-- A number on the extended line: `none` for not-a-number. -/
inductive Extent where
  | below
  | fraction (num : Int) (den : Nat)
  | above
  deriving Repr, DecidableEq

/-- Where a number lies. -/
def extent? : Number → Option Extent
  | .int n => some (.fraction n 1)
  | .float .nan => none
  | .float (.infinite negative) => some (if negative then .below else .above)
  | .float (.finite negative mantissa exponent) =>
    let (num, den) := Binary64.fraction mantissa exponent
    some (.fraction (if negative then -(num : Int) else num) den)

/-- Whether `a` is greater than `b`; never so of not-a-number. -/
def exceeds (a b : Number) : Bool :=
  match a.extent?, b.extent? with
  | some .above, some .above => false
  | some .above, some _ => true
  | some _, some .above => false
  | some .below, some _ => false
  | some _, some .below => true
  | some (.fraction n d), some (.fraction m e) => m * d < n * e
  | _, _ => false

/-- A number that is neither zero nor negative zero. -/
def isNonzero : Number → Bool
  | .int n => n ≠ 0
  | .float (.finite _ mantissa _) => mantissa ≠ 0
  | .float _ => true

/-- The longest start of digits, with single underscores between them, and
what follows. The flag says that an underscore may stand next. -/
def takeDigits (after : Bool) : List Char → List Nat × List Char
  | [] => ([], [])
  | '_' :: c :: rest =>
    if after && (Text.digit? c).isSome then
      let (ds, tail) := takeDigits false (c :: rest)
      (ds, tail)
    else ([], '_' :: c :: rest)
  | c :: rest =>
    match Text.digit? c with
    | some d =>
      let (ds, tail) := takeDigits true rest
      (d :: ds, tail)
    | none => ([], c :: rest)

/-- Reads the exponent of a decimal: nothing, or `e`, a sign and digits. -/
def readExponent? : List Char → Option Int
  | [] => some 0
  | c :: rest =>
    if c = 'e' ∨ c = 'E' then
      let (negative, body) := Text.Numeral.splitSign rest
      match takeDigits false body with
      | ([], _) => none
      | (ds, []) => some (Text.Numeral.signed negative (Text.Numeral.ofDigits 10 ds))
      | _ => none
    else none

/-- Reads an unsigned decimal with an optional fraction and exponent. -/
def readUnsigned? (negative : Bool) (cs : List Char) : Option Binary64 := do
  let (whole, rest) := takeDigits false cs
  let (part, rest) := match rest with
    | '.' :: r => takeDigits false r
    | r => ([], r)
  if whole.isEmpty && part.isEmpty then none
  let e ← readExponent? rest
  return Binary64.ofDecimal negative (Text.Numeral.ofDigits 10 (whole ++ part)) (e - part.length)

/-- Reads a double as a person may type it: blanks around it, a sign, a
decimal, or the words for infinity and not-a-number. -/
def readFloat? (s : String) : Option Binary64 :=
  let (negative, cs) := Text.Numeral.splitSign (Text.trimChars s.toList)
  let word := String.ofList (cs.map Char.toLower)
  if word = "inf" ∨ word = "infinity" then some (.infinite negative)
  else if word = "nan" then some .nan
  else readUnsigned? negative cs

end Number

end Disasm
