import Disasm.Number.Basic
/-!
# Doubles with a given number of digits

The three usual ways to write a double with a chosen precision: a fixed
number of places, a fixed number of places before an exponent, and a
number of significant digits in whichever of the two forms is shorter.
The exact value is rounded once, a tie to the even digit.
-/

namespace Disasm.Binary64

/-- The size of a double as a fraction, with its sign; nothing for the
infinities and not-a-number. -/
def parts? : Binary64 → Option (Bool × Nat × Nat)
  | .finite negative mantissa exponent =>
    let (num, den) := fraction mantissa exponent
    some (negative, num, den)
  | _ => none

/-- Digits with a point before the last `places` of them. The point is
written without places only if `point` is set. -/
def withPoint (point : Bool) (places : Nat) (digits : Nat) : String :=
  let ds := Nat.toDigits 10 digits
  let ds := List.replicate (places + 1 - ds.length) '0' ++ ds
  let whole := ds.take (ds.length - places)
  String.ofList whole ++
    (if places = 0 then (if point then "." else "")
    else "." ++ String.ofList (ds.drop (ds.length - places)))

/-- A fraction rounded to `places` decimal places. -/
def fixedText (point : Bool) (places num den : Nat) : String :=
  withPoint point places (roundedQuotient (num * Nat.pow 10 places) den)

/-- A positive fraction rounded to `places + 1` significant digits: the
digits, and the exponent of the first one. -/
def significant (places num den : Nat) : Nat × Int :=
  let e := decimalPoint num den - 1
  let shift := (places : Int) - e
  let digits := roundedQuotient (num * Nat.pow 10 shift.toNat) (den * Nat.pow 10 (-shift).toNat)
  if digits = Nat.pow 10 (places + 1) then (Nat.pow 10 places, e + 1) else (digits, e)

/-- A fraction with one digit before the point, `places` behind it, and an
exponent. -/
def scientificText (point : Bool) (places num den : Nat) : String :=
  let (digits, e) := if num = 0 then (0, 0) else significant places num den
  withPoint point places digits ++ exponentText e

/-- A text without the zeros at the end of its places, and without a point
that then ends it. -/
def dropPlaces (s : String) : String :=
  if s.toList.contains '.' then
    let cs := s.toList.reverse.dropWhile (· = '0')
    String.ofList (cs.dropWhile (· = '.')).reverse
  else s

/-- A fraction with at most `count` significant digits; `point` keeps the
zeros at their end. -/
def generalText (point : Bool) (count num den : Nat) : String :=
  let count := max count 1
  let (digits, e) := if num = 0 then (0, 0) else significant (count - 1) num den
  if -4 ≤ e ∧ e < count then
    let s := fixedText point (count - 1 - e).toNat num den
    if point then s else dropPlaces s
  else
    let s := withPoint point (count - 1) digits
    (if point then s else dropPlaces s) ++ exponentText e

/-- A double, without its sign, by conversion letter: `e`, `f` or `g`. -/
def fixed (conversion : Char) (point : Bool) (precision : Nat) (x : Binary64) : String :=
  match x.parts? with
  | none => if x = .nan then "nan" else "inf"
  | some (_, num, den) =>
    if conversion = 'e' then scientificText point precision num den
    else if conversion = 'f' then fixedText point precision num den
    else generalText point precision num den

/-- Whether a double carries a minus sign. -/
def isNegative : Binary64 → Bool
  | .nan => false
  | .infinite negative => negative
  | .finite negative _ _ => negative

/-- The integer part of a finite double. -/
def truncate? : Binary64 → Option Int
  | .finite negative mantissa exponent =>
    let (num, den) := fraction mantissa exponent
    some (if negative then -((num / den : Nat) : Int) else (num / den : Nat))
  | _ => none

end Disasm.Binary64
