/-!
# Binary64 — double precision numbers, exactly

A finite double is `mantissa · 2 ^ exponent`, so reading a decimal,
comparing two numbers and finding the shortest decimal that reads back
are all questions about natural numbers, and are answered there.
-/

namespace Disasm

/-- A double precision number. A finite one has a mantissa below `2 ^ 53`
and an exponent of at least `-1074`, and a mantissa of at least `2 ^ 52`
unless the exponent is the least one. -/
inductive Binary64 where
  | nan
  | infinite (negative : Bool)
  | finite (negative : Bool) (mantissa : Nat) (exponent : Int)
  deriving Repr, DecidableEq

namespace Binary64

/-- The least exponent of a finite double. -/
def leastExponent : Int := -1074

/-- The greatest exponent of a finite double. -/
def greatestExponent : Int := 971

/-- The quotient to the nearest natural number, a tie to the even one. -/
def roundedQuotient (num den : Nat) : Nat :=
  let q := num / den
  let r := num % den
  if den < 2 * r ∨ (2 * r = den ∧ q % 2 = 1) then q + 1 else q

/-- `num / den` in units of `2 ^ exponent`, as a fraction. -/
def inUnits (num den : Nat) (exponent : Int) : Nat × Nat :=
  (num * Nat.pow 2 (-exponent).toNat, den * Nat.pow 2 exponent.toNat)

/-- The double nearest to `num / den`, where `den` is positive. -/
def nearest (negative : Bool) (num den : Nat) : Binary64 :=
  if num = 0 then .finite negative 0 leastExponent
  else
    let guess : Int := max ((Nat.log2 num : Int) - Nat.log2 den - 53) leastExponent
    let (n, d) := inUnits num den guess
    let exponent := if Nat.pow 2 53 ≤ n / d then guess + 1 else guess
    let (n, d) := inUnits num den exponent
    let m := roundedQuotient n d
    let (m, exponent) := if m = Nat.pow 2 53 then (Nat.pow 2 52, exponent + 1) else (m, exponent)
    if greatestExponent < exponent then .infinite negative else .finite negative m exponent

/-- The number of decimal digits of a natural number. -/
def digitCount (n : Nat) : Nat :=
  (Nat.toDigits 10 n).length

/-- The double nearest to `digits · 10 ^ exponent`. Decimals far outside the
range are settled by their size alone. -/
def ofDecimal (negative : Bool) (digits : Nat) (exponent : Int) : Binary64 :=
  if digits = 0 then .finite negative 0 leastExponent
  else
    let magnitude := exponent + digitCount digits
    if 310 < magnitude then .infinite negative
    else if magnitude < -330 then .finite negative 0 leastExponent
    else nearest negative (digits * Nat.pow 10 exponent.toNat) (Nat.pow 10 (-exponent).toNat)

/-- The size of a finite double as a fraction. -/
def fraction (mantissa : Nat) (exponent : Int) : Nat × Nat :=
  (mantissa * Nat.pow 2 exponent.toNat, Nat.pow 2 (-exponent).toNat)

/-- The `point` with `10 ^ (point - 1) ≤ num / den < 10 ^ point`, for a
positive fraction. -/
def decimalPoint (num den : Nat) : Int :=
  if den ≤ num then digitCount (num / den)
  else
    let count := digitCount (den / num)
    if den = num * Nat.pow 10 (count - 1) then 2 - (count : Int) else 1 - (count : Int)

/-- The decimals of `count` digits next to `num / den`, below and above, with
the exponent they share and whether the upper one is the nearer. A tie
goes to the even one. -/
def neighbours (num den count : Nat) : Nat × Nat × Int × Bool :=
  let exponent := decimalPoint num den - count
  let n := num * Nat.pow 10 (-exponent).toNat
  let d := den * Nat.pow 10 exponent.toNat
  let below := n / d
  (below, below + 1, exponent, roundedQuotient n d = below + 1)

/-- The decimal of `count` digits that reads back as the given double, the
nearer one if there are two. -/
def readsBack? (mantissa : Nat) (exponent : Int) (count : Nat) : Option (Nat × Int) :=
  let (num, den) := fraction mantissa exponent
  let (below, above, e, upper) := neighbours num den count
  let (first, second) := if upper then (above, below) else (below, above)
  let target := Binary64.finite false mantissa exponent
  if ofDecimal false first e = target then some (first, e)
  else if ofDecimal false second e = target then some (second, e)
  else none

/-- A decimal with the fewest digits, seventeen at most, that reads back as
the given double. -/
def shortest (mantissa : Nat) (exponent : Int) : Nat × Int :=
  (((List.range 17).map (· + 1)).findSome? (readsBack? mantissa exponent)).getD (0, 0)

/-- The text of an exponent: a sign and at least two digits. -/
def exponentText (e : Int) : String :=
  (if e < 0 then "e-" else "e+") ++ (if e.natAbs < 10 then "0" else "") ++ toString e.natAbs

/-- Zeros. -/
def zeros (n : Nat) : String :=
  String.ofList (List.replicate n '0')

/-- Digits without the zeros at their end. -/
def dropZeros (ds : List Char) : List Char :=
  (ds.reverse.dropWhile (· = '0')).reverse

/-- The text of the decimal whose digits are `ds`, with the point after the
first `point` of them. Sizes from `10 ^ -4` up to `10 ^ 16` are written
positionally, with at least one place; others with an exponent. -/
def decimalText (ds : List Char) (point : Int) : String :=
  if -4 < point ∧ point ≤ 16 then
    if point ≤ 0 then "0." ++ zeros (-point).toNat ++ String.ofList ds
    else if ds.length ≤ point.toNat then
      String.ofList ds ++ zeros (point.toNat - ds.length) ++ ".0"
    else String.ofList (ds.take point.toNat) ++ "." ++ String.ofList (ds.drop point.toNat)
  else
    let rest := String.ofList (ds.drop 1)
    String.ofList (ds.take 1) ++ (if rest.isEmpty then "" else "." ++ rest) ++
      exponentText (point - 1)

/-- The text of a double: the shortest decimal that reads back. -/
def text : Binary64 → String
  | .nan => "nan"
  | .infinite negative => if negative then "-inf" else "inf"
  | .finite negative mantissa exponent =>
    let sign := if negative then "-" else ""
    if mantissa = 0 then sign ++ "0.0"
    else
      let (digits, e) := shortest mantissa exponent
      let ds := Nat.toDigits 10 digits
      sign ++ decimalText (dropZeros ds) (ds.length + e)

end Binary64

end Disasm
