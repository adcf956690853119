import Disasm.Text.Quoted
/-!
# Scripts — texts that may hold lone surrogates

A text in JSON can write one half of a surrogate pair by its number, without
the other. No character stands for that, so such a text is kept as the
sequence of its points. It is compared and stored as it is. Where it is
shown, the surrogate appears as its escape; where it has to be encoded,
for a word of a command, most surrogates are refused: only those that stand
for single bytes pass.
-/

namespace Disasm

/-- One half of a surrogate pair. -/
structure Surrogate where
  unit : Nat
  lower : 0xD800 ≤ unit
  upper : unit ≤ 0xDFFF
  deriving Repr, DecidableEq

namespace Surrogate

/-- Whether it is the first half of a pair. -/
def isHigh (s : Surrogate) : Bool :=
  s.unit ≤ 0xDBFF

/-- Whether it stands for a byte that was no text. -/
def isByte (s : Surrogate) : Bool :=
  0xDC80 ≤ s.unit && s.unit ≤ 0xDCFF

/-- The escape that it is shown as. -/
def shown (s : Surrogate) : List Char :=
  '\\' :: 'u' :: (Text.Numeral.padLeft 4 '0' (Text.Numeral.hexNat s.unit)).toList

end Surrogate

/-- What a text is made of: characters, and surrogates that stand alone. -/
inductive Point where
  | char (c : Char)
  | lone (s : Surrogate)
  deriving Repr, DecidableEq

namespace Point

/-- Whether it is a surrogate. -/
def isLone : Point → Bool
  | .char _ => false
  | .lone _ => true

/-- The character, if it is one. -/
def char? : Point → Option Char
  | .char c => some c
  | .lone _ => none

/-- The characters that it is shown as. -/
def shown : Point → List Char
  | .char c => [c]
  | .lone s => s.shown

/-- The characters that it is shown as between quotes `q`. -/
def quoted (q : Char) : Point → List Char
  | .char c => Text.Quoted.escape q c
  | .lone s => s.shown

end Point

/-- A text in which some surrogate stands alone. -/
structure Broken where
  points : List Point
  isBroken : points.any Point.isLone = true
  deriving Repr, DecidableEq

/-- A text as JSON has it. -/
inductive Script where
  | plain (s : String)
  | broken (b : Broken)
  deriving Repr, DecidableEq

/-- Where and why a text cannot be encoded: the first surrogate that is
refused, its place, and how many surrogates there are from it on. -/
structure Unencodable where
  unit : Nat
  offset : Nat
  length : Nat
  deriving Repr, DecidableEq

namespace Script

/-- A text of characters is a script. -/
instance : Coe String Script :=
  ⟨.plain⟩

/-- So are some of them some scripts. -/
instance : Coe (List String) (List Script) :=
  ⟨List.map .plain⟩

instance : Inhabited Script :=
  ⟨.plain ""⟩

/-- What a script is made of. -/
def points : Script → List Point
  | .plain s => s.toList.map .char
  | .broken b => b.points

/-- The script that is made of some points. -/
def ofPoints (ps : List Point) : Script :=
  if h : ps.any Point.isLone = true then .broken ⟨ps, h⟩
  else .plain (String.ofList (ps.filterMap Point.char?))

/-- The text, if a script is one. -/
def plain? : Script → Option String
  | .plain s => some s
  | .broken _ => none

/-- Whether there is nothing in a script. -/
def isEmpty : Script → Bool
  | .plain s => s.isEmpty
  | .broken _ => false

/-- The text that a script is shown as. -/
def shown : Script → String
  | .plain s => s
  | .broken b => String.ofList (b.points.flatMap Point.shown)

/-- A script in quotes. -/
def quoted : Script → String
  | .plain s => Text.Quoted.write s
  | .broken b =>
    let q := Text.Quoted.mark (b.points.filterMap Point.char?)
    String.ofList (q :: b.points.flatMap (Point.quoted q) ++ [q])

/-- A script with a dot in front. -/
def dotted : Script → Script
  | .plain s => .plain ("." ++ s)
  | .broken b => .broken ⟨.char '.' :: b.points, b.isBroken⟩

/-- The points of a script, each a script of its own. -/
def pieces : Script → List Script
  | .plain s => s.toList.map fun c => .plain c.toString
  | .broken b => b.points.map fun p => ofPoints [p]

/-- Whether a script holds a null character. -/
def hasNull : Script → Bool
  | .plain s => s.toList.contains (Char.ofNat 0)
  | .broken b => b.points.contains (.char (Char.ofNat 0))

/-- The first surrogate that cannot be encoded, of points that follow others. -/
def unencodableFrom (offset : Nat) : List Point → Option Unencodable
  | [] => none
  | .char _ :: rest => unencodableFrom (offset + 1) rest
  | .lone s :: rest =>
    if s.isByte then unencodableFrom (offset + 1) rest
    else some ⟨s.unit, offset, 1 + (rest.takeWhile Point.isLone).length⟩

/-- What keeps a script from being encoded. -/
def unencodable? : Script → Option Unencodable
  | .plain _ => none
  | .broken b => unencodableFrom 0 b.points

end Script

end Disasm
