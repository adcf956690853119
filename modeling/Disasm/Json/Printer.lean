import Disasm.Json.Basic
/-!
# Writing JSON

The printed form is ASCII: every character outside the printable ASCII
range is escaped, one past the first plane as a surrogate pair. With an
indentation, each item stands on a line of its own; empty lists and
objects are closed at once.
-/

namespace Disasm.Json

/-- The escape of one UTF-16 unit. -/
def unitEscape (n : Nat) : List Char :=
  '\\' :: 'u' :: (Text.Numeral.padLeft 4 '0' (Text.Numeral.hexNat n)).toList

/-- A character inside a string literal. -/
def escape (c : Char) : List Char :=
  if c = '"' ∨ c = '\\' then ['\\', c]
  else if c = '\n' then ['\\', 'n']
  else if c = '\r' then ['\\', 'r']
  else if c = '\t' then ['\\', 't']
  else if c.toNat = 0x0C then ['\\', 'f']
  else if c.toNat = 0x08 then ['\\', 'b']
  else if 0x20 ≤ c.toNat ∧ c.toNat ≤ 0x7E then [c]
  else if c.toNat < 0x10000 then unitEscape c.toNat
  else
    let n := c.toNat - 0x10000
    unitEscape (0xD800 + n / 0x400) ++ unitEscape (0xDC00 + n % 0x400)

/-- A point inside a string literal. -/
def escapePoint : Point → List Char
  | .char c => escape c
  | .lone s => unitEscape s.unit

/-- A string literal. -/
def literal (s : Script) : String :=
  String.ofList ('"' :: s.points.flatMap escapePoint ++ ['"'])

/-- A number. Infinities and not-a-number have names of their own. -/
def numeral : Number → String
  | .float .nan => "NaN"
  | .float (.infinite negative) => if negative then "-Infinity" else "Infinity"
  | n => n.text

/-- What separates items: a line break and the indentation of `level`, or
nothing. -/
def lineBreak (indent : Option Nat) (level : Nat) : String :=
  match indent with
  | none => ""
  | some width => "\n" ++ String.ofList (List.replicate (width * level) ' ')

/-- The comma between items. -/
def comma (indent : Option Nat) (level : Nat) : String :=
  match indent with
  | none => ", "
  | some _ => "," ++ lineBreak indent level

/-- Items between brackets. -/
def enclose (indent : Option Nat) (level : Nat) (left right : String) (items : List String) :
    String :=
  if items.isEmpty then left ++ right
  else left ++ lineBreak indent (level + 1) ++
    String.intercalate (comma indent (level + 1)) items ++ lineBreak indent level ++ right

mutual

/-- A value at a level of indentation. -/
def renderAt (indent : Option Nat) (level : Nat) : Json → String
  | .null => "null"
  | .bool b => if b then "true" else "false"
  | .num n => numeral n
  | .str s => literal s
  | .arr items => enclose indent level "[" "]" (renderItems indent (level + 1) items)
  | .obj members =>
    enclose indent level "\x7b" "\x7d" (renderMembers indent (level + 1) members)
  | .stray b => literal (.broken b)
  | .odd members =>
    enclose indent level "\x7b" "\x7d" (renderOdd indent (level + 1) members)

/-- The items of a list. -/
def renderItems (indent : Option Nat) (level : Nat) : List Json → List String
  | [] => []
  | v :: rest => renderAt indent level v :: renderItems indent level rest

/-- The members of an object. -/
def renderMembers (indent : Option Nat) (level : Nat) : List (String × Json) → List String
  | [] => []
  | (name, v) :: rest =>
    (literal name ++ ": " ++ renderAt indent level v) :: renderMembers indent level rest

/-- The members of an object with odd names. -/
def renderOdd (indent : Option Nat) (level : Nat) : List (Script × Json) → List String
  | [] => []
  | (name, v) :: rest =>
    (literal name ++ ": " ++ renderAt indent level v) :: renderOdd indent level rest

end

/-- A value over several lines, indented by two blanks a level. -/
def pretty (v : Json) : String :=
  renderAt (some 2) 0 v

/-- A value on one line. -/
def compact (v : Json) : String :=
  renderAt none 0 v

end Disasm.Json
