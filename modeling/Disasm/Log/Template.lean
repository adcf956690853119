import Disasm.Failure
import Disasm.Number.Fixed
/-!
# Message templates

A log message is a template in which each `%` starts a conversion: an
optional name in parentheses, flags, a width, a precision and a letter
that says how the next argument is written. `fill` writes a template with
its arguments or says what is wrong with them.
-/

namespace Disasm.Log.Template

/-- The flags of a conversion. -/
structure Flags where
  left : Bool := false
  sign : Bool := false
  blank : Bool := false
  alternate : Bool := false
  zero : Bool := false
  deriving Repr

/-- A conversion with its letter and the index of that letter. -/
structure Conversion where
  flags : Flags
  width : Nat
  precision : Option Nat
  letter : Char
  index : Nat
  deriving Repr

/-- The arguments that are left: a list of them, a mapping that has been
used or not, or one value taken from a mapping. -/
inductive Arguments where
  | list (values : List Json)
  | whole (mapping : Json) (fresh : Bool)
  | single (mapping value : Json) (fresh : Bool)
  deriving Repr

/-- The next argument, and those left. -/
def Arguments.next : Arguments → Except Failure (Json × Arguments)
  | .list (v :: rest) => .ok (v, .list rest)
  | .whole mapping true => .ok (mapping, .whole mapping false)
  | .single mapping v true => .ok (v, .single mapping v false)
  | _ => .error (.template .tooFewArguments)

/-- Chooses the argument of a name. -/
def Arguments.named (a : Arguments) (name : String) : Except Failure Arguments :=
  let choose (mapping : Json) : Except Failure Arguments :=
    match mapping.member? name with
    | some v => .ok (.single mapping v true)
    | none => .error (.missingKey name)
  match a with
  | .list _ => .error (.template .needsMapping)
  | .whole mapping _ => choose mapping
  | .single mapping _ _ => choose mapping

/-- Whether arguments of a list are left unused. -/
def Arguments.unused : Arguments → Bool
  | .list values => !values.isEmpty
  | _ => false

/-- The arguments of a message: a lone object with members serves as a
mapping. -/
def Arguments.ofList : List Json → Arguments
  | [.obj (m :: ms)] => .whole (.obj (m :: ms)) true
  | values => .list values

/-- The name of a conversion after its opening parenthesis, which may hold
balanced parentheses itself, with what follows it. -/
def nameOf (depth : Nat) : List Char → Option (List Char × List Char)
  | [] => none
  | ')' :: rest =>
    match depth with
    | 0 => some ([], rest)
    | depth + 1 => (nameOf depth rest).map fun (cs, tail) => (')' :: cs, tail)
  | c :: rest =>
    (nameOf (if c = '(' then depth + 1 else depth) rest).map fun (cs, tail) => (c :: cs, tail)

/-- The flags in front of a text, and the rest. -/
def readFlags (f : Flags) : List Char → Flags × List Char
  | '-' :: rest => readFlags { f with left := true } rest
  | '+' :: rest => readFlags { f with sign := true } rest
  | ' ' :: rest => readFlags { f with blank := true } rest
  | '#' :: rest => readFlags { f with alternate := true } rest
  | '0' :: rest => readFlags { f with zero := true } rest
  | cs => (f, cs)

/-- The number in front of a text, and the rest. -/
def readNat (cs : List Char) : Nat × List Char :=
  (Nat.ofDigitChars 10 (cs.takeWhile Char.isDigit) 0, cs.dropWhile Char.isDigit)

/-- A width or precision given by a star: the next argument, an integer. -/
def starred (a : Arguments) : Except Failure (Int × Arguments) := do
  let (v, a) ← a.next
  match v with
  | .num (.int n) => return (n, a)
  | .bool b => return (if b then 1 else 0, a)
  | _ => throw (.template .needsWidth)

/-- The largest width. -/
def maxWidth : Int := 0x7FFFFFFFFFFFFFFF

/-- The largest precision. -/
def maxPrecision : Int := 0x7FFFFFFF

/-- Fails unless a number is in range: at most `limit`, and at least as far
below zero as there is room for. -/
def checkRange (limit n : Int) (fault : TemplateFault) : Except Failure Unit :=
  if -limit - 1 ≤ n ∧ n ≤ limit then .ok () else .error (.template fault)

/-- The width of a conversion. A negative one sets the flag for writing to
the left. -/
def readWidth (f : Flags) (a : Arguments) (cs : List Char) :
    Except Failure (Nat × Flags × Arguments × List Char) := do
  match cs with
  | '*' :: rest =>
    let (n, a) ← starred a
    checkRange maxWidth n .starWidthRange
    return (n.natAbs, if n < 0 then { f with left := true } else f, a, rest)
  | _ =>
    let (n, rest) := readNat cs
    checkRange maxWidth n .widthRange
    return (n, f, a, rest)

/-- The precision of a conversion, if it has one. -/
def readPrecision (a : Arguments) (cs : List Char) :
    Except Failure (Option Nat × Arguments × List Char) := do
  match cs with
  | '.' :: '*' :: rest =>
    let (n, a) ← starred a
    checkRange maxPrecision n .starPrecisionRange
    return (some n.toNat, a, rest)
  | '.' :: rest =>
    let (n, rest) := readNat rest
    checkRange maxPrecision n .precisionRange
    return (some n, a, rest)
  | _ => return (none, a, cs)

/-- A text padded to a width. -/
def padText (f : Flags) (width : Nat) (s : String) : String :=
  if f.left then Text.Numeral.padRight width s else Text.Numeral.padLeft width ' ' s

/-- A numeral padded to a width: zeros go between the sign and the base mark
and the digits, blanks go outside. -/
def padNumber (c : Conversion) (negative : Bool) (mark digits : String) : String :=
  let sign := if negative then "-" else if c.flags.sign then "+"
    else if c.flags.blank then " " else ""
  let used := sign.length + mark.length
  if c.flags.left then Text.Numeral.padRight c.width (sign ++ mark ++ digits)
  else if c.flags.zero then sign ++ mark ++ Text.Numeral.padLeft (c.width - used) '0' digits
  else Text.Numeral.padLeft c.width ' ' (sign ++ mark ++ digits)

/-- The integer that an argument stands for, in a decimal conversion. -/
def decimalArgument (letter : Char) (v : Json) : Except Failure Int :=
  match v with
  | .num (.int n) => .ok n
  | .bool b => .ok (if b then 1 else 0)
  | .num (.float x) =>
    match x with
    | .nan => .error (.template .notANumber)
    | .infinite _ => .error (.template .infinite)
    | .finite _ _ _ => .ok (x.truncate?.getD 0)
  | _ => .error (.template (.needsNumber letter v.kind))

/-- The integer that an argument stands for, in another base. -/
def integerArgument (letter : Char) (v : Json) : Except Failure Int :=
  match v with
  | .num (.int n) => .ok n
  | .bool b => .ok (if b then 1 else 0)
  | _ => .error (.template (.needsInteger letter v.kind))

/-- The double that an argument stands for. -/
def realArgument (v : Json) : Except Failure Binary64 :=
  match v with
  | .num (.int n) =>
    match Binary64.nearest (n < 0) n.natAbs 1 with
    | .infinite _ => .error (.template .realRange)
    | x => .ok x
  | .bool b => .ok (Binary64.nearest false (if b then 1 else 0) 1)
  | .num (.float x) => .ok x
  | _ => .error (.template (.needsReal v.kind))

/-- Writes an integer in a base. -/
def writeInteger (c : Conversion) (base : Nat) (mark : String) (n : Int) : String :=
  let digits := String.ofList (Nat.toDigits base n.natAbs)
  let digits := Text.Numeral.padLeft (c.precision.getD 0) '0' digits
  padNumber c (n < 0) (if c.flags.alternate then mark else "") digits

/-- Letters in upper case. -/
def upper (s : String) : String :=
  String.ofList (s.toList.map Char.toUpper)

/-- A text cut to the precision of a conversion and padded. -/
def writeText (c : Conversion) (s : String) : String :=
  padText c.flags c.width (match c.precision with
    | some n => String.ofList (s.toList.take n)
    | none => s)

/-- The character that an argument stands for. -/
def characterArgument (v : Json) : Except Failure String :=
  match v with
  | .str s => if s.length = 1 then .ok s else .error (.template .needsCharacter)
  | .num (.int n) =>
    if 0 ≤ n ∧ n < 0x110000 then .ok (Char.ofNat n.toNat).toString
    else .error (.template .characterRange)
  | .bool b => .ok (Char.ofNat (if b then 1 else 0)).toString
  | _ => .error (.template .needsCharacter)

/-- Writes an argument as a conversion says. -/
def convert (c : Conversion) (v : Json) : Except Failure String := do
  match c.letter with
  | 's' => return writeText c v.text
  | 'r' => return writeText c v.shown
  | 'a' => return writeText c (Text.Quoted.toAscii v.shown)
  | 'c' => return padText c.flags c.width (← characterArgument v)
  | 'd' | 'i' | 'u' => return writeInteger c 10 "" (← decimalArgument c.letter v)
  | 'o' => return writeInteger c 8 "0o" (← integerArgument c.letter v)
  | 'x' => return writeInteger c 16 "0x" (← integerArgument c.letter v)
  | 'X' =>
    let n ← integerArgument c.letter v
    return upper (writeInteger c 16 "0x" n)
  | 'e' | 'f' | 'g' | 'E' | 'F' | 'G' =>
    let x ← realArgument v
    let s := x.fixed c.letter.toLower c.flags.alternate (c.precision.getD 6)
    return padNumber c x.isNegative "" (if c.letter.isUpper then upper s else s)
  | _ => throw (.template (.unsupported c.letter c.index))

/-- Whether a character is a length mark, which changes nothing. -/
def isLengthMark (c : Char) : Bool :=
  c = 'h' || c = 'l' || c = 'L'

/-- Writes the template from its `index`-th character on. -/
def fillFrom : (fuel index : Nat) → Arguments → List Char → Except Failure (List Char × Arguments)
  | 0, _, a, _ => .ok ([], a)
  | _ + 1, _, a, [] => .ok ([], a)
  | fuel + 1, index, a, '%' :: '%' :: rest => do
    let (tail, a) ← fillFrom fuel (index + 2) a rest
    return ('%' :: tail, a)
  | fuel + 1, index, a, '%' :: start => do
    let (a, cs) ← match start with
      | '(' :: rest =>
        match a with
        | .list _ => throw (.template .needsMapping)
        | _ =>
          match nameOf 0 rest with
          | some (name, tail) => pure (← a.named (String.ofList name), tail)
          | none => throw (.template .incompleteKey)
      | cs => pure (a, cs)
    let (flags, cs) := readFlags {} cs
    let (width, flags, a, cs) ← readWidth flags a cs
    let (precision, a, cs) ← readPrecision a cs
    let cs := match cs with
      | c :: rest => if isLengthMark c then rest else c :: rest
      | [] => []
    match cs with
    | [] => throw (.template .incomplete)
    | letter :: rest =>
      let index := index + (start.length - rest.length)
      let (v, a) ← a.next
      let out ← convert ⟨flags, width, precision, letter, index⟩ v
      let (tail, a) ← fillFrom fuel (index + 1) a rest
      return (out.toList ++ tail, a)
  | fuel + 1, index, a, c :: rest => do
    let (tail, a) ← fillFrom fuel (index + 1) a rest
    return (c :: tail, a)

/-- A template with its arguments filled in. -/
def fill (template : String) (values : List Json) : Except Failure String := do
  let (cs, rest) ← fillFrom (template.length + 1) 0 (Arguments.ofList values) template.toList
  if rest.unused then throw (.template .unusedArguments)
  return String.ofList cs

end Disasm.Log.Template
