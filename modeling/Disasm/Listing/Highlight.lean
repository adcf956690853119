import Disasm.Listing.Index
import Disasm.Text.Blank
import Disasm.Text.Cut
/-!
# Colouring a listing

Each rule finds spans in a line and gives them a colour. The rules run in
order, so a later one paints over an earlier one. A rule is tried at each
position from the left and goes on behind what it found; it sees the
characters before the position, nearest first, and those from it on.
-/

namespace Disasm.Listing

/-- A coloured stretch of a line, in characters. -/
structure Span where
  start : Nat
  length : Nat
  color : String
  bold : Bool
  deriving Repr, DecidableEq

/-- A rule: the length of what it finds at a position, if it finds
anything, and the look of it. -/
structure Rule where
  found? : (before rest : List Char) → Option Nat
  color : String
  bold : Bool := false

/-- Whether a line may end here: at its end, or at a line feed that ends
it. -/
def atEnd (rest : List Char) : Bool :=
  rest = [] || rest = ['\n']

/-- A symbol header: hexadecimal digits, a blank and a name between `<` and
`>:`, over the whole line. -/
def headerSpan? (before rest : List Char) : Option Nat :=
  let digits := rest.takeWhile isHex
  match rest.drop digits.length with
  | ' ' :: '<' :: inner =>
    let name := inner.takeWhile (· ≠ '>')
    match inner.drop name.length with
    | '>' :: ':' :: tail =>
      if before.isEmpty && !digits.isEmpty && !name.isEmpty && atEnd tail then
        some (digits.length + name.length + 4)
      else none
    | _ => none
  | _ => none

/-- The address in front of an instruction, with the blanks before it and
its colon. -/
def addressSpan? (before rest : List Char) : Option Nat :=
  let blanks := rest.takeWhile Text.isBlank
  let digits := (rest.drop blanks.length).takeWhile isHex
  match rest.drop (blanks.length + digits.length) with
  | ':' :: _ =>
    if before.isEmpty && !digits.isEmpty then some (blanks.length + digits.length + 1) else none
  | _ => none

/-- Whether a character is a lower-case hexadecimal digit. -/
def isLowerHex (c : Char) : Bool :=
  isHex c && !c.isUpper

/-- The length of pairs of lower-case digits, each with a blank behind it. -/
def pairs : List Char → Nat
  | a :: b :: ' ' :: rest => if isLowerHex a && isLowerHex b then pairs rest + 3 else 0
  | _ => 0

/-- The bytes of an instruction, behind the colon and the tab. -/
def bytesSpan? (before rest : List Char) : Option Nat :=
  match before with
  | '\t' :: ':' :: _ => if 0 < pairs rest then some (pairs rest) else none
  | _ => none

/-- Whether a character may stand in a mnemonic. -/
def isMnemonicChar (c : Char) : Bool :=
  c.isLower || c.isDigit || c = '.'

/-- A mnemonic, behind a tab and before a blank or the end. -/
def mnemonicSpan? (before rest : List Char) : Option Nat :=
  match before, rest with
  | '\t' :: _, c :: tail =>
    let more := tail.takeWhile isMnemonicChar
    let next := tail.drop more.length
    if c.isLower && (next.isEmpty || (next.headD 'x' |> Text.isBlank)) then some (more.length + 1)
    else none
  | _, _ => none

/-- A reference to a symbol between angle brackets. -/
def referenceSpan? (_before rest : List Char) : Option Nat :=
  match rest with
  | '<' :: inner =>
    let name := inner.takeWhile fun c => c ≠ '>' && c ≠ '\n'
    match inner.drop name.length with
    | '>' :: _ => if name.isEmpty then none else some (name.length + 2)
    | _ => none
  | _ => none

/-- A comment to the end of the line. -/
def commentSpan? (_before rest : List Char) : Option Nat :=
  match rest with
  | c :: tail =>
    let body := tail.takeWhile (· ≠ '\n')
    if (c = '#' || c = ';') && atEnd (tail.drop body.length) then some (body.length + 1) else none
  | [] => none

/-- The line that names the format of the file. -/
def formatSpan? (before rest : List Char) : Option Nat :=
  match rest with
  | c :: tail =>
    let body := tail.takeWhile (· ≠ '\n')
    if before.isEmpty && !Text.isBlank c && Text.occursChars "file format ".toList body &&
        atEnd (tail.drop body.length) then
      some (body.length + 1)
    else none
  | [] => none

/-- The rules, in the order they paint. -/
def rules : List Rule :=
  [{ found? := headerSpan?, color := "#c678dd", bold := true },
   { found? := addressSpan?, color := "#7f848e" },
   { found? := bytesSpan?, color := "#5c6370" },
   { found? := mnemonicSpan?, color := "#61afef" },
   { found? := referenceSpan?, color := "#e5c07b" },
   { found? := commentSpan?, color := "#98c379" },
   { found? := formatSpan?, color := "#56b6c2", bold := true }]

/-- The spans of a rule from a position on; `skip` characters belong to the
span found last. -/
def Rule.spansFrom (r : Rule) (position : Nat) (before : List Char) :
    (skip : Nat) → List Char → List Span
  | _, [] => []
  | skip + 1, c :: rest => r.spansFrom (position + 1) (c :: before) skip rest
  | 0, c :: rest =>
    match r.found? before (c :: rest) with
    | some n =>
      ⟨position, n, r.color, r.bold⟩ :: r.spansFrom (position + 1) (c :: before) (n - 1) rest
    | none => r.spansFrom (position + 1) (c :: before) 0 rest

/-- The coloured spans of a line, in the order they are painted. -/
def highlight (line : String) : List Span :=
  rules.flatMap fun r => r.spansFrom 0 [] 0 line.toList

end Disasm.Listing
