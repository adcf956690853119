import Disasm.Text.Cut
import Disasm.Text.Percent
/-!
# Internet addresses

A bracketed host must be an internet address. Only the form matters:
which texts are addresses of version four and of version six.
-/

namespace Disasm.Address

/-- Whether a text is a part of a version four address: a number up to 255
without leading zeros. -/
def isOctet (cs : List Char) : Bool :=
  !cs.isEmpty && cs.all Char.isDigit && cs.length ≤ 3 && (cs = ['0'] || cs.head? ≠ some '0') &&
    Nat.ofDigitChars 10 cs 0 ≤ 255

/-- Whether a text is a version four address. -/
def isFour (cs : List Char) : Bool :=
  let parts := cs.splitOn '.'
  parts.length = 4 && parts.all isOctet

/-- Whether a text is a group of a version six address: one to four
hexadecimal digits. -/
def isGroup (cs : List Char) : Bool :=
  !cs.isEmpty && cs.length ≤ 4 && cs.all fun c => (Text.Percent.nibble? c).isSome

/-- The groups between colons; a version four address at the end counts as
two. -/
def groups? (cs : List Char) : Option (List (List Char)) :=
  let parts := cs.splitOn ':'
  let last := parts.getLast?.getD []
  if parts.length < 3 then none
  else if last.contains '.' then
    if isFour last then some (parts.dropLast ++ [['0'], ['0']]) else none
  else some parts

/-- The places strictly inside a list of groups that hold no group. -/
def gaps (parts : List (List Char)) : List Nat :=
  (List.range parts.length).filter fun i =>
    0 < i && i + 1 < parts.length && (parts.getD i []).isEmpty

/-- Whether groups write an address: eight of them, or fewer with one gap,
which may touch either end only by taking it whole. -/
def areGroups (parts : List (List Char)) : Bool :=
  if 9 < parts.length then false
  else match gaps parts with
    | [] => parts.length = 8 && parts.all isGroup
    | [gap] =>
      let high := parts.take gap
      let low := parts.drop (gap + 1)
      let high := if high.head? = some [] then high.drop 1 else high
      let low := if low.getLast? = some [] then low.dropLast else low
      let touchesFirst := (parts.headD []).isEmpty
      let touchesLast := (parts.getLast?.getD []).isEmpty
      (!touchesFirst || high.isEmpty) && (!touchesLast || low.isEmpty) &&
        high.length + low.length < 8 && high.all isGroup && low.all isGroup
    | _ => false

/-- Whether a text is a version six address, with an optional zone after a
percent sign. -/
def isSix (cs : List Char) : Bool :=
  let (address, zone) := Text.cutFirst '%' cs
  let zoneOk := !cs.contains '%' || (!zone.isEmpty && !zone.contains '%')
  zoneOk && (match groups? address with
    | some parts => areGroups parts
    | none => false)

/-- Whether a text has the form kept for later versions: a `v`, hexadecimal
digits, a dot and something behind it. -/
def isFuture (cs : List Char) : Bool :=
  match cs with
  | 'v' :: rest =>
    let digits := rest.takeWhile fun c => (Text.Percent.nibble? c).isSome
    match rest.drop digits.length with
    | '.' :: tail => !digits.isEmpty && !tail.isEmpty
    | _ => false
  | _ => false

end Disasm.Address
