/-!
# Code ranges — a class of characters as a list of intervals

The character classes of the program are those of the Unicode character
database, version 14. A class is a list of closed intervals of code
points, in increasing order, and membership is a search through it.
-/

namespace Disasm.Text

/-- A class of characters: closed intervals of code points. -/
abbrev CodeRanges := List (Nat × Nat)

/-- Whether a character lies in one of the intervals. -/
def CodeRanges.has (ranges : CodeRanges) (c : Char) : Bool :=
  ranges.any fun (first, last) => first ≤ c.toNat && c.toNat ≤ last

end Disasm.Text
