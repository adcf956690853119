/-!
# Cutting text

Cuts at a character and searches for a text within another. All of them
work on the list of characters, so that a cut loses nothing but the
character it is made at.
-/

namespace Disasm.Text

/-- The pieces of a text between the occurrences of a character. -/
def splitAt (sep : Char) (s : String) : List String :=
  (s.toList.splitOn sep).map String.ofList

/-- The characters before the first occurrence of `sep`, all of them if
there is none, and those after it. -/
def cutFirst (sep : Char) (cs : List Char) : List Char × List Char :=
  (cs.takeWhile (· ≠ sep), (cs.dropWhile (· ≠ sep)).drop 1)

/-- The characters before the last occurrence of `sep` and those after it;
nothing, if there is none. -/
def cutLast? (sep : Char) (cs : List Char) : Option (List Char × List Char) :=
  if cs.contains sep then
    let (tail, head) := cutFirst sep cs.reverse
    some (head.reverse, tail.reverse)
  else none

/-- Whether a text ends with another. -/
def endsWith (s tail : String) : Bool :=
  tail.toList.isSuffixOf s.toList

/-- Whether a text starts with another. -/
def startsWith (s head : String) : Bool :=
  head.toList.isPrefixOf s.toList

/-- A text without `head` in front of it, if it is there. -/
def dropHead (head s : String) : String :=
  if startsWith s head then String.ofList (s.toList.drop head.length) else s

/-- Whether a list of characters occurs within another. -/
def occursChars (needle : List Char) : List Char → Bool
  | [] => needle.isEmpty
  | c :: rest => needle.isPrefixOf (c :: rest) || occursChars needle rest

/-- Whether a text occurs within another. -/
def occurs (needle s : String) : Bool :=
  occursChars needle.toList s.toList

/-- The number of occurrences of a character. -/
def count (c : Char) (s : String) : Nat :=
  s.toList.count c

end Disasm.Text
