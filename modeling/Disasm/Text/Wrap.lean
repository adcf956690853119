import Disasm.Text.Blank
import Disasm.Text.Digit
/-!
# Breaking text into lines

A text is cut into chunks: blanks, words, the parts of a word behind its
hyphens, and dashes between words. Lines are filled with chunks as far as
they fit. A chunk that fits on no line is cut, behind a hyphen if it has
one there.
-/

namespace Disasm.Text.Wrap

/-- Blanks between words. -/
def isSpace (c : Char) : Bool :=
  c = ' ' || (9 ≤ c.toNat && c.toNat ≤ 13)

/-- The characters of words: letters, digits, the underscore, and whatever
is no blank beyond ASCII. -/
def isWord (c : Char) : Bool :=
  c.isAlphanum || c = '_' || (0x80 ≤ c.toNat && !isBlank c)

/-- The characters of words that are not digits. -/
def isLetter (c : Char) : Bool :=
  isWord c && (digit? c).isNone

/-- The characters of words and the marks that may stand in or behind one. -/
def isWordMark (c : Char) : Bool :=
  isWord c || "!\"'&.,?".toList.contains c

/-- Whether what stands before a hyphen, nearest first, is part of a
hyphenated word: two letters, or a letter, a hyphen and one more
character. -/
def hyphenFollows : List Char → Bool
  | b :: '-' :: a :: _ => isWordMark b && isLetter a
  | b :: a :: _ => isLetter a && isLetter b
  | _ => false

/-- Whether what stands behind a hyphen goes on with the word: two letters,
with a hyphen between them or not. -/
def hyphenPrecedes : List Char → Bool
  | a :: '-' :: b :: _ => isLetter a && isLetter b
  | a :: b :: _ => isLetter a && isLetter b
  | _ => false

/-- The length of a dash of two or more hyphens before a word. -/
def dash? (cs : List Char) : Option Nat :=
  let n := (cs.takeWhile (· = '-')).length
  if 2 ≤ n && (cs.drop n).head?.any isWord then some n else none

/-- The length of the chunk of a word, given what stands before it. -/
def wordLength (before : List Char) : List Char → Nat
  | [] => 0
  | [_] => 1
  | c :: d :: after =>
    if isSpace d then 1
    else if d = '-' && hyphenFollows (c :: before) && hyphenPrecedes after then 2
    else if isWordMark c && (dash? (d :: after)).isSome then 1
    else 1 + wordLength (c :: before) (d :: after)

/-- The length of the first chunk of a text, given what stands before it. -/
def chunkLength (before cs : List Char) : Nat :=
  if cs.head?.any isSpace then (cs.takeWhile isSpace).length
  else match dash? cs with
    | some n => if before.head?.any isWordMark then n else wordLength before cs
    | none => wordLength before cs

/-- The chunks of a text; at most `fuel` of them. -/
def chunksFrom : (fuel : Nat) → (before cs : List Char) → List (List Char)
  | 0, _, _ => []
  | fuel + 1, before, cs =>
    if cs.isEmpty then []
    else
      let n := chunkLength before cs
      cs.take n :: chunksFrom fuel ((cs.take n).reverse ++ before) (cs.drop n)

/-- The chunks of a text. -/
def chunks (s : String) : List (List Char) :=
  chunksFrom s.length [] s.toList

/-- The chunks that fit into `room` characters, and the others. -/
def fit (room : Nat) : List (List Char) → List (List Char) × List (List Char)
  | [] => ([], [])
  | c :: rest =>
    if c.length ≤ room then
      let (taken, left) := fit (room - c.length) rest
      (c :: taken, left)
    else ([], c :: rest)

/-- Where to cut a chunk that is longer than a line, with `room` characters
left on this one: behind its last hyphen there, if a part of the word
stands before that. -/
def cutPoint (room : Nat) (c : List Char) : Nat :=
  let start := c.take room
  let tail := (start.reverse.takeWhile (· ≠ '-')).length
  let hyphen := start.length - tail - 1
  if tail < start.length && (start.take hyphen).any (· ≠ '-') then hyphen + 1 else room

/-- The chunks of the next line, and the chunks after it. -/
def nextLine (width : Nat) (cs : List (List Char)) : List (List Char) × List (List Char) :=
  let (taken, left) := fit width cs
  match left with
  | c :: rest =>
    if width < c.length then
      let n := cutPoint (width - taken.flatten.length) c
      (taken ++ [c.take n], c.drop n :: rest)
    else (taken, left)
  | [] => (taken, [])

/-- A line without a chunk of blanks at its end. -/
def dropLastBlank (line : List (List Char)) : List (List Char) :=
  if line.getLast?.any (·.all isBlank) then line.dropLast else line

/-- Chunks without one of blanks in front. -/
def dropFirstBlank : List (List Char) → List (List Char)
  | [] => []
  | c :: rest => if c.all isBlank then rest else c :: rest

/-- Fills lines with chunks; at most `fuel` lines. -/
def fillLines (width : Nat) : (fuel : Nat) → List (List Char) → List String
  | 0, _ => []
  | fuel + 1, cs =>
    if cs.isEmpty then []
    else
      let (line, rest) := nextLine width cs
      let line := dropLastBlank line
      let more := fillLines width fuel (dropFirstBlank rest)
      if line.isEmpty then more else String.ofList line.flatten :: more

/-- A text with every run of blanks made one, and none at its ends. -/
def squeeze (s : String) : String :=
  let joined := s.toList.foldr
    (fun c out => if !isSpace c then c :: out
      else if out.head? = some ' ' then out else ' ' :: out) []
  trim (String.ofList joined)

/-- Breaks a text into lines of at most `width` characters. -/
def wrap (width : Nat) (s : String) : List String :=
  let s := squeeze s
  fillLines width (2 * s.length + 1) (chunks s)

end Disasm.Text.Wrap
