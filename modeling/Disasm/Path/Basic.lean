import Disasm.Text.Cut
/-!
# Paths — a path as a root and its parts

A path is read once into its root and the names below it: empty names and
single dots go, double dots stay, since what they mean depends on links.
Exactly two slashes in front make a root of their own. Name, parent and
suffix are then questions about the list of names.
-/

namespace Disasm

/-- Where a path starts. -/
inductive Root where
  | relative
  | single
  | double
  deriving Repr, DecidableEq

/-- The slashes of a root. -/
def Root.text : Root → String
  | .relative => ""
  | .single => "/"
  | .double => "//"

/-- The root that the slashes in front of a text announce. -/
def Root.of : List Char → Root
  | '/' :: '/' :: '/' :: _ => .single
  | '/' :: '/' :: _ => .double
  | '/' :: _ => .single
  | _ => .relative

/-- A path: its root and the names below it. -/
structure Path where
  root : Root
  parts : List String
  deriving Repr, DecidableEq

namespace Path

/-- The names of a text between slashes, without empty ones and single
dots. -/
def namesOf (s : String) : List String :=
  (Text.splitAt '/' s).filter fun name => !name.isEmpty && name ≠ "."

/-- Reads a path. -/
def ofString (s : String) : Path :=
  ⟨Root.of s.toList, namesOf s⟩

/-- The text of a path; the empty relative path is a single dot. -/
def text (p : Path) : String :=
  let s := p.root.text ++ String.intercalate "/" p.parts
  if s.isEmpty then "." else s

/-- The last name, or the empty text. -/
def name (p : Path) : String :=
  p.parts.getLast?.getD ""

/-- The path without its last name. -/
def parent (p : Path) : Path :=
  { p with parts := p.parts.dropLast }

/-- A path with the names of another below it; a rooted one stands for
itself. -/
def append (p q : Path) : Path :=
  if q.root = .relative then { p with parts := p.parts ++ q.parts } else q

/-- A name cut at its last dot, when that is neither its first nor its last
character; otherwise the suffix is empty. -/
def cutSuffix (cs : List Char) : List Char × List Char :=
  let tail := cs.reverse.takeWhile (· ≠ '.')
  let stem := (cs.reverse.drop (tail.length + 1)).reverse
  if tail.length < cs.length ∧ !tail.isEmpty ∧ !stem.isEmpty then (stem, '.' :: tail.reverse)
  else (cs, [])

/-- Whether a text can stand as a suffix: empty, or a dot with something
behind it, and without slashes. -/
def isSuffix (cs : List Char) : Bool :=
  !cs.contains '/' && (cs.isEmpty || (cs.head? = some '.' && cs ≠ ['.']))

/-- A path with the suffix of its name replaced. -/
def withSuffix (p : Path) (suffix : String) : Path :=
  { p with
    parts := p.parts.dropLast ++
      [String.ofList ((cutSuffix p.name.toList).1 ++ suffix.toList)] }

end Path

end Disasm
