import Disasm.Machine.FileTree
/-!
# Canonical places

The canonical place of a path has no link on the way to it. It is found
name by name: a double dot steps back in what has been resolved so far,
whatever kind of node stands there, and the target of a link is resolved
from the directory the link is in before the walk goes on. This is not
the system's own walk: a double dot behind a file is taken here and
refused there.
-/

namespace Disasm.FileTree

/-- Resolves names from a place that is already canonical, given what the
link at a place leads to. -/
def resolveBy (t : FileTree) (follow : Place → String → Except Failure Place) :
    Place → List String → Except Failure Place
  | here, [] => .ok here
  | here, name :: rest =>
    if name = "." then resolveBy t follow here rest
    else if name = ".." then resolveBy t follow here.dropLast rest
    else do
      let place := here ++ [name]
      let (_, node) ← t.nodeAt [] false place.text
      match node with
      | .link target => resolveBy t follow (← follow place target) rest
      | _ => resolveBy t follow place rest

/-- Resolves names from a place that is already canonical. Link targets may
be nested to a depth of `budget`; deeper nesting is a loop. -/
def resolve (t : FileTree) : (budget : Nat) → Place → List String → Except Failure Place
  | 0 => t.resolveBy fun place _ => .error (.system .linkLoop place.text)
  | budget + 1 => t.resolveBy fun place target =>
    t.resolve budget (startOf place.dropLast target) (pathNames target)

/-- The depth of nesting that the links of a tree can reach without a loop. -/
def depthBound (t : FileTree) : Nat :=
  t.linkCount + maxLinks + 1

/-- The canonical place of a path. -/
def canonical (t : FileTree) (cwd : Place) (path : String) : Except Failure Place :=
  t.resolve t.depthBound (startOf cwd path) (pathNames path)

end Disasm.FileTree
