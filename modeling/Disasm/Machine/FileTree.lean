import Disasm.Failure
import Disasm.Text.Cut
/-!
# The file tree, and how the system looks a path up

The tree is a list of places with what stands there. `lookup` is the
system's own walk along a path: it follows links as it meets them, forty
at most, insists that what it walks through is a directory that may be
searched, and reports the first obstacle.
-/

namespace Disasm

/-- A place in the tree: the names that lead to it from the root. -/
abbrev Place := List String

/-- The path of a place. -/
def Place.text (p : Place) : String :=
  "/" ++ String.intercalate "/" p

/-- What stands at a place. -/
inductive Node where
  | directory
  | file (content : Bytes) (executable : Bool)
  | link (target : String)
  deriving Repr, DecidableEq

/-- A file tree. Its root is a directory; the three lists hold the places
that may not be read, written or searched. -/
structure FileTree where
  nodes : List (Place × Node) := []
  unreadable : List Place := []
  unwritable : List Place := []
  unsearchable : List Place := []
  deriving Repr, DecidableEq

/-- The names of a path between its slashes. -/
def pathNames (path : String) : List String :=
  (Text.splitAt '/' path).filter (!·.isEmpty)

namespace FileTree

/-- What stands at a place. -/
def node? (t : FileTree) (p : Place) : Option Node :=
  if p.isEmpty then some .directory else t.nodes.lookup p

/-- Puts a node at a place, in place of what stands there. -/
def put (t : FileTree) (p : Place) (node : Node) : FileTree :=
  if t.nodes.any (·.1 = p) then
    { t with nodes := t.nodes.map fun e => if e.1 = p then (p, node) else e }
  else { t with nodes := t.nodes ++ [(p, node)] }

/-- Takes away what stands at a place. -/
def erase (t : FileTree) (p : Place) : FileTree :=
  { t with nodes := t.nodes.filter (·.1 ≠ p) }

/-- The tree with a directory at each of the given places where nothing
stands. -/
def ensureDirectories (t : FileTree) (places : List Place) : FileTree :=
  places.foldl (fun t p => if (t.node? p).isSome then t else t.put p .directory) t

/-- The places on the way to a place, the place itself left out. -/
def ancestors (p : Place) : List Place :=
  (List.range p.length).map p.take

/-- Puts a node at a place, with the directories on the way to it. -/
def plant (t : FileTree) (path : String) (node : Node) : FileTree :=
  let p := pathNames path
  (t.ensureDirectories (ancestors p)).put p node

/-- What a stretch of the walk that follows no link ends at. -/
inductive Stretch where
  | found (place : Place) (node : Node)
  | missing (parent : Place) (name : String)
  | link (parent : Place) (target : String) (rest : List String)
  | failed (code : Errno)
  deriving Repr, DecidableEq

/-- The longest name that a directory can hold, in bytes. -/
def maxName : Nat := 255

/-- A path of this many bytes is too long. -/
def maxPath : Nat := 4096

/-- The most links that one walk follows. -/
def maxLinks : Nat := 40

/-- Walks from the directory `here` along names up to the next link. The
last name is followed if `follow` is set; with `directory` the walk must
end at a directory. -/
def stretch (t : FileTree) (follow directory : Bool) (here : Place) : List String → Stretch
  | [] => .found here .directory
  | name :: rest =>
    if t.unsearchable.contains here then .failed .accessDenied
    else if maxName < (Text.Utf8.encode name).length then .failed .nameTooLong
    else if name = "." then stretch t follow directory here rest
    else if name = ".." then stretch t follow directory here.dropLast rest
    else match t.node? (here ++ [name]) with
      | none => if rest.isEmpty then .missing here name else .failed .noEntry
      | some .directory => stretch t follow directory (here ++ [name]) rest
      | some (.file content executable) =>
        if rest.isEmpty && !directory then .found (here ++ [name]) (.file content executable)
        else .failed .notDirectory
      | some (.link target) =>
        if rest.isEmpty && !follow && !directory then .found (here ++ [name]) (.link target)
        else .link here target rest

/-- Where a walk ends: at a node, or at a directory that lacks the last
name. -/
inductive Found where
  | node (place : Place) (node : Node)
  | missing (parent : Place) (name : String)
  deriving Repr, DecidableEq

/-- The directory a path starts from, given the one that relative paths
start from. -/
def startOf (here : Place) (path : String) : Place :=
  if Text.startsWith path "/" then [] else here

/-- Walks along names, following up to `budget` links. -/
def walk (t : FileTree) (follow : Bool) :
    (budget : Nat) → (directory : Bool) → Place → List String → Except Errno Found
  | budget, directory, here, names =>
    match t.stretch follow directory here names with
    | .found place node => .ok (.node place node)
    | .missing parent name => .ok (.missing parent name)
    | .failed code => .error code
    | .link parent target rest =>
      match budget with
      | 0 => .error .linkLoop
      | budget + 1 =>
        if target.isEmpty then .error .noEntry
        else
          walk t follow budget (directory || (rest.isEmpty && Text.endsWith target "/"))
            (startOf parent target) (pathNames target ++ rest)

/-- Looks a path up from a working directory. -/
def lookup (t : FileTree) (cwd : Place) (follow : Bool) (path : String) : Except Errno Found :=
  if path.isEmpty then .error .noEntry
  else if maxPath ≤ (Text.Utf8.encode path).length then .error .nameTooLong
  else
    t.walk follow maxLinks (Text.endsWith path "/") (startOf cwd path) (pathNames path)

/-- Looks a path up as a program does: a path with a null character never
reaches the system, and a report of the system names the path. -/
def seek (t : FileTree) (cwd : Place) (follow : Bool) (path : String) : Except Failure Found :=
  if path.toList.contains (Char.ofNat 0) then .error .embeddedNull
  else (t.lookup cwd follow path).mapError (.system · path)

/-- What stands at the end of a path. -/
def nodeAt (t : FileTree) (cwd : Place) (follow : Bool) (path : String) :
    Except Failure (Place × Node) := do
  match ← t.seek cwd follow path with
  | .node place node => return (place, node)
  | .missing _ _ => throw (.system .noEntry path)

/-- The number of links in the tree. -/
def linkCount (t : FileTree) : Nat :=
  t.nodes.countP fun e => e.2 matches .link _

/-- The files of the tree. -/
def files (t : FileTree) : List (Place × Bytes) :=
  t.nodes.filterMap fun
    | (p, .file content _) => some (p, content)
    | _ => none

/-- The files that are new or changed since an earlier tree. -/
def changedSince (t old : FileTree) : List (Place × Bytes) :=
  t.files.filter fun (p, content) =>
    match old.node? p with
    | some (.file before _) => before ≠ content
    | _ => true

end FileTree

end Disasm
