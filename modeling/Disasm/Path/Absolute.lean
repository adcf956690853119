import Disasm.Failure
import Disasm.Path.Basic
/-!
# Absolute paths

`normalize` removes empty names, single dots and double dots by looking
at the text alone; `absolute` does so after putting the working directory
in front of a relative text, and `seenFrom` fails for a relative text if
there is no working directory any more. `expandHome` replaces a leading
`~` or `~name` by a home directory.
-/

namespace Disasm.Path

/-- Adds a name to the names before it, which are in reverse. A double dot
takes the last name back; above a root there is nothing to take, and in
front of a relative path double dots are kept. -/
def pushName (rooted : Bool) (before : List String) (name : String) : List String :=
  if name.isEmpty || name = "." then before
  else if name ≠ ".." then name :: before
  else match before with
    | [] => if rooted then [] else [".."]
    | last :: rest => if last = ".." then ".." :: last :: rest else rest

/-- The text of a path without empty names, single dots and needless double
dots. -/
def normalize (s : String) : String :=
  let root := Root.of s.toList
  let names := ((Text.splitAt '/' s).foldl (pushName (root ≠ .relative)) []).reverse
  Path.text ⟨root, names⟩

/-- A text put below a directory, unless it is rooted. -/
def join (directory s : String) : String :=
  if Text.startsWith s "/" then s
  else if directory.isEmpty || Text.endsWith directory "/" then directory ++ s
  else directory ++ "/" ++ s

/-- The normalised text of a path seen from a working directory. -/
def absolute (cwd s : String) : String :=
  normalize (join cwd s)

/-- The normalised text of a path, seen from the working directory if that is
still there. A rooted path does not need one. -/
def seenFrom (cwd : Option String) (s : String) : Except Failure String :=
  match cwd with
  | some directory => .ok (absolute directory s)
  | none => if Text.startsWith s "/" then .ok (normalize s) else .error (.system .lostDirectory s)

/-- A text without the slashes at its end. -/
def dropSlashes (s : String) : String :=
  String.ofList ((s.toList.reverse.dropWhile (· = '/')).reverse)

/-- Replaces a leading `~` by the home directory and `~name` by the home of
that user. A text whose home is unknown stays as it is, and a name with a
null character cannot be asked for. -/
def expandHome (home : Option String) (users : List (String × String)) (s : String) :
    Except Failure String :=
  match s.toList with
  | '~' :: cs =>
    let user := String.ofList (cs.takeWhile (· ≠ '/'))
    let rest := String.ofList (cs.dropWhile (· ≠ '/'))
    if user.toList.contains (Char.ofNat 0) then .error .embeddedNull
    else match if user.isEmpty then home else users.lookup user with
    | none => .ok s
    | some directory =>
      let full := dropSlashes directory ++ rest
      .ok (if full.isEmpty then "/" else full)
  | _ => .ok s

end Disasm.Path
