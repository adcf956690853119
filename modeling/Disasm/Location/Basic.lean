import Disasm.Failure
import Disasm.Path.Basic
/-!
# Locations — where a file is

A file is on this machine or on a host reached by ssh. Both kinds carry a
path; a location is remote exactly when it has a host. What is shown to
the user is `display`, and the name of the listing derived from a file is
its location with another suffix.
-/

namespace Disasm

/-- The place of a file. -/
structure Location where
  path : String
  host : Option String := none
  user : Option String := none
  port : Option Int := none
  scheme : String := "ssh"
  deriving Repr, DecidableEq

namespace Location

/-- Whether the file is on another host. -/
def isRemote (l : Location) : Bool :=
  l.host.isSome

/-- The last name of the path. -/
def name (l : Location) : String :=
  (Path.ofString l.path).name

/-- The directory the file is in. -/
def directory (l : Location) : String :=
  (Path.ofString l.path).parent.text

/-- The same place with another path. -/
def withPath (l : Location) (path : String) : Location :=
  { l with path }

/-- The location with the suffix of its name replaced. A location without a
name stays as it is; a text that is no suffix is refused. -/
def withSuffix (l : Location) (suffix : String) : Except Failure Location :=
  let p := Path.ofString l.path
  if p.name.isEmpty then .ok l
  else if Path.isSuffix suffix.toList then .ok (l.withPath (p.withSuffix suffix).text)
  else .error (.badSuffix suffix)

/-- The destination ssh is given for a host: the user, if one is named, and
the host. -/
def destination (user : Option String) (host : String) : String :=
  match user with
  | some u => if u.isEmpty then host else u ++ "@" ++ host
  | none => host

/-- The destination of a remote location. -/
def sshTarget (l : Location) : Except Failure String :=
  match l.host with
  | some host => .ok (destination l.user host)
  | none => .error (.notRemote l.path)

/-- The port as ssh is told it: a port of zero counts as none. -/
def givenPort? (l : Location) : Option Int :=
  l.port.filter (· ≠ 0)

/-- The text that shows a location: the path, or a URL. -/
def display (l : Location) : String :=
  match l.host with
  | none => l.path
  | some host =>
    let authority := match l.givenPort? with
      | some port => destination l.user host ++ ":" ++ toString port
      | none => destination l.user host
    l.scheme ++ "://" ++ authority ++ l.path

/-- The display of the listing derived from a file. -/
def viewName (l : Location) (marker : String) : Except Failure String :=
  (l.withSuffix marker).map display

end Location

end Disasm
