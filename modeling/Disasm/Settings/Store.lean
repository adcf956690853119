import Disasm.Json.Printer
import Disasm.Json.Reader
import Disasm.Machine.Basic
import Disasm.Settings.Basic
/-!
# The settings file

The settings are kept as JSON in a file: the one the environment names,
or one below the user's home. A file that is not there, that is not JSON
or that does not hold an object is replaced by the defaults; a value that
cannot be used is a failure, and so is a file that is not UTF-8.
-/

namespace Disasm.Settings

/-- The variable that names the settings file. -/
def pathVariable : String := "OBJVIEW_CONFIG"

/-- The settings file of a user who has not named one, below the home that the
user had when the program was started. -/
def homePath (m : Machine) : Path :=
  (Path.ofString m.firstHome).append (Path.ofString ".config/objview/settings.json")

/-- A path with a leading `~` or `~name` replaced by a home directory. -/
def expandHome (home : Option String) (users : List (String × String)) (p : Path) :
    Except Failure Path :=
  match p.root, p.parts with
  | .relative, first :: rest =>
    if Text.startsWith first "~" then do
      let directory ← Path.expandHome home users first
      if Text.startsWith directory "~" then throw .homeUnknown
      let base := Path.ofString directory
      return { base with parts := base.parts ++ rest }
    else .ok p
  | _, _ => .ok p

/-- The settings file to use when none is given. -/
def defaultPath : Act Machine Path := do
  let m ← get
  match m.setting? pathVariable with
  | some s =>
    if s.isEmpty then return homePath m
    else Act.ofExcept (expandHome m.home m.users (Path.ofString s))
  | none => return homePath m

/-- Chooses the settings file and makes its directory. -/
def openStore (path : Option String) : Act Machine Path := do
  let p ← match path with
    | some s => pure (Path.ofString s)
    | none => defaultPath
  Machine.makeDirectories p.parent
  return p

/-- Stores settings. They are copied first, and a value that is nested too deep
for that leaves the file alone. -/
def save (store : Path) (s : Settings) : Act Machine Unit := do
  let copy ← Act.ofExcept (s.copy (← get).depth)
  Machine.writeFile store.text (Text.Utf8.encode copy.toJson.pretty)

/-- Stores the defaults and returns them. -/
def saveDefaults (store : Path) : Act Machine Config := do
  save store defaults
  return {}

/-- The text of the settings file. -/
def readStore (store : Path) : Act Machine String := do
  let bytes ← Machine.contentOf store.text
  match Text.Utf8.decodeStrict bytes with
  | .ok s => return Text.newlines s
  | .error u => throw (.undecodable (.bytes u))

/-- The configuration that the settings file holds. -/
def load (store : Path) : Act Machine Config := do
  if !(← Machine.existsAt store.text) then saveDefaults store
  else
    match Json.read (← readStore store) (← get).depth with
    | .ok v =>
      match v.fields? with
      | some members => Act.ofExcept (defaults.update members).normalize
      | none => saveDefaults store
    | .error .malformed =>
      Machine.log Log.warning "config_manager"
        ("settings file " ++ store.text ++ " is corrupt, restoring defaults")
      saveDefaults store
    | .error (.tooManyDigits count) => throw (.tooManyDigits count)
    | .error (.tooDeep inList) => throw (.tooDeep inList)

end Disasm.Settings
