import Disasm.Failure
import Disasm.Text.Cut
/-!
# Settings

The settings of the program are seven fields. In a settings file a field
may hold any JSON value; `Settings` is that raw record. `normalize` turns
it into a `Config`, in which every field has the form the program relies
on, or fails on a value it cannot use. Normalising what came out of it
changes nothing.
-/

namespace Disasm

/-- The fields of the settings, with whatever values they were given. -/
structure Settings where
  backend : Json
  sniffLimit : Json
  refuseRemote : Json
  marker : Json
  extraArguments : Json
  ssh : Json
  lastOpened : Json
  deriving Repr

/-- Settings in the form the program relies on. -/
structure Config where
  /-- The disassembler to run; a text unless someone stored something else
  that counts as true. -/
  backend : Json := .str "objdump"
  /-- How many bytes are searched for a null byte. -/
  sniffLimit : Nat := 1024
  /-- Whether remote files are refused. -/
  refuseRemote : Bool := false
  /-- The suffix of listings, with its dot. -/
  suffix : Script := ".objdump"
  /-- The extra arguments of the backend. -/
  arguments : List Script := []
  /-- The ssh program. -/
  ssh : Json := .str "ssh"
  /-- The path opened last. -/
  lastOpened : Json := .str ""
  deriving Repr

namespace Config

/-- The suffix of listings as it stands in a name that is shown. -/
def marker (c : Config) : String :=
  c.suffix.shown

/-- The settings that a configuration is stored as. -/
def toSettings (c : Config) : Settings where
  backend := c.backend
  sniffLimit := .int c.sniffLimit
  refuseRemote := .bool c.refuseRemote
  marker := .ofScript c.suffix
  extraArguments := .arr (c.arguments.map .ofScript)
  ssh := c.ssh
  lastOpened := c.lastOpened

end Config

namespace Settings

/-- The settings of a new user. -/
def defaults : Settings :=
  ({} : Config).toSettings

/-- The fields in the order they are stored in, with their names. -/
def fields (s : Settings) : List (String × Json) :=
  [("backend_executable", s.backend), ("binary_sniff_chunk_size", s.sniffLimit),
   ("disable_on_remote_filesystems", s.refuseRemote), ("view_extension", s.marker),
   ("extra_arguments", s.extraArguments), ("ssh_executable", s.ssh),
   ("last_opened", s.lastOpened)]

/-- The settings as a JSON object. -/
def toJson (s : Settings) : Json :=
  .obj s.fields

/-- The settings with every value copied, for which values may be nested to a
depth that the stack leaves room for. -/
def copy (s : Settings) (depth : Nat) : Except Failure Settings :=
  if s.fields.all (·.2.copyCost ≤ depth) then .ok s else .error .nestedTooDeep

/-- The settings with one field set, if there is a field of that name. -/
def assign? (s : Settings) (name : String) (value : Json) : Option Settings :=
  match name with
  | "backend_executable" => some { s with backend := value }
  | "binary_sniff_chunk_size" => some { s with sniffLimit := value }
  | "disable_on_remote_filesystems" => some { s with refuseRemote := value }
  | "view_extension" => some { s with marker := value }
  | "extra_arguments" => some { s with extraArguments := value }
  | "ssh_executable" => some { s with ssh := value }
  | "last_opened" => some { s with lastOpened := value }
  | _ => none

/-- The settings with the given fields set; unknown names are passed over. -/
def update (s : Settings) (changes : List (String × Json)) : Settings :=
  changes.foldl (fun s (name, value) => (s.assign? name value).getD s) s

/-- The first name that is not a field. -/
def unknownField? (changes : List (String × Json)) : Option String :=
  (changes.find? fun (name, _) => (defaults.assign? name .null).isNone).map (·.1)

/-- How many bytes to search: a positive integer, or else the default. -/
def normalLimit : Json → Nat
  | .num (.int n) => if 0 < n then n.toNat else 1024
  | _ => 1024

/-- A suffix of listings that is a text: an empty one gives the default, and a
missing dot is put in front. -/
def normalSuffix (s : Script) : Script :=
  if s.isEmpty then ".objdump"
  else if Text.startsWith s.shown "." then s
  else s.dotted

/-- The suffix of listings; values that count as false give the default. -/
def normalMarker : Json → Except Failure Script
  | .str s => .ok (normalSuffix (.plain s))
  | .stray b => .ok (normalSuffix (.broken b))
  | v => if v.truthy then .error (.noAttribute v.kind "startswith") else .ok ".objdump"

/-- The extra arguments: the items of a list, the characters of a text or
the names of an object, each as text. -/
def normalArguments : Json → Except Failure (List Script)
  | .arr items => .ok (items.map Json.script)
  | .str s => .ok (Script.plain s).pieces
  | .stray b => .ok (Script.broken b).pieces
  | .obj members => .ok (members.map (.plain ·.1))
  | .odd members => .ok (members.map (·.1))
  | v => if v.truthy then .error (.notIterable v.kind) else .ok []

/-- Brings settings into the form the program relies on. -/
def normalize (s : Settings) : Except Failure Config := do
  let suffix ← normalMarker s.marker
  let arguments ← normalArguments s.extraArguments
  return {
    backend := if s.backend.truthy then s.backend else .str "objdump"
    sniffLimit := normalLimit s.sniffLimit
    refuseRemote := s.refuseRemote.truthy
    suffix
    arguments
    ssh := s.ssh
    lastOpened := s.lastOpened }

/-- The configuration of settings with some fields given anew. -/
def replace (s : Settings) (changes : List (String × Json)) : Except Failure Config :=
  match unknownField? changes with
  | some name => .error (.unexpectedField name)
  | none => (s.update changes).normalize

end Settings

namespace Config

/-- The configuration made from named fields, the others having their
defaults. -/
def ofFields (fields : List (String × Json)) : Except Failure Config :=
  Settings.defaults.replace fields

/-- The program that a field names. A value that is not a text cannot be
written as a shell word. -/
def shellWord : Json → Except Failure Script
  | .str s => .ok s
  | .stray b => .ok (.broken b)
  | v => .error (.notText v.kind)

end Config

end Disasm
