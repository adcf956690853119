import Disasm.Machine.Basic
import Disasm.Settings.Basic
import Disasm.Text.Shell
/-!
# Hosts — where a file is looked at and programs are run

A file is handled on the host it is on: on this machine directly, on
another by handing a command to ssh. Both offer the same five operations.
A remote command is one word for ssh, quoted so that the remote shell
cuts it into the intended words again.
-/

namespace Disasm

/-- Runs a command and returns its status and its two streams as text. -/
def Machine.runText (c : Command) : Act Machine (Int × String × String) := do
  let o ← Machine.run { c with text := true }
  return (o.status, readText o.stdout, readText o.stderr)

/-- What a path resolves to. -/
structure Entry where
  path : String
  isDirectory : Bool
  size : Int
  deriving Repr, DecidableEq

/-- A command made ready for a host: what to start on this machine, and
where. -/
structure Prepared where
  scripts : List Script
  cwd : Option String
  env : Option (List (String × String))
  deriving Repr, DecidableEq

/-- The words of a command as they are shown. -/
def Prepared.words (p : Prepared) : List String :=
  p.scripts.map Script.shown

/-- A host: this machine, or the one a remote location names, reached by an
ssh program. -/
inductive Host where
  | here
  | remote (location : Location) (program : Json)
  deriving Repr

namespace Host

/-- The ssh program used when no configuration is given. -/
def defaultProgram : Json := .str "ssh"

/-- The host of a location. -/
def of (l : Location) (program : Json) : Host :=
  if l.isRemote then .remote l program else .here

/-- The host that ssh reaches for a location; one without a host has none. -/
def ssh (l : Location) (program : Json) : Except Failure Host :=
  if l.isRemote then .ok (.remote l program) else .error (.notRemote l.path)

/-- Prints the canonical path, the kind of entry and its size, a line each. -/
def resolveScript : String :=
  "p=$(readlink -e -- \"$1\") || exit 3; printf \"%s\\n\" \"$p\"; " ++
    "if [ -d \"$p\" ]; then echo dir; echo 0; else echo file; wc -c < \"$p\"; fi"

/-- Prints where a program is found. -/
def whichScript : String := "command -v -- \"$1\""

/-- Runs a program in a directory. -/
def runInScript : String := "cd \"$1\" || exit 126; shift; exec \"$@\""

/-- The command that runs words on the host of a location. -/
def sshCommand (l : Location) (program : Json) (words : List Script) :
    Except Failure (List Script) := do
  let program ← Config.shellWord program
  let target ← l.sshTarget
  let port := match l.givenPort? with
    | some n => ["-p", toString n]
    | none => []
  let options := ["-o", "BatchMode=yes"] ++ port ++ [target, "--"]
  return program :: options.map .plain ++ [Text.Shell.line words]

/-- Runs a shell script with arguments on the host of a location. -/
def shell (l : Location) (program : Json) (script : String) (arguments : List Script) :
    Act Machine (Int × String × String) := do
  let words ← Act.ofExcept
    (sshCommand l program (["sh", "-c", script, "sh"].map .plain ++ arguments))
  Machine.log Log.debug "services.executors" ("remote: " ++ (Text.Shell.line words).shown)
  Machine.runText { words }

/-- Reads what a remote command prints. -/
def readRemote (l : Location) (program : Json) (words : List String) : Act Machine Bytes := do
  let command ← Act.ofExcept (sshCommand l program (words.map .plain))
  let o ← Machine.run { words := command, text := false }
  if o.status ≠ 0 then
    throw (.remoteRead (Text.Shell.join words) (l.host.getD "")
      (Text.trim (Text.Utf8.decodeLenient o.stderr)))
  return o.stdout

/-- The canonical entry of a path on this machine. -/
def resolveHere (path : String) : Act Machine Entry := do
  let m ← get
  let place ← Act.ofExcept (m.files.canonical m.here (Path.ofString path).text)
  let (_, node) ← Machine.nodeAt place.text
  return match node with
    | .file content _ => ⟨place.text, false, content.length⟩
    | _ => ⟨place.text, true, 0⟩

/-- The entry that the reply to the resolving script describes. -/
def readReply (status : Int) (reply : String) : Option Entry :=
  match Text.lines reply with
  | path :: kind :: size :: _ =>
    if status ≠ 0 then none
    else (Text.Numeral.readDecimal? (Text.trim size)).map fun n => ⟨path, Text.trim kind = "dir", n⟩
  | _ => none

/-- What a location resolves to on its host; nothing, if it is not there or
the host cannot be reached. -/
def resolve (h : Host) (l : Location) : Act Machine (Option Entry) :=
  match h with
  | .here => (some <$> resolveHere l.path).recover Failure.isSystem fun _ => pure none
  | .remote own program => do
    match ← (shell own program resolveScript [l.path]).attempt with
    | .ok (status, reply, _) => return readReply status reply
    | .error f =>
      if !f.isSystem then throw f
      Machine.log Log.debug "services.executors"
        ("unable to reach " ++ l.display ++ ": " ++ f.message)
      return none

/-- The directories that are searched for programs. -/
def searchPath (m : Machine) : List String :=
  let s := (m.setting? "PATH").getD "/bin:/usr/bin"
  if s.isEmpty then [] else Text.splitAt ':' s

/-- Where a program is found on this machine: a name with a slash stands for
itself. -/
def whichHere (program : String) : Act Machine (Option String) := do
  let m ← get
  let candidates := if program.toList.contains '/' then [program]
    else (searchPath m).map (Path.join · program)
  candidates.foldlM
    (fun found candidate => do
      if found.isSome then return found
      return if ← Machine.isProgram candidate then some candidate else none)
    none

/-- Where a program is found on a host. -/
def which (h : Host) (program : Json) : Act Machine (Option String) :=
  match h with
  | .here =>
    match program with
    | .str s => whichHere s
    -- No file of this machine has such a name.
    | .stray _ => pure none
    | v => throw (.notAPath v.kind)
  | .remote own ssh =>
    ((do
      let name ← Act.ofExcept (Config.shellWord program)
      let (status, reply, _) ← shell own ssh whichScript [name]
      let found := Text.trim reply
      return if status ≠ 0 || found.isEmpty then none else (Text.lines found).head?)
        : Act Machine (Option String)).recover Failure.isSystem fun _ => pure none

/-- Makes a command ready to run in a directory of a host with variables set
for it. -/
def prepare (h : Host) (words : List Script) (cwd : String)
    (env : Option (List (String × String))) : Except Failure Prepared :=
  match h with
  | .here => .ok ⟨words, some cwd, env⟩
  | .remote own program => do
    let settings := match env with
      | some (e :: es) => "env" :: (e :: es).map fun (k, v) => k ++ "=" ++ v
      | _ => []
    let lead := ["sh", "-c", runInScript, "sh", cwd] ++ settings
    let words ← sshCommand own program (lead.map .plain ++ words)
    return ⟨words, none, none⟩

/-- The first `size` bytes of a file. -/
def readStart (h : Host) (l : Location) (size : Int) : Act Machine Bytes :=
  if size ≤ 0 then pure []
  else match h with
    | .here => Machine.readStart l.path size
    | .remote own program => readRemote own program ["head", "-c", toString size, "--", l.path]

/-- The whole content of a file. -/
def readBytes (h : Host) (l : Location) : Act Machine Bytes :=
  match h with
  | .here => Machine.contentOf (Path.ofString l.path).text
  | .remote own program => readRemote own program ["cat", "--", l.path]

end Host

end Disasm
