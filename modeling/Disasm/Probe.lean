import Disasm.Host
import Disasm.Sniff
/-!
# The probe — can the backend disassemble a file?

The checks run cheapest first and stop at the first that fails, so most
files are turned down without starting the backend. What is found out
about the file on the way is kept as its identity, a snapshot that is
never refreshed.
-/

namespace Disasm

/-- A file as the probe saw it. -/
structure Identity where
  location : Location
  present : Bool := true
  size : Int := 0
  isDirectory : Bool := false
  deriving Repr, DecidableEq

/-- The outcome of a probe. -/
inductive Reason where
  | notFound
  | isDirectory
  | zeroSize
  | backendMissing
  | remoteDisallowed
  | formatUnrecognized
  | ok
  deriving Repr, DecidableEq

/-- The word for an outcome. -/
def Reason.text : Reason → String
  | .notFound => "not-found"
  | .isDirectory => "is-directory"
  | .zeroSize => "zero-size"
  | .backendMissing => "backend-missing"
  | .remoteDisallowed => "remote-disallowed"
  | .formatUnrecognized => "format-unrecognized"
  | .ok => "ok"

/-- What a probe found. -/
structure Verdict where
  reason : Reason
  identity : Option Identity := none
  detail : String := ""
  deriving Repr, DecidableEq

namespace Verdict

/-- Whether the file can be disassembled. -/
def accepted (v : Verdict) : Bool :=
  v.reason = .ok

/-- The file to go on with, if it was accepted. -/
def accepted? (v : Verdict) : Option Identity :=
  if v.accepted then v.identity else none

end Verdict

namespace Probe

/-- The variables that the backend runs with: its messages in English. -/
def backendEnv : List (String × String) := [("LC_ALL", "C")]

/-- What the backend says of a file it cannot read. -/
def refusal : String := "file format not recognized"

/-- Turns a file down. -/
def reject (reason : Reason) (identity : Option Identity) (detail : String) :
    Act Machine Verdict := do
  let subject := match identity with
    | some i => i.location.display
    | none => detail
  Machine.log Log.debug "services.probe" ("cannot disassemble " ++ subject ++ ": " ++ reason.text)
  return ⟨reason, identity, detail⟩

/-- Asks the backend for the headers of a file. -/
def queryHeaders (c : Config) (h : Host) (identity : Identity) : Act Machine Verdict := do
  let backend ← Act.ofExcept (Config.shellWord c.backend)
  let p ← Act.ofExcept (h.prepare
    [backend, "--file-headers", "--", .plain identity.location.name]
    identity.location.directory (some backendEnv))
  match ← (Machine.runText
      { words := p.scripts, cwd := p.cwd, env := p.env.getD [], mergeStderr := true }).attempt with
  | .error f => if f.isSystem then reject .backendMissing identity f.message else throw f
  | .ok (_, output, _) =>
    if Text.occurs refusal (Text.lowerAscii output) then reject .formatUnrecognized identity ""
    else
      Machine.log Log.debug "services.probe"
        (identity.location.display ++ " accepted by " ++ backend.shown)
      return ⟨.ok, identity, ""⟩

/-- Checks the first bytes of a remote file before the backend is asked. -/
def sniffRemote (c : Config) (h : Host) (identity : Identity) : Act Machine Verdict := do
  match ← (h.readStart identity.location c.sniffLimit).attempt with
  | .error f => if f.isSystem then reject .notFound identity f.message else throw f
  | .ok start =>
    let (binary, _) ← Sniff.isBinary (.bytes start) c.sniffLimit
    if binary then queryHeaders c h identity
    else reject .formatUnrecognized identity "no NUL byte in prefix"

/-- The host on which the backend is looked for. -/
def backendHost (c : Config) (h : Host) (identity : Identity) : Host :=
  if identity.location.isRemote && !c.refuseRemote then h else .here

/-- Checks a file that is there. -/
def checkEntry (c : Config) (h : Host) (identity : Identity) : Act Machine Verdict := do
  if (← (backendHost c h identity).which c.backend).isNone then
    reject .backendMissing identity c.backend.text
  else if identity.location.isRemote && c.refuseRemote then reject .remoteDisallowed identity ""
  else if identity.isDirectory then reject .isDirectory identity ""
  else if identity.size = 0 then reject .zeroSize identity ""
  else if identity.location.isRemote then sniffRemote c h identity
  else queryHeaders c h identity

/-- Probes the file at a location. -/
def probeAt (c : Config) (l : Location) : Act Machine Verdict := do
  let h := Host.of l c.ssh
  match ← h.resolve l with
  | none => reject .notFound none l.display
  | some e =>
    checkEntry c h
      { location := l.withPath e.path, size := e.size, isDirectory := e.isDirectory }

/-- Probes the file that a user names. A text that is no location names no
file. -/
def probe (c : Config) (raw : String) : Act Machine Verdict := do
  match ← (Machine.readLocation raw).attempt with
  | .ok l => probeAt c l
  | .error f => if f.isValue then reject .notFound none f.message else throw f

end Probe

end Disasm
