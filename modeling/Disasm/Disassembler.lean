import Disasm.Probe
/-!
# The disassembler — running the backend over a file

The backend runs in the directory of the file, once, and what it prints
is the listing. It fails if it cannot be started, does not finish in
time, or ends with an error and has printed nothing. Nothing is probed
here.
-/

namespace Disasm

/-- A listing, the file it is of and the command that made it. -/
structure Output where
  text : String
  identity : Identity
  command : List String
  deriving Repr, DecidableEq

namespace Disassembler

/-- Tells the user how far things are, if that was asked for. -/
def tell (progress : Bool) (message : String) : Act Machine Unit :=
  if progress then modify fun m => { m with notices := m.notices ++ [message] } else pure ()

/-- Logs an error of the backend and fails with it. -/
def fail (fault : BackendFault) (command : List String) (message : String) : Act Machine Output := do
  Machine.log Log.error "services.objdump_runner" message
  throw (.backend fault command)

/-- The words of the disassembling command. -/
def arguments (c : Config) (backend : Script) (identity : Identity) : List Script :=
  backend :: c.arguments ++ ["-d", "--", identity.location.name].map .plain

/-- Disassembles a file within a time limit. A backend that cannot be
written as a word is noticed before the start for a remote file, where the
words are quoted at once, and after the first notice for a local one. -/
def disassemble (c : Config) (identity : Identity) (timeout : Option Number) (progress : Bool) :
    Act Machine Output := do
  let h := Host.of identity.location c.ssh
  let subject := identity.location.display
  let name := identity.location.name
  if identity.location.isRemote then discard (Act.ofExcept (Config.shellWord c.backend))
  tell progress ("Disassembling " ++ name ++ "...")
  let backend ← Act.ofExcept (Config.shellWord c.backend)
  let words := arguments c backend identity
  let p ← Act.ofExcept (h.prepare words identity.location.directory (some Probe.backendEnv))
  Machine.log Log.info "services.objdump_runner"
    ("running " ++ (Text.Shell.line words).shown ++ " in " ++ identity.location.directory)
  match ← (Machine.runText
      { words := p.scripts, cwd := p.cwd, env := p.env.getD [], timeout }).attempt with
  | .error (.timedOut _ limit) =>
    fail (.timedOut backend.shown subject limit.text) p.words
      (backend.shown ++ " timed out after " ++ limit.text ++ "s")
  | .error f =>
    if !f.isSystem then throw f
    fail (.notStarted backend.shown subject f.message) p.words
      ("unable to start " ++ backend.shown ++ ": " ++ f.message)
  | .ok (status, text, errors) =>
    if status ≠ 0 && text.isEmpty then
      let details := Text.trim errors
      let details := if details.isEmpty then "Unknown error" else details
      fail (.exited backend.shown status details) p.words
        (backend.shown ++ " exited with " ++ toString status ++ ": " ++ details)
    else
      tell progress ("Disassembly of " ++ name ++ " finished.")
      return ⟨text, identity, words.map Script.shown⟩

end Disassembler

end Disasm
