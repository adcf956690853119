import Disasm.Log.Template
import Disasm.Machine.Basic
/-!
# Setting up logging

A set-up decides where the records of the program go from then on: always
to the console, and to a file if one is named. It replaces the sinks of
the set-up before it. The steps are taken in order and the first that
fails ends the set-up, so a log file that cannot be opened leaves the new
level in force and no sink in use.
-/

namespace Disasm.Machine

/-- The path that a log file named by the user is opened at. -/
def logPath (m : Machine) (file : String) : Except Failure String :=
  Path.seenFrom m.cwd? (Path.ofString file).text

/-- Sends the records of the program to the console and, if it is named, to
a file. The console is coloured as asked, or if it is a terminal. -/
def setupLogging (level : Json) (file : Option String) (colored : Option Bool) :
    Act Machine Unit := do
  let level ← Act.ofExcept (Log.Level.read level)
  modify fun m => { m with
    logger := {
      level
      attached := m.logger.attached.filter (!m.logger.installed.contains ·)
      installed := [] } }
  let m ← get
  let console := Sink.console (colored.getD m.terminal)
  set { m with logger := { m.logger with installed := [console] } }
  let name := file.getD ""
  let sinks ← if name.isEmpty then pure [console]
    else do
      let path ← Act.ofExcept (m.logPath name)
      let (place, _) ← openForWriting path
      pure [console, .file place]
  modify fun m => { m with
    logger := { m.logger with installed := sinks, attached := m.logger.attached ++ sinks } }

/-- Logs through a logger by its full name. A message without arguments is
taken as it stands; one that does not fit its arguments is not written. -/
def logNamed (logger : String) (level : Int) (message : String) (values : List Json) :
    Act Machine Unit := do
  let filled := if values.isEmpty then .ok message else Log.Template.fill message values
  match filled with
  | .ok text => deliver ⟨level, logger, text⟩
  | .error _ => return ()

end Disasm.Machine
