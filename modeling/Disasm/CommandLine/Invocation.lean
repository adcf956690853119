import Disasm.CommandLine.Reader
import Disasm.Log.Basic
/-!
# The command line of the program

Flags that hold for every command stand before it. The commands probe a
file, print its listing, list its symbols, or open the window.
-/

namespace Disasm.CommandLine

/-- The name of the program. -/
def programName : String := "objview"

/-- The commands with their lines in the help. -/
def commands : List (String × String) :=
  [("probe", "Report whether a file can be disassembled"),
   ("dump", "Print the disassembly of a file"),
   ("symbols", "List the symbols of a file's disassembly"),
   ("gui", "Open the viewer window")]

/-- The names of the log levels in the order the usage shows them. -/
def levelNames : List String :=
  ["critical", "debug", "error", "info", "warning"]

/-- The grammar of the program. Its help tells where the settings are by
default. -/
def grammar (settings : String) : Grammar where
  program := programName
  description := "Browse object files as disassembly"
  flags := [
    Flag.helpFlag,
    ⟨["--config"], .text, "Settings file (defaults to " ++ settings ++ ")"⟩,
    ⟨["--backend"], .text, "Disassembler executable to use instead of the configured one"⟩,
    ⟨["--no-remote"], .switch, "Refuse files on ssh:// and sftp:// locations"⟩,
    ⟨["--log-level"], .choice levelNames, ""⟩,
    ⟨["--log-file"], .text, "Also write log records to this file"⟩]
  operand := ⟨"command", .command commands⟩

/-- The flags of a command. -/
def commandFlags : String → List Flag
  | "dump" => [⟨["--timeout"], .number, "Give up on the backend after this many seconds"⟩]
  | "symbols" => [⟨["--name"], .text, "Print only the address of this symbol"⟩]
  | _ => []

/-- The grammar of a command. -/
def commandGrammar (name : String) : Grammar where
  program := programName ++ " " ++ name
  flags := Flag.helpFlag :: commandFlags name
  operand := ⟨"path", if name = "gui" then .optional else .one⟩

/-- What the program is to do. -/
inductive Task where
  | probe (path : String)
  | dump (path : String) (timeout : Option Number)
  /-- Lists all symbols, or one. The name of the one may be missing. -/
  | symbols (path : String) (name : Option (Option String))
  | window (path : Option String)
  deriving Repr, DecidableEq

/-- A command line, understood. -/
structure Invocation where
  settings : Option String
  backend : Option String
  refuseRemote : Bool
  /-- The log level; it can be given without a value. -/
  logLevel : Option String
  logFile : Option String
  task : Task
  deriving Repr, DecidableEq

/-- A refusal, with the grammar whose usage goes with it. -/
structure Rejection where
  grammar : Grammar
  refusal : Refusal
  deriving Repr, DecidableEq

/-- The task that a command and its words stand for. -/
def taskOf (name : String) (r : Reading) : Task :=
  let path := (r.operand.getD []).head?
  match name with
  | "probe" => .probe (path.getD "")
  | "dump" =>
    .dump (path.getD "") (((r.text? "timeout").bind Number.readFloat?).map Number.float)
  | "symbols" => .symbols (path.getD "") (r.last? "name")
  | _ => .window (path.filter (!·.isEmpty))

/-- Understands a command line. What neither the program nor the command
has a use for is refused at the end. -/
def understand (settings : String) (words : List String) : Except Rejection Invocation := do
  let g := grammar settings
  let reject (g : Grammar) (refusal : Refusal) : Except Rejection Invocation :=
    .error ⟨g, refusal⟩
  match g.read words with
  | .error refusal => reject g refusal
  | .ok r =>
    let words := r.operand.getD []
    let name := words.headD ""
    if !(commands.map (·.1)).contains name then
      reject g (.fault ("argument " ++ g.operand.name ++ ": " ++
        invalidChoice name (commands.map (·.1))))
    else match (commandGrammar name).read words.tail with
      | .error refusal => reject (commandGrammar name) refusal
      | .ok c =>
        let extras := r.extras ++ c.extras
        if !extras.isEmpty then
          reject g (.fault ("unrecognized arguments: " ++ String.intercalate " " extras))
        else
          return {
            settings := r.text? "config"
            backend := r.text? "backend"
            refuseRemote := r.has "no_remote"
            logLevel := (r.last? "log_level").getD (some "warning")
            logFile := r.text? "log_file"
            task := taskOf name c }

end Disasm.CommandLine
