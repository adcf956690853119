import Disasm.CommandLine.Invocation
import Disasm.CommandLine.Usage
import Disasm.Log.Setup
import Disasm.View.Buffer
import Disasm.Window.Basic
/-!
# Carrying out a command line

A command prints its result and ends with a status: zero if all went
well, one if the file was turned down, two if the backend failed or the
command line was wrong. The window is left as it stands when the user
takes over.
-/

namespace Disasm.CommandLine

/-- The status after a file was turned down. -/
def rejected : Nat := 1

/-- The status after a failure of the backend. -/
def backendFailed : Nat := 2

/-- The status after a wrong command line. -/
def misused : Nat := 2

/-- How the program ended: its status or the failure it died of, the machine
it leaves behind, and the window if one was opened. -/
structure Ending where
  result : Except Failure Nat
  machine : Machine
  window : Option Window := none

/-- The width of the terminal that the environment tells. -/
def terminalWidth (m : Machine) : Int :=
  match (m.setting? "COLUMNS").bind Text.Numeral.readDecimal? with
  | some n => if 0 < n then n else 80
  | none => 80

/-- Tells why a command line is not carried out. -/
def refuse (r : Rejection) : Act Machine Nat := do
  let width := terminalWidth (← get) - 2
  match r.refusal with
  | .help =>
    Machine.printOut (← Act.ofExcept (r.grammar.help width))
    return 0
  | .fault message =>
    Machine.printError (r.grammar.usage width ++ r.grammar.program ++ ": error: " ++ message ++ "\n")
    return misused

/-- Says that a file was turned down. -/
def turnDown (path : String) (reason : Reason) : Act Machine Nat := do
  Machine.printError (path ++ ": " ++ reason.text ++ "\n")
  return rejected

/-- Prints what the probe finds. -/
def probe (c : Config) (path : String) : Act Machine Nat := do
  let verdict ← Probe.probe c path
  Machine.printOut (verdict.reason.text ++ "\n")
  return if verdict.accepted then 0 else rejected

/-- Prints the listing of a file. -/
def dump (c : Config) (path : String) (timeout : Option Number) : Act Machine Nat := do
  let verdict ← Probe.probe c path
  match verdict.accepted? with
  | none => turnDown path verdict.reason
  | some identity =>
    let output ← Disassembler.disassemble c identity timeout false
    Machine.printOut output.text
    return 0

/-- Prints the address of one symbol of the listing on show. -/
def printSymbol (name : Option String) : Act (Stage Buffer) Nat := do
  match name with
  | none =>
    discard View.symbols
    throw (.notAKey "list")
  | some name =>
    match ← View.addressOf name with
    | some address =>
      View.onMachine (Machine.printOut ("0x" ++ Text.Numeral.hexDigits address ++ "\n"))
      return 0
    | none =>
      View.onMachine (Machine.printError (name ++ ": no such symbol\n"))
      return rejected

/-- Prints all symbols of the listing on show by address. -/
def printSymbols : Act (Stage Buffer) Nat := do
  for (address, name) in ← View.byAddress do
    View.onMachine (Machine.printOut
      (Text.Numeral.padLeft 16 '0' (Text.Numeral.hexDigits address) ++ " " ++ name ++ "\n"))
  return 0

/-- Prints symbols of a file from a view of it, which is torn down in any
case. The buffer shows nothing, so nothing is read to put back. -/
def listSymbols (c : Config) (path : String) (name : Option (Option String)) :
    Act (Stage Buffer) Nat := do
  let p := Buffer.presenter fun _ => pure []
  if ← View.setup p c path none then
    let ended ← (match name with
      | some name => printSymbol name
      | none => printSymbols).attempt
    View.teardown p
    Act.ofExcept ended
  else
    let reason := ((← get).view.lastProbe.map (·.reason)).getD .notFound
    View.onMachine (turnDown path reason)

/-- Prints symbols of a file. -/
def symbols (c : Config) (path : String) (name : Option (Option String)) : Act Machine Nat :=
  (listSymbols c path name).within
    (fun machine => { machine, presenter := { identity := path } }) fun _ s => s.machine

/-- Reports a failure of the backend. -/
def reportBackend (x : Act Machine Nat) : Act Machine Nat :=
  x.recover Failure.isBackend fun f => do
    Machine.printError (programName ++ ": " ++ f.message ++ "\n")
    return backendFailed

/-- Opens the window, with a file in it if one is named. -/
def openWindow (store : Path) (config : Option Config) (path : Option String) (m : Machine) :
    Ending :=
  match (Window.start store config).run.run m with
  | (.error f, machine) => { result := .error f, machine }
  | (.ok w, _) =>
    match path with
    | none => { result := .ok 0, machine := w.machine, window := some w }
    | some path =>
      let (r, w) := (Window.openPath path).run.run w
      { result := r.map fun _ => 0, machine := w.machine, window := some w }

/-- The rank of the log level that was asked for. -/
def rankOf (name : Option String) : Except Failure Int :=
  match name with
  | some name => .ok ((Log.levels.lookup name).getD Log.warning)
  | none => .error (.notAKey "list")

/-- Sets up logging and finds the settings to go by. -/
def prepare (i : Invocation) : Act Machine (Path × Config) := do
  Machine.setupLogging (.int (← Act.ofExcept (rankOf i.logLevel))) i.logFile none
  let store ← Settings.openStore i.settings
  let c ← Settings.load store
  let backend := (i.backend.filter (!·.isEmpty)).toList.map fun b => ("backend_executable", .str b)
  let remote := if i.refuseRemote then [("disable_on_remote_filesystems", .bool true)] else []
  let c ← Act.ofExcept (c.toSettings.replace (backend ++ remote))
  return (store, c)

/-- Carries out a task that needs no window. -/
def perform (c : Config) : Task → Act Machine Nat
  | .probe path => probe c path
  | .dump path timeout => reportBackend (dump c path timeout)
  | .symbols path name => reportBackend (symbols c path name)
  | .window _ => return 0

/-- An operation as the end of the program. -/
def Ending.of (x : Act Machine Nat) (m : Machine) : Ending :=
  let (result, machine) := x.run.run m
  { result, machine }

/-- Carries out a command line that was understood. -/
def carryOut (i : Invocation) (m : Machine) : Ending :=
  match (prepare i).run.run m with
  | (.error f, machine) => { result := .error f, machine }
  | (.ok (store, c), m) =>
    match i.task with
    | .window path => openWindow store (some c) path m
    | task => Ending.of (perform c task) m

/-- Runs the program on the words of its command line. -/
def run (words : List String) (m : Machine) : Ending :=
  match Settings.defaultPath.run.run m with
  | (.error f, machine) => { result := .error f, machine }
  | (.ok settings, m) =>
    match understand settings.text words with
    | .error r => Ending.of (refuse r) m
    | .ok i => carryOut i m

/-- Runs the program as a window only: a single word names the file to open,
and further words are passed over. -/
def runWindow (words : List String) (m : Machine) : Ending :=
  let x : Act Machine Path := do
    Machine.setupLogging (.int Log.warning) none none
    Settings.openStore none
  match x.run.run m with
  | (.error f, machine) => { result := .error f, machine }
  | (.ok store, m) => openWindow store none words.head? m

end Disasm.CommandLine
