import Disasm.Opening.Listing
import Disasm.Opening.Registry
import Disasm.Settings.Store
import Disasm.Window.Editor
/-!
# The window

The window opens files, shows those that can be disassembled as listings,
and offers four actions: to open a file, to put the original back, and to
go to a symbol or an address of the listing. The last three are enabled
while a listing is on show. Dialogs ask the user, whose answers are given
in advance, or tell him something.
-/

namespace Disasm

/-- A dialog that was shown. -/
inductive Dialog where
  | openFile (title directory : String)
  /-- A list to choose from, with the item marked first; with `editable` any
  text may be entered instead. -/
  | chooseItem (title label : String) (items : List String) (current : Nat) (editable : Bool)
  | askText (title label : String)
  | critical (title text : String)
  | information (title text : String)
  deriving Repr, DecidableEq

/-- Which actions are enabled. -/
structure Actions where
  openFile : Bool := true
  restore : Bool := false
  goToSymbol : Bool := false
  goToAddress : Bool := false
  deriving Repr, DecidableEq

/-- The window and all it works with. -/
structure Window where
  machine : Machine
  /-- The settings file. -/
  store : Path
  config : Config
  registry : Registry Config
  screen : Screen := {}
  status : String := "Open an executable or object file."
  view : Option View := none
  actions : Actions := {}
  /-- The dialogs shown, in order. -/
  dialogs : List Dialog := []
  /-- What the user will answer, in order; nothing means to cancel. -/
  answers : List (Option String) := []

namespace Window

variable {α : Type}

/-- A new window with the settings given, or with those of the settings
file. -/
def start (store : Path) (config : Option Config) : Act Machine Window := do
  let config ← match config with
    | some c => pure c
    | none => Settings.load store
  return {
    machine := ← get
    store
    config
    registry := ({} : Registry Config).register Opening.handlerName config }

/-- Runs an operation of the machine in a window. -/
def onMachine (x : Act Machine α) : Act Window α :=
  x.within Window.machine fun w machine => { w with machine }

/-- Runs an operation on the screen together with a view, which is not the
window's. -/
def onStage (view : View) (x : Act (Stage Screen) α) : Act Window α :=
  x.within (fun w => { machine := w.machine, view, presenter := w.screen })
    fun w s => { w with machine := s.machine, screen := s.presenter }

/-- Runs an operation on the view of the window. -/
def onView (x : Act (Stage Screen) α) : Act Window α :=
  x.within (fun w => { machine := w.machine, view := w.view.getD {}, presenter := w.screen })
    fun w s => { w with
      machine := s.machine, screen := s.presenter, view := w.view.map fun _ => s.view }

/-- Shows a dialog that only tells something. -/
def tell (d : Dialog) : Act Window Unit :=
  modify fun w => { w with dialogs := w.dialogs ++ [d] }

/-- Shows a dialog and takes the next answer. -/
def ask (d : Dialog) : Act Window (Option String) := do
  tell d
  let w ← get
  match w.answers with
  | [] => return none
  | a :: rest =>
    set { w with answers := rest }
    return a

/-- Shows a message in the status bar. -/
def setStatus (status : String) : Act Window Unit :=
  modify ({ · with status })

/-- Enables the actions on listings while one is on show. -/
def syncActions : Act Window Unit :=
  modify fun w =>
    let shown := w.view.any (·.isActive)
    { w with
      actions := { w.actions with restore := shown, goToSymbol := shown, goToAddress := shown } }

/-- Puts the original back, if a listing is on show. The listing is given
up even if the original cannot be read. -/
def restoreOriginal : Act Window Unit := do
  let w ← get
  match w.view with
  | none => return ()
  | some v =>
    set { w with view := none }
    (onStage v (View.teardown (Screen.presenter w.config))).recover Failure.isSystem fun f =>
      tell (.critical "Unable to restore original" f.message)
    syncActions

/-- Remembers a path as the one opened last, here and in the settings file.
Of the settings file nothing else changes. -/
def remember (path : String) : Act Window Unit := do
  modify fun w => { w with config := { w.config with lastOpened := .str path } }
  let store := (← get).store
  onMachine do
    let stored ← Settings.load store
    Settings.save store { stored.toSettings with lastOpened := .str path }

/-- What the handler for listings does in a window. -/
def behave (c : Config) : Behaviour Window (Option View) where
  accepts path := onMachine (Opening.looksDisassemblable c path)
  activate path := onStage {} (Opening.openListing (Screen.presenter c) c path)

/-- Opens a file that is shown as text in the view that its handler makes. -/
def dispatch (path : String) : Act Window (Option View) := do
  return (← Registry.dispatch Window.registry onMachine behave path).join

/-- Takes over the view of a file, if it has one: whether it is shown as a
listing. -/
def adopt (path : String) (view : Option View) : Act Window Bool := do
  let name := (Path.ofString path).name
  modify ({ · with view })
  syncActions
  if view.isSome then
    setStatus ("Disassembled " ++ name ++ ".")
    return true
  else
    setStatus (name ++ " is not disassemblable; showing it as text.")
    return false

/-- Opens the file that a user names: whether it is shown as a listing. -/
def openPath (path : String) : Act Window Bool := do
  restoreOriginal
  let config := (← get).config
  match ← (onStage {} (Screen.load config path)).attempt with
  | .error f =>
    if !(f.isSystem || f.isValue) then throw f
    tell (.critical "Unable to open file" f.message)
    return false
  | .ok () =>
    remember path
    match ← (dispatch path).attempt with
    | .ok view => adopt path view
    | .error f =>
      if !f.isBackend then throw f
      tell (.critical "Disassembly failed" f.message)
      return false

/-- The directory that the file dialog starts in: that of the path opened
last. -/
def startDirectory (lastOpened : Json) : Except Failure String :=
  if lastOpened.truthy then
    match lastOpened with
    | .str s => .ok (Path.ofString s).parent.text
    | v => .error (.notAPath v.kind)
  else .ok ""

/-- Lets the user choose a file to open. -/
def chooseFile : Act Window Unit := do
  let directory ← Act.ofExcept (startDirectory (← get).config.lastOpened)
  let path := (← ask (.openFile "Open File" directory)).getD ""
  if !path.isEmpty then discard (openPath path)

/-- Closes the window. -/
def close : Act Window Unit :=
  restoreOriginal

end Window

end Disasm
