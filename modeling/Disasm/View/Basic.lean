import Disasm.Disassembler
import Disasm.Listing.Index
/-!
# Views — a binary file shown as its listing, and put back

A view swaps what a presenter shows: `setup` replaces a binary file by its
listing, `teardown` puts the file back. The presenter is called in the
middle of both, and may call the view again from there; so the view, the
machine and the presenter form one stage that every call acts on. While a
teardown is under way the session is marked as such, and whoever calls
then is turned away.
-/

namespace Disasm

/-- Where a view stands. -/
inductive ViewState where
  | inactive
  | active
  | tearingDown
  deriving Repr, DecidableEq

/-- The word for a state. -/
def ViewState.text : ViewState → String
  | .inactive => "inactive"
  | .active => "active"
  | .tearingDown => "tearing-down"

/-- A listing on show: the file it stands for, the listing, and its symbols
once they have been asked for. -/
structure Session where
  original : Identity
  output : Output
  state : ViewState := .active
  symbols : Option SymbolTable := none
  deriving Repr, DecidableEq

/-- A view: its session, if there is one, and what the last probe found. -/
structure View where
  session : Option Session := none
  lastProbe : Option Verdict := none
  deriving Repr, DecidableEq

/-- A view with the machine it runs on and the presenter it drives. -/
structure Stage (P : Type) where
  machine : Machine
  view : View := {}
  presenter : P

/-- What a view asks of a presenter. Each call may act on the whole stage
and may fail. -/
structure Presenter (P : Type) where
  showText : String → Act (Stage P) Unit
  setIdentity : String → Act (Stage P) Unit
  markUnmodified : Act (Stage P) Unit
  restore : Identity → Act (Stage P) Unit

namespace View

/-- The state of a view. -/
def state (v : View) : ViewState :=
  match v.session with
  | some s => s.state
  | none => .inactive

/-- Whether a listing is on show. -/
def isActive (v : View) : Bool :=
  v.state = .active

/-- The file that is shown as a listing. -/
def original? (v : View) : Option Identity :=
  v.session.map (·.original)

variable {P α : Type}

/-- Runs an operation of the machine on a stage. -/
def onMachine (x : Act Machine α) : Act (Stage P) α :=
  x.within Stage.machine fun s machine => { s with machine }

/-- Logs what a view does. -/
def log (level : Int) (message : String) : Act (Stage P) Unit :=
  onMachine (Machine.log level "controllers.view_lifecycle" message)

/-- Sets the session of the view. -/
def putSession (session : Option Session) : Act (Stage P) Unit :=
  modify fun s => { s with view := { s.view with session } }

/-- Shows a listing under the name derived from its file. -/
def present (p : Presenter P) (marker : String) (original : Identity) (text : String) :
    Act (Stage P) Unit := do
  p.showText text
  p.setIdentity (← Act.ofExcept (original.location.viewName marker))
  p.markUnmodified

/-- Puts a file back in place of its listing. -/
def putBack (p : Presenter P) (original : Identity) : Act (Stage P) Unit := do
  p.setIdentity original.location.display
  p.restore original

/-- Shows the listing of a file that was accepted. If the presenter fails,
the file is put back and the failure passed on. -/
def showListing (p : Presenter P) (c : Config) (original : Identity) (output : Output) :
    Act (Stage P) Unit := do
  match ← (present p c.marker original output.text).attempt with
  | .ok () =>
    putSession (some { original, output })
    log Log.info ("showing disassembly of " ++ original.location.display)
  | .error f =>
    log Log.error
      ("presenting " ++ original.location.display ++ " failed, putting the original back")
    putBack p original
    throw f

/-- Replaces the presented file by its listing, if the probe accepts it. A
backend that fails leaves the view inactive and the presenter untouched. -/
def setup (p : Presenter P) (c : Config) (path : String) (timeout : Option Number) :
    Act (Stage P) Bool := do
  let s ← get
  if s.view.session.isSome then throw (.viewOccupied s.view.state.text)
  let verdict ← onMachine (Probe.probe c path)
  modify fun s => { s with view := { s.view with lastProbe := some verdict } }
  match verdict.accepted? with
  | none => return false
  | some original =>
    let output ← onMachine (Disassembler.disassemble c original timeout false)
    showListing p c original output
    return true

/-- The session of an active view. -/
def activeSession : Act (Stage P) Session := do
  match (← get).view.session with
  | some s => if s.state = .active then return s else throw .viewInactive
  | none => throw .viewInactive

/-- Puts the original file back; nothing happens unless a listing is on
show. The view is inactive afterwards, even if the presenter failed. -/
def teardown (p : Presenter P) : Act (Stage P) Unit := do
  match (← get).view.session with
  | some s =>
    if s.state = .active then
      putSession (some { s with state := .tearingDown })
      let ended ← (putBack p s.original).attempt
      putSession none
      Act.ofExcept ended
      log Log.info ("restored " ++ s.original.location.display)
  | none => return ()

/-- The listing on show. -/
def text : Act (Stage P) String :=
  return (← activeSession).output.text

/-- The symbols of the listing on show, worked out once. -/
def symbols : Act (Stage P) SymbolTable := do
  let s ← activeSession
  match s.symbols with
  | some t => return t
  | none =>
    let t := Listing.index s.output.text
    putSession (some { s with symbols := some t })
    return t

/-- Keeps what a look at the symbols has worked out. -/
def keepSymbols (t : SymbolTable) : Act (Stage P) Unit :=
  modify fun s =>
    { s with view := { s.view with
      session := s.view.session.map fun e => { e with symbols := some t } } }

/-- The symbols of the listing on show by address. -/
def byAddress : Act (Stage P) (List (Int × String)) := do
  let (pairs, t) := (← symbols).byAddress
  keepSymbols t
  return pairs

/-- The address of a symbol of the listing on show. -/
def addressOf (name : String) : Act (Stage P) (Option Int) :=
  return (← symbols).address? name

/-- The line of a symbol's header in the listing on show. -/
def lineOf (name : String) : Act (Stage P) (Option Int) :=
  return (← symbols).line? name

/-- The closest symbol at or below an address in the listing on show. -/
def symbolAt (address : Int) : Act (Stage P) (Option String) := do
  let (found, t) := (← symbols).symbolAt address
  keepSymbols t
  return found

end View

end Disasm
