import Disasm.Text.Case
import Disasm.Window.Basic
/-!
# Finding one's way in a listing

The user goes to a symbol by its name, picked from the symbols of the
listing, or by an address at or above it. Without a listing on show these
do nothing.
-/

namespace Disasm.Window

/-- Puts the cursor on the header of a symbol: whether the listing has it. -/
def jumpTo (name : String) : Act Window Bool := do
  if (← get).view.isNone then return false
  match ← onView (View.lineOf name) with
  | none =>
    setStatus ("Unknown symbol: " ++ name)
    return false
  | some line =>
    onView (Screen.updateEditor (·.goToLine line))
    let address := (← onView (View.addressOf name)).getD 0
    setStatus (name ++ " @ 0x" ++ Text.Numeral.hexDigits address)
    return true

/-- Lets the user pick a symbol and goes there. -/
def goToSymbol : Act Window Unit := do
  if (← get).view.isNone then return ()
  let names := (← onView View.byAddress).map (·.2)
  if names.isEmpty then setStatus "No symbols in this listing."
  else
    let name := (← ask (.chooseItem "Go to Symbol" "Symbol:" names 0 true)).getD ""
    if !name.isEmpty then discard (jumpTo (Text.trim name))

/-- The address that a text writes in hexadecimal, with or without `0x`. -/
def readAddress? (text : String) : Option Int :=
  Text.Numeral.readHex? (Text.dropHead "0x" (Text.lower (Text.trim text)))

/-- Goes to the closest symbol at or below an address. -/
def goNear (address : Int) : Act Window Unit := do
  match ← onView (View.symbolAt address) with
  | some name => discard (jumpTo name)
  | none =>
    setStatus ("No symbol at or below 0x" ++ Text.Numeral.hexDigits address ++ ".")

/-- Asks the user for an address and goes there. -/
def goToAddress : Act Window Unit := do
  if (← get).view.isNone then return ()
  let text := (← ask (.askText "Go to Address" "Address (hex):")).getD ""
  if (Text.trim text).isEmpty then return ()
  match readAddress? text with
  | some address => goNear address
  | none =>
    tell (.information "Invalid address" ("'" ++ text ++ "' is not a hexadecimal address."))

/-- The actions of the menus. -/
inductive Action where
  | openFile
  | restore
  | goToSymbol
  | goToAddress
  deriving Repr, DecidableEq

/-- The text of an action in its menu. -/
def Action.text : Action → String
  | .openFile => "Open..."
  | .restore => "Restore Original"
  | .goToSymbol => "Go to Symbol..."
  | .goToAddress => "Go to Address..."

/-- The actions in the order of the menus. -/
def Action.all : List Action :=
  [.openFile, .restore, .goToSymbol, .goToAddress]

/-- Whether an action is enabled. -/
def Action.isEnabled (a : Actions) : Action → Bool
  | .openFile => a.openFile
  | .restore => a.restore
  | .goToSymbol => a.goToSymbol
  | .goToAddress => a.goToAddress

/-- Does what an action says. -/
def Action.run : Action → Act Window Unit
  | .openFile => chooseFile
  | .restore => restoreOriginal
  | .goToSymbol => Window.goToSymbol
  | .goToAddress => Window.goToAddress

/-- Picks an action from its menu; one that is disabled does nothing. -/
def trigger (action : Action) : Act Window Unit := do
  if action.isEnabled (← get).actions then action.run

end Disasm.Window
