import Disasm.Listing.Highlight
import Disasm.View.Basic
/-!
# The editor

The text pane of the window. It shows a file's bytes as text, or a
listing in their place, and is the presenter of the view that makes the
listing. The title of the window follows the name of what is shown, and
listings are coloured: the colouring is on exactly while the name ends in
the marker of listings.
-/

namespace Disasm

/-- The text pane: what it shows and the bytes of the file it shows. -/
structure Editor where
  identity : String := ""
  raw : Bytes := []
  text : String := ""
  modified : Bool := false
  readOnly : Bool := false
  /-- The line of the cursor, counted from zero. -/
  line : Int := 0
  highlighted : Bool := false
  deriving Repr, DecidableEq

/-- The pane and the title above it. -/
structure Screen where
  editor : Editor := {}
  title : String := "objview"
  deriving Repr, DecidableEq

namespace Editor

/-- Shows a text from its beginning. -/
def setText (e : Editor) (text : String) : Editor :=
  { e with text, modified := false, line := 0 }

/-- Shows a listing, which cannot be edited. -/
def showText (e : Editor) (text : String) : Editor :=
  { e with readOnly := true }.setText text

/-- Shows bytes as text, which can be edited. -/
def showRaw (e : Editor) (raw : Bytes) : Editor :=
  { e with raw, readOnly := false }.setText (Text.Utf8.decodeLenient raw)

/-- The text after the user has typed. -/
def type (e : Editor) (text : String) : Editor :=
  { e with text, modified := true }

/-- Names what is shown; listings are coloured. -/
def setIdentity (marker : String) (e : Editor) (identity : String) : Editor :=
  { e with identity, highlighted := Text.endsWith identity marker }

/-- Puts the cursor on a line, if the text has it. -/
def goToLine (e : Editor) (line : Int) : Editor :=
  if 0 ≤ line ∧ line ≤ Text.count '\n' e.text then { e with line } else e

/-- The coloured spans of each line, if the text is coloured. -/
def spans? (e : Editor) : Option (List (List Listing.Span)) :=
  if e.highlighted then some ((Text.splitAt '\n' e.text).map Listing.highlight) else none

end Editor

namespace Screen

/-- The title for a name. -/
def titleOf (identity : String) : String :=
  if identity.isEmpty then "objview" else identity ++ " - objview"

/-- Names what is shown, in the pane and in the title. -/
def setIdentity (marker : String) (s : Screen) (identity : String) : Screen where
  editor := s.editor.setIdentity marker identity
  title := titleOf identity

/-- Changes the screen of a stage. -/
def update (f : Screen → Screen) : Act (Stage Screen) Unit :=
  modify fun s => { s with presenter := f s.presenter }

/-- Changes the pane of a stage. -/
def updateEditor (f : Editor → Editor) : Act (Stage Screen) Unit :=
  update fun s => { s with editor := f s.editor }

/-- Reads a file for the pane, through the configured ssh program. -/
def readOriginal (c : Config) (l : Location) : Act Machine Bytes :=
  (Host.of l c.ssh).readBytes l

/-- Shows the file at a location. A file that cannot be read leaves the
screen as it is. -/
def showFile (c : Config) (l : Location) : Act (Stage Screen) Unit := do
  let raw ← View.onMachine (readOriginal c l)
  updateEditor (·.showRaw raw)
  update (·.setIdentity c.marker l.display)

/-- Shows the file that a user names. -/
def load (c : Config) (path : String) : Act (Stage Screen) Unit := do
  showFile c (← View.onMachine (Machine.readLocation path))

/-- The presenter that the screen is. -/
def presenter (c : Config) : Presenter Screen where
  showText text := updateEditor (·.showText text)
  setIdentity name := update (·.setIdentity c.marker name)
  markUnmodified := updateEditor ({ · with modified := false })
  restore i := showFile c i.location

end Screen

end Disasm
