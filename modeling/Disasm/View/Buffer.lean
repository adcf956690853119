import Disasm.View.Basic
/-!
# Buffers — a presenter in memory

A buffer holds what an editor would: a name, a content, and whether the
content was modified and may be. It shows a listing by taking its bytes as
content, and puts a file back by reading it again.
-/

namespace Disasm

/-- What an editor holds. -/
structure Buffer where
  identity : String := ""
  content : Bytes := []
  modified : Bool := false
  readOnly : Bool := false
  deriving Repr, DecidableEq

namespace Buffer

/-- Reads a file for a buffer. A buffer knows of no configuration, so a
remote file comes through the default ssh program. -/
def readOriginal (l : Location) : Act Machine Bytes :=
  (Host.of l Host.defaultProgram).readBytes l

/-- A buffer that holds the file at a path. -/
def openAt (path : String) : Act Machine Buffer := do
  let l ← Machine.readLocation path
  return { identity := l.display, content := ← readOriginal l }

/-- The content as text. -/
def text (b : Buffer) : String :=
  Text.Utf8.decodeLenient b.content

/-- Changes the buffer of a stage. -/
def update (f : Buffer → Buffer) : Act (Stage Buffer) Unit :=
  modify fun s => { s with presenter := f s.presenter }

/-- The presenter that a buffer is, given how it reads files. -/
def presenter (read : Location → Act Machine Bytes) : Presenter Buffer where
  showText text := update fun b =>
    { b with content := Text.Utf8.encode text, readOnly := true, modified := true }
  setIdentity identity := update fun b => { b with identity }
  markUnmodified := update fun b => { b with modified := false }
  restore i := do
    update fun b => { b with identity := i.location.display }
    let content ← View.onMachine (read i.location)
    update fun b => { b with content, readOnly := false, modified := false }

end Buffer

end Disasm
