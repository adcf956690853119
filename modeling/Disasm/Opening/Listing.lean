import Disasm.View.Basic
/-!
# Opening files as listings

The handler for binary files takes those that look binary and pass the
probe, and opens them in a view of their own.
-/

namespace Disasm.Opening

/-- The name that the handler for listings registers under. -/
def handlerName : String := "disassembly"

/-- Whether a local file looks binary. One that cannot be read does not. -/
def sniffs (c : Config) (l : Location) : Act Machine Bool :=
  (Prod.fst <$> Sniff.isBinary (.file l.path) c.sniffLimit).recover Failure.isSystem
    fun _ => pure false

/-- Whether a file can be shown as a listing. A local text file is turned
down before the backend is asked. -/
def looksDisassemblable (c : Config) (path : String) : Act Machine Bool := do
  let l ← Machine.readLocation path
  let binary ← if l.isRemote then pure true else sniffs c l
  if binary then return (← Probe.probeAt c l).accepted
  else return false

variable {P : Type}

/-- Opens a file in a new view, which is returned if the file can be shown
as a listing. -/
def openListing (p : Presenter P) (c : Config) (path : String) : Act (Stage P) (Option View) := do
  modify fun s => { s with view := {} }
  if ← View.setup p c path none then return some (← get).view
  else return none

end Disasm.Opening
