import Disasm.Machine.Basic
/-!
# Changes from outside

The program is not alone on its machine: between two of its operations,
or while one of them waits, files come and go and programs change their
behaviour.
-/

namespace Disasm

/-- Something that happens to the machine without the program's doing. -/
inductive Change where
  /-- A file with this content now stands at the path. -/
  | write (path : String) (content : Bytes)
  /-- Nothing stands at the path any more. -/
  | remove (path : String)
  /-- Programs behave by these rules from now on. -/
  | behave (rules : List ProcessRule)
  deriving Repr

/-- The machine after a change. -/
def Change.apply (m : Machine) : Change → Machine
  | .write path content => { m with files := m.files.plant path (.file content false) }
  | .remove path => { m with files := m.files.erase (pathNames path) }
  | .behave rules => { m with rules }

end Disasm
