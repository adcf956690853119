import Disasm.Machine.Basic
/-!
# The registry of handlers

Which view a file is opened in is decided by handlers that register under
a name. A file goes to the first handler that accepts it, in the order of
registration. A handler may change the registry while it is asked; what
is asked in a dispatch are the handlers registered when it began.

That is a matter of which list is changed. A dispatch holds the list that
was in use when it began and looks at it again for every handler. Taking
a name off makes another list and puts it in use; a registration does so
too, and then writes to the end of the list it made. So the registry
keeps every list that was ever in use, and a dispatch refers to its list
by number.

Handlers are kept as values of a type `H`, and what a handler does is
told by a function on `H`. So the registry can be part of the state that
handlers act on.
-/

namespace Disasm

/-- A handler with the name it registered under. -/
structure Registered (H : Type) where
  name : String
  handler : H
  deriving Repr

/-- The registered handlers, in the order they are asked, and the lists of
handlers that were in use before, the oldest first. -/
structure Registry (H : Type) where
  entries : List (Registered H) := []
  former : List (List (Registered H)) := []
  deriving Repr

/-- What a handler does: whether it takes a file, and how it opens one. -/
structure Behaviour (σ R : Type) where
  accepts : String → Act σ Bool
  activate : String → Act σ R

namespace Registry

variable {H σ R : Type}

/-- The number of the list that is in use. -/
def current (r : Registry H) : Nat :=
  r.former.length

/-- What is on a list, by its number. -/
def list (r : Registry H) (n : Nat) : List (Registered H) :=
  (r.former ++ [r.entries])[n]?.getD []

/-- Takes a name off the registry. What is left stands on a new list. -/
def unregister (r : Registry H) (name : String) : Registry H where
  entries := r.entries.filter (·.name ≠ name)
  former := r.former ++ [r.entries]

/-- Writes a handler to the end of the list in use. -/
def append (r : Registry H) (e : Registered H) : Registry H :=
  { r with entries := r.entries ++ [e] }

/-- Registers a handler in place of any of the same name; it is asked last. -/
def register (r : Registry H) (name : String) (handler : H) : Registry H :=
  (r.unregister name).append ⟨name, handler⟩

/-- The names in use. -/
def names (r : Registry H) : List String :=
  r.entries.map (·.name)

/-- Opens a file with the first handler that accepts it, after announcing
which one that is. Asked are the handlers of list `n` from `index` on, each
as it stands there when its turn comes; a number of steps bounds how long
that goes on. -/
def openFrom (registry : σ → Registry H) (announce : String → Act σ Unit)
    (behave : H → Behaviour σ R) (path : String) (n : Nat) :
    (steps index : Nat) → Act σ (Option R)
  | 0, _ => return none
  | steps + 1, index => do
    match ((registry (← get)).list n)[index]? with
    | none => return none
    | some e =>
      if ← (behave e.handler).accepts path then
        announce e.name
        return some (← (behave e.handler).activate path)
      else openFrom registry announce behave path n steps (index + 1)

/-- Logs which handler takes a file. -/
def announce (path name : String) : Act Machine Unit :=
  Machine.log Log.debug "controllers.file_hooks" (name ++ " handles " ++ path)

/-- Opens a file with the first handler that accepts it, among those
registered now. It takes one step for each of them and one to find the end
of the list; `exec_openFrom` is why no more are needed. -/
def dispatch (registry : σ → Registry H) (onMachine : Act Machine Unit → Act σ Unit)
    (behave : H → Behaviour σ R) (path : String) : Act σ (Option R) := do
  let r := registry (← get)
  openFrom registry (fun name => onMachine (announce path name)) behave path r.current
    (r.entries.length + 1) 0

end Registry

end Disasm
