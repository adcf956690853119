import Disasm.Opening.Listing
import Disasm.Opening.Registry
import Disasm.View.Rehearsal
/-!
# The desk — a registry in use

A desk is a registry with the machine it works on. On it stand the
handler for listings and handlers that answer in a fixed way, and it
keeps count of which of the latter were asked.
-/

namespace Disasm

/-- How a fixed handler answers the question whether it takes a file. -/
inductive Acceptance where
  | fixed (yes : Bool)
  /-- Takes the paths that end in a text. -/
  | suffix (tail : String)
  /-- Fails when asked. -/
  | failing
  deriving Repr, DecidableEq

/-- A handler on a desk. -/
inductive Handler where
  /-- Answers in a fixed way and opens a file by returning a value. -/
  | constant (name : String) (accept : Acceptance) (value : Json)
  /-- Opens binary files as listings. -/
  | listing (config : Config)
  deriving Repr

/-- What opening a file returns. -/
inductive Opened where
  | value (v : Json)
  | view (v : Option View)

/-- A registry, the machine, the presenter that files are opened in, and
the fixed handlers that were asked. -/
structure Desk where
  machine : Machine
  registry : Registry Handler := {}
  presenter : Rehearsal := {}
  asked : List String := []

namespace Desk

variable {α : Type}

/-- Runs an operation of the machine on a desk. -/
def onMachine (x : Act Machine α) : Act Desk α :=
  x.within Desk.machine fun d machine => { d with machine }

/-- Runs an operation of a view on a desk, starting with an unused view. -/
def onStage (x : Act (Stage Rehearsal) α) : Act Desk α :=
  x.within (fun d => { machine := d.machine, presenter := d.presenter })
    fun d s => { d with machine := s.machine, presenter := s.presenter }

/-- Whether a fixed handler takes a file. -/
def accepts (name : String) (accept : Acceptance) (path : String) : Act Desk Bool := do
  modify fun d => { d with asked := d.asked ++ [name] }
  match accept with
  | .fixed yes => return yes
  | .suffix tail => return Text.endsWith path tail
  | .failing => throw .predicateFailed

/-- What a handler does. -/
def behave : Handler → Behaviour Desk Opened
  | .constant name accept value => ⟨accepts name accept, fun _ => pure (.value value)⟩
  | .listing c =>
    ⟨fun path => onMachine (Opening.looksDisassemblable c path),
     fun path =>
      let p := Rehearsal.presenter Buffer.readOriginal c Rehearsal.maxDepth
      .view <$> onStage (Opening.openListing p c path)⟩

/-- Puts a fixed handler on the desk. -/
def register (d : Desk) (name : String) (accept : Acceptance) (value : Json) : Desk :=
  { d with registry := d.registry.register name (.constant name accept value) }

/-- Puts the handler for listings on the desk. -/
def install (d : Desk) (c : Config) : Desk :=
  { d with registry := d.registry.register Opening.handlerName (.listing c) }

/-- Takes a handler off the desk. -/
def unregister (d : Desk) (name : String) : Desk :=
  { d with registry := d.registry.unregister name }

/-- Opens a file with the first handler that accepts it. -/
def dispatch (path : String) : Act Desk (Option Opened) :=
  Registry.dispatch Desk.registry onMachine behave path

end Desk

end Disasm
