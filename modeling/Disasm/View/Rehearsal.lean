import Disasm.Machine.Change
import Disasm.View.Buffer
import Disasm.View.Request
/-!
# Rehearsals — a presenter that answers by a script

A presenter may refuse a call, and may call the view again before it does
what it was asked. A rehearsal is a buffer that does so by a script and
keeps a record of all that happens to it. Scripts can answer calls that
they caused themselves, so how deeply calls may nest is bounded.
-/

namespace Disasm

/-- The calls that a presenter receives. -/
inductive PresenterCall where
  | showText
  | setIdentity
  | markUnmodified
  | restore
  deriving Repr, DecidableEq

/-- The name of a call. -/
def PresenterCall.text : PresenterCall → String
  | .showText => "show_text"
  | .setIdentity => "set_identity"
  | .markUnmodified => "mark_unmodified"
  | .restore => "restore"

namespace Rehearsal

/-- Something done on a stage from outside the view: a call to it, a change
of the machine, an edit of the buffer, or a look at its text. -/
inductive Deed where
  | ask (request : View.Request)
  | change (c : Change)
  | edit (content : Bytes)
  | look
  deriving Repr

/-- What a deed returns. -/
inductive Result where
  | reply (r : View.Reply)
  | text (s : String)
  deriving Repr, DecidableEq

/-- What a script says about a call: to refuse it, or to do something
first. With a suffix the line applies only to arguments that end in it. -/
structure Cue where
  call : PresenterCall
  suffix : Option String := none
  /-- What to do first; nothing means to refuse. -/
  deed : Option Deed := none
  deriving Repr

/-- Something that happened to the presenter. -/
inductive Event where
  | called (call : PresenterCall) (argument : Option String) (state : ViewState)
  | nested (deed : Deed) (result : Except Failure Result) (state : ViewState)

end Rehearsal

/-- A buffer with a script and a record. -/
structure Rehearsal where
  buffer : Buffer := {}
  script : List Rehearsal.Cue := []
  events : List Rehearsal.Event := []

namespace Rehearsal

variable {α : Type}

/-- Runs an operation on the buffer of a rehearsal. -/
def onBuffer (x : Act (Stage Buffer) α) : Act (Stage Rehearsal) α :=
  x.within (fun s => { machine := s.machine, view := s.view, presenter := s.presenter.buffer })
    fun s t =>
      { machine := t.machine, view := t.view, presenter := { s.presenter with buffer := t.presenter } }

/-- Adds to the record. -/
def note (event : ViewState → Event) : Act (Stage Rehearsal) Unit :=
  modify fun s => { s with
    presenter := { s.presenter with events := s.presenter.events ++ [event s.view.state] } }

/-- Does a deed, the view being presented by `p`. -/
def perform (p : Presenter Rehearsal) (c : Config) : Deed → Act (Stage Rehearsal) Result
  | .ask request => .reply <$> View.ask p c request
  | .change change => do
    modify fun s => { s with machine := change.apply s.machine }
    return .reply .done
  | .edit content => do
    onBuffer (Buffer.update fun b => { b with content, modified := true })
    return .reply .done
  | .look => return .text (← get).presenter.buffer.text

/-- Whether a line of the script applies to a call. -/
def Cue.applies (cue : Cue) (call : PresenterCall) (argument : Option String) : Bool :=
  cue.call = call &&
    match cue.suffix, argument with
    | none, _ => true
    | some suffix, some a => Text.endsWith a suffix
    | some _, none => false

/-- Follows one line of the script. How a nested call ends is recorded and
has no other effect. -/
def follow (p : Presenter Rehearsal) (c : Config) (cue : Cue) : Act (Stage Rehearsal) Unit := do
  match cue.deed with
  | none => throw (.refused cue.call.text)
  | some deed =>
    let result ← (perform p c deed).attempt
    note (.nested deed result)

/-- Records a call and follows the lines of the script that apply to it. -/
def react (p : Presenter Rehearsal) (c : Config) (call : PresenterCall)
    (argument : Option String) : Act (Stage Rehearsal) Unit := do
  note (.called call argument)
  let cues := (← get).presenter.script.filter (·.applies call argument)
  cues.forM (follow p c)

/-- The presenter that first reacts, making its nested calls with `p`
presenting, and then acts on its buffer. -/
def reacting (read : Location → Act Machine Bytes) (c : Config) (p : Presenter Rehearsal) :
    Presenter Rehearsal where
  showText text := do
    react p c .showText text
    onBuffer ((Buffer.presenter read).showText text)
  setIdentity name := do
    react p c .setIdentity name
    onBuffer ((Buffer.presenter read).setIdentity name)
  markUnmodified := do
    react p c .markUnmodified none
    onBuffer (Buffer.presenter read).markUnmodified
  restore i := do
    react p c .restore i.location.display
    onBuffer ((Buffer.presenter read).restore i)

/-- The presenter whose calls cannot nest any further. -/
def exhausted : Presenter Rehearsal where
  showText _ := throw .nestedTooDeep
  setIdentity _ := throw .nestedTooDeep
  markUnmodified := throw .nestedTooDeep
  restore _ := throw .nestedTooDeep

/-- The presenter that a rehearsal is, with nested calls up to a depth. -/
def presenter (read : Location → Act Machine Bytes) (c : Config) : (depth : Nat) → Presenter Rehearsal
  | 0 => exhausted
  | depth + 1 => reacting read c (presenter read c depth)

/-- How deeply calls may nest. -/
def maxDepth : Nat := 100

end Rehearsal

end Disasm
