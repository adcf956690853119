import Disasm.Failure
import Disasm.Text.Cut
import Disasm.Text.Lines
/-!
# Child processes

A program that is started behaves as the first rule that fits its command
says: it may fail to start, and otherwise takes its time, writes its
output and ends with a status. A rule can be limited to a number of uses.
Every attempt to start a program leaves a record.
-/

namespace Disasm

/-- How programs behave whose command holds the text `pattern` in one of its
words. -/
structure ProcessRule where
  pattern : String := ""
  /-- How often the rule can still be used, if that is limited. -/
  uses : Option Nat := none
  /-- Why the program does not start. -/
  startError : Option Errno := none
  stdout : Bytes := []
  stderr : Bytes := []
  status : Int := 0
  duration : Number := .int 0
  deriving Repr

namespace ProcessRule

/-- Whether a rule covers a command. -/
def fits (r : ProcessRule) (command : List String) : Bool :=
  r.uses ≠ some 0 && command.any (Text.occurs r.pattern)

/-- A rule after a use. -/
def spend (r : ProcessRule) : ProcessRule :=
  { r with uses := r.uses.map (· - 1) }

/-- The first rule that covers a command, and the rules with that use taken
off. -/
def choose? (command : List String) : List ProcessRule → Option (ProcessRule × List ProcessRule)
  | [] => none
  | r :: rest =>
    if r.fits command then some (r, r.spend :: rest)
    else (choose? command rest).map fun (found, rest) => (found, r :: rest)

end ProcessRule

/-- A request to run a program. -/
structure Command where
  words : List Script
  /-- The working directory, if it is not the caller's. -/
  cwd : Option String := none
  /-- Variables set over the caller's environment. -/
  env : List (String × String) := []
  /-- Whether the error stream goes into the output stream. -/
  mergeStderr : Bool := false
  /-- The time limit. -/
  timeout : Option Number := none
  /-- Whether output is read as text. -/
  text : Bool := true
  deriving Repr

/-- The words of a command as they are shown. -/
def Command.texts (c : Command) : List String :=
  c.words.map Script.shown

/-- The record of an attempt to start a program. -/
structure Call where
  /-- The words as they are shown. -/
  command : List String
  cwd : Option String
  /-- The variables that differ from the caller's environment, if one was
  given. -/
  env : Option (List (String × String))
  mergeStderr : Bool
  text : Bool
  deriving Repr, DecidableEq

/-- What a finished program leaves behind. -/
structure Outcome where
  status : Int
  stdout : Bytes
  stderr : Bytes
  deriving Repr, DecidableEq

/-- A stream read as text: UTF-8 with ill-formed runs replaced and newlines
made uniform. -/
def readText (bs : Bytes) : String :=
  Text.newlines (Text.Utf8.decodeLenient bs)

end Disasm
