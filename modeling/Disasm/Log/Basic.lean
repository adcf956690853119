import Disasm.Failure
import Disasm.Text.Case
import Disasm.Text.Cut
/-!
# Log records and how they are written

Every part of the program logs under a name of its own below
`objview`. A record has a level; the usual levels have a name, a tag
for the console and a colour, any other level is a bare number. The
console shows tag, component and message; a log file shows time, level
name, logger and message.
-/

namespace Disasm.Log

/-- The name that all loggers of the program start with. -/
def rootName : String := "objview"

/-- The ranks of the usual levels. -/
def debug : Int := 10
def info : Int := 20
def warning : Int := 30
def error : Int := 40
def critical : Int := 50

/-- A level as it was given: a number, or a truth value that stands for
one. -/
inductive Level where
  | number (n : Int)
  | flag (b : Bool)
  deriving Repr, DecidableEq

/-- The rank of a level. -/
def Level.rank : Level → Int
  | .number n => n
  | .flag b => if b then 1 else 0

/-- The names under which a user may give a level. -/
def levels : List (String × Int) :=
  [("debug", debug), ("info", info), ("warning", warning), ("error", error),
   ("critical", critical)]

/-- Reads a level: a number stands for itself, a text is looked up in any
letter case. -/
def Level.read : Json → Except Failure Level
  | .num (.int n) => .ok (.number n)
  | .bool b => .ok (.flag b)
  | .str s =>
    match levels.lookup (Text.lowerAscii s) with
    | some n => .ok (.number n)
    | none => .error (.unknownLevel s)
  | v => .error (.noAttribute v.kind "lower")

/-- A log record. -/
structure Record where
  level : Int
  logger : String
  message : String
  deriving Repr, DecidableEq

/-- The name of a level in a log file. -/
def levelName (n : Int) : String :=
  if n = debug then "DEBUG" else if n = info then "INFO" else if n = warning then "WARNING"
  else if n = error then "ERROR" else if n = critical then "CRITICAL"
  else if n = 0 then "NOTSET" else "Level " ++ toString n

/-- The start of a terminal control sequence. -/
def escapeMark : String := String.ofList [Char.ofNat 0x1B, '[']

/-- The tag of a level on the console, and the control sequence of its
colour. -/
def style (n : Int) : String × String :=
  if n = debug then ("dbg", escapeMark ++ "2m")
  else if n = info then ("inf", "")
  else if n = warning then ("wrn", escapeMark ++ "33m")
  else if n = error then ("err", escapeMark ++ "31m")
  else if n = critical then ("crt", escapeMark ++ "31;1m")
  else ("???", "")

namespace Record

/-- The logger's name without the root in front of it. -/
def component (r : Record) : String :=
  Text.dropHead (rootName ++ ".") r.logger

/-- A record as the console shows it. -/
def consoleLine (colored : Bool) (r : Record) : String :=
  let (tag, color) := style r.level
  let line := "[" ++ tag ++ "] " ++ r.component ++ ": " ++ r.message
  if colored && !color.isEmpty then color ++ line ++ escapeMark ++ "0m" else line

/-- A record as a log file shows it. -/
def fileLine (clock : String) (r : Record) : String :=
  clock ++ " " ++ Text.Numeral.padRight 8 (levelName r.level) ++ " " ++ r.logger ++ ": " ++ r.message

end Record

/-- Whether a logger belongs to the program. -/
def isOwn (logger : String) : Bool :=
  logger = rootName || Text.startsWith logger (rootName ++ ".")

end Disasm.Log
