import Disasm.Text.Cut
/-!
# Grammars of command lines

A command line is made of flags, which begin with a hyphen, and one
operand: a path, or a command with all that follows it.
-/

namespace Disasm.CommandLine

/-- What a flag does with a value. -/
inductive Form where
  /-- Shows the help; takes no value. -/
  | help
  /-- Takes no value. -/
  | switch
  | text
  | number
  | choice (words : List String)
  deriving Repr, DecidableEq

/-- A flag: its names, its form and what the help says of it. -/
structure Flag where
  names : List String
  form : Form
  help : String := ""
  deriving Repr, DecidableEq

/-- How many words an operand takes. -/
inductive Shape where
  | one
  | optional
  /-- One of the commands and all words behind it. Each command has its line
  in the help. -/
  | command (commands : List (String × String))
  deriving Repr, DecidableEq

/-- The operand of a command line. -/
structure Operand where
  name : String
  shape : Shape
  deriving Repr, DecidableEq

/-- The grammar of a command line. -/
structure Grammar where
  /-- The name of the program, with the command if there is one. -/
  program : String
  description : String := ""
  flags : List Flag
  operand : Operand
  deriving Repr, DecidableEq

namespace Flag

/-- The flag that shows the help. -/
def helpFlag : Flag := ⟨["-h", "--help"], .help, "show this help message and exit"⟩

/-- The name under which the value of a flag is kept: its last name without
hyphens in front, and with underscores for those inside. -/
def key (f : Flag) : String :=
  String.ofList (((f.names.getLast?.getD "").toList.dropWhile (· = '-')).map
    fun c => if c = '-' then '_' else c)

/-- The name of a flag in messages. -/
def label (f : Flag) : String :=
  String.intercalate "/" f.names

/-- Words to choose from, in braces. -/
def braced (words : List String) : String :=
  "\x7b" ++ String.intercalate "," words ++ "\x7d"

/-- What stands for the value of a flag in the usage; nothing, if it takes
none. -/
def placeholder? (f : Flag) : Option String :=
  match f.form with
  | .help | .switch => none
  | .text | .number => some (String.ofList (f.key.toList.map Char.toUpper))
  | .choice words => some (braced words)

/-- Whether a flag takes a value. -/
def takesValue (f : Flag) : Bool :=
  f.placeholder?.isSome

/-- A name of a flag with what stands for its value. -/
def withValue (f : Flag) (name : String) : String :=
  match f.placeholder? with
  | some v => name ++ " " ++ v
  | none => name

end Flag

namespace Grammar

/-- The flag of the given name. -/
def flag? (g : Grammar) (name : String) : Option Flag :=
  g.flags.find? (·.names.contains name)

/-- All names of flags with their flags, in order. -/
def names (g : Grammar) : List (String × Flag) :=
  g.flags.flatMap fun f => f.names.map (·, f)

end Grammar

end Disasm.CommandLine
