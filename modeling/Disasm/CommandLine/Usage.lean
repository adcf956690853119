import Disasm.CommandLine.Grammar
import Disasm.Log.Template
import Disasm.Text.Wrap
/-!
# Usage and help

The usage is one line that names the flags and the operand, broken into
lines where it does not fit. The help goes on with a description and a
table: each entry has a heading on the left and its text, broken into
lines, in a column on the right.
-/

namespace Disasm.CommandLine

/-- Blanks. -/
def blanks (n : Nat) : String :=
  String.ofList (List.replicate n ' ')

/-- How a flag stands in the usage. -/
def Flag.usage (f : Flag) : String :=
  "[" ++ f.withValue (f.names.headD "") ++ "]"

namespace Operand

/-- What stands for an operand. -/
def placeholder (o : Operand) : String :=
  match o.shape with
  | .command commands => Flag.braced (commands.map (·.1))
  | _ => o.name

/-- How an operand stands in the usage. -/
def usage (o : Operand) : List String :=
  match o.shape with
  | .one => [o.placeholder]
  | .optional => ["[" ++ o.placeholder ++ "]"]
  | .command _ => [o.placeholder, "..."]

end Operand

/-- Parts filled into lines that each begin with an indent; the room that is
taken on the first line is `taken`. A line holds at least one part. -/
def fillParts (width : Int) (indent : Nat) : (taken : Nat) → (line : List String) →
    List String → List (List String)
  | _, line, [] => if line.isEmpty then [] else [line]
  | taken, line, part :: rest =>
    if width < taken + part.length && !line.isEmpty then
      line :: fillParts width indent (indent + part.length + 1) [part] rest
    else fillParts width indent (taken + part.length + 1) (line ++ [part]) rest

/-- Lines of parts, indented. -/
def indented (indent : Nat) (lines : List (List String)) : List String :=
  lines.map fun line => blanks indent ++ String.intercalate " " line

namespace Grammar

/-- What a usage begins with. -/
def usageMark : String := "usage: "

/-- The lines of a usage that does not fit on one. A short program name is
followed by the flags, a long one stands alone. -/
def usageLines (g : Grammar) (width : Int) : List String :=
  let flags := g.flags.map (·.usage)
  let operand := g.operand.usage
  let start := usageMark.length + g.program.length
  if 4 * (start : Int) ≤ 3 * width then
    let indent := start + 1
    let first := match fillParts width indent usageMark.length [] (g.program :: flags) with
      | [] => []
      | line :: rest => String.intercalate " " line :: indented indent rest
    first ++ indented indent (fillParts width indent indent [] operand)
  else
    let indent := usageMark.length
    let fill (parts : List String) := indented indent (fillParts width indent indent [] parts)
    let together := fill (flags ++ operand)
    g.program :: if 1 < together.length then fill flags ++ fill operand else together

/-- The usage, for lines of a width. -/
def usage (g : Grammar) (width : Int) : String :=
  let line := String.intercalate " " (g.program :: g.flags.map (·.usage) ++ g.operand.usage)
  let body := if width < usageMark.length + line.length then
      String.intercalate "\n" (g.usageLines width)
    else line
  usageMark ++ body ++ "\n"

end Grammar

/-- An entry of the table of the help. -/
structure HelpEntry where
  indent : Nat
  heading : String
  text : String
  deriving Repr, DecidableEq

namespace HelpEntry

/-- The lines of an entry, with its text in the given column. A heading that
reaches into the column has a line of its own. -/
def lines (e : HelpEntry) (width : Int) (column : Nat) : List String :=
  let room := column - e.indent - 2
  let start := blanks e.indent ++ e.heading
  if e.text.isEmpty then [start]
  else
    let textWidth := max (width - column).toNat 11
    let body := Text.Wrap.wrap textWidth e.text
    if e.heading.length ≤ room then
      let gap := blanks (room - e.heading.length + 2)
      (start ++ gap ++ body.headD "") :: body.tail.map (blanks column ++ ·)
    else start :: body.map (blanks column ++ ·)

end HelpEntry

/-- What the text of a flag may refer to, by name. -/
def Flag.facts (program : String) (f : Flag) : List (String × Json) :=
  [("option_strings", .arr (f.names.map .str)), ("dest", .str f.key), ("nargs", .null),
   ("const", .null), ("default", .null), ("type", .str "Path"), ("choices", .null),
   ("required", .bool false), ("help", .str f.help), ("metavar", .null), ("prog", .str program)]

/-- How a flag stands in the help. -/
def Flag.entry (program : String) (f : Flag) : Except Failure HelpEntry := do
  let heading := String.intercalate ", " (f.names.map f.withValue)
  return ⟨2, heading, ← Log.Template.fill f.help [.obj (f.facts program)]⟩

/-- How an operand stands in the help, with its commands. -/
def Operand.entries (o : Operand) : List HelpEntry :=
  ⟨2, o.placeholder, ""⟩ :: match o.shape with
    | .command commands => commands.map fun (name, text) => ⟨4, name, text⟩
    | _ => []

namespace Grammar

/-- The column in which the texts of the table stand: behind the longest
heading, but not far to the right. The indent of commands does not count. -/
def column (width : Int) (entries : List HelpEntry) : Nat :=
  let longest := entries.foldl (fun n e => max n (e.heading.length + 2)) 0
  min (longest + 2) (min 24 (max (width - 20) 4).toNat)

/-- The help, for lines of a width. -/
def help (g : Grammar) (width : Int) : Except Failure String := do
  let operands := g.operand.entries
  let flags ← g.flags.mapM (·.entry g.program)
  let position := column width (operands ++ flags)
  let table (title : String) (entries : List HelpEntry) : List String :=
    ["", title ++ ":"] ++ entries.flatMap (·.lines width position)
  let description := if g.description.isEmpty then []
    else "" :: Text.Wrap.wrap (max width.toNat 11) g.description
  let rows := description ++ table "positional arguments" operands ++ table "options" flags
  return g.usage width ++ String.join (rows.map (· ++ "\n"))

end Grammar

end Disasm.CommandLine
