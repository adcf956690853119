import Disasm.Text.Script
/-!
# Shell words

A command for a remote shell is one text that the shell cuts into words
again. `quote` writes a word so that the shell reads it back unchanged: a
word of safe characters stands as it is, any other goes in single quotes,
where a single quote itself is written by leaving the quotes, quoting it
doubly, and entering them again.
-/

namespace Disasm.Text.Shell

/-- The characters that no shell treats specially: ASCII letters and digits
and the signs `_ @ % + = : , . / -`. -/
def isSafe (c : Char) : Bool :=
  c.isAlphanum || "_@%+=:,./-".toList.contains c

/-- A character between single quotes. -/
def escape (c : Char) : List Char :=
  if c = '\'' then ['\'', '"', '\'', '"', '\''] else [c]

/-- The characters of a quoted word. -/
def quoteChars (cs : List Char) : List Char :=
  if cs.isEmpty then ['\'', '\'']
  else if cs.all isSafe then cs
  else '\'' :: cs.flatMap escape ++ ['\'']

/-- A word written for the shell. -/
def quote (word : String) : String :=
  String.ofList (quoteChars word.toList)

/-- The command line of a list of words. -/
def join (words : List String) : String :=
  String.intercalate " " (words.map quote)

/-- A point between single quotes. -/
def escapePoint : Point → List Point
  | .char c => (escape c).map .char
  | .lone s => [.lone s]

/-- A script written for the shell. A lone surrogate is no safe character. -/
def quoteScript : Script → List Point
  | .plain s => (quoteChars s.toList).map .char
  | .broken b => .char '\'' :: b.points.flatMap escapePoint ++ [.char '\'']

/-- The command line of words of which some may hold lone surrogates. -/
def line (words : List Script) : Script :=
  .ofPoints (List.intercalate [.char ' '] (words.map quoteScript))

end Disasm.Text.Shell
