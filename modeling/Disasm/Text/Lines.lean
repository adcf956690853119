/-!
# Lines — where a text is cut

Two notions of a line meet in the program. `lines` cuts at every line
boundary that Unicode knows, as a reader of a listing does; `newlines`
only turns the three spellings of a newline into one, as a text stream
does when it is read.
-/

namespace Disasm.Text

/-- Whether a character ends a line: line feed, carriage return, line
tabulation, form feed, the file, group and record separators, next line,
line separator and paragraph separator. -/
def isLineEnd (c : Char) : Bool :=
  (0x0A ≤ c.toNat && c.toNat ≤ 0x0D) || (0x1C ≤ c.toNat && c.toNat ≤ 0x1E) ||
    c.toNat == 0x85 || c.toNat == 0x2028 || c.toNat == 0x2029

/-- The lines of a text, given the characters of the open line in reverse. A
carriage return and the line feed after it are one end of line. -/
def linesFrom (held : List Char) : List Char → List (List Char)
  | [] => if held.isEmpty then [] else [held.reverse]
  | '\r' :: '\n' :: rest => held.reverse :: linesFrom [] rest
  | c :: rest =>
    if isLineEnd c then held.reverse :: linesFrom [] rest else linesFrom (c :: held) rest

/-- The lines of a text, without their ends. A text that ends with an end
of line has no empty line after it. -/
def lines (s : String) : List String :=
  (linesFrom [] s.toList).map String.ofList

/-- A carriage return, with the line feed after it if there is one, becomes
a line feed. -/
def newlineChars : List Char → List Char
  | [] => []
  | '\r' :: '\n' :: rest => '\n' :: newlineChars rest
  | c :: rest => (if c = '\r' then '\n' else c) :: newlineChars rest

/-- A text with every newline spelled as a line feed. -/
def newlines (s : String) : String :=
  String.ofList (newlineChars s.toList)

end Disasm.Text
