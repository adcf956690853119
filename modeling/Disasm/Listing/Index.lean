import Disasm.Listing.SymbolTable
import Disasm.Text.Lines
import Disasm.Text.Percent
/-!
# The symbol index of a listing

A listing announces each symbol by a header line: the address in
hexadecimal, a blank, and the name between `<` and `>:`. Every other line
is passed over. The line number of a header counts all lines before it.
-/

namespace Disasm.Listing

/-- Whether a character is an ASCII hexadecimal digit. -/
def isHex (c : Char) : Bool :=
  (Text.Percent.nibble? c).isSome

/-- Whether a character may stand in the name of a symbol. -/
def isNameChar (c : Char) : Bool :=
  c.isAlphanum || c = '_' || c = ':' || c = '.'

/-- The number that hexadecimal digits write. -/
def hexValue (cs : List Char) : Nat :=
  cs.foldl (fun n c => n * 16 + (Text.Percent.nibble? c).getD 0) 0

/-- The address and the name that a header line announces. -/
def header? (line : List Char) : Option (Nat × String) :=
  let digits := line.takeWhile isHex
  match line.drop digits.length with
  | ' ' :: '<' :: rest =>
    let name := rest.takeWhile isNameChar
    if !digits.isEmpty && !name.isEmpty && rest.drop name.length = ['>', ':'] then
      some (hexValue digits, String.ofList name)
    else none
  | _ => none

/-- The table with the header of one numbered line, if it is one. -/
def addLine (t : SymbolTable) (entry : String × Nat) : SymbolTable :=
  match header? entry.1.toList with
  | some (address, name) => t.add ⟨name, address, entry.2⟩
  | none => t

/-- The symbol table of a listing. -/
def index (text : String) : SymbolTable :=
  (Text.lines text).zipIdx.foldl addLine {}

end Disasm.Listing
