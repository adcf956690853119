/-!
# Symbol tables

A symbol table knows the address and the line of each symbol of a
listing. A symbol that is added again takes its new address and line and
keeps its place. The table in address order is worked out when it is
first asked for and kept until the next symbol comes.
-/

namespace Disasm

/-- A symbol of a listing: where it starts and the line of its header. -/
structure Symbol where
  name : String
  address : Int
  line : Int
  deriving Repr, DecidableEq

/-- A symbol table: its symbols in the order they first came, and the
address order if it has been worked out. -/
structure SymbolTable where
  symbols : List Symbol := []
  ordered : Option (List (Int × String)) := none
  deriving Repr, DecidableEq

namespace SymbolTable

/-- Symbols with one set, at its old place or at the end. -/
def insert (s : Symbol) : List Symbol → List Symbol
  | [] => [s]
  | t :: rest => if t.name = s.name then s :: rest else t :: insert s rest

/-- Adds a symbol; a later definition replaces an earlier one. -/
def add (t : SymbolTable) (s : Symbol) : SymbolTable where
  symbols := insert s t.symbols
  ordered := none

/-- The symbol of a name. -/
def find? (t : SymbolTable) (name : String) : Option Symbol :=
  t.symbols.find? (·.name = name)

/-- The address of a symbol. -/
def address? (t : SymbolTable) (name : String) : Option Int :=
  (t.find? name).map (·.address)

/-- The line of a symbol's header, counted from zero. -/
def line? (t : SymbolTable) (name : String) : Option Int :=
  (t.find? name).map (·.line)

/-- The number of symbols. -/
def size (t : SymbolTable) : Nat :=
  t.symbols.length

/-- A one-line account of a table. -/
def summary (t : SymbolTable) : String :=
  "SymbolTable(" ++ toString t.size ++ " symbols)"

/-- Whether an address and a name come no later than another pair: by
address, then by name. -/
def notAfter (a b : Int × String) : Bool :=
  a.1 < b.1 || (a.1 == b.1 && !decide (b.2 < a.2))

/-- The symbols by address, worked out anew. -/
def sorted (t : SymbolTable) : List (Int × String) :=
  (t.symbols.map fun s => (s.address, s.name)).mergeSort notAfter

/-- The symbols by address, and the table that remembers the order. -/
def byAddress (t : SymbolTable) : List (Int × String) × SymbolTable :=
  match t.ordered with
  | some pairs => (pairs, t)
  | none => (t.sorted, { t with ordered := some t.sorted })

/-- The greatest name there is a place for below an address. -/
def lastName : String := String.ofList [Char.ofNat 0x10FFFF]

/-- The closest symbol that starts at or below an address. -/
def symbolAt (t : SymbolTable) (address : Int) : Option String × SymbolTable :=
  let (pairs, t) := t.byAddress
  (((pairs.takeWhile (notAfter · (address, lastName))).getLast?).map (·.2), t)

end SymbolTable

end Disasm
