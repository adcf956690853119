import Disasm.Number.Basic
import Disasm.Text.Script
/-!
# JSON values

A settings file is a JSON object, and a field of it may hold any JSON
value whatever the program expects there. Members of an object keep the
order in which their names first came; a name that comes again takes the
new value at its old place. A text, and a name, may hold surrogates that
stand alone; such values have forms of their own.
-/

namespace Disasm

/-- A JSON value. Integers and doubles are told apart, and so are texts of
characters from texts with a lone surrogate. -/
inductive Json where
  | null
  | bool (b : Bool)
  | num (n : Number)
  | str (s : String)
  | arr (items : List Json)
  | obj (members : List (String × Json))
  /-- A text with a lone surrogate. -/
  | stray (b : Broken)
  /-- An object in which some name has a lone surrogate. -/
  | odd (members : List (Script × Json))
  deriving Repr, Inhabited

namespace Json

/-- An integer value. -/
abbrev int (n : Int) : Json := .num (.int n)

/-- A double value. -/
abbrev float (x : Binary64) : Json := .num (.float x)

/-- A script as a value. -/
def ofScript : Script → Json
  | .plain s => .str s
  | .broken b => .stray b

/-- The members of an object with one set: at the old place of its name, or
at the end. -/
def setMember (members : List (Script × Json)) (name : Script) (value : Json) :
    List (Script × Json) :=
  match members with
  | [] => [(name, value)]
  | (n, v) :: rest => if n = name then (n, value) :: rest else (n, v) :: setMember rest name value

/-- The members of which the name is a text of characters. -/
def named (members : List (Script × Json)) : List (String × Json) :=
  members.filterMap fun (name, v) => name.plain?.map (·, v)

/-- The object of some members. -/
def object (members : List (Script × Json)) : Json :=
  if members.all (·.1.plain?.isSome) then .obj (named members) else .odd members

/-- What an object says under names of characters, for a value that is one. -/
def fields? : Json → Option (List (String × Json))
  | .obj members => some members
  | .odd members => some (named members)
  | _ => none

/-- The member of an object of the given name. -/
def member? (name : String) (v : Json) : Option Json :=
  v.fields?.bind (·.lookup name)

/-- Whether a value counts as true: not null, not false, not zero and not
empty. -/
def truthy : Json → Bool
  | .null => false
  | .bool b => b
  | .num n => n.isNonzero
  | .str s => !s.isEmpty
  | .arr items => !items.isEmpty
  | .obj members => !members.isEmpty
  | .stray _ => true
  | .odd members => !members.isEmpty

/-- The name of a value's type, as messages give it. -/
def kind : Json → String
  | .null => "NoneType"
  | .bool _ => "bool"
  | .num (.int _) => "int"
  | .num (.float _) => "float"
  | .str _ | .stray _ => "str"
  | .arr _ => "list"
  | .obj _ | .odd _ => "dict"

mutual

/-- A value as it stands inside a list: texts in quotes. -/
def shown : Json → String
  | .null => "None"
  | .bool b => if b then "True" else "False"
  | .num n => n.text
  | .str s => Text.Quoted.write s
  | .arr items => "[" ++ String.intercalate ", " (shownItems items) ++ "]"
  | .obj members => "\x7b" ++ String.intercalate ", " (shownMembers members) ++ "\x7d"
  | .stray b => (Script.broken b).quoted
  | .odd members => "\x7b" ++ String.intercalate ", " (shownOdd members) ++ "\x7d"

/-- The items of a list, shown one by one. -/
def shownItems : List Json → List String
  | [] => []
  | v :: rest => shown v :: shownItems rest

/-- The members of an object, shown one by one. -/
def shownMembers : List (String × Json) → List String
  | [] => []
  | (name, v) :: rest => (Text.Quoted.write name ++ ": " ++ shown v) :: shownMembers rest

/-- The members of an object with odd names, shown one by one. -/
def shownOdd : List (Script × Json) → List String
  | [] => []
  | (name, v) :: rest => (name.quoted ++ ": " ++ shown v) :: shownOdd rest

end

mutual

/-- How deep the stack must be for a copy of a value, less what the copy of an
empty list takes. Each list or object on the way takes two steps. -/
def copyCost : Json → Nat
  | .arr items => itemsCost items
  | .obj members => membersCost members
  | .odd members => oddCost members
  | _ => 1

/-- What the deepest item of a list takes, counted from the list. -/
def itemsCost : List Json → Nat
  | [] => 0
  | v :: rest => max (copyCost v + 2) (itemsCost rest)

/-- What the deepest member of an object takes, counted from the object. The
names are copied like texts. -/
def membersCost : List (String × Json) → Nat
  | [] => 0
  | (_, v) :: rest => max (max 1 (copyCost v) + 2) (membersCost rest)

/-- What the deepest member of an object with odd names takes. -/
def oddCost : List (Script × Json) → Nat
  | [] => 0
  | (_, v) :: rest => max (max 1 (copyCost v) + 2) (oddCost rest)

end

/-- A value as text: a text is itself, any other value as it is shown. -/
def script : Json → Script
  | .str s => .plain s
  | .stray b => .broken b
  | v => .plain (shown v)

/-- A value as text where it is shown. -/
def text (v : Json) : String :=
  v.script.shown

end Json

end Disasm
