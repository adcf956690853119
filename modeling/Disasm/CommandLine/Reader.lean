import Disasm.CommandLine.Grammar
import Disasm.Number.Basic
import Disasm.Text.Quoted
/-!
# Reading a command line

Reading goes in two passes. The first tells flags from other words: a
flag may be shortened as long as one flag only begins that way, and its
value may follow behind `=`; a word that looks like a negative number or
holds a blank is no flag; behind `--` there are no flags. The second takes
the words from left to right, flags with their values and the operand,
and sets aside what it has no use for.
-/

namespace Disasm.CommandLine

/-- Why a command line is not carried out: the help was asked for, or there
is something wrong with it. -/
inductive Refusal where
  | help
  | fault (message : String)
  deriving Repr, DecidableEq

/-- A flag that a word names, by which of its names, and the value that the
word gives with it. -/
structure Hit where
  flag : Flag
  name : String
  value : Option String
  deriving Repr, DecidableEq

/-- A word of the command line after the first pass. -/
inductive Token where
  /-- A word that looks like a flag, and the flag if there is one. -/
  | flag (text : String) (hit : Option Hit)
  | word (text : String)
  | separator
  deriving Repr, DecidableEq

/-- The word that ends the flags. -/
def separatorText : String := "--"

/-- The text of a token. -/
def Token.text : Token → String
  | .flag text _ => text
  | .word text => text
  | .separator => separatorText

/-! ## Telling flags from words -/

/-- Cuts a word at its first `=`. -/
def cutValue (word : String) : String × Option String :=
  let (name, rest) := Text.cutFirst '=' word.toList
  if word.toList.contains '=' then (String.ofList name, some (String.ofList rest))
  else (word, none)

/-- Whether a text is a negative number: digits behind a hyphen, with one
point before some of them or none. -/
def isNegativeNumber (word : String) : Bool :=
  match word.toList with
  | '-' :: cs =>
    let isDigit (c : Char) := (Text.digit? c).isSome
    let cs := if cs.getLast? = some '\n' then cs.dropLast else cs
    let rest := cs.dropWhile isDigit
    (rest.isEmpty && !cs.isEmpty) ||
      match rest with
      | '.' :: fraction => !fraction.isEmpty && fraction.all isDigit
      | _ => false
  | _ => false

/-- Whether a name begins with two hyphens. -/
def isLong (name : String) : Bool :=
  Text.startsWith name "--"

/-- The flags that a shortened name can mean. A name with one hyphen is a
flag of one letter with its value behind it. -/
def Grammar.candidates (g : Grammar) (word : String) : List Hit :=
  if isLong word then
    let (start, value) := cutValue word
    (g.names.filter fun (name, _) => Text.startsWith name start).map
      fun (name, flag) => ⟨flag, name, value⟩
  else
    let short := String.ofList (word.toList.take 2)
    let value := String.ofList (word.toList.drop 2)
    g.names.filterMap fun (name, flag) =>
      if name = short then some ⟨flag, name, some value⟩
      else if Text.startsWith name word then some ⟨flag, name, none⟩
      else none

/-- The flag that a word names in full. -/
def Grammar.exact? (g : Grammar) (word : String) : Option Hit :=
  match g.flag? word with
  | some flag => some ⟨flag, word, none⟩
  | none => match cutValue word with
    | (name, some value) => (g.flag? name).map (⟨·, name, some value⟩)
    | (_, none) => none

/-- What a word before `--` is. -/
def Grammar.token (g : Grammar) (word : String) : Except Refusal Token :=
  if !Text.startsWith word "-" || word = "-" then .ok (.word word)
  else match g.exact? word with
    | some hit => .ok (.flag word (some hit))
    | none => match g.candidates word with
      | [hit] => .ok (.flag word (some hit))
      | [] =>
        if isNegativeNumber word || word.toList.contains ' ' then .ok (.word word)
        else .ok (.flag word none)
      | hits => .error (.fault ("ambiguous option: " ++ word ++ " could match " ++
          String.intercalate ", " (hits.map (·.name))))

/-- The tokens of a command line. -/
def Grammar.tokens (g : Grammar) : List String → Except Refusal (List Token)
  | [] => .ok []
  | word :: rest =>
    if word = separatorText then .ok (.separator :: rest.map .word)
    else do
      let t ← g.token word
      let ts ← g.tokens rest
      return t :: ts

/-! ## Taking flags and operands -/

/-- A fault of a flag. -/
def Flag.fault (f : Flag) (message : String) : Refusal :=
  .fault ("argument " ++ f.label ++ ": " ++ message)

/-- The message on a word that is none of those to choose from. -/
def invalidChoice (word : String) (words : List String) : String :=
  "invalid choice: " ++ Text.Quoted.write word ++ " (choose from " ++
    String.intercalate ", " (words.map Text.Quoted.write) ++ ")"

/-- A flag that was given, by its key. A value of `--` is taken away, which
leaves none. -/
structure Given where
  key : String
  value : Option String
  deriving Repr, DecidableEq

/-- Takes a flag with its value, if that has the right form. -/
def Flag.give (f : Flag) (value : Option String) : Except Refusal Given :=
  let value := value.filter (· ≠ separatorText)
  match f.form, value with
  | .help, _ => .error .help
  | .choice words, some v =>
    if words.contains v then .ok ⟨f.key, v⟩ else .error (f.fault (invalidChoice v words))
  | .number, some v =>
    if (Number.readFloat? v).isSome then .ok ⟨f.key, v⟩
    else .error (f.fault ("invalid float value: " ++ Text.Quoted.write v))
  | _, value => .ok ⟨f.key, value⟩

/-- Reads the characters behind a flag of one letter that takes no value as
further such flags: the flags before the last, and the last. -/
def Grammar.expand (g : Grammar) (f : Flag) (name : String) :
    List Char → Except Refusal (List Flag × Hit)
  | [] => .error (f.fault ("ignored explicit argument " ++ Text.Quoted.write ""))
  | c :: rest =>
    let next := String.ofList ['-', c]
    match if isLong name then none else g.flag? next with
    | none =>
      .error (f.fault ("ignored explicit argument " ++ Text.Quoted.write (String.ofList (c :: rest))))
    | some flag =>
      if rest.isEmpty then .ok ([f], ⟨flag, next, none⟩)
      else if flag.takesValue then .ok ([f], ⟨flag, next, some (String.ofList rest)⟩)
      else do
        let (flags, hit) ← g.expand flag next rest
        return (f :: flags, hit)

/-- The flags that one word stands for. -/
def Grammar.unfold (g : Grammar) (hit : Hit) : Except Refusal (List Flag × Hit) :=
  match hit.value with
  | some v => if hit.flag.takesValue then .ok ([], hit) else g.expand hit.flag hit.name v.toList
  | none => .ok ([], hit)

/-- Takes the flags of a word, with a value from the words behind it if one
is needed. -/
def Grammar.takeFlag (g : Grammar) (hit : Hit) (rest : List Token) :
    Except Refusal (List Given × List Token) := do
  let (flags, last) ← g.unfold hit
  let (value, rest) ←
    if !last.flag.takesValue || last.value.isSome then pure (last.value, rest)
    else match rest with
      | .word w :: rest => pure (some w, rest)
      | _ => throw (last.flag.fault "expected one argument")
  let before ← flags.mapM (·.give none)
  return (before ++ [← last.flag.give value], rest)

/-- Cuts the separators off the front. -/
def cutSeparators (ts : List Token) : List Token × List Token :=
  (ts.takeWhile (· = .separator), ts.dropWhile (· = .separator))

/-- Takes the words of an operand, if there are enough of them. Separators
around a single word belong to it. -/
def takeOperand (shape : Shape) (ts : List Token) : Option (List String × List Token) :=
  let (lead, rest) := cutSeparators ts
  let single (ws : List Token) (rest : List Token) : List String × List Token :=
    let (trail, rest) := cutSeparators rest
    (((lead ++ ws ++ trail).map (·.text)).erase separatorText, rest)
  match shape, rest with
  | .command _, .word w :: rest => some ((lead ++ .word w :: rest).map (·.text), [])
  | .one, .word w :: rest => some (single [.word w] rest)
  | .optional, .word w :: rest => some (single [.word w] rest)
  | .optional, rest => some (single [] rest)
  | _, _ => none

/-- What was read: the flags given, the words of the operand once they have
been taken, and the words there was no use for. -/
structure Reading where
  given : List Given := []
  operand : Option (List String) := none
  extras : List String := []
  deriving Repr, DecidableEq

/-- Takes tokens from left to right. Each step takes a token or the operand,
so `fuel` need not exceed their number by more than one. -/
def Grammar.readFrom (g : Grammar) :
    (fuel : Nat) → Reading → List Token → Except Refusal Reading
  | 0, r, _ => .ok r
  | fuel + 1, r, ts =>
    match ts with
    | .flag text none :: rest => g.readFrom fuel { r with extras := r.extras ++ [text] } rest
    | .flag _ (some hit) :: rest => do
      let (given, rest) ← g.takeFlag hit rest
      g.readFrom fuel { r with given := r.given ++ given } rest
    | ts =>
      match if r.operand.isNone then takeOperand g.operand.shape ts else none with
      | some (words, rest) => g.readFrom fuel { r with operand := some words } rest
      | none => match ts with
        | [] => .ok r
        | t :: rest => g.readFrom fuel { r with extras := r.extras ++ [t.text] } rest

/-- Reads a command line. -/
def Grammar.read (g : Grammar) (words : List String) : Except Refusal Reading := do
  let ts ← g.tokens words
  let r ← g.readFrom (ts.length + 2) {} ts
  if r.operand.isNone then
    throw (.fault ("the following arguments are required: " ++ g.operand.name))
  return r

namespace Reading

/-- The last value given for a key: nothing if there is none, and a value
that may itself be missing otherwise. -/
def last? (r : Reading) (key : String) : Option (Option String) :=
  (r.given.reverse.find? (·.key = key)).map (·.value)

/-- The text given for a key. -/
def text? (r : Reading) (key : String) : Option String :=
  (r.last? key).join

/-- Whether a switch was given. -/
def has (r : Reading) (key : String) : Bool :=
  (r.last? key).isSome

end Reading

end Disasm.CommandLine
