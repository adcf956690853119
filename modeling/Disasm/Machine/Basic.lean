import Disasm.Location.Reader
import Disasm.Log.Basic
import Disasm.Machine.Canonical
import Disasm.Machine.Process
/-!
# The machine

All that the program can observe or change outside itself: the working
directory, the environment, the homes of users, the file tree, how child
programs behave, and the streams and log files it writes to. Operations
are state transformers that may fail; what was done before a failure
stays done.
-/

namespace Disasm

/-- An operation on a state that returns a value or fails. A failure keeps
the state reached. -/
abbrev Act (σ α : Type) := ExceptT Failure (StateM σ) α

/-- Where log records go. -/
inductive Sink where
  | console (colored : Bool)
  | file (place : Place)
  deriving Repr, DecidableEq

/-- The state of logging: the level in force, the sinks in use, and those
that the last set-up made. -/
structure Logger where
  level : Log.Level := .number 0
  attached : List Sink := []
  installed : List Sink := []
  deriving Repr, DecidableEq

/-- A lack of room for what is written: a file that is written anew takes so
many bytes, and then the system reports that. -/
structure Shortage where
  room : Nat
  report : Errno := .noSpace
  deriving Repr, DecidableEq

/-- The state of the machine. -/
structure Machine where
  cwd : String
  /-- Whether the working directory has been removed, with nothing put in its
  place. No name can be made in it then, and it cannot be told where it was. -/
  adrift : Bool := false
  env : List (String × String)
  /-- The home of the user as the system's accounts have it, if they do. -/
  account : Option String := none
  users : List (String × String) := []
  /-- The home of the user when the program was started. -/
  firstHome : String := "/home/user"
  files : FileTree
  /-- What keeps a file from being written whole, if anything does. -/
  shortage : Option Shortage := none
  /-- How much deeper values may be nested than settings of the declared types
  are before the stack is used up. That depends on where on the stack the
  program was called. -/
  spare : Nat := 967
  rules : List ProcessRule := []
  /-- The attempts to start a program, in order. -/
  calls : List Call := []
  /-- The log records of the program, in order. -/
  records : List Log.Record := []
  /-- How many children were killed. -/
  killed : Nat := 0
  /-- What the user was told of progress, in order. -/
  notices : List String := []
  stdout : String := ""
  stderr : String := ""
  /-- Whether the error stream is a terminal. -/
  terminal : Bool := false
  /-- What the clock shows in log files. -/
  clock : String := ""
  logger : Logger := {}
  deriving Repr

namespace Act

variable {σ α : Type}

/-- Lifts a result. -/
def ofExcept (r : Except Failure α) : Act σ α :=
  ExceptT.mk (pure r)

/-- Runs an operation and returns how it ended. -/
def attempt (x : Act σ α) : Act σ (Except Failure α) :=
  ExceptT.mk do
    let r ← x.run
    return .ok r

/-- Runs an operation; failures that `forgives` accepts are turned into a
value. -/
def recover (x : Act σ α) (forgives : Failure → Bool) (handle : Failure → Act σ α) : Act σ α := do
  match ← x.attempt with
  | .ok a => return a
  | .error f => if forgives f then handle f else throw f

/-- Runs an operation on a part of the state. -/
def within {τ : Type} (get : σ → τ) (set : σ → τ → σ) (x : Act τ α) : Act σ α :=
  ExceptT.mk fun s =>
    let (r, t) := x.run (get s)
    (r, set s t)

end Act

namespace Machine

/-- A machine with nothing below its root. -/
def bare : Machine where
  cwd := "/"
  env := []
  files := {}

/-- The place of the working directory. -/
def here (m : Machine) : Place :=
  pathNames (Path.normalize m.cwd)

/-- A variable of the environment. -/
def setting? (m : Machine) (name : String) : Option String :=
  m.env.lookup name

/-- The home directory of the user, if it is known: the one the environment
names, or else the one of the account. -/
def home (m : Machine) : Option String :=
  (m.setting? "HOME").or m.account

/-- The path of the working directory, if that is still there. -/
def cwd? (m : Machine) : Option String :=
  if m.adrift then none else some m.cwd

/-- How deep values may be nested. -/
def depth (m : Machine) : Nat :=
  m.spare + 3

/-- Reads a location as a user writes it. -/
def readLocation (raw : String) : Act Machine Location := do
  let m ← get
  Act.ofExcept (Location.read m.cwd? m.home m.users raw)

/-! ## Files -/

/-- What stands at the end of a path, links followed. -/
def nodeAt (path : String) : Act Machine (Place × Node) := do
  let m ← get
  Act.ofExcept (m.files.nodeAt m.here true path)

/-- The content of a file. -/
def contentOf (path : String) : Act Machine Bytes := do
  let (place, node) ← nodeAt path
  match node with
  | .file content _ =>
    if (← get).files.unreadable.contains place then throw (.system .accessDenied path)
    return content
  | _ => throw (.system .isDirectory path)

/-- The largest number of bytes that can be asked of a file. -/
def maxRead : Int := 0x7FFFFFFFFFFFFFFF

/-- The first `size` bytes of a file. -/
def readStart (path : String) (size : Int) : Act Machine Bytes := do
  let content ← contentOf path
  if maxRead < size then throw .sizeOverflow
  return content.take size.toNat

/-- Whether nothing can be made at a path since it starts from a directory that
has been removed. -/
def isStranded (m : Machine) (path : String) : Bool :=
  m.adrift && !Text.startsWith path "/"

/-- Makes a file ready for writing, through links too: the place of the file
and what it holds. A file that is not there is created empty. -/
def openForWriting (path : String) : Act Machine (Place × Bytes) := do
  let m ← get
  match ← Act.ofExcept (m.files.seek m.here true path) with
  | .node place (.file content _) =>
    if m.files.unwritable.contains place then throw (.system .accessDenied path)
    return (place, content)
  | .node _ _ => throw (.system .isDirectory path)
  | .missing parent name =>
    if m.isStranded path then throw (.system .noEntry path)
    if m.files.unwritable.contains parent then throw (.system .accessDenied path)
    let place := parent ++ [name]
    set { m with files := m.files.put place (.file [] false) }
    return (place, [])

/-- Puts a content into the file at a place. -/
def storeAt (place : Place) (content : Bytes) : Act Machine Unit :=
  modify fun m =>
    let executable := match m.files.node? place with
      | some (.file _ executable) => executable
      | _ => false
    { m with files := m.files.put place (.file content executable) }

/-- What keeps a content from being written whole. -/
def shortageFor? (m : Machine) (content : Bytes) : Option Shortage :=
  m.shortage.filter (·.room < content.length)

/-- Writes a file anew. What it held before is gone once it is open, and for
want of room it may then take only the start of its new content. -/
def writeFile (path : String) (content : Bytes) : Act Machine Unit := do
  let (place, _) ← openForWriting path
  match (← get).shortageFor? content with
  | none => storeAt place content
  | some s =>
    storeAt place (content.take s.room)
    throw (.system s.report path)

/-- Makes one directory. -/
def makeDirectory (path : String) : Act Machine Unit := do
  let m ← get
  match ← Act.ofExcept (m.files.seek m.here false path) with
  | .node _ _ => throw (.system .alreadyExists path)
  | .missing parent name =>
    if m.isStranded path then throw (.system .noEntry path)
    if m.files.unwritable.contains parent then throw (.system .accessDenied path)
    set { m with files := m.files.put (parent ++ [name]) .directory }

/-- Whether a report means that there is nothing to find. -/
def isAbsence : Errno → Bool
  | .noEntry | .notDirectory | .linkLoop => true
  | _ => false

/-- What stands at the end of a path, if anything does. A path that cannot
be looked up for another reason fails. -/
def nodeAt? (path : String) : Act Machine (Option Node) := do
  match ← (nodeAt path).attempt with
  | .ok (_, node) => return some node
  | .error (.system code p) =>
    if isAbsence code then return none else throw (.system code p)
  | .error _ => return none

/-- Whether something stands at the end of a path. -/
def existsAt (path : String) : Act Machine Bool :=
  return (← nodeAt? path).isSome

/-- Whether a directory stands at the end of a path. -/
def isDirectoryAt (path : String) : Act Machine Bool :=
  return (← nodeAt? path) == some .directory

/-- Makes a directory whose parents are there; one that is there already is
fine. -/
def makeLast (path : String) : Act Machine Unit :=
  (makeDirectory path).recover Failure.isSystem fun f => do
    if !(← isDirectoryAt path) then throw f

/-- Makes the directory of the first `count` names of a path with its
parents. The parents are tried only if the directory itself cannot be made
for want of them. -/
def makeStart (p : Path) : (count : Nat) → Act Machine Unit
  | 0 => makeLast { p with parts := [] }.text
  | count + 1 => do
    let path := { p with parts := p.parts.take (count + 1) }.text
    match ← (makeDirectory path).attempt with
    | .ok () => return ()
    | .error (.system .noEntry _) =>
      makeStart p count
      makeLast path
    | .error f => if !(f.isSystem && (← isDirectoryAt path)) then throw f

/-- Makes a directory with its parents. -/
def makeDirectories (p : Path) : Act Machine Unit :=
  makeStart p p.parts.length

/-- Whether a program stands at the end of a path. Whatever prevents the
look means no. -/
def isProgram (path : String) : Act Machine Bool := do
  match ← (nodeAt path).attempt with
  | .ok (_, .file _ executable) => return executable
  | _ => return false

/-! ## Logging -/

/-- Appends a text to the error stream. -/
def printError (s : String) : Act Machine Unit :=
  modify fun m => { m with stderr := m.stderr ++ s }

/-- Appends a text to the output stream. -/
def printOut (s : String) : Act Machine Unit :=
  modify fun m => { m with stdout := m.stdout ++ s }

/-- The level that a logger goes by: the one set for the program if that is
not zero, otherwise the warning level. -/
def threshold (m : Machine) (logger : String) : Int :=
  let n := m.logger.level.rank
  if Log.isOwn logger && n ≠ 0 then n else Log.warning

/-- Writes a record to a sink. -/
def writeTo (r : Log.Record) : Sink → Act Machine Unit
  | .console colored => printError (r.consoleLine colored ++ "\n")
  | .file place => do
    let m ← get
    match m.files.node? place with
    | some (.file content _) =>
      storeAt place (content ++ Text.Utf8.encode (r.fileLine m.clock ++ "\n"))
    | _ => return ()

/-- Writes a record where it belongs. Without sinks a record from the
warning level up goes bare to the error stream. -/
def deliver (r : Log.Record) : Act Machine Unit := do
  let m ← get
  if 0 < r.level ∧ m.threshold r.logger ≤ r.level then
    let sinks := if Log.isOwn r.logger then m.logger.attached else []
    if sinks.isEmpty then
      if Log.warning ≤ r.level then printError (r.message ++ "\n")
    else sinks.forM (writeTo r)

/-- Logs a message of one of the program's parts. -/
def log (level : Int) (component message : String) : Act Machine Unit := do
  let r : Log.Record := ⟨level, Log.rootName ++ "." ++ component, message⟩
  modify fun m => { m with records := m.records ++ [r] }
  deliver r

/-! ## Child processes -/

/-- The environment with variables set over it. -/
def overlay (env extra : List (String × String)) : List (String × String) :=
  extra.foldl (fun env (k, v) => env.filter (·.1 ≠ k) ++ [(k, v)]) env

/-- The record of a command. -/
def callOf (m : Machine) (c : Command) : Call where
  command := c.texts
  cwd := c.cwd
  env := if c.env.isEmpty then none
    else some ((overlay m.env c.env).filter fun (k, v) => m.env.lookup k ≠ some v)
  mergeStderr := c.mergeStderr
  text := c.text

/-- Checks that a program can be started in a directory, which must be there
and may be searched. -/
def checkDirectory (path : String) : Act Machine Unit := do
  let (place, node) ← nodeAt path
  if node != .directory then throw (.system .notDirectory path)
  if (← get).files.unsearchable.contains place then throw (.system .accessDenied path)

/-- Runs a command to its end. A child that exceeds the time limit is
killed. -/
def run (c : Command) : Act Machine Outcome := do
  modify fun m => { m with calls := m.calls ++ [m.callOf c] }
  if let some f := c.words.findSome? Script.refusal? then throw f
  if let some cwd := c.cwd then checkDirectory cwd
  let program := c.texts.headD ""
  let m ← get
  match ProcessRule.choose? c.texts m.rules with
  | none => throw (.system .noEntry program)
  | some (rule, rules) =>
    set { m with rules }
    if let some code := rule.startError then throw (.system code program)
    if let some limit := c.timeout then
      if rule.duration.exceeds limit then
        modify fun m => { m with killed := m.killed + 1 }
        throw (.timedOut c.texts limit)
    return {
      status := rule.status
      stdout := if c.mergeStderr then rule.stdout ++ rule.stderr else rule.stdout
      stderr := if c.mergeStderr then [] else rule.stderr }

end Machine

end Disasm
