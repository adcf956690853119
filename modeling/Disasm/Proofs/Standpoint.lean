import Disasm.Disassembler
import Disasm.Proofs.Act
/-!
# Standpoints — what the program never changes about its machine

How the name of a file is read depends on the working directory, the
environment and the homes of users. No operation of the program changes
any of these: not logging, not a child process, not a probe and not a run
of the backend, however they end. Logging moreover never fails. The same
goes for every invariant that is `Lasting`, the standpoint being one.
-/

namespace Disasm

open Act

namespace Machine

/-- What the reading of a name depends on: the working directory and whether
it is still there, the environment, and the homes of users. -/
structure Standpoint where
  cwd : String
  adrift : Bool
  env : List (String × String)
  account : Option String
  users : List (String × String)

/-- Where a machine reads names from. -/
def standpoint (m : Machine) : Standpoint :=
  ⟨m.cwd, m.adrift, m.env, m.account, m.users⟩

/-- What a change leaves alone in every state, it keeps. -/
theorem keeps_modify {τ : Type} {aspect : Machine → τ} {f : Machine → Machine}
    (h : ∀ m, aspect (f m) = aspect m) : (modify f : Act Machine PUnit).Keeps aspect := by
  intro v m hm
  exact (h m).trans hm

/-! ## Logging -/

/-- A record can always be written: a sink whose file is gone takes nothing and
does not complain. -/
theorem total_writeTo (r : Log.Record) (k : Sink) : (writeTo r k).Total := by
  cases k with
  | console colored => exact Total.modify _
  | file place =>
    refine Total.get.bind fun m => ?_
    split
    · exact Total.modify _
    · exact Total.pure _

/-- What is preserved by both ways of writing a record is preserved by
delivering it. -/
theorem preserves_deliver_of {I : Machine → Prop} {r : Log.Record}
    (hbare : ∀ s, (printError s).Preserves I) (hsink : ∀ k, (writeTo r k).Preserves I) :
    (deliver r).Preserves I := by
  refine Preserves.get.bind fun m => ?_
  refine Preserves.ite ?_ (Preserves.pure _)
  refine Preserves.ite ?_ (Preserves.forM hsink _)
  exact Preserves.ite (hbare _) (Preserves.pure _)

/-- Delivering a record never fails, whoever listens. -/
theorem total_deliver (r : Log.Record) : (deliver r).Total := by
  refine Total.get.bind fun m => ?_
  refine Total.ite ?_ (Total.pure _)
  refine Total.ite ?_ (Total.forM (fun k => total_writeTo r k) _)
  exact Total.ite (Total.modify _) (Total.pure _)

/-- The console writes to the error stream and a file sink to the files, so
whatever is about neither is left alone when a record is delivered. -/
theorem keeps_deliver {τ : Type} {aspect : Machine → τ}
    (hstderr : ∀ m stderr, aspect { m with stderr } = aspect m)
    (hfiles : ∀ m files, aspect { m with files } = aspect m) (r : Log.Record) :
    (deliver r).Keeps aspect := by
  intro v
  have hbare : ∀ s, (printError s).Preserves (aspect · = v) := fun s =>
    keeps_modify (fun m => hstderr m _) v
  refine preserves_deliver_of hbare fun k => ?_
  cases k with
  | console colored => exact hbare _
  | file place =>
    refine Preserves.get.bind fun m => ?_
    split
    · exact keeps_modify (fun m => hfiles m _) v
    · exact Preserves.pure _

/-- A machine without its log and without the files that may hold it. -/
def unlogged (m : Machine) : Machine :=
  { m with records := [], stderr := "", files := {} }

/-- **Logging never fails.** -/
theorem total_log (level : Int) (component message : String) :
    (log level component message).Total :=
  (Total.modify _).bind fun _ => total_deliver _

/-- **Logging changes the log only.** -/
theorem keeps_unlogged (level : Int) (component message : String) :
    (log level component message).Keeps unlogged := fun v =>
  Preserves.bind (keeps_modify (fun _ => rfl) v) fun _ =>
    keeps_deliver (fun _ _ => rfl) (fun _ _ => rfl) _ v

/-- So logging leaves the standpoint alone, which is no part of the log. -/
theorem keeps_log (level : Int) (component message : String) :
    (log level component message).Keeps standpoint :=
  (keeps_unlogged level component message).through standpoint

/-! ## Files

A look at the files changes nothing at all, so it preserves every
invariant. -/

section Files

variable {I : Machine → Prop}

theorem preserves_nodeAt (path : String) : (nodeAt path).Preserves I :=
  fun _ hm => hm

/-- To read a file is to look at it. -/
theorem preserves_contentOf (path : String) : (contentOf path).Preserves I := by
  refine (preserves_nodeAt path).bind fun found => ?_
  obtain ⟨place, node⟩ := found
  cases node with
  | file content executable =>
    refine Preserves.get.bind fun m => ?_
    exact Preserves.ite ((Preserves.throw _).bind fun _ => Preserves.pure _) (Preserves.pure _)
  | directory => exact Preserves.throw _
  | link target => exact Preserves.throw _

/-- And reading the start of a file. -/
theorem preserves_readStart (path : String) (size : Int) : (readStart path size).Preserves I := by
  refine (preserves_contentOf path).bind fun content => ?_
  exact Preserves.ite (Preserves.throw _) (Preserves.pure _)

/-- Whether a file is a program can be told without running it. -/
theorem preserves_isProgram (path : String) : (isProgram path).Preserves I := by
  refine (preserves_nodeAt path).attempt.bind fun r => ?_
  split
  · exact Preserves.pure _
  · exact Preserves.pure _

/-- To see whether a command could be run in a directory does not enter it. -/
theorem preserves_checkDirectory (path : String) : (checkDirectory path).Preserves I := by
  refine (preserves_nodeAt path).bind fun found => ?_
  refine Preserves.ite (Preserves.throw _) (Preserves.get.bind fun m => ?_)
  exact Preserves.ite (Preserves.throw _) (Preserves.pure _)

theorem keeps_checkDirectory {τ : Type} {aspect : Machine → τ} (path : String) :
    (checkDirectory path).Keeps aspect :=
  fun _ => preserves_checkDirectory path

end Files

/-! ## Child processes -/

/-- What becomes of a command once nothing stands in the way of its start:
the rule that fits it decides. -/
def answer (c : Command) : Act Machine Outcome := do
  let m ← get
  match ProcessRule.choose? c.texts m.rules with
  | none => throw (.system .noEntry (c.texts.headD ""))
  | some (rule, rules) =>
    set { m with rules }
    if let some code := rule.startError then throw (.system code (c.texts.headD ""))
    if let some limit := c.timeout then
      if rule.duration.exceeds limit then
        modify fun m => { m with killed := m.killed + 1 }
        throw (.timedOut c.texts limit)
    return {
      status := rule.status
      stdout := if c.mergeStderr then rule.stdout ++ rule.stderr else rule.stdout
      stderr := if c.mergeStderr then [] else rule.stderr }

/-- A run leaves its record, passes its checks and is answered. -/
theorem run_eq (c : Command) :
    run c = (do
      modify fun m => { m with calls := m.calls ++ [m.callOf c] }
      (c.words.findSome? Script.refusal?).forM throw
      c.cwd.forM checkDirectory
      answer c) := by
  rw [run]
  refine bind_congr fun _ => ?_
  cases c.words.findSome? Script.refusal? with
  | some f => rfl
  | none =>
    cases c.cwd with
    | none => rfl
    | some cwd => rfl

/-- A machine without the rules that tell how commands are answered. -/
def unanswered (m : Machine) : Machine :=
  { m with rules := [], killed := 0 }

/-- An answer uses up a rule, and a command that runs out of time is killed;
that is all. -/
theorem keeps_unanswered (c : Command) : (answer c).Keeps unanswered := by
  intro v m hm
  rw [answer, exec_bind_ok (exec_get m)]
  split
  · exact hm
  · rename_i rule rules _
    rw [exec_bind_ok (exec_set m _)]
    have hset : ({ m with rules } : Machine).unanswered = v := hm
    cases rule.startError with
    | some code => exact hset
    | none =>
      cases c.timeout with
      | none => exact hset
      | some limit =>
        simp only [throw_bind]
        split
        · exact hset
        · exact hset

/-- A machine without what commands leave behind. -/
def unoccupied (m : Machine) : Machine :=
  { m with calls := [], rules := [], killed := 0 }

/-- **A command leaves its traces only.** -/
theorem keeps_unoccupied (c : Command) : (run c).Keeps unoccupied := by
  intro v
  rw [run_eq]
  refine Preserves.bind (keeps_modify (fun _ => rfl) v) fun _ => ?_
  refine Preserves.bind (Preserves.optionForM (fun f => Preserves.throw f) _) fun _ => ?_
  refine Preserves.bind (Preserves.optionForM preserves_checkDirectory _) fun _ => ?_
  exact (keeps_unanswered c).through unoccupied v

/-- The traces of a command are no part of the standpoint. -/
theorem keeps_run (c : Command) : (run c).Keeps standpoint :=
  (keeps_unoccupied c).through standpoint

/-! ## Invariants that last

A probe and a run of the backend act on the machine by logging, by running
commands and by telling the user. What these three preserve, all of it
preserves. -/

/-- An invariant that logging, commands and notices preserve. -/
structure Lasting (I : Machine → Prop) : Prop where
  log : ∀ level component message, (log level component message).Preserves I
  run : ∀ c, (run c).Preserves I
  notices : ∀ m notices, I m → I { m with notices }

/-- **The standpoint lasts.** -/
theorem lasting_standpoint (v : Standpoint) :
    Lasting (standpoint · = v) where
  log level component message := keeps_log level component message v
  run c := keeps_run c v
  notices _ _ hm := hm

/-- A command that is run for its text is no different. -/
theorem Lasting.runText {I : Machine → Prop} (hI : Lasting I) (c : Command) :
    (runText c).Preserves I :=
  (hI.run _).bind fun _ => Preserves.pure _

end Machine

namespace Host

open Machine

section Here

variable {I : Machine → Prop} {τ : Type} {aspect : Machine → τ}

/-- Files of this machine are resolved by looking at them. -/
theorem preserves_resolveHere (path : String) : (resolveHere path).Preserves I := by
  refine Preserves.get.bind fun m => ?_
  refine (Preserves.ofExcept _).bind fun place => ?_
  exact (preserves_nodeAt _).bind fun found => Preserves.pure _

/-- A program of this machine is found by looking along the search path. -/
theorem preserves_whichHere (program : String) : (whichHere program).Preserves I := by
  refine Preserves.get.bind fun m => ?_
  refine Preserves.foldlM (fun found candidate => ?_) _ _
  refine Preserves.ite (Preserves.pure _) ?_
  exact (preserves_isProgram candidate).bind fun _ => Preserves.pure _

theorem preserves_which_here (program : Json) : (which .here program).Preserves I := by
  cases program with
  | str s => exact preserves_whichHere s
  | stray b => exact Preserves.pure _
  | _ => exact Preserves.throw _

/-- So nothing at all changes when a program is looked for here. -/
theorem keeps_which_here (program : Json) : (which .here program).Keeps aspect :=
  fun _ => preserves_which_here program

theorem preserves_resolve_here (l : Location) : (resolve .here l).Preserves I :=
  Preserves.recover ((preserves_resolveHere _).map _) fun _ => Preserves.pure _

/-- Nor does anything when a file is resolved here. -/
theorem keeps_resolve_here (l : Location) : (resolve .here l).Keeps aspect :=
  fun _ => preserves_resolve_here l

end Here

section Lasting

variable {I : Machine → Prop} (hI : Lasting I) (h : Host) (l : Location)

include hI

/-- A script goes on the log and is run. -/
theorem preserves_shell (program : Json) (script : String) (arguments : List Script) :
    (shell l program script arguments).Preserves I := by
  refine (Preserves.ofExcept _).bind fun words => ?_
  exact (hI.log _ _ _).bind fun _ => hI.runText _

/-- What is read from afar is what a command printed. -/
theorem preserves_readRemote (program : Json) (words : List String) :
    (readRemote l program words).Preserves I := by
  refine (Preserves.ofExcept _).bind fun command => ?_
  refine (hI.run _).bind fun o => ?_
  exact Preserves.ite (Preserves.throw _) (Preserves.pure _)

/-- Wherever a file is, resolving it takes no more than logging and a command.
-/
theorem preserves_resolve : (h.resolve l).Preserves I := by
  cases h with
  | here => exact preserves_resolve_here l
  | remote own program =>
    refine (preserves_shell hI own program _ _).attempt.bind fun r => ?_
    rcases r with f | ⟨status, reply, errors⟩
    · refine Preserves.ite (Preserves.throw _) ?_
      exact (hI.log _ _ _).bind fun _ => Preserves.pure _
    · exact Preserves.pure _

/-- So does looking for a program. -/
theorem preserves_which (program : Json) : (h.which program).Preserves I := by
  cases h with
  | here => exact preserves_which_here program
  | remote own ssh =>
    refine Preserves.recover ?_ fun _ => Preserves.pure _
    refine (Preserves.ofExcept _).bind fun name => ?_
    exact (preserves_shell hI own ssh _ _).bind fun _ => Preserves.pure _

/-- And reading the start of a file. -/
theorem preserves_readStart (size : Int) : (h.readStart l size).Preserves I := by
  refine Preserves.ite (Preserves.pure _) ?_
  cases h with
  | here => exact Machine.preserves_readStart _ _
  | remote own program => exact preserves_readRemote hI own program _

/-- And reading all of it. -/
theorem preserves_readBytes : (h.readBytes l).Preserves I := by
  cases h with
  | here => exact preserves_contentOf _
  | remote own program => exact preserves_readRemote hI own program _

end Lasting

variable (h : Host) (l : Location)

theorem keeps_resolve : (h.resolve l).Keeps standpoint :=
  fun v => preserves_resolve (lasting_standpoint v) h l

theorem keeps_which (program : Json) : (h.which program).Keeps standpoint :=
  fun v => preserves_which (lasting_standpoint v) h program

theorem keeps_readStart (size : Int) : (h.readStart l size).Keeps standpoint :=
  fun v => preserves_readStart (lasting_standpoint v) h l size

theorem keeps_readBytes : (h.readBytes l).Keeps standpoint :=
  fun v => preserves_readBytes (lasting_standpoint v) h l

end Host

/-! ## The probe and the disassembler -/

namespace Probe

open Machine

section Lasting

variable {I : Machine → Prop} (hI : Lasting I) (c : Config) (h : Host) (identity : Identity)

include hI

/-- A verdict is logged when it turns a file down. -/
theorem preserves_reject (reason : Reason) (found : Option Identity) (detail : String) :
    (reject reason found detail).Preserves I :=
  (hI.log _ _ _).bind fun _ => Preserves.pure _

/-- The backend is asked for the headers in one run. -/
theorem preserves_queryHeaders : (queryHeaders c h identity).Preserves I := by
  refine (Preserves.ofExcept _).bind fun backend => ?_
  refine (Preserves.ofExcept _).bind fun prepared => ?_
  refine (hI.runText _).attempt.bind fun r => ?_
  rcases r with f | ⟨status, output, errors⟩
  · exact Preserves.ite (preserves_reject hI _ _ _) (Preserves.throw _)
  · refine Preserves.ite (preserves_reject hI _ _ _) ?_
    exact (hI.log _ _ _).bind fun _ => Preserves.pure _

/-- A remote file is sniffed by reading its start, and then the headers are
asked for. -/
theorem preserves_sniffRemote : (sniffRemote c h identity).Preserves I := by
  refine (Host.preserves_readStart hI h _ _).attempt.bind fun r => ?_
  rcases r with f | start
  · exact Preserves.ite (preserves_reject hI _ _ _) (Preserves.throw _)
  · refine Preserves.bind ?_ fun found => ?_
    · exact (Preserves.bind (Preserves.ite (Preserves.pure _) (Preserves.pure _))
        fun _ => Preserves.pure _).bind fun _ => Preserves.pure _
    · exact Preserves.ite (preserves_queryHeaders hI c h identity) (preserves_reject hI _ _ _)

/-- The checks of an entry end in a verdict or go on to the next, up to the
headers. -/
theorem preserves_checkEntry : (checkEntry c h identity).Preserves I := by
  refine (Host.preserves_which hI _ _).bind fun found => ?_
  refine Preserves.ite (preserves_reject hI _ _ _) ?_
  refine Preserves.ite (preserves_reject hI _ _ _) ?_
  refine Preserves.ite (preserves_reject hI _ _ _) ?_
  refine Preserves.ite (preserves_reject hI _ _ _) ?_
  exact Preserves.ite (preserves_sniffRemote hI c h identity)
    (preserves_queryHeaders hI c h identity)

/-- A location is probed by resolving it and checking what is there. -/
theorem preserves_probeAt (l : Location) : (probeAt c l).Preserves I := by
  refine (Host.preserves_resolve hI _ l).bind fun e => ?_
  cases e with
  | none => exact preserves_reject hI _ _ _
  | some e => exact preserves_checkEntry hI c _ _

/-- **What lasts is preserved by a probe.** -/
theorem preserves_probe (raw : String) : (probe c raw).Preserves I := by
  refine Preserves.bind (fun _ hm => hm) fun r => ?_
  rcases r with f | l
  · exact Preserves.ite (preserves_reject hI _ _ _) (Preserves.throw _)
  · exact preserves_probeAt hI c l

end Lasting

end Probe

namespace Disassembler

open Machine

section Lasting

variable {I : Machine → Prop} (hI : Lasting I)

include hI

theorem preserves_tell (progress : Bool) (message : String) :
    (tell progress message).Preserves I :=
  Preserves.ite (fun m hm => hI.notices m _ hm) (Preserves.pure _)

/-- A failure of the backend is logged before it is raised. -/
theorem preserves_fail (fault : BackendFault) (command : List String) (message : String) :
    (fail fault command message).Preserves I :=
  (hI.log _ _ _).bind fun _ => Preserves.throw _

/-- **What lasts is preserved by a run of the backend.** -/
theorem preserves_disassemble (c : Config) (identity : Identity) (timeout : Option Number)
    (progress : Bool) : (disassemble c identity timeout progress).Preserves I := by
  refine Preserves.when ((Preserves.ofExcept _).bind fun _ => Preserves.pure _) ?_
  refine (preserves_tell hI _ _).bind fun _ => ?_
  refine (Preserves.ofExcept _).bind fun backend => ?_
  refine (Preserves.ofExcept _).bind fun prepared => ?_
  refine (hI.log _ _ _).bind fun _ => ?_
  refine (hI.runText _).attempt.bind fun r => ?_
  split
  · exact preserves_fail hI _ _ _
  · exact Preserves.ite (Preserves.throw _) (preserves_fail hI _ _ _)
  · refine Preserves.ite (preserves_fail hI _ _ _) ?_
    exact (preserves_tell hI _ _).bind fun _ => Preserves.pure _

end Lasting

end Disassembler

end Disasm
