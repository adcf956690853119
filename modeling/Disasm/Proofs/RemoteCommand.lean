import Disasm.Proofs.Scripts
import Disasm.Proofs.ShellReading
import Disasm.Proofs.Standpoint
/-!
# Remote commands — what the shell of another host makes of them

A command for another host is handed to ssh as one line, which the shell
of that host reads. `Sends` is what that comes to: the command starts ssh
with its options and the destination, and the line at its end is read as
a plain command of certain words. All five operations of a host send
their words in this way, and each starts one program.
-/

namespace Disasm

open Act

namespace Machine

/-- A run leaves one record, whatever becomes of it. -/
theorem calls_run (c : Command) (m : Machine) :
    ((run c).exec m).2.calls = m.calls ++ [m.callOf c] := by
  have hrest : (do
      (c.words.findSome? Script.refusal?).forM throw
      c.cwd.forM checkDirectory
      answer c : Act Machine Outcome).Keeps calls := by
    intro v
    refine Preserves.bind (Preserves.optionForM (fun f => Preserves.throw f) _) fun _ => ?_
    refine Preserves.bind (Preserves.optionForM preserves_checkDirectory _) fun _ => ?_
    exact (keeps_unanswered c).through calls v
  rw [run_eq, exec_bind_ok (exec_modify _ m)]
  exact hrest _ _ rfl

theorem calls_runText (c : Command) (m : Machine) :
    ((runText c).exec m).2.calls = m.calls ++ [m.callOf { c with text := true }] :=
  Preserves.after (I := fun after : Machine => after.calls = _) (calls_run _ m)
    fun _ => Preserves.pure _

end Machine

theorem Config.shellWord_ofScript (word : Script) : shellWord (.ofScript word) = .ok word := by
  cases word with
  | plain s => rfl
  | broken b => rfl

/-- Only a text can be written as a shell word, and then it is that word. -/
theorem Config.script_of_shellWord {v : Json} {word : Script} (h : shellWord v = .ok word) :
    v.script = word := by
  cases v with
  | str s => exact Except.ok.inj h
  | stray b => exact Except.ok.inj h
  | _ => cases h

namespace Host

open Machine

/-- The words that tell ssh a port. A port of zero is none. -/
def portWords : Option Int → List String
  | none => []
  | some n => if n = 0 then [] else ["-p", toString n]

/-- The words that set variables for a program. -/
def settingWords (env : List (String × String)) : List String :=
  if env.isEmpty then [] else "env" :: env.map fun (k, v) => k ++ "=" ++ v

/-- A command starts ssh so that the shell of the host of a location reads
a plain command of some words. -/
def Sends (l : Location) (program : String) (words command : List String) : Prop :=
  ∃ target line, l.sshTarget = .ok target ∧
    command = [program, "-o", "BatchMode=yes"] ++ portWords l.port ++ [target, "--", line] ∧
    Text.Shell.read line = .ok words

theorem portWords_port (l : Location) :
    portWords l.port = match l.givenPort? with
      | some n => ["-p", toString n]
      | none => [] := by
  rw [Location.givenPort?]
  rcases l.port with _ | n
  · rfl
  · by_cases hn : n = 0
    · simp [portWords, Option.filter_some, hn]
    · simp [portWords, Option.filter_some, hn]

variable {l : Location} {program : Json} {word : Script} {target : String}

/-- A command for ssh is made of the program, its options, the destination and
the line. -/
theorem sshCommand_eq (hprogram : Config.shellWord program = .ok word)
    (htarget : l.sshTarget = .ok target) (words : List Script) :
    sshCommand l program words =
      .ok (word :: (["-o", "BatchMode=yes"] ++ portWords l.port ++ [target, "--"]).map .plain ++
        [Text.Shell.line words]) := by
  rw [sshCommand, hprogram, htarget, portWords_port]
  rfl

/-- **Every command for ssh sends the words it is made for.** -/
theorem sends_sshCommand (hremote : l.isRemote = true)
    (hprogram : Config.shellWord program = .ok word) (w : Script) (ws : List Script)
    (hw : Text.Shell.Names w.shown.toList) :
    ∃ command, sshCommand l program (w :: ws) = .ok command ∧
      Sends l word.shown ((w :: ws).map Script.shown) (command.map Script.shown) := by
  obtain ⟨host, hhost⟩ := Option.isSome_iff_exists.1 hremote
  have htarget : l.sshTarget = .ok (Location.destination l.user host) := by
    rw [Location.sshTarget, hhost]
  refine ⟨_, sshCommand_eq hprogram htarget (w :: ws), _, _, htarget, ?_,
    Text.Shell.read_join w.shown (ws.map Script.shown) hw⟩
  rw [← List.map_cons, ← Text.Shell.shown_line]
  simp [Script.shown]

/-- Of texts such a command is made of texts. -/
theorem exists_sshCommand_plain (hremote : l.isRemote = true) (program : String)
    (words : List String) :
    ∃ command : List String, sshCommand l (.str program) (words.map .plain) =
      .ok (command.map .plain) := by
  obtain ⟨host, hhost⟩ := Option.isSome_iff_exists.1 hremote
  have htarget : l.sshTarget = .ok (Location.destination l.user host) := by
    rw [Location.sshTarget, hhost]
  refine ⟨program :: (["-o", "BatchMode=yes"] ++ portWords l.port ++
    [Location.destination l.user host, "--"]) ++ [Text.Shell.join words], ?_⟩
  rw [sshCommand_eq rfl htarget, Text.Shell.line_plain]
  simp

/-- A command is made ready for a host by handing it to ssh with a directory
and variables in front. -/
theorem prepare_remote (l : Location) (program : Json) (argv : List Script) (cwd : String)
    (env : Option (List (String × String))) :
    prepare (.remote l program) argv cwd env =
      (Prepared.mk · none none) <$> sshCommand l program
        ((["sh", "-c", runInScript, "sh", cwd] ++ settingWords (env.getD [])).map .plain ++
          argv) := by
  -- No variables and none at all are told alike.
  rcases env with _ | _ | ⟨entry, entries⟩
  · exact (map_eq_pure_bind _ _).symm
  · exact (map_eq_pure_bind _ _).symm
  · exact (map_eq_pure_bind _ _).symm

/-! ## What the operations start -/

/-- One program more has been started, and its command sends some words. -/
def Sent (l : Location) (program : String) (words : List String) (before after : List Call) :
    Prop :=
  ∃ call, after = before ++ [call] ∧ Sends l program words call.command

variable {m : Machine} {ssh : String} {words : List String} {before : List Call}

/-- What comes after a program has been started, and starts none itself,
does not undo that it was. -/
theorem Sent.bind {α β : Type} {x : Act Machine α} {f : α → Act Machine β}
    (hx : Sent l ssh words before (x.exec m).2.calls) (hf : ∀ a, (f a).Keeps calls) :
    Sent l ssh words before ((x >>= f).exec m).2.calls :=
  Preserves.after (I := fun m : Machine => Sent l ssh words before m.calls) hx
    fun a => (hf a).preserves (Sent l ssh words before)

/-- A program that is run was started. -/
theorem sent_run {c : Command} (h : Sends l ssh words c.texts) :
    Sent l ssh words m.calls ((run c).exec m).2.calls :=
  ⟨m.callOf c, calls_run c m, h⟩

section Program

variable (hremote : l.isRemote = true) (hprogram : Config.shellWord program = .ok word)

include hremote hprogram

/-- A script is sent with its arguments. -/
theorem sent_shell (script : String) (arguments : List Script) :
    Sent l word.shown (["sh", "-c", script, "sh"] ++ arguments.map Script.shown) m.calls
      ((shell l program script arguments).exec m).2.calls := by
  obtain ⟨command, hcommand, hsends⟩ := sends_sshCommand hremote hprogram "sh"
    (["-c", script, "sh"].map .plain ++ arguments) ⟨by decide, by decide⟩
  have hmade : (ofExcept (sshCommand l program
      (["sh", "-c", script, "sh"].map .plain ++ arguments))).exec m = (.ok command, m) :=
    Prod.ext hcommand rfl
  let note := log Log.debug "services.executors" ("remote: " ++ (Text.Shell.line command).shown)
  have hquiet : (note.exec m).2.calls = m.calls :=
    (keeps_unlogged _ _ _).through calls m.calls m rfl
  obtain ⟨_, hnote⟩ : ∃ u, (note.exec m).1 = .ok u := total_log _ _ _ m
  rw [shell, exec_bind_ok hmade, exec_bind_ok (Prod.ext hnote rfl), ← hquiet]
  exact Sent.bind (sent_run hsends) fun o v => Preserves.pure _

/-- A command that reads a file is sent word for word. -/
theorem sent_readRemote (w : String) (ws : List String) (hw : Text.Shell.Names w.toList) :
    Sent l word.shown (w :: ws) m.calls ((readRemote l program (w :: ws)).exec m).2.calls := by
  obtain ⟨command, hcommand, hsends⟩ := sends_sshCommand hremote hprogram w (ws.map .plain) hw
  have hmade : (ofExcept (sshCommand l program ((w :: ws).map .plain))).exec m = (.ok command, m) :=
    Prod.ext hcommand rfl
  rw [List.map_cons, Script.map_shown_plain] at hsends
  rw [readRemote, exec_bind_ok hmade]
  refine Sent.bind (sent_run hsends) fun o v => ?_
  exact Preserves.ite (Preserves.throw _) (Preserves.pure _)

/-- The command that resolves a path is sent, whatever the reply. -/
theorem sent_resolve (other : Location) :
    Sent l word.shown ["sh", "-c", resolveScript, "sh", other.path] m.calls
      ((resolve (.remote l program) other).exec m).2.calls := by
  refine Sent.bind (sent_shell hremote hprogram resolveScript [other.path]) fun r v => ?_
  rcases r with f | ⟨status, reply, errors⟩
  · refine Preserves.ite (Preserves.throw _) ?_
    refine Preserves.bind ?_ fun _ => Preserves.pure _
    exact (keeps_unlogged _ _ _).through calls v
  · exact Preserves.pure _

/-- The command that looks for a program is sent, whatever the reply. -/
theorem sent_which (backend : Json) {name : Script} (hname : Config.shellWord backend = .ok name) :
    Sent l word.shown ["sh", "-c", whichScript, "sh", name.shown] m.calls
      ((which (.remote l program) backend).exec m).2.calls := by
  have hword : (ofExcept (Config.shellWord backend)).exec m = (.ok name, m) := Prod.ext hname rfl
  refine Sent.bind ?_ fun r v => ?_
  · change Sent l word.shown _ m.calls
      ((ofExcept (Config.shellWord backend) >>= _).exec m).2.calls
    rw [exec_bind_ok hword]
    exact Sent.bind (sent_shell hremote hprogram whichScript [name]) fun r v => Preserves.pure _
  · rcases r with f | found
    · exact Preserves.ite (Preserves.pure _) (Preserves.throw _)
    · exact Preserves.pure _

end Program

/-- **What is sent to a host is read there as it was meant**, word for word
and without any effect of its own: the command that is made ready to run in
a directory, and those that resolve a path, look for a program and read a
file. -/
theorem remote_words_read_back (l : Location) (program : String) (hremote : l.isRemote = true) :
    (∀ (argv : List String) (cwd : String) (env : Option (List (String × String))),
      ∃ command : List String,
        prepare (.remote l (.str program)) (argv.map .plain) cwd env =
          .ok ⟨command.map .plain, none, none⟩ ∧
        Sends l program
          (["sh", "-c", runInScript, "sh", cwd] ++ settingWords (env.getD []) ++ argv) command) ∧
    (∀ (m : Machine) (other : Location),
      Sent l program ["sh", "-c", resolveScript, "sh", other.path] m.calls
        ((resolve (.remote l (.str program)) other).exec m).2.calls) ∧
    (∀ (m : Machine) (name : String),
      Sent l program ["sh", "-c", whichScript, "sh", name] m.calls
        ((which (.remote l (.str program)) (.str name)).exec m).2.calls) ∧
    (∀ (m : Machine) (other : Location) (size : Int),
      if 0 < size then
        Sent l program ["head", "-c", toString size, "--", other.path] m.calls
          ((readStart (.remote l (.str program)) other size).exec m).2.calls
      else (readStart (.remote l (.str program)) other size).exec m = (.ok [], m)) ∧
    (∀ (m : Machine) (other : Location),
      Sent l program ["cat", "--", other.path] m.calls
        ((readBytes (.remote l (.str program)) other).exec m).2.calls) := by
  have hprogram : Config.shellWord (.str program) = .ok ↑program := rfl
  refine ⟨fun argv cwd env => ?_, fun m other => sent_resolve hremote hprogram other,
    fun m name => sent_which hremote hprogram (.str name) rfl, fun m other size => ?_, fun m other => ?_⟩
  · let words := ["sh", "-c", runInScript, "sh", cwd] ++ settingWords (env.getD []) ++ argv
    obtain ⟨command, hcommand⟩ := exists_sshCommand_plain hremote program words
    obtain ⟨_, hsame, hsends⟩ := sends_sshCommand hremote hprogram "sh"
      ((["-c", runInScript, "sh", cwd] ++ settingWords (env.getD []) ++ argv).map .plain)
      ⟨by decide, by decide⟩
    cases hcommand.symm.trans hsame
    rw [List.map_cons, Script.map_shown_plain, Script.map_shown_plain] at hsends
    refine ⟨command, ?_, hsends⟩
    rw [prepare_remote, ← List.map_append]
    exact congrArg ((Prepared.mk · none none) <$> ·) hcommand
  · split
    · rename_i hsize
      rw [readStart, if_neg (by omega)]
      exact sent_readRemote hremote hprogram "head" _ ⟨by decide, by decide⟩
    · rename_i hsize
      rw [readStart, if_pos (by omega)]
      rfl
  · exact sent_readRemote hremote hprogram "cat" _ ⟨by decide, by decide⟩

/-- Quotes, blanks, a substitution and an empty word on their way to a host
with a user and a port. -/
theorem remote_words_read_back_quotes :
    ∃ line : String,
      prepare (.remote { path := "/", host := some "h", user := some "u", port := some 22 }
          (.str "ssh")) (["it's", "$(x) \n", ""].map .plain) "/d" (some [("K", "v w")]) =
        .ok ⟨["ssh", "-o", "BatchMode=yes", "-p", "22", "u@h", "--", line].map .plain,
          none, none⟩ ∧
      Text.Shell.read line =
        .ok ["sh", "-c", runInScript, "sh", "/d", "env", "K=v w", "it's", "$(x) \n", ""] := by
  obtain ⟨command, hprepare, target, line, htarget, rfl, hline⟩ :=
    (remote_words_read_back { path := "/", host := some "h", user := some "u", port := some 22 }
      "ssh" rfl).1 ["it's", "$(x) \n", ""] "/d" (some [("K", "v w")])
  cases htarget
  exact ⟨line, hprepare, hline⟩

end Host

end Disasm
