import Disasm.Proofs.Checks
import Disasm.Proofs.LocalFile
import Disasm.Proofs.NullCharacter
/-!
# How a probe ends

What the system reports, here or on another host, becomes a verdict. That
a text is refused, for a null character or for a lone surrogate, does not:
nothing in a probe expects it. Next to a working directory that is gone it
is the only thing that keeps a probe from returning, and `meetsRefusal` says
when it does: for a file of another host if one of the texts that are
handed on is refused, the path that the host itself replied with included,
and for a file of this machine if resolving it meets a null character.
-/

namespace Disasm

open Act Text

/-! ## How operations end -/

namespace Act

variable {σ α β : Type} {x : Act σ α} {f : α → Act σ β} {s : σ} {blocked : Bool}

/-- An operation that is started in a state returns. -/
def Returns (x : Act σ α) (s : σ) : Prop :=
  ∃ a, (x.exec s).1 = .ok a

/-- An operation that is started in a state fails for a refused text if it is
blocked, and otherwise only as the system reports. -/
structure Halts (blocked : Bool) (x : Act σ α) (s : σ) : Prop where
  refusal : blocked = true → ∃ f, (x.exec s).1 = .error f ∧ f.isRefusal = true
  report : blocked = false → ∀ f, (x.exec s).1 = .error f → f.isSystem = true

/-- An operation that is started in a state fails for a refused text if it is
blocked, and otherwise returns. -/
structure Settles (blocked : Bool) (x : Act σ α) (s : σ) : Prop where
  refusal : blocked = true → ∃ f, (x.exec s).1 = .error f ∧ f.isRefusal = true
  returns : blocked = false → x.Returns s

/-- What returns from every state returns from this one. -/
theorem Total.returns (hx : x.Total) (s : σ) : x.Returns s :=
  hx s

/-- What returns does not fail at all. -/
theorem Returns.halts (hx : x.Returns s) : x.Halts false s := by
  obtain ⟨a, ha⟩ := hx
  refine ⟨fun h => (Bool.false_ne_true h).elim, fun _ f hf => ?_⟩
  rw [ha] at hf
  cases hf

/-- A sequence returns if what follows its first value does. -/
theorem Returns.bind_ok {t : σ} {a : α} (hx : x.exec s = (.ok a, t)) (h : (f a).Returns t) :
    (x >>= f).Returns s := by
  rw [Returns, exec_bind_ok hx]
  exact h

/-- A value is no failure. -/
theorem Halts.returned (a : α) (s : σ) : (pure a : Act σ α).Halts false s where
  refusal h := (Bool.false_ne_true h).elim
  report _ f hf := by cases hf

/-- What the system reports is no refusal. -/
theorem Halts.reported {e : Failure} (he : e.isSystem = true) (s : σ) :
    (throw e : Act σ α).Halts false s where
  refusal h := (Bool.false_ne_true h).elim
  report _ f hf := by
    cases hf
    exact he

/-- A refusal ends what is blocked. -/
theorem Halts.blocked_throw {e : Failure} (he : e.isRefusal = true) (s : σ) :
    (throw e : Act σ α).Halts true s where
  refusal _ := ⟨e, rfl, he⟩
  report h := (Bool.false_ne_true h.symm).elim

/-- A sequence ends as what follows its first value. -/
theorem Halts.bind_ok {t : σ} {a : α} (hx : x.exec s = (.ok a, t)) (h : (f a).Halts blocked t) :
    (x >>= f).Halts blocked s where
  refusal hblocked := by
    rw [exec_bind_ok hx]
    exact h.refusal hblocked
  report hopen := by
    rw [exec_bind_ok hx]
    exact h.report hopen

/-- What is done after an operation is done only if that was not blocked. -/
theorem Halts.bind (hx : x.Halts blocked s)
    (hf : ∀ a t, x.exec s = (.ok a, t) → (f a).Halts false t) : (x >>= f).Halts blocked s := by
  rcases hend : x.exec s with ⟨e | a, t⟩
  · have hfail : (x.exec s).1 = .error e := congrArg Prod.fst hend
    refine ⟨fun hblocked => ?_, fun hopen g hg => ?_⟩
    · obtain ⟨g, hg, hrefusal⟩ := hx.refusal hblocked
      cases hfail.symm.trans hg
      exact ⟨e, by rw [exec_bind_error hend], hrefusal⟩
    · rw [exec_bind_error hend] at hg
      cases hg
      exact hx.report hopen e hfail
  · have hopen : blocked = false := by
      rw [Bool.eq_false_iff]
      intro hblocked
      obtain ⟨g, hg, -⟩ := hx.refusal hblocked
      rw [hend] at hg
      cases hg
    rw [hopen]
    exact .bind_ok hend (hf a t hend)

/-- So it does where all failures are refusals. -/
theorem Settles.bind_ok {t : σ} {a : α} (hx : x.exec s = (.ok a, t))
    (h : (f a).Settles blocked t) : (x >>= f).Settles blocked s where
  refusal hblocked := by
    rw [exec_bind_ok hx]
    exact h.refusal hblocked
  returns hopen := .bind_ok hx (h.returns hopen)

theorem Settles.exec (hx : x.Settles false s) : ∃ a t, x.exec s = (.ok a, t) := by
  obtain ⟨a, ha⟩ := hx.returns rfl
  exact ⟨a, _, Prod.ext ha rfl⟩

end Act

/-! ## Commands -/

namespace Machine

/-- In the way of a lookup is a null character. -/
theorem halts_nodeAt (path : String) (m : Machine) : (nodeAt path).Halts (hasNull path) m := by
  have hlook : ((nodeAt path).exec m).1 = m.files.nodeAt m.here true path := rfl
  refine ⟨fun hnull => ⟨.embeddedNull, ?_, rfl⟩, fun hfree f hf => ?_⟩
  · rw [hlook]
    exact FileTree.nodeAt_of_hasNull hnull
  · rw [hlook] at hf
    exact FileTree.isSystem_of_nodeAt hfree hf

/-- A directory to run in is looked up. -/
theorem halts_checkDirectory (path : String) (m : Machine) :
    (checkDirectory path).Halts (hasNull path) m := by
  refine (halts_nodeAt path m).bind fun found t _ => ?_
  dsimp only
  split
  · exact .reported rfl t
  refine .bind_ok (exec_get t) ?_
  split
  · exact .reported rfl t
  · exact .returned _ t

/-- Without a time limit a command that is answered fails only as the system
reports. -/
theorem halts_answer {c : Command} (hlimit : c.timeout = none) (m : Machine) :
    (answer c).Halts false m := by
  rw [answer]
  refine .bind_ok (exec_get m) ?_
  split
  · exact .reported rfl m
  · rename_i rule rules _
    refine .bind_ok (exec_set m _) ?_
    rw [hlimit]
    cases rule.startError with
    | some code => exact .reported rfl _
    | none => exact .returned _ _

/-- **A command is blocked if one of its words is refused, or by a null
character in its working directory.** -/
theorem halts_run {c : Command} (hlimit : c.timeout = none) (m : Machine) :
    (run c).Halts (c.words.any Script.refused || c.cwd.any hasNull) m := by
  rw [run_eq]
  refine .bind_ok (exec_modify _ m) ?_
  rcases hwords : c.words.findSome? Script.refusal? with _ | f
  · rw [Script.any_refused_eq_false.2 hwords, Bool.false_or]
    refine .bind_ok rfl (.bind ?_ fun _ t _ => halts_answer hlimit t)
    cases c.cwd with
    | none => exact .returned _ _
    | some cwd => exact halts_checkDirectory cwd _
  · obtain ⟨hblocked, hrefusal⟩ := Script.refused_of_findSome? hwords
    rw [hblocked, Bool.true_or]
    exact (Halts.blocked_throw hrefusal _).bind fun _ t ht => by cases ht

/-- In the way of a command are null characters and lone surrogates, in its
words and in its directory. -/
theorem halts_runText {c : Command} (hlimit : c.timeout = none) (m : Machine) :
    (runText c).Halts (c.words.any Script.refused || c.cwd.any hasNull) m := by
  have hrun : (run { c with text := true }).Halts
      (c.words.any Script.refused || c.cwd.any hasNull) m :=
    halts_run (c := { c with text := true }) hlimit m
  exact hrun.bind fun _ t _ => .returned _ t

end Machine

namespace Host

open Machine

variable {l : Location} {target : String} {program : Json} {ssh : Script}

/-- The words for a port are digits and an option. -/
theorem any_hasNull_portWords (port : Option Int) : (portWords port).any hasNull = false := by
  rcases port with _ | n
  · rfl
  rw [portWords]
  split
  · rfl
  · have hoption : hasNull "-p" = false := by decide
    rw [List.any_cons, List.any_cons, hoption, hasNull_toString]
    rfl

/-- The scripts that are run elsewhere hold no null character. -/
theorem hasNull_scripts : hasNull resolveScript = false ∧ hasNull whichScript = false ∧
    hasNull runInScript = false := by
  decide +kernel

section Program

variable (hprogram : Config.shellWord program = .ok ssh) (htarget : l.sshTarget = .ok target)

include hprogram htarget

/-- The command that runs words on another host is refused if one of them is,
or what leads to the host. -/
theorem refused_sshCommand (words : List Script) :
    ∃ command, sshCommand l program words = .ok command ∧
      command.any Script.refused = (ssh :: .plain target :: words).any Script.refused := by
  refine ⟨_, sshCommand_eq hprogram htarget words, ?_⟩
  have hfixed : hasNull "-o" = false ∧ hasNull "BatchMode=yes" = false ∧
      hasNull "--" = false := by decide
  rw [List.any_append, List.any_cons, Script.any_refused_plain]
  simp [any_hasNull_portWords, Text.Shell.refused_line, hfixed, Bool.or_assoc]

/-- So they are when something is read from afar. -/
theorem halts_readRemote (words : List String) (m : Machine) :
    (readRemote l program words).Halts
      (ssh.refused || (target :: words).any hasNull) m := by
  obtain ⟨command, hcommand, hrefused⟩ := refused_sshCommand hprogram htarget (words.map .plain)
  have hblocked : (command.any Script.refused || (none : Option String).any hasNull) =
      (ssh.refused || (target :: words).any hasNull) := by
    rw [hrefused, List.any_cons, ← List.map_cons, Script.any_refused_plain]
    exact Bool.or_false _
  rw [← hblocked]
  refine .bind_ok (Prod.ext hcommand rfl) ?_
  refine (halts_run (c := { words := command, text := false }) rfl m).bind fun o t _ => ?_
  dsimp only
  split
  · exact .reported rfl t
  · exact .returned _ t

end Program

/-- The paths at which a program of this machine may be found. -/
def candidates (m : Machine) (name : String) : List String :=
  if name.toList.contains '/' then [name] else (searchPath m).map (Path.join · name)

end Host

/-! ## Locations -/

namespace Location

variable {f : Failure} {raw scheme : String} {cs : List Char}

theorem isValue_of_checkBracketed (h : checkBracketed cs = .error f) : f.isValue = true := by
  rw [checkBracketed] at h
  split at h
  · split at h
    · cases h
    · cases h
      rfl
  split at h
  · cases h
    rfl
  split at h
  · cases h
  · cases h
    rfl

/-- Brackets in the wrong places make a wrong value. -/
theorem isValue_of_checkBrackets (h : checkBrackets cs = .error f) : f.isValue = true := by
  rw [checkBrackets] at h
  dsimp only at h
  split at h
  · cases h
    rfl
  split at h
  · cases h
  split at h
  · split at h
    · cases h
      rfl
    · exact isValue_of_checkBracketed h
  · exact isValue_of_checkBracketed h

/-- So does a port that cannot be read. -/
theorem isValue_of_readPort (h : readPort cs = .error f) : f.isValue = true := by
  rw [readPort] at h
  split at h
  · cases h
  split at h
  · cases h
    rfl
  split at h
  · cases h
    rfl
  split at h
  · cases h
    rfl
  · cases h

/-- **Whatever is wrong with a URL makes a wrong value.** -/
theorem isValue_of_readRemote {rest : List Char} (h : readRemote raw scheme rest = .error f) :
    f.isValue = true := by
  rw [readRemote] at h
  rcases error_of_bind h with h | ⟨_, -, h⟩
  · exact isValue_of_checkBrackets h
  rcases error_of_bind h with h | ⟨_, -, h⟩
  · rw [checkStable] at h
    split at h
    · cases h
      rfl
    · cases h
  dsimp only at h
  split at h
  · cases h
    rfl
  rcases error_of_bind h with h | ⟨_, -, h⟩
  · exact isValue_of_readPort h
  · cases h

end Location

namespace Path

variable {f : Failure} {s : String}

/-- Only a relative path cannot be made absolute, and only without a working
directory. -/
theorem seenFrom_error_iff {cwd : Option String} :
    seenFrom cwd s = .error f ↔
      cwd = none ∧ Text.startsWith s "/" = false ∧ f = .system .lostDirectory s := by
  rcases cwd with _ | directory
  · rw [seenFrom]
    by_cases hrooted : Text.startsWith s "/" = true
    · simp [hrooted]
    · rw [if_neg hrooted, Except.error.injEq]
      simp [hrooted, eq_comm]
  · simp [seenFrom]

end Path

namespace Machine

variable {m : Machine} {raw : String} {f : Failure}

/-- A text is a path below the working directory, and that has been removed. -/
def Loses (m : Machine) (raw : String) : Prop :=
  m.adrift = true ∧ Location.cutScheme? raw = none ∧
    ∃ path, Path.expandHome m.home m.users raw = .ok path ∧ Text.startsWith path "/" = false

/-- Only a directory that was removed cannot be told. -/
theorem cwd?_eq_none_iff : m.cwd? = none ↔ m.adrift = true := by
  rw [cwd?]
  cases m.adrift with
  | false => simp
  | true => simp

/-- A name that is lost with the directory cannot be read. -/
theorem Loses.exec_readLocation (h : m.Loses raw) :
    ∃ path, (readLocation raw).exec m = (.error (.system .lostDirectory path), m) := by
  obtain ⟨hadrift, hcut, path, hpath, hrelative⟩ := h
  have hseen := Path.seenFrom_error_iff.2
    ⟨cwd?_eq_none_iff.2 hadrift, hrelative, (rfl : Failure.system .lostDirectory path = _)⟩
  refine ⟨path, ?_⟩
  rw [Machine.exec_readLocation, Location.read, hcut]
  dsimp only
  rw [hpath]
  change (Path.seenFrom m.cwd? path >>= _, m) = _
  rw [hseen]
  rfl

end Machine

/-! ## Probes -/

namespace Probe

open Machine

/-- Whether an end is a failure for a null character. -/
def isNull {α : Type} : Except Failure α → Bool
  | .error .embeddedNull => true
  | _ => false

/-- Whether a null character is on the way to a path of this machine. -/
def isBarred (m : Machine) (path : String) : Bool :=
  isNull ((Host.resolveHere path).exec m).1

variable {c : Config} {l : Location} {h : Host} {i : Identity} {e : Entry} {m : Machine}
variable {backend ssh : Script} {target : String}

/-- The entry of a canonical place. -/
def entryAt (m : Machine) (place : Place) : Except Failure Entry :=
  (m.files.nodeAt m.here true place.text).map fun found =>
    match found.2 with
    | .file content _ => ⟨place.text, false, content.length⟩
    | _ => ⟨place.text, true, 0⟩

/-- A path of this machine is resolved to its canonical place, and that to
its entry. -/
theorem exec_resolveHere (path : String) (m : Machine) :
    (Host.resolveHere path).exec m =
      (m.files.canonical m.here (Path.ofString path).text >>= entryAt m, m) := by
  rw [Host.resolveHere, exec_bind_ok (exec_get m)]
  rcases m.files.canonical m.here (Path.ofString path).text with f | place
  · exact exec_bind_error rfl
  have hnode : (nodeAt place.text).exec m = (m.files.nodeAt m.here true place.text, m) := rfl
  have hentry : (Except.ok place >>= entryAt m) = entryAt m place := rfl
  rw [exec_bind_ok (exec_ofExcept _ m), hentry, entryAt]
  rcases hlook : m.files.nodeAt m.here true place.text with f | ⟨found, node⟩
  · rw [hlook] at hnode
    exact exec_bind_error hnode
  · rw [hlook] at hnode
    exact exec_bind_ok hnode

/-- An entry has a path without null characters. -/
theorem hasNull_of_entryAt {place : Place} (h : entryAt m place = .ok e) :
    hasNull e.path = false := by
  rw [entryAt] at h
  rcases hlook : m.files.nodeAt m.here true place.text with f | ⟨found, node⟩
  · rw [hlook] at h
    cases h
  · have hfree := FileTree.hasNull_of_nodeAt hlook
    rw [hlook] at h
    rw [← Except.ok.inj h]
    cases node with
    | directory => exact hfree
    | file content executable => exact hfree
    | link target => exact hfree

theorem nodeAt_of_entryAt {place : Place} {f : Failure} (h : entryAt m place = .error f) :
    m.files.nodeAt m.here true place.text = .error f := by
  rw [entryAt] at h
  rcases hlook : m.files.nodeAt m.here true place.text with e | found
  · rw [hlook] at h
    exact congrArg Except.error (Except.error.inj h)
  · rw [hlook] at h
    cases h

/-- One that is resolved has a path without null characters. -/
theorem hasNull_of_resolveHere {path : String} {t : Machine}
    (h : (Host.resolveHere path).exec m = (.ok e, t)) : hasNull e.path = false := by
  rw [exec_resolveHere, Prod.mk.injEq] at h
  obtain ⟨place, -, hentry⟩ := ok_of_bind h.1
  exact hasNull_of_entryAt hentry

/-- How a location of this machine is resolved, whatever the end. -/
theorem exec_resolve_here (l : Location) (m : Machine) :
    (Host.resolve .here l).exec m =
      match (Host.resolveHere l.path).exec m with
      | (.ok e, t) => (.ok (some e), t)
      | (.error f, t) => if f.isSystem then (.ok none, t) else (.error f, t) := by
  rw [Host.resolve, exec_recover, exec_map]
  rcases (Host.resolveHere l.path).exec m with ⟨f | e, t⟩
  · rfl
  · rfl

end Probe

end Disasm
