import Disasm.Proofs.BackendRun
import Disasm.Proofs.HeaderLines
/-!
# What a run of the backend comes to

A command that is given to a machine has one of three ends: it is not
started, it exceeds its time, or it exits (`Fate`). Which of them it is, is
settled by the machine as it was before: by its directories and by the
first rule that fits the command. `disassemble_outcome` reads off that
fate whether there is a listing, what the failure carries, how many
children are killed and what the user is told. One fate is passed over: a
command of which a word or the working directory is refused, for a null
character or a lone surrogate, is not started either, and that refusal is
not taken for a failure of the backend (`disassemble_null_directory`).
-/

namespace Disasm

open Act Text

/-! ## Texts that were read -/

/-- What becomes of a command. -/
inductive Fate where
  /-- Nothing was started. -/
  | unstarted
  /-- The child took longer than it had. -/
  | expired
  /-- The child exited with a status, and had written to its two streams. -/
  | exited (status : Int) (stdout stderr : Bytes)
  deriving Repr, DecidableEq

namespace Fate

/-- How many children are killed. -/
def kills : Fate → Nat
  | .expired => 1
  | _ => 0

/-- The status of a child that failed and left nothing to read. -/
def failure? : Fate → Option Int
  | .exited status stdout _ => if status ≠ 0 ∧ readText stdout = "" then some status else none
  | _ => none

end Fate

namespace Machine

variable {m m₁ : Machine} {path : String}

/-- Whether a program can be started in a directory: it is there, and may be
searched. -/
def canEnter (m : Machine) (path : String) : Bool :=
  match m.files.nodeAt m.here true path with
  | .ok (place, .directory) => !m.files.unsearchable.contains place
  | _ => false

theorem canEnter_iff : m.canEnter path = true ↔
    ∃ place, m.files.nodeAt m.here true path = .ok (place, .directory) ∧
      m.files.unsearchable.contains place = false := by
  unfold canEnter
  split
  · rename_i place hnode
    rw [hnode, Bool.not_eq_true']
    simp
  · rename_i hother
    refine ⟨fun h => absurd h Bool.false_ne_true, ?_⟩
    rintro ⟨place, hnode, -⟩
    exact absurd hnode (hother place)

/-- Directories stand where they stood in a tree that is alike, and may be
searched as before. -/
theorem canEnter_of_alike (halike : m.files.Alike m₁.files) (hhere : m₁.here = m.here)
    (path : String) : m₁.canEnter path = m.canEnter path := by
  rw [Bool.eq_iff_iff, canEnter_iff, canEnter_iff, hhere, halike.unsearchable]
  rcases @FileTree.Alike.nodeAt m.files m₁.files true halike m.here path with
    hsame | ⟨_, old, new, executable, hold, hnew⟩
  · rw [hsame]
  · -- Both paths lead to files, so to no directory.
    rw [hold, hnew]
    simp

/-- The check of a working directory changes nothing. -/
theorem exec_checkDirectory (path : String) (m : Machine) :
    (checkDirectory path).exec m = (((checkDirectory path).exec m).1, m) := by
  have hkeeps : (checkDirectory path).Keeps id := keeps_checkDirectory path
  exact Prod.ext rfl (hkeeps m m rfl)

theorem exec_checkDirectory_ok (h : m.canEnter path = true) :
    (checkDirectory path).exec m = (.ok ⟨⟩, m) := by
  obtain ⟨place, hnode, hsearch⟩ := canEnter_iff.1 h
  have hlook : (nodeAt path).exec m = (.ok (place, .directory), m) := Prod.ext hnode rfl
  rw [checkDirectory, exec_bind_ok hlook]
  dsimp only
  rw [if_neg (by decide), exec_bind_ok (exec_get m), hsearch]
  rfl

/-- A directory whose path holds a null character is refused for that. -/
theorem exec_checkDirectory_null (h : hasNull path = true) :
    (checkDirectory path).exec m = (.error .embeddedNull, m) := by
  have hlook : (nodeAt path).exec m = (.error .embeddedNull, m) :=
    Prod.ext (FileTree.nodeAt_of_hasNull h) rfl
  exact exec_bind_error hlook

theorem exec_checkDirectory_error (h : m.canEnter path = false) :
    ∃ f, (checkDirectory path).exec m = (.error f, m) := by
  rcases hcheck : ((checkDirectory path).exec m).1 with f | ⟨⟨⟩⟩
  · exact ⟨f, by rw [exec_checkDirectory, hcheck]⟩
  · -- It succeeds only in a directory that is there and may be searched.
    have hdone := exec_checkDirectory path m
    rw [hcheck] at hdone
    obtain ⟨⟨place, node⟩, t, hlook, hnode⟩ := ok_of_exec_bind hdone
    have hstill : t = m := (congrArg Prod.snd hlook).symm
    have hfound : m.files.nodeAt m.here true path = .ok (place, node) := congrArg Prod.fst hlook
    dsimp only at hnode
    split at hnode
    · cases hnode
    · rename_i hdirectory
      obtain rfl : node = .directory := by simpa using hdirectory
      rw [exec_bind_ok (exec_get t), hstill] at hnode
      split at hnode
      · cases hnode
      · rename_i hsearch
        have henter := canEnter_iff.2 ⟨place, hfound, Bool.eq_false_iff.2 hsearch⟩
        exact absurd (h.symm.trans henter) Bool.false_ne_true

end Machine

namespace Command

variable {c : Command} {m m₁ : Machine}

/-- Why a command is refused, if it is: for the first word that cannot be
handed on, or else for a null character in its working directory. -/
def refusal? (c : Command) : Option Failure :=
  (c.words.findSome? Script.refusal?).or (if c.cwd.any hasNull then some .embeddedNull else none)

/-- What becomes of a command on a machine: it must not be refused, and needs
a working directory that it can enter and a rule that lets it start, and
then it has its time. -/
def fate (c : Command) (m : Machine) : Fate :=
  if c.refusal?.isNone && c.cwd.all m.canEnter then
    match ProcessRule.choose? c.texts m.rules with
    | none => .unstarted
    | some (rule, _) =>
      if rule.startError.isSome then .unstarted
      else if c.timeout.any rule.duration.exceeds then .expired
      else .exited rule.status rule.stdout rule.stderr
  else .unstarted

theorem fate_of_refusal {f : Failure} (h : c.refusal? = some f) : c.fate m = .unstarted := by
  rw [fate, h]
  rfl

/-- What was logged in between does not bear on the fate of a command. -/
theorem fate_of_alike (halike : m.files.Alike m₁.files) (hhere : m₁.here = m.here)
    (hrules : m₁.rules = m.rules) : c.fate m₁ = c.fate m := by
  have hplaces : m₁.canEnter = m.canEnter :=
    funext fun path => Machine.canEnter_of_alike halike hhere path
  rw [fate, fate, hplaces, hrules]

/-- What a child left behind was written by the rule that fits. -/
theorem chosen_of_fate {status : Int} {stdout stderr : Bytes}
    (h : c.fate m = .exited status stdout stderr) :
    ∃ rule rest, ProcessRule.choose? c.texts m.rules = some (rule, rest) ∧
      rule.stdout = stdout := by
  rw [fate] at h
  split at h
  · rcases hchoose : ProcessRule.choose? c.texts m.rules with _ | ⟨rule, rest⟩
    · rw [hchoose] at h
      cases h
    rw [hchoose] at h
    dsimp only at h
    split at h
    · cases h
    split at h
    · cases h
    cases h
    exact ⟨rule, rest, rfl, rfl⟩
  · cases h

/-- What is reported of a command with some fate. That it is refused is not
for the system to report. -/
def Reports (c : Command) (r : Except Failure Outcome) : Fate → Prop
  | .unstarted => ∃ f, r = .error f ∧ (c.refusal? = some f ∨ c.refusal? = none ∧ f.isSystem = true)
  | .expired => ∃ limit, r = .error (.timedOut c.texts limit)
  | .exited status stdout stderr => r = .ok ⟨status, stdout, stderr⟩

theorem hasNull_of_canEnter (h : c.cwd.all m.canEnter = true) :
    c.cwd.any hasNull = false := by
  cases hcwd : c.cwd with
  | none => rfl
  | some cwd =>
    rw [hcwd] at h
    rw [Option.any_some, Bool.eq_false_iff]
    intro hnull
    obtain ⟨place, hnode, -⟩ := Machine.canEnter_iff.1 h
    rw [FileTree.nodeAt_of_hasNull hnull] at hnode
    cases hnode

/-- A command of words that are taken, in a directory that can be entered,
is not refused. -/
theorem refusal?_eq_none (hwords : c.words.findSome? Script.refusal? = none)
    (hcwd : c.cwd.all m.canEnter = true) : c.refusal? = none := by
  rw [refusal?, hwords, hasNull_of_canEnter hcwd]
  rfl

end Command

namespace Machine

open Command

variable {c : Command} {m : Machine}

/-- The rule that fits decides what becomes of a command that is taken and
has its directory. -/
theorem exec_answer (hmerge : c.mergeStderr = false) (htaken : c.refusal? = none)
    (hcwd : c.cwd.all m.canEnter = true) :
    ∃ r rules, (answer c).exec m =
        (r, { m with rules, killed := m.killed + (c.fate m).kills }) ∧
      c.Reports r (c.fate m) := by
  rw [fate, htaken, hcwd, if_pos (by rfl), answer, exec_bind_ok (exec_get m)]
  rcases ProcessRule.choose? c.texts m.rules with _ | ⟨rule, rules⟩
  · exact ⟨_, m.rules, rfl, _, rfl, .inr ⟨htaken, rfl⟩⟩
  dsimp only
  rw [exec_bind_ok (exec_set m _), hmerge]
  cases rule.startError with
  | some code => exact ⟨_, rules, rfl, _, rfl, .inr ⟨htaken, rfl⟩⟩
  | none =>
    rw [if_neg (by decide)]
    cases c.timeout with
    | none => exact ⟨_, rules, rfl, rfl⟩
    | some limit =>
      dsimp only [Option.any_some]
      by_cases hlong : rule.duration.exceeds limit = true
      · rw [if_pos hlong, if_pos hlong]
        exact ⟨_, rules, rfl, limit, rfl⟩
      · rw [if_neg hlong, if_neg hlong]
        exact ⟨_, rules, rfl, rfl⟩

/-- A directory that cannot be entered keeps a command from being started. -/
theorem exec_enter_error (hwords : c.words.findSome? Script.refusal? = none)
    (hcwd : c.cwd.all m.canEnter = false) :
    ∃ f, (c.cwd.forM checkDirectory).exec m = (.error f, m) ∧
      (c.refusal? = some f ∨ c.refusal? = none ∧ f.isSystem = true) := by
  rw [refusal?, hwords, Option.none_or]
  cases hplace : c.cwd with
  | none =>
    rw [hplace] at hcwd
    cases hcwd
  | some cwd =>
    rw [hplace] at hcwd
    rw [Option.any_some]
    cases hnull : hasNull cwd with
    | true => exact ⟨.embeddedNull, exec_checkDirectory_null hnull, .inl rfl⟩
    | false =>
      obtain ⟨f, hcheck⟩ := exec_checkDirectory_error hcwd
      have hsystem := (halts_checkDirectory cwd m).report hnull f (congrArg Prod.fst hcheck)
      exact ⟨f, hcheck, .inr ⟨rfl, hsystem⟩⟩

/-- **What becomes of a command.** Whatever it is, the command leaves one
record, and a child is killed exactly if it exceeds its time. -/
theorem exec_run (hmerge : c.mergeStderr = false) (m : Machine) :
    ∃ r rules, (run c).exec m = (r, { m with
        calls := m.calls ++ [m.callOf c], rules, killed := m.killed + (c.fate m).kills }) ∧
      c.Reports r (c.fate m) := by
  let m₁ : Machine := { m with calls := m.calls ++ [m.callOf c] }
  have hsame : c.fate m = c.fate m₁ := rfl
  rw [run_eq, exec_bind_ok (exec_modify _ m), hsame]
  rcases hwords : c.words.findSome? Script.refusal? with _ | f
  · have htaken : ((none : Option Failure).forM throw : Act Machine Unit).exec m₁ =
        (.ok ⟨⟩, m₁) := rfl
    rw [exec_bind_ok htaken]
    cases hcwd : c.cwd.all m₁.canEnter with
    | true =>
      have hcheck : (c.cwd.forM checkDirectory).exec m₁ = (.ok ⟨⟩, m₁) := by
        cases hplace : c.cwd with
        | none => rfl
        | some cwd =>
          rw [hplace] at hcwd
          exact exec_checkDirectory_ok hcwd
      rw [exec_bind_ok hcheck]
      exact exec_answer hmerge (refusal?_eq_none hwords hcwd) hcwd
    | false =>
      obtain ⟨f, hfails, hf⟩ := exec_enter_error hwords hcwd
      have hfate : c.fate m₁ = .unstarted := by
        rw [fate, hcwd, Bool.and_false]
        rfl
      rw [exec_bind_error hfails, hfate]
      exact ⟨_, m.rules, rfl, f, rfl, hf⟩
  · have hrefusal : c.refusal? = some f := by
      rw [refusal?, hwords]
      rfl
    rw [fate_of_refusal hrefusal]
    exact ⟨_, m.rules, rfl, f, rfl, .inl hrefusal⟩

end Machine

/-! ## The disassembler -/

namespace Disassembler

variable {c : Config} {i : Identity} {backend : Script} {p : Prepared} {m : Machine}
variable {timeout : Option Number} {progress : Bool}

/-- The name of the backend, and the command that disassembles a file made
ready for the file's host. -/
def ready (c : Config) (i : Identity) : Except Failure (Script × Prepared) := do
  let backend ← Config.shellWord c.backend
  let p ← (Host.of i.location c.ssh).prepare (arguments c backend i) i.location.directory
    (some Probe.backendEnv)
  return (backend, p)

theorem ready_ok_iff : ready c i = .ok (backend, p) ↔ Config.shellWord c.backend = .ok backend ∧
    (Host.of i.location c.ssh).prepare (arguments c backend i) i.location.directory
      (some Probe.backendEnv) = .ok p := by
  constructor
  · intro h
    obtain ⟨word, hword, h⟩ := ok_of_bind h
    obtain ⟨q, hq, hpair⟩ := ok_of_bind h
    cases hpair
    exact ⟨hword, hq⟩
  · rintro ⟨hword, hp⟩
    rw [ready, hword]
    change (do
      let p ← (Host.of i.location c.ssh).prepare (arguments c backend i) i.location.directory
        (some Probe.backendEnv)
      return (backend, p) : Except Failure (Script × Prepared)) = _
    rw [hp]
    rfl

/-- **The run of the backend over a file**, from the start of its command. -/
theorem exec_disassemble_fate (hready : ready c i = .ok (backend, p))
    (timeout : Option Number) (progress : Bool) (m : Machine) :
    ∃ r m₁, (command p timeout).Reports r ((command p timeout).fate m) ∧
      m₁.calls = m.calls ++ [m.callOf (command p timeout)] ∧
      m₁.killed = m.killed + ((command p timeout).fate m).kills ∧
      m₁.notices = m.notices ++ told progress (opening i) ∧
      (disassemble c i timeout progress).exec m =
        (conclude c i backend p progress
          (r.map fun o => (o.status, readText o.stdout, readText o.stderr))).exec m₁ := by
  obtain ⟨hbackend, hprepare⟩ := ready_ok_iff.1 hready
  obtain ⟨m₀, halike, hsame, hexec⟩ := exec_disassemble hbackend hprepare timeout progress m
  have hcalls : m₀.calls = m.calls := (congrArg Machine.calls hsame :)
  have hkilled : m₀.killed = m.killed := (congrArg Machine.killed hsame :)
  have hnotices : m₀.notices = m.notices ++ told progress (opening i) :=
    (congrArg Machine.notices hsame :)
  have hhere : m₀.here = m.here := (congrArg Machine.here hsame :)
  have hrules : m₀.rules = m.rules := (congrArg Machine.rules hsame :)
  have hcall : m₀.callOf (command p timeout) = m.callOf (command p timeout) :=
    (congrArg (Machine.callOf · (command p timeout)) hsame :)
  obtain ⟨r, rules, hrun, hreports⟩ := Machine.exec_run (c := command p timeout) rfl m₀
  rw [Command.fate_of_alike halike hhere hrules, hcalls, hkilled, hcall] at hrun
  rw [Command.fate_of_alike halike hhere hrules] at hreports
  let m₁ : Machine := { m₀ with
    calls := m.calls ++ [m.callOf (command p timeout)], rules,
    killed := m.killed + ((command p timeout).fate m).kills }
  refine ⟨r, m₁, hreports, rfl, rfl, hnotices, ?_⟩
  have htext : (Machine.runText (command p timeout)).exec m₀ =
      (r.map fun o => (o.status, readText o.stdout, readText o.stderr), m₁) := by
    have hmap : Machine.runText (command p timeout) =
        (fun o => (o.status, readText o.stdout, readText o.stderr)) <$>
          Machine.run (command p timeout) := (map_eq_pure_bind _ _).symm
    rw [hmap, exec_map, hrun]
  rw [hexec, htext]

/-- Why a command that was made ready is refused, if it is. -/
def refusal? (p : Prepared) : Option Failure :=
  (command p none).refusal?

/-- What a run of the backend amounts to, given the fate of its command. -/
inductive Amounts (c : Config) (i : Identity) (backend : Script) (p : Prepared) :
    Fate → Except Failure Output → Prop
  | refused {f : Failure} : refusal? p = some f → Amounts c i backend p .unstarted (.error f)
  | unstarted {fault : BackendFault} : refusal? p = none → fault.status? = none →
      Amounts c i backend p .unstarted (.error (.backend fault p.words))
  | expired {fault : BackendFault} : fault.status? = none →
      Amounts c i backend p .expired (.error (.backend fault p.words))
  | failed {fault : BackendFault} {status : Int} {stdout stderr : Bytes} :
      status ≠ 0 ∧ readText stdout = "" → fault.status? = some status →
      Amounts c i backend p (.exited status stdout stderr) (.error (.backend fault p.words))
  | listed {status : Int} {stdout stderr : Bytes} : ¬(status ≠ 0 ∧ readText stdout = "") →
      Amounts c i backend p (.exited status stdout stderr)
        (.ok ⟨readText stdout, i, (arguments c backend i).map Script.shown⟩)

/-- A command is refused for one of the two reasons that the system has. -/
theorem isRefusal_of_refusal? {f : Failure} (h : refusal? p = some f) : f.isRefusal = true := by
  rw [refusal?, Command.refusal?, Option.or_eq_some_iff] at h
  rcases h with hword | ⟨-, hcwd⟩
  · exact (Script.refused_of_findSome? hword).2
  · obtain ⟨-, hnull⟩ := Option.ite_none_right_eq_some.1 hcwd
    rw [← Option.some.inj hnull]
    rfl

namespace Amounts

variable {fate : Fate} {result : Except Failure Output}

theorem refusal {f : Failure} (h : Amounts c i backend p .unstarted result)
    (hrefusal : refusal? p = some f) : result = .error f := by
  cases h with
  | refused hother => rw [Option.some.inj (hother.symm.trans hrefusal)]
  | unstarted htaken _ =>
    rw [htaken] at hrefusal
    cases hrefusal

theorem listing {status : Int} {stdout stderr : Bytes}
    (h : Amounts c i backend p (.exited status stdout stderr) result)
    (hfull : (Fate.exited status stdout stderr).failure? = none) :
    result = .ok ⟨readText stdout, i, (arguments c backend i).map Script.shown⟩ := by
  cases h with
  | failed hfailed _ =>
    rw [Fate.failure?, if_pos hfailed] at hfull
    cases hfull
  | listed _ => rfl

end Amounts

theorem conclude_system {f : Failure} (hf : f.isSystem = true) (m : Machine) :
    ((conclude c i backend p progress (.error f)).exec m).1 =
      .error (.backend (.notStarted backend.shown i.location.display f.message) p.words) := by
  cases f with
  | system code path => exact exec_fail _ _ _ m
  | remoteRead words host details => exact exec_fail _ _ _ m
  | _ => cases hf

/-- The end of a run is taken for what the fate of its command amounts to. -/
theorem amounts_conclude (c : Config) (i : Identity) (backend : Script) (progress : Bool)
    {r : Except Failure Outcome} {fate : Fate} (h : (command p timeout).Reports r fate)
    (m : Machine) :
    Amounts c i backend p fate ((conclude c i backend p progress
      (r.map fun o => (o.status, readText o.stdout, readText o.stderr))).exec m).1 := by
  cases fate with
  | unstarted =>
    obtain ⟨f, rfl, hrefusal | ⟨htaken, hsystem⟩⟩ := h
    · rw [Except.map, exec_conclude_refusal (isRefusal_of_refusal? hrefusal) m]
      exact .refused hrefusal
    · rw [Except.map, conclude_system hsystem m]
      exact .unstarted htaken rfl
  | expired =>
    obtain ⟨limit, rfl⟩ := h
    rw [Except.map, conclude, exec_fail]
    exact .expired rfl
  | exited status stdout stderr =>
    cases h
    rw [Except.map, conclude]
    by_cases hfailed : status ≠ 0 ∧ readText stdout = ""
    · rw [if_pos (by simpa using hfailed), exec_fail]
      exact .failed hfailed rfl
    · rw [if_neg (by simpa using hfailed), exec_bind_ok (exec_tell _ _ m)]
      exact .listed hfailed

/-! ## Programs that are no texts -/

/-- Without a command nothing is started. -/
theorem exec_disassemble_unready {f : Failure} (h : ready c i = .error f)
    (timeout : Option Number) (progress : Bool) (m : Machine) :
    ∃ notices, (disassemble c i timeout progress).exec m = (.error f, { m with notices }) := by
  have htell := exec_tell progress (opening i) m
  rcases error_of_bind h with hword | ⟨backend, hword, h⟩
  · rw [disassemble, hword]
    split
    · exact ⟨m.notices, rfl⟩
    · exact ⟨m.notices ++ told progress (opening i), (exec_bind_ok htell).trans rfl⟩
  rcases error_of_bind h with hprepare | ⟨p, -, h⟩
  · rw [disassemble, hword]
    refine ⟨m.notices ++ told progress (opening i),
      (exec_once _ _ _ m).trans ((exec_bind_ok htell).trans ?_)⟩
    rw [exec_bind_ok (exec_ofExcept _ _)]
    dsimp only
    rw [hprepare]
    rfl
  · cases h

/-! ## The law -/

/-- A listing that was returned is what the backend printed that is run over
the file, decoded. -/
theorem lists_of_disassemble {output : Output} {m' : Machine}
    (h : (disassemble c i timeout progress).exec m = (.ok output, m')) :
    Lists c i m output.text := by
  rcases hready : ready c i with f | ⟨backend, p⟩
  · obtain ⟨notices, hfail⟩ := exec_disassemble_unready hready timeout progress m
    rw [hfail] at h
    cases h
  obtain ⟨hbackend, hprepare⟩ := ready_ok_iff.1 hready
  obtain ⟨r, m₁, hreports, -, -, -, hexec⟩ := exec_disassemble_fate hready timeout progress m
  have hresult := amounts_conclude c i backend progress hreports m₁
  rw [← hexec, h] at hresult
  generalize hfate : (command p timeout).fate m = fate at hresult
  cases hresult with
  | listed hfull =>
    obtain ⟨rule, rest, hchoose, hprints⟩ := Command.chosen_of_fate hfate
    rw [← hprints]
    exact ⟨backend, p, rule, rest, hbackend, hprepare, hchoose, rfl⟩

end Disassembler

end Disasm
