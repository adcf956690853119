import Disasm.Proofs.Restoring
import Disasm.Proofs.TreeShape
/-!
# The run of the backend — after a file was accepted

A probe that accepts a file has had the backend read its headers, so it is
settled that the backend can be called for and reached. Of the ways in
which disassembling the file can fail two are left: the backend fails, or
an extra argument is refused, for a null character or a lone surrogate
(`ends_of_accepted`). None of the commands that a probe starts disassembles
anything (`not_starts_of_runs`).
-/

namespace Disasm

open Act Text

/-! ## Commands made ready -/

namespace Prepared

/-- Whether a text that is refused keeps a command from being started. -/
def isBarred (p : Prepared) : Bool :=
  p.scripts.any Script.refused || p.cwd.any hasNull

end Prepared

namespace Host

variable {h : Host} {l : Location} {words : List Script} {cwd : String} {p : Prepared}
variable {env : Option (List (String × String))}

/-- A command that can be started on a host can be started there with other
words, unless one of those is refused. -/
theorem prepare_again (hp : h.prepare words cwd env = .ok p) (hfree : p.isBarred = false)
    (other : List Script) :
    ∃ q, h.prepare other cwd env = .ok q ∧ q.isBarred = other.any Script.refused := by
  cases h with
  | here =>
    cases hp
    rw [Prepared.isBarred, Bool.or_eq_false_iff] at hfree
    refine ⟨_, rfl, ?_⟩
    rw [Prepared.isBarred, hfree.2, Bool.or_false]
  | remote own program =>
    rw [prepare_remote] at hp ⊢
    generalize (["sh", "-c", runInScript, "sh", cwd] ++ settingWords (env.getD [])).map
      Script.plain = lead at hp ⊢
    rcases hcommand : sshCommand own program (lead ++ words) with f | command
    · rw [hcommand] at hp
      cases hp
    rw [hcommand] at hp
    cases hp
    obtain ⟨ssh, hssh, hrest⟩ := ok_of_bind hcommand
    obtain ⟨target, htarget, -⟩ := ok_of_bind hrest
    obtain ⟨first, hfirst, hrefused⟩ := refused_sshCommand hssh htarget (lead ++ words)
    obtain ⟨second, hsecond, hrefused'⟩ := refused_sshCommand hssh htarget (lead ++ other)
    cases hcommand.symm.trans hfirst
    refine ⟨⟨second, none, none⟩, by rw [hsecond]; rfl, ?_⟩
    rw [Prepared.isBarred, Option.any_none, Bool.or_false, hrefused] at hfree
    rw [Prepared.isBarred, Option.any_none, Bool.or_false, hrefused']
    simp only [List.any_cons, List.any_append, Bool.or_eq_false_iff] at hfree ⊢
    simp only [hfree, Bool.false_or]

theorem refused_of_prepare (hp : h.prepare words cwd env = .ok p)
    (hfree : p.isBarred = false) : words.any Script.refused = false := by
  obtain ⟨q, hq, hrefused⟩ := prepare_again hp hfree words
  cases hp.symm.trans hq
  exact hrefused.symm.trans hfree

/-- A command is made ready in the same way for each file of a host. -/
theorem prepare_withPath (l : Location) (ssh : Json) (path : String) :
    (Host.of (l.withPath path) ssh).prepare = (Host.of l ssh).prepare := by
  by_cases hremote : l.isRemote = true
  · have hplace : (l.withPath path).isRemote = true := hremote
    rw [Host.of, Host.of, if_pos hremote, if_pos hplace]
    funext words cwd env
    rw [prepare_remote, prepare_remote, sshCommand, sshCommand,
      Location.sshTarget_withPath hremote path]
    rfl
  · have hplace : ¬(l.withPath path).isRemote = true := hremote
    rw [Host.of, Host.of, if_neg hremote, if_neg hplace]

end Host

/-! ## What was asked of the backend -/

theorem ok_of_isNone_toOption {α : Type} {r : Except Failure α}
    (h : r.toOption.isNone = false) : ∃ a, r = .ok a := by
  cases r with
  | error f => cases h
  | ok a => exact ⟨a, rfl⟩

namespace Probe

variable {c : Config} {raw : String} {m m' : Machine} {v : Verdict} {l place : Location}
variable {h : Host} {output : String}

/-- What the backend said of the headers of a file it was asked by a command
of which no word is refused. -/
theorem asked_of_headers (hrun : ((headers c h place).exec m).1 = .ok output) :
    ∃ backend p, Config.shellWord c.backend = .ok backend ∧
      h.prepare (headerWords backend place) place.directory (some backendEnv) = .ok p ∧
      p.isBarred = false := by
  obtain ⟨backend, m₁, hbackend, hrest⟩ := ok_of_exec_bind (Prod.ext hrun rfl)
  obtain ⟨p, m₂, hprepare, hrest⟩ := ok_of_exec_bind hrest
  obtain ⟨reply, m₃, hreply, -⟩ := ok_of_exec_bind hrest
  refine ⟨backend, p, congrArg Prod.fst hbackend, congrArg Prod.fst hprepare, ?_⟩
  rw [Bool.eq_false_iff]
  intro hbarred
  obtain ⟨f, hfail, -⟩ := (Machine.halts_runText (c := headerCommand p) rfl m₂).refusal hbarred
  rw [headerCommand, hreply] at hfail
  cases hfail

/-- **A file is accepted only if the backend was asked for its headers.** -/
theorem asked_of_accepted (hrun : (probe c raw).exec m = (.ok v, m')) (hok : v.reason = .ok) :
    ∃ i backend p, v.identity = some i ∧ Config.shellWord c.backend = .ok backend ∧
      (Host.of i.location c.ssh).prepare (headerWords backend i.location) i.location.directory
        (some backendEnv) = .ok p ∧ p.isBarred = false := by
  obtain ⟨hidentity, hfollows⟩ := follows_probe hrun
  have hpassed := applies_of_firstReason (fun k hk => reason_of_mem_checks hk)
    (hfollows.reason.symm.trans hok)
  simp only [checks, entryChecks, headerChecks, List.mem_cons, List.mem_append, or_imp,
    forall_and, forall_eq] at hpassed
  obtain ⟨hlocation, hentry, -, -, -, -, -, houtput, -⟩ := hpassed
  rw [evidence] at hidentity hlocation hentry houtput
  rcases hread : ((Machine.readLocation raw).exec m).1 with f | l
  · rw [hread] at hlocation
    cases hlocation
  rw [hread] at hidentity hentry houtput
  dsimp only at hidentity hentry houtput
  rw [evidenceAt] at hidentity hentry houtput
  split at hentry
  · rename_i e m₁ hresolve
    rw [hresolve] at hidentity houtput
    obtain ⟨output, hheaders⟩ := ok_of_isNone_toOption houtput
    obtain ⟨backend, p, hbackend, hprepare, hfree⟩ := asked_of_headers hheaders
    rw [← Host.prepare_withPath l c.ssh e.path] at hprepare
    exact ⟨identityOf l e, backend, p, hidentity, hbackend, hprepare, hfree⟩
  · cases hentry

end Probe

/-! ## What is left to fail -/

namespace Machine

variable {c : Command} {m m' : Machine} {o : Outcome}

/-- A command that was answered printed what the rule for it says. -/
theorem answered_of_answer (h : (answer c).exec m = (.ok o, m')) (hlimit : c.timeout = none)
    (hmerge : c.mergeStderr = false) :
    ∃ rule rest, ProcessRule.choose? c.texts m.rules = some (rule, rest) ∧
      o.stdout = rule.stdout := by
  rw [answer, exec_bind_ok (exec_get m)] at h
  rcases hchoose : ProcessRule.choose? c.texts m.rules with _ | ⟨rule, rest⟩
  · rw [hchoose] at h
    cases h
  rw [hchoose] at h
  dsimp only at h
  rw [exec_bind_ok (exec_set m _), hlimit, hmerge] at h
  refine ⟨rule, rest, rfl, ?_⟩
  cases hstart : rule.startError with
  | some code =>
    rw [hstart] at h
    cases h
  | none =>
    rw [hstart] at h
    cases h
    rfl

theorem answered_of_run (h : (run c).exec m = (.ok o, m')) (hlimit : c.timeout = none)
    (hmerge : c.mergeStderr = false) :
    ∃ rule rest, ProcessRule.choose? c.texts m.rules = some (rule, rest) ∧
      o.stdout = rule.stdout := by
  rw [run_eq, exec_bind_ok (exec_modify _ m)] at h
  obtain ⟨_, m₀, hwords, h⟩ := ok_of_exec_bind h
  obtain ⟨_, m₁, hdirectory, h⟩ := ok_of_exec_bind h
  have hsame : ((c.words.findSome? Script.refusal?).forM throw : Act Machine Unit).Keeps rules :=
    fun _ => Preserves.optionForM (fun f => Preserves.throw f) _
  have hkeeps : (c.cwd.forM checkDirectory).Keeps rules := by
    cases c.cwd with
    | none => exact fun _ => Preserves.pure _
    | some cwd => exact keeps_checkDirectory cwd
  have hrules : m₁.rules = m.rules :=
    (hkeeps.eq hdirectory).trans ((hsame.eq hwords).trans rfl)
  rw [← hrules]
  exact answered_of_answer h hlimit hmerge

end Machine

namespace Disassembler

variable {c : Config} {i : Identity} {backend : Script} {p : Prepared} {m : Machine}
variable {progress : Bool}

/-- The command that disassembles a file within a time limit, once it is made
ready for a host. -/
def command (p : Prepared) (timeout : Option Number) : Command :=
  { words := p.scripts, cwd := p.cwd, env := p.env.getD [], timeout }

/-- What the user is told of progress, if that was asked for. -/
def told (progress : Bool) (message : String) : List String :=
  if progress then [message] else []

theorem exec_tell (progress : Bool) (message : String) (m : Machine) :
    (tell progress message).exec m =
      (.ok ⟨⟩, { m with notices := m.notices ++ told progress message }) := by
  cases progress with
  | false =>
    have hnone : m.notices ++ told false message = m.notices := List.append_nil _
    rw [hnone]
    rfl
  | true => rfl

theorem exec_fail (fault : BackendFault) (words : List String) (message : String) (m : Machine) :
    ((fail fault words message).exec m).1 = .error (.backend fault words) := by
  obtain ⟨_, hlog⟩ := Machine.total_log Log.error "services.objdump_runner" message m
  rw [fail, exec_bind_ok (Prod.ext hlog rfl)]
  rfl

/-- A word that can be written is written the same before the first notice and
after it. -/
theorem exec_once (remote : Bool) (word : Script) (x : Act Machine Output) (m : Machine) :
    (if remote then do
      discard (Act.ofExcept (.ok word))
      x else x : Act Machine Output).exec m = x.exec m := by
  split
  · rfl
  · rfl

/-- What the user is told when the backend is started. -/
def opening (i : Identity) : String :=
  "Disassembling " ++ i.location.name ++ "..."

/-- What the user is told when there is a listing. -/
def closing (i : Identity) : String :=
  "Disassembly of " ++ i.location.name ++ " finished."

/-- What the end of the backend's run is taken for. -/
def conclude (c : Config) (i : Identity) (backend : Script) (p : Prepared) (progress : Bool) :
    Except Failure (Int × String × String) → Act Machine Output
  | .error (.timedOut _ limit) =>
    fail (.timedOut backend.shown i.location.display limit.text) p.words
      (backend.shown ++ " timed out after " ++ limit.text ++ "s")
  | .error f => do
    if !f.isSystem then throw f
    fail (.notStarted backend.shown i.location.display f.message) p.words
      ("unable to start " ++ backend.shown ++ ": " ++ f.message)
  | .ok (status, text, errors) =>
    if status ≠ 0 && text.isEmpty then
      let details := if (trim errors).isEmpty then "Unknown error" else trim errors
      fail (.exited backend.shown status details) p.words
        (backend.shown ++ " exited with " ++ toString status ++ ": " ++ details)
    else do
      tell progress (closing i)
      return ⟨text, i, (arguments c backend i).map Script.shown⟩

/-- The backend's run over a file, once its command is made ready. Until it
is started, only the user and the log were told something. -/
theorem exec_disassemble (hword : Config.shellWord c.backend = .ok backend)
    (hprepare : (Host.of i.location c.ssh).prepare (arguments c backend i) i.location.directory
      (some Probe.backendEnv) = .ok p) (timeout : Option Number) (progress : Bool) (m : Machine) :
    ∃ m₁, m.files.Alike m₁.files ∧
      m₁.unlogged = { m with notices := m.notices ++ told progress (opening i) }.unlogged ∧
      (disassemble c i timeout progress).exec m =
        (conclude c i backend p progress ((Machine.runText (command p timeout)).exec m₁).1).exec
          ((Machine.runText (command p timeout)).exec m₁).2 := by
  let m₀ : Machine := { m with notices := m.notices ++ told progress (opening i) }
  let note := Machine.log Log.info "services.objdump_runner"
    ("running " ++ (Shell.line (arguments c backend i)).shown ++ " in " ++ i.location.directory)
  have halike : m.files.Alike (note.exec m₀).2.files :=
    Machine.alike_log m.files _ _ _ m₀ (.refl _)
  have hsame : (note.exec m₀).2.unlogged = m₀.unlogged :=
    Machine.keeps_unlogged _ _ _ m₀.unlogged m₀ rfl
  refine ⟨(note.exec m₀).2, halike, hsame, ?_⟩
  obtain ⟨_, hnote⟩ : ∃ u, (note.exec m₀).1 = .ok u := Machine.total_log _ _ _ m₀
  have htell : (tell progress ("Disassembling " ++ i.location.name ++ "...")).exec m =
      (.ok ⟨⟩, m₀) := exec_tell progress (opening i) m
  rw [disassemble, hword]
  refine (exec_once _ _ _ m).trans ?_
  rw [exec_bind_ok htell, exec_bind_ok (exec_ofExcept _ m₀)]
  dsimp only
  rw [hprepare, exec_bind_ok (exec_ofExcept _ m₀), exec_bind_ok (Prod.ext hnote rfl),
    exec_bind_ok (exec_attempt _ _)]
  rw [conclude.eq_def]
  rfl

/-- That a text is refused is passed on. -/
theorem exec_conclude_refusal {f : Failure} (h : f.isRefusal = true) (m : Machine) :
    ((conclude c i backend p progress (.error f)).exec m).1 = .error f := by
  cases f with
  | embeddedNull => rfl
  | undecodable fault => rfl
  | _ => cases h

/-- **How the backend's run over a file ends** once its command is made
ready: that a text is refused is passed on, and everything else that goes
wrong is a failure of the backend. -/
theorem ends_disassemble (hword : Config.shellWord c.backend = .ok backend)
    (hprepare : (Host.of i.location c.ssh).prepare (arguments c backend i) i.location.directory
      (some Probe.backendEnv) = .ok p) :
    (p.isBarred = true →
      ∃ f, ((disassemble c i none false).exec m).1 = .error f ∧ f.isRefusal = true) ∧
    (p.isBarred = false →
      (∃ fault, ((disassemble c i none false).exec m).1 = .error (.backend fault p.words)) ∨
      ∃ rule rest, ProcessRule.choose? p.words m.rules = some (rule, rest) ∧
        ((disassemble c i none false).exec m).1 =
          .ok ⟨readText rule.stdout, i, (arguments c backend i).map Script.shown⟩) := by
  obtain ⟨m₁, -, hsame, hexec⟩ := exec_disassemble hword hprepare none false m
  have hrules : m₁.rules = m.rules := (congrArg Machine.rules hsame :)
  have hhalts := Machine.halts_runText (c := command p none) rfl m₁
  rw [hexec]
  refine ⟨fun hbarred => ?_, fun hfree => ?_⟩
  · obtain ⟨f, hf, hrefusal⟩ := hhalts.refusal hbarred
    rw [hf]
    exact ⟨f, exec_conclude_refusal hrefusal _, hrefusal⟩
  rcases hrun : (Machine.runText (command p none)).exec m₁ with ⟨f | ⟨status, text, errors⟩, m₂⟩
  · have hsystem := hhalts.report hfree f (congrArg Prod.fst hrun)
    left
    cases f with
    | system code path => exact ⟨_, exec_fail _ _ _ m₂⟩
    | remoteRead words host details => exact ⟨_, exec_fail _ _ _ m₂⟩
    | _ => cases hsystem
  · obtain ⟨o, m₃, hends, htext⟩ := ok_of_exec_bind hrun
    obtain ⟨rule, rest, hchoose, hprints⟩ := Machine.answered_of_run hends rfl rfl
    have hchosen : ProcessRule.choose? p.words m.rules = some (rule, rest) := hrules ▸ hchoose
    cases htext
    rw [hprints]
    dsimp only [conclude]
    split
    · exact .inl ⟨_, exec_fail _ _ _ m₂⟩
    · exact .inr ⟨rule, rest, hchosen, rfl⟩

/-- A text is what the backend prints that is run over a file on a machine,
decoded. -/
def Lists (c : Config) (i : Identity) (m : Machine) (text : String) : Prop :=
  ∃ backend p rule rest, Config.shellWord c.backend = .ok backend ∧
    (Host.of i.location c.ssh).prepare (arguments c backend i) i.location.directory
      (some Probe.backendEnv) = .ok p ∧
    ProcessRule.choose? p.words m.rules = some (rule, rest) ∧ text = readText rule.stdout

/-- **After a file was accepted the backend fails or lists it**, unless an
extra argument is refused. -/
theorem ends_of_accepted {raw : String} {v : Verdict} {m₀ m₁ : Machine}
    (hrun : (Probe.probe c raw).exec m₀ = (.ok v, m₁)) (hv : v.accepted? = some i) (m : Machine) :
    (c.arguments.any Script.refused = true →
      ∃ f, ((disassemble c i none false).exec m).1 = .error f ∧ f.isRefusal = true) ∧
    (c.arguments.any Script.refused = false →
      (∃ fault words, ((disassemble c i none false).exec m).1 = .error (.backend fault words)) ∨
      ∃ output, ((disassemble c i none false).exec m).1 = .ok output ∧
        Lists c i m output.text) := by
  obtain ⟨hok, hidentity⟩ := Option.ite_none_right_eq_some.1 hv
  obtain ⟨j, backend, p, hj, hbackend, hprepare, hfree⟩ :=
    Probe.asked_of_accepted hrun (of_decide_eq_true hok)
  cases hidentity.symm.trans hj
  have hwords := Host.refused_of_prepare hprepare hfree
  obtain ⟨q, hq, hrefused⟩ := Host.prepare_again hprepare hfree (arguments c backend i)
  have hextra : q.isBarred = c.arguments.any Script.refused := by
    have hfixed : Script.refused "-d" = false := by decide
    rw [hrefused, arguments]
    simp only [Probe.headerWords, List.any_cons, List.any_nil, Bool.or_eq_false_iff] at hwords
    simp only [List.cons_append, List.any_cons, List.any_append, List.map_cons, List.map_nil,
      List.any_nil, hwords, hfixed, Bool.false_or, Bool.or_false]
  obtain ⟨hbarred, hopen⟩ := ends_disassemble (m := m) hbackend hq
  rw [hextra] at hbarred hopen
  refine ⟨hbarred, fun hnone => ?_⟩
  rcases hopen hnone with ⟨fault, hfault⟩ | ⟨rule, rest, hchoose, hlisting⟩
  · exact .inl ⟨fault, q.words, hfault⟩
  · exact .inr ⟨_, hlisting, backend, q, rule, rest, hbackend, hq, hchoose, rfl⟩

/-! ## What disassembles -/

/-- A call has the backend disassemble a file of the host of a location. -/
def Starts (c : Config) (l : Location) (call : Call) : Prop :=
  ∃ backend i cwd p, (Host.of l c.ssh).prepare (arguments c backend i) cwd
    (some Probe.backendEnv) = .ok p ∧ call.command = p.words

/-- The two commands of the backend are of different lengths or end
differently, and so they are shown differently. -/
theorem arguments_ne_headerWords (c : Config) (backend name : Script) (i : Identity)
    (place : Location) :
    (arguments c backend i).map Script.shown ≠ (Probe.headerWords name place).map Script.shown := by
  intro h
  have hlength := congrArg List.length h
  have hnone : c.arguments = [] := List.length_eq_zero_iff.1 (by
    simpa [arguments, Probe.headerWords] using hlength)
  simp [arguments, Probe.headerWords, hnone, Script.shown] at h

end Disassembler

theorem Host.Sends.unique {l : Location} {program : String} {words other command : List String}
    (h : Host.Sends l program words command) (h' : Host.Sends l program other command) :
    words = other := by
  obtain ⟨target, line, -, hcommand, hread⟩ := h
  obtain ⟨target', line', -, hcommand', hread'⟩ := h'
  have hends := (List.append_inj' (hcommand.symm.trans hcommand') rfl).2
  cases hends
  exact Except.ok.inj (hread.symm.trans hread')

namespace Probe

variable {c : Config} {l place : Location} {m : Machine} {call : Call} {q : Query}

/-- The words that are sent to have the backend disassemble. -/
theorem sends_of_starts (h : Disassembler.Starts c l call) (hremote : l.isRemote = true) :
    ∃ backend i cwd, Host.Sends l c.ssh.text
      (["sh", "-c", Host.runInScript, "sh", cwd, "env", "LC_ALL=C"] ++
        (Disassembler.arguments c backend i).map Script.shown) call.command := by
  obtain ⟨backend, i, cwd, p, hprepare, hcommand⟩ := h
  rw [Host.of, if_pos hremote, Host.prepare_remote] at hprepare
  obtain ⟨command, hmade, hprepared⟩ := ok_of_bind hprepare
  obtain ⟨ssh, hssh, -⟩ := ok_of_bind hmade
  obtain ⟨_, hready, hsends⟩ := Host.sends_sshCommand hremote hssh "sh"
    (["-c", Host.runInScript, "sh", cwd, "env", "LC_ALL=C"].map .plain ++
      Disassembler.arguments c backend i) ⟨by decide, by decide⟩
  cases hmade.symm.trans hready
  cases hprepared
  refine ⟨backend, i, cwd, ?_⟩
  rw [hcommand, Json.text, Config.script_of_shellWord hssh]
  exact hsends

/-- Nothing is sent to this machine. -/
theorem not_sends_here {program : String} {words command : List String}
    (hlocal : ¬l.isRemote = true) : ¬Host.Sends l program words command := by
  rintro ⟨target, line, htarget, -⟩
  have hhost : l.host = none := by
    simpa [Location.isRemote] using hlocal
  rw [Location.sshTarget, hhost] at htarget
  cases htarget

/-- **Nothing that a probe starts disassembles.** -/
theorem not_starts_of_runs (h : Runs c l place m call q) : ¬Disassembler.Starts c l call := by
  intro hstarts
  by_cases hremote : l.isRemote = true
  · obtain ⟨backend, i, cwd, hsends⟩ := sends_of_starts hstarts hremote
    -- What asks for something else is shorter.
    have hlong : ∀ v w x y z : String,
        ["sh", "-c", Host.runInScript, "sh", cwd, "env", "LC_ALL=C"] ++
          (Disassembler.arguments c backend i).map Script.shown ≠ [v, w, x, y, z] := by
      intro v w x y z hwords
      have hlength := congrArg List.length hwords
      simp at hlength
    cases q with
    | resolve => exact hlong _ _ _ _ _ (hsends.unique h)
    | lookup => exact hlong _ _ _ _ _ (hsends.unique h)
    | start => exact hlong _ _ _ _ _ (hsends.unique h)
    | headers =>
      rw [Runs, if_pos hremote] at h
      exact Disassembler.arguments_ne_headerWords _ _ _ _ _
        (List.append_inj (hsends.unique h) rfl).2
  · obtain ⟨backend, i, cwd, p, hprepare, hcommand⟩ := hstarts
    cases q with
    | resolve => exact not_sends_here hremote h
    | lookup => exact not_sends_here hremote h
    | start => exact not_sends_here hremote h
    | headers =>
      rw [Runs, if_neg hremote] at h
      rw [Host.of, if_neg hremote] at hprepare
      cases hprepare
      rw [h] at hcommand
      exact Disassembler.arguments_ne_headerWords _ _ _ _ _ hcommand.symm

end Probe

end Disasm
