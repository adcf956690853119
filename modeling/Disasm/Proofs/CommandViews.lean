import Disasm.Proofs.BackendRun
import Disasm.Proofs.Dispatch
import Disasm.Proofs.HeaderLines
import Disasm.Proofs.Streams
/-!
# Views from the command line — three commands, one file

`probe`, `dump` and `symbols` look at a file in three ways: the first asks
whether it can be disassembled, the second prints the listing, the third
goes through a view and prints the symbols of the listing. They agree: a
file that the first turns down, the others turn down for the same reason,
and after a file was accepted the others fail alike or print one listing
(`views_agree`).
-/

namespace Disasm

open Act Text Machine

/-! ## A listing in a view -/

namespace View

variable {P : Type} {c : Config} {path : String} {s : Stage P} {v : Verdict} {m₁ : Machine}

/-- What making ready comes to, given what the probe finds. -/
theorem exec_ready (hprobe : (Probe.probe c path).exec s.machine = (.ok v, m₁)) :
    (ready c path none).exec s =
      match v.accepted? with
      | none => (.ok none, (s.withMachine m₁).withProbe v)
      | some i =>
        match (Disassembler.disassemble c i none false).exec m₁ with
        | (.ok output, m₂) => (.ok (some (i, output)), (s.withProbe v).withMachine m₂)
        | (.error f, m₂) => (.error f, (s.withProbe v).withMachine m₂) := by
  have hfirst : (onMachine (Probe.probe c path)).exec s = (.ok v, s.withMachine m₁) := by
    rw [exec_onMachine, hprobe]
  rw [ready, exec_bind_ok hfirst, exec_bind_ok (exec_modify _ _)]
  cases v.accepted? with
  | none => rfl
  | some i =>
    dsimp only
    rw [exec_bind, exec_onMachine]
    have hmachine : ((s.withMachine m₁).withProbe v).machine = m₁ := rfl
    rw [hmachine]
    rcases (Disassembler.disassemble c i none false).exec m₁ with ⟨f | output, m₂⟩
    · rfl
    · rfl

end View

namespace CommandLine

/-- A command ended with a status and has printed a text on each stream. -/
structure Ends (m : Machine) (e : Ending) (status : Nat) (out err : String) : Prop where
  result : e.result = .ok status
  prints : Prints m out err e.machine

variable {m m₀ m₁ m₂ : Machine} {c : Config} {path : String} {v : Verdict} {i : Identity}
variable {x : Act Machine Nat}

/-! ## How commands end -/

variable {out err : String}

theorem Ending.of_exec {r : Except Failure Nat} {m' : Machine} (h : x.exec m = (r, m')) :
    Ending.of x m = { result := r, machine := m' } := by
  have hrun : x.run.run m = (r, m') := h
  rw [Ending.of, hrun]

theorem exec_reportBackend {status : Nat} {m' : Machine} (hx : x.exec m₀ = (.ok status, m')) :
    (reportBackend x).exec m₀ = (.ok status, m') := by
  rw [reportBackend, exec_recover, hx]

theorem ends_report {status : Nat} {m' : Machine} (hx : x.exec m₀ = (.ok status, m'))
    (hprints : Prints m out err m') : Ends m (Ending.of (reportBackend x) m₀) status out err := by
  rw [Ending.of_exec (exec_reportBackend hx)]
  exact ⟨rfl, hprints⟩

theorem ends_backend {fault : BackendFault} {words : List String}
    (hx : x.exec m₀ = (.error (.backend fault words), m₂)) (hprints : Prints m "" "" m₂) :
    Ends m (Ending.of (reportBackend x) m₀) backendFailed ""
      (programName ++ ": " ++ fault.message ++ "\n") := by
  have hreport : (reportBackend x).exec m₀ = (.ok backendFailed,
      ((printError (programName ++ ": " ++ fault.message ++ "\n")).exec m₂).2) := by
    rw [reportBackend, exec_recover, hx]
    rfl
  rw [Ending.of_exec hreport]
  exact ⟨rfl, hprints.printError _⟩

/-- That a text is refused is not reported. -/
theorem result_of_refusal {f : Failure} (hx : x.exec m₀ = (.error f, m₂))
    (hf : f.isRefusal = true) : (Ending.of (reportBackend x) m₀).result = .error f := by
  have hreport : (reportBackend x).exec m₀ = (.error f, m₂) := by
    rw [reportBackend, exec_recover, hx]
    cases f with
    | embeddedNull => rfl
    | undecodable fault => rfl
    | _ => cases hf
  rw [Ending.of_exec hreport]

/-! ## Commands that need a listing -/

/-- A command that is done for if a file is turned down, and fails as its
listing does. -/
structure Fetches (c : Config) (path : String) (x : Act Machine Nat) : Prop where
  declined : ∀ {m₀ v m₁}, (Probe.probe c path).exec m₀ = (.ok v, m₁) → v.accepted? = none →
    x.exec m₀ = (turnDown path v.reason).exec m₁
  failed : ∀ {m₀ v m₁ i f m₂}, (Probe.probe c path).exec m₀ = (.ok v, m₁) →
    v.accepted? = some i → (Disassembler.disassemble c i none false).exec m₁ = (.error f, m₂) →
    x.exec m₀ = (.error f, m₂)

theorem fetches_dump (c : Config) (path : String) : Fetches c path (dump c path none) where
  declined hprobe hv := by
    rw [dump, exec_bind_ok hprobe, hv]
  failed hprobe hv hlisting := by
    rw [dump, exec_bind_ok hprobe, hv]
    exact exec_bind_error hlisting

/-- The stage on which symbols are listed. -/
def opened (path : String) (m : Machine) : Stage Buffer where
  machine := m
  presenter := { identity := path }

theorem exec_symbols (c : Config) (path : String) (name : Option (Option String)) (m : Machine) :
    (symbols c path name).exec m =
      (((listSymbols c path name).exec (opened path m)).1,
        ((listSymbols c path name).exec (opened path m)).2.machine) := rfl

theorem fetches_symbols (c : Config) (path : String) (name : Option (Option String)) :
    Fetches c path (symbols c path name) where
  declined {m₀ v m₁} hprobe hv := by
    have hready := View.exec_ready (s := opened path m₀) hprobe
    simp only [hv] at hready
    rw [exec_symbols, listSymbols.eq_def]
    dsimp only
    rw [exec_bind_ok (View.exec_setup_declined rfl hready)]
    rfl
  failed {m₀ v m₁ i f m₂} hprobe hv hlisting := by
    have hready := View.exec_ready (s := opened path m₀) hprobe
    simp only [hv, hlisting] at hready
    rw [exec_symbols, listSymbols.eq_def]
    dsimp only
    rw [exec_bind_error (View.exec_setup_unready rfl hready)]
    rfl

/-! ## Symbols of a listing on show -/

variable {s : Stage Buffer} {output : Output}

/-- A listing is on show, and the machine has printed some texts. -/
structure Showing (m : Machine) (out err : String) (i : Identity) (s : Stage Buffer) : Prop where
  prints : Prints m out err s.machine
  session : ∃ e, s.view.session = some e ∧ e.state = .active ∧ e.original = i

theorem Showing.teardown (h : Showing m out err i s) :
    ∃ t, (View.teardown (Buffer.presenter fun _ => pure [])).exec s = (.ok (), t) ∧
      Prints m out err t.machine := by
  obtain ⟨e, hs, he, rfl⟩ := h.session
  have hback := Buffer.exec_putBack (fun _ => pure []) e.original (View.leaving s e)
  refine ⟨_, View.exec_teardown_ok hs he hback, ?_⟩
  exact h.prints.log_lines _ _ _ (.inr (by decide))

/-- **A listing that was made is put on show.** -/
theorem showing_setup (hprobe : (Probe.probe c path).exec m₀ = (.ok v, m₁))
    (hv : v.accepted? = some i)
    (hlisting : (Disassembler.disassemble c i none false).exec m₁ = (.ok output, m₂))
    (hmarker : Path.isSuffix c.marker.toList = true) (hprints : Prints m out err m₂) :
    ∃ s, (View.setup (Buffer.presenter fun _ => pure []) c path none).exec (opened path m₀) =
        (.ok true, s) ∧
      Prints m out err s.machine ∧ s.view.session = some { original := i, output } := by
  have hready := View.exec_ready (s := opened path m₀) hprobe
  simp only [hv, hlisting] at hready
  have hpresent := Buffer.exec_present (fun _ => pure []) c.marker i output.text
    (((opened path m₀).withProbe v).withMachine m₂)
  obtain ⟨name, hname⟩ : ∃ name, i.location.viewName c.marker = .ok name := by
    rw [Location.viewName, Location.withSuffix, if_pos hmarker]
    split
    · exact ⟨_, rfl⟩
    · exact ⟨_, rfl⟩
  rw [hname] at hpresent
  have hshow := View.exec_showListing_ok hpresent
  have hsetup := (View.exec_setup_free rfl).trans ((exec_bind_ok hready).trans (exec_bind_ok hshow))
  refine ⟨_, hsetup, ?_, rfl⟩
  exact hprints.log_lines _ _ _ (.inr (by decide))

/-- The line of a symbol in a list of symbols. -/
def row (entry : Int × String) : String :=
  Numeral.padLeft 16 '0' (Numeral.hexDigits entry.1) ++ " " ++ entry.2 ++ "\n"

theorem exec_symbols_new (hs : s.view.session = some { original := i, output }) :
    (View.symbols : Act (Stage Buffer) SymbolTable).exec s =
      (.ok (Listing.index output.text), s.withSession
        (some { original := i, output, symbols := some (Listing.index output.text) })) := by
  rw [View.symbols, exec_bind_ok (View.exec_activeSession hs rfl)]
  rfl

/-- Rows are printed one behind the other. -/
theorem exec_printRows (entries : List (Int × String)) (s : Stage Buffer) :
    (forIn entries PUnit.unit fun entry _ => do
      View.onMachine (printOut (row entry))
      pure (ForInStep.yield PUnit.unit) : Act (Stage Buffer) PUnit).exec s =
      (.ok ⟨⟩, ((View.onMachine (printOut (String.join (entries.map row)))).exec s).2) := by
  induction entries generalizing s with
  | nil =>
    have hnothing : (printOut "").exec s.machine = (.ok (), s.machine) := by
      rw [printOut, exec_modify, String.append_empty]
    rw [List.forIn_nil, List.map_nil, String.join_nil, View.exec_onMachine, hnothing]
    rfl
  | cons entry entries ih =>
    rw [List.forIn_cons, bind_assoc]
    refine (exec_bind_ok (View.exec_onMachine _ s)).trans ?_
    refine (ih _).trans ?_
    -- What is printed in two goes is printed in one.
    have hjoined : ((printOut (String.join (entries.map row))).exec
        ((printOut (row entry)).exec s.machine).2).2 =
          ((printOut (String.join ((entry :: entries).map row))).exec s.machine).2 := by
      rw [List.map_cons, String.join_cons]
      simp only [printOut, exec_modify, String.append_assoc]
    exact congrArg (fun m => (Except.ok PUnit.unit, s.withMachine m)) hjoined

/-- **Listing the symbols prints their rows by address.** -/
theorem showing_printSymbols (hs : s.view.session = some { original := i, output })
    (hprints : Prints m "" "" s.machine) :
    ∃ t, printSymbols.exec s = (.ok 0, t) ∧
      Showing m (String.join ((Listing.index output.text).byAddress.1.map row)) "" i t := by
  rw [printSymbols, View.byAddress]
  simp only [bind_assoc]
  rw [exec_bind_ok (exec_symbols_new hs)]
  refine ⟨_, (exec_bind_ok (exec_modify _ _)).trans ((exec_bind_ok (exec_pure _ _)).trans
    (exec_bind_ok (exec_printRows _ _))), ?_, ?_⟩
  · exact hprints.printOut _
  · exact ⟨_, rfl, rfl, rfl⟩

theorem showing_printSymbol (hs : s.view.session = some { original := i, output })
    (hprints : Prints m "" "" s.machine) (name : String) :
    match (Listing.index output.text).address? name with
    | some address => ∃ t, (printSymbol (some name)).exec s = (.ok 0, t) ∧
        Showing m ("0x" ++ Numeral.hexDigits address ++ "\n") "" i t
    | none => ∃ t, (printSymbol (some name)).exec s = (.ok rejected, t) ∧
        Showing m "" (name ++ ": no such symbol\n") i t := by
  have haddress := exec_bind_ok (f := fun t : SymbolTable => pure (t.address? name))
    (exec_symbols_new hs)
  rw [printSymbol, View.addressOf]
  split
  · rename_i address hfound
    rw [hfound] at haddress
    refine ⟨_, (exec_bind_ok haddress).trans (exec_bind_ok (View.exec_onMachine _ _)), ?_, ?_⟩
    · exact hprints.printOut _
    · exact ⟨_, rfl, rfl, rfl⟩
  · rename_i hmissing
    rw [hmissing] at haddress
    refine ⟨_, (exec_bind_ok haddress).trans (exec_bind_ok (View.exec_onMachine _ _)), ?_, ?_⟩
    · exact hprints.printError _
    · exact ⟨_, rfl, rfl, rfl⟩

/-- What is asked about a listing on show: a symbol, or all of them. -/
def ask : Option (Option String) → Act (Stage Buffer) Nat
  | some name => printSymbol name
  | none => printSymbols

/-- What is printed of a listing on show stays once it is torn down. -/
theorem ends_symbols (name : Option (Option String)) {status : Nat}
    (hsetup : (View.setup (Buffer.presenter fun _ => pure []) c path none).exec (opened path m₀) =
      (.ok true, s))
    (hprint : ∃ t, (ask name).exec s = (.ok status, t) ∧ Showing m out err i t) :
    Ends m (Ending.of (perform c (.symbols path name)) m₀) status out err := by
  obtain ⟨t, hprint, hshowing⟩ := hprint
  obtain ⟨u, hteardown, hprints⟩ := hshowing.teardown
  have hlist : (listSymbols c path name).exec (opened path m₀) = (.ok status, u) := by
    rw [listSymbols.eq_def]
    dsimp only
    rw [exec_bind_ok hsetup]
    refine (exec_bind_ok (exec_attempt (ask name) s)).trans ?_
    rw [hprint, exec_bind_ok hteardown]
    rfl
  have hsymbols : (symbols c path name).exec m₀ = (.ok status, u.machine) := by
    rw [exec_symbols, hlist]
  exact ends_report hsymbols hprints

/-! ## From the words of a command line -/

section Words

variable {settings store : Path} {inv : Invocation} {words : List String} {task : Task}

theorem run_of_understand (hsettings : (Settings.defaultPath.exec m).1 = .ok settings)
    (hwords : understand settings.text words = .ok { inv with task })
    (hprepare : (prepare inv).exec m = (.ok (store, c), m₀))
    (htask : ∀ path, task ≠ .window path) : run words m = Ending.of (perform c task) m₀ := by
  have hstill : (Settings.defaultPath.exec m).2 = m :=
    Settings.preserves_defaultPath (I := (· = m)) m rfl
  have hdefault : Settings.defaultPath.run.run m = (.ok settings, m) := Prod.ext hsettings hstill
  have hready : (prepare { inv with task }).run.run m = (.ok (store, c), m₀) := hprepare
  rw [run, hdefault]
  dsimp only
  rw [hwords]
  dsimp only
  rw [carryOut, hready]
  dsimp only
  cases task with
  | window path => exact absurd rfl (htask path)
  | _ => rfl

end Words

theorem exec_probe (hprobe : (Probe.probe c path).exec m₀ = (.ok v, m₁)) :
    (probe c path).exec m₀ = (.ok (if v.accepted then 0 else rejected),
      ((printOut (v.reason.text ++ "\n")).exec m₁).2) := by
  rw [probe, exec_bind_ok hprobe]
  rfl

/-- A command has turned a file of the host of a location down: it told why,
and started nothing that disassembles. -/
structure Declines (c : Config) (l : Location) (m : Machine) (path : String) (reason : Reason)
    (e : Ending) : Prop where
  ends : Ends m e rejected "" (path ++ ": " ++ reason.text ++ "\n")
  idle : ∃ started, e.machine.calls = m.calls ++ started ∧
    ∀ call ∈ started, ¬Disassembler.Starts c l call

/-- **A file that the probe turns down is turned down**, with the reason of
the probe and by what the probe has started. -/
theorem declines_of_probe (hprobe : (Probe.probe c path).exec m₀ = (.ok v, m₁))
    (hv : v.accepted? = none) (hprints : Prints m "" "" m₁) (hcalls : m₀.calls = m.calls)
    (hx : Fetches c path x) :
    Declines c (Probe.evidence c path m₀).named m path v.reason
      (Ending.of (reportBackend x) m₀) := by
  have hdown : x.exec m₀ = (.ok rejected,
      ((printError (path ++ ": " ++ v.reason.text ++ "\n")).exec m₁).2) := hx.declined hprobe hv
  refine ⟨ends_report hdown (hprints.printError _), ?_⟩
  obtain ⟨-, -, started, hstarted, hruns⟩ := Probe.follows_probe hprobe
  have hneither := hruns.imp fun call query hrun => And.intro (Probe.not_starts_of_runs hrun) hrun
  rw [Ending.of_exec (exec_reportBackend hdown)]
  exact ⟨started, hcalls ▸ hstarted, ((List.forall₂_and_left _ _).1 hneither).1⟩

/-- **After a file was accepted**, what the two other commands print is
taken from one listing. -/
theorem ends_of_listing (hprobe : (Probe.probe c path).exec m₀ = (.ok v, m₁))
    (hv : v.accepted? = some i)
    (hlisting : (Disassembler.disassemble c i none false).exec m₁ = (.ok output, m₂))
    (hmarker : Path.isSuffix c.marker.toList = true) (hprints : Prints m "" "" m₂) :
    Ends m (Ending.of (perform c (.dump path none)) m₀) 0 output.text "" ∧
    (∃ entries : List (Int × String), entries.Pairwise SymbolTable.Before ∧
      (∀ address name, (address, name) ∈ entries ↔
        (Listing.index output.text).address? name = some address) ∧
      Ends m (Ending.of (perform c (.symbols path none)) m₀) 0 (String.join (entries.map row)) "") ∧
    ∀ name, match (Listing.index output.text).address? name with
      | some address => Ends m (Ending.of (perform c (.symbols path (some (some name)))) m₀) 0
          ("0x" ++ Numeral.hexDigits address ++ "\n") ""
      | none => Ends m (Ending.of (perform c (.symbols path (some (some name)))) m₀) rejected ""
          (name ++ ": no such symbol\n") := by
  obtain ⟨s, hsetup, hshown, hsession⟩ := showing_setup hprobe hv hlisting hmarker hprints
  refine ⟨?_, ?_, fun name => ?_⟩
  · have hdump : (dump c path none).exec m₀ = (.ok 0, ((printOut output.text).exec m₂).2) := by
      rw [dump, exec_bind_ok hprobe, hv]
      dsimp only
      rw [exec_bind_ok hlisting]
      rfl
    exact ends_report hdump (hprints.printOut _)
  · have hends := ends_symbols none hsetup (showing_printSymbols hsession hshown)
    rw [Listing.index_eq] at hends ⊢
    rw [SymbolTable.byAddress_addAll] at hends
    have hnodup := SymbolTable.nodup_addAll (Listing.announced output.text)
    exact ⟨_, SymbolTable.strict_sorted hnodup, fun address name => SymbolTable.mem_sorted hnodup _,
      hends⟩
  · have hprint := showing_printSymbol hsession hshown name
    cases hfound : (Listing.index output.text).address? name with
    | none =>
      rw [hfound] at hprint
      exact ends_symbols (some (some name)) hsetup hprint
    | some address =>
      rw [hfound] at hprint
      exact ends_symbols (some (some name)) hsetup hprint

/-- **What is left to go wrong after a file was accepted** befalls every
command that needs the listing. -/
theorem ends_of_accepted (hprobe : (Probe.probe c path).exec m₀ = (.ok v, m₁))
    (hv : v.accepted? = some i) (hprints : Prints m "" "" m₁) :
    if c.arguments.any Script.refused then
      ∃ f : Failure, f.isRefusal = true ∧
        ∀ x, Fetches c path x → (Ending.of (reportBackend x) m₀).result = .error f
    else
      (∃ message, ∀ x, Fetches c path x → Ends m (Ending.of (reportBackend x) m₀) backendFailed ""
        (programName ++ ": " ++ message ++ "\n")) ∨
      ∃ output m₂, (Disassembler.disassemble c i none false).exec m₁ = (.ok output, m₂) ∧
        Disassembler.Lists c i m₁ output.text ∧ Prints m "" "" m₂ := by
  obtain ⟨hrefused, hopen⟩ := Disassembler.ends_of_accepted hprobe hv m₁
  have hprinted := Disassembler.preserves_disassemble (lasting_prints m "") c i none false m₁
    hprints
  rcases hlisting : (Disassembler.disassemble c i none false).exec m₁ with ⟨r, m₂⟩
  rw [hlisting] at hrefused hopen hprinted
  split
  · rename_i hextra
    obtain ⟨f, hf, hrefusal⟩ := hrefused hextra
    cases hf
    exact ⟨f, hrefusal, fun x hx => result_of_refusal (hx.failed hprobe hv hlisting) hrefusal⟩
  · rename_i hextra
    rcases hopen (Bool.eq_false_iff.2 hextra) with ⟨fault, words, hfault⟩ | ⟨output, houtput, htext⟩
    · cases hfault
      refine .inl ⟨fault.message, fun x hx => ?_⟩
      exact ends_backend (hx.failed hprobe hv hlisting) hprinted
    · cases houtput
      exact .inr ⟨output, m₂, rfl, htext, hprinted⟩

/-! ## Three commands about one file -/

/-- The words of four command lines that ask about one file, and about one
name in its listing, with the same options and at the default level of the
log; and what the options come to on a machine. -/
structure Invocations (m : Machine) (path name : String) where
  probing : List String
  dumping : List String
  listing : List String
  naming : List String
  options : Invocation
  /-- Where the settings are if the options do not say. -/
  settings : Path
  store : Path
  config : Config
  /-- The machine once the settings are loaded and the log is set up. -/
  prepared : Machine
  found : (Settings.defaultPath.exec m).1 = .ok settings
  probes : understand settings.text probing = .ok { options with task := .probe path }
  dumps : understand settings.text dumping = .ok { options with task := .dump path none }
  lists : understand settings.text listing = .ok { options with task := .symbols path none }
  names : understand settings.text naming =
    .ok { options with task := .symbols path (some (some name)) }
  level : options.logLevel = some "warning"
  prepares : (prepare options).exec m = (.ok (store, config), prepared)

namespace Invocations

variable {name : String} (calls : Invocations m path name)

/-- The command lines that need the listing. -/
def others : List (List String) :=
  [calls.dumping, calls.listing, calls.naming]

/-- The commands print a listing: `dump` its text, `symbols` its symbols by
address and name, and `symbols --name` the address of the one of that name. -/
structure Print (text : String) : Prop where
  dump : Ends m (run calls.dumping m) 0 text ""
  symbols : ∃ entries : List (Int × String), entries.Pairwise SymbolTable.Before ∧
    (∀ address name, (address, name) ∈ entries ↔
      (Listing.index text).address? name = some address) ∧
    Ends m (run calls.listing m) 0 (String.join (entries.map row)) ""
  symbol : match (Listing.index text).address? name with
    | some address => Ends m (run calls.naming m) 0 ("0x" ++ Numeral.hexDigits address ++ "\n") ""
    | none => Ends m (run calls.naming m) rejected "" (name ++ ": no such symbol\n")

theorem run_probing : run calls.probing m = Ending.of (perform calls.config (.probe path))
    calls.prepared :=
  run_of_understand calls.found calls.probes calls.prepares fun _ => Task.noConfusion

theorem run_dumping : run calls.dumping m = Ending.of (perform calls.config (.dump path none))
    calls.prepared :=
  run_of_understand calls.found calls.dumps calls.prepares fun _ => Task.noConfusion

theorem run_listing : run calls.listing m = Ending.of (perform calls.config (.symbols path none))
    calls.prepared :=
  run_of_understand calls.found calls.lists calls.prepares fun _ => Task.noConfusion

theorem run_naming : run calls.naming m =
    Ending.of (perform calls.config (.symbols path (some (some name)))) calls.prepared :=
  run_of_understand calls.found calls.names calls.prepares fun _ => Task.noConfusion

/-- What holds of every command that needs the listing holds of the three. -/
theorem forall_others {Q : Ending → Prop}
    (hQ : ∀ x, Fetches calls.config path x → Q (Ending.of (reportBackend x) calls.prepared)) :
    ∀ words ∈ calls.others, Q (run words m) := by
  intro words hwords
  simp only [others, List.mem_cons, List.not_mem_nil, or_false] at hwords
  rcases hwords with rfl | rfl | rfl
  · rw [run_dumping]
    exact hQ _ (fetches_dump _ path)
  · rw [run_listing]
    exact hQ _ (fetches_symbols _ path none)
  · rw [run_naming]
    exact hQ _ (fetches_symbols _ path (some (some name)))

/-- **After a file was accepted** the other commands fail alike or print one
listing. -/
theorem accepted (hprobe : (Probe.probe calls.config path).exec calls.prepared = (.ok v, m₁))
    (hv : v.accepted? = some i) (hprints : Prints m "" "" m₁)
    (hmarker : Path.isSuffix calls.config.marker.toList = true) :
    if calls.config.arguments.any Script.refused then
      ∃ f : Failure, f.isRefusal = true ∧ ∀ words ∈ calls.others, (run words m).result = .error f
    else
      (∃ message, ∀ words ∈ calls.others,
        Ends m (run words m) backendFailed "" (programName ++ ": " ++ message ++ "\n")) ∨
      ∃ text, Disassembler.Lists calls.config i m₁ text ∧ calls.Print text := by
  have hends := ends_of_accepted hprobe hv hprints
  split at hends
  · rename_i hextra
    rw [if_pos hextra]
    obtain ⟨f, hrefusal, hends⟩ := hends
    exact ⟨f, hrefusal, calls.forall_others (Q := (·.result = .error f)) hends⟩
  · rename_i hextra
    rw [if_neg hextra]
    rcases hends with ⟨message, hmessage⟩ | ⟨output, m₂, hlist, htext, hprinted⟩
    · exact .inl ⟨message, calls.forall_others (Q := (Ends m · backendFailed "" _)) hmessage⟩
    · obtain ⟨hdump, hentries, hname⟩ := ends_of_listing hprobe hv hlist hmarker hprinted
      refine .inr ⟨output.text, htext, ?_⟩
      have hsymbol := hname name
      rw [← run_dumping] at hdump
      rw [← run_listing] at hentries
      rw [← run_naming] at hsymbol
      exact ⟨hdump, hentries, hsymbol⟩

end Invocations

/-- **Three views of a file agree.** Each command starts from one machine, at
the default level of the log, whose lines are left aside. A file that
`probe` turns down, `dump` and `symbols` turn down with the same reason,
and nothing is started that disassembles. After a file was accepted they
fail alike, or `dump` prints what the backend does, `symbols` the symbols
of that listing by address and name, and `symbols --name` the address of
one of them; unless an extra argument is refused, for a null character or a
lone surrogate, which all of them die of. -/
theorem views_agree {name : String} (calls : Invocations m path name) :
    ((run calls.probing m).result = .ok rejected →
      ∃ reason : Reason, Ends m (run calls.probing m) rejected (reason.text ++ "\n") "" ∧
        ∀ words ∈ calls.others,
          Declines calls.config (Probe.evidence calls.config path calls.prepared).named m path
            reason (run words m)) ∧
    ((run calls.probing m).result = .ok 0 → Path.isSuffix calls.config.marker.toList = true →
      Ends m (run calls.probing m) 0 "ok\n" "" ∧
      if calls.config.arguments.any Script.refused then
        ∃ f : Failure, f.isRefusal = true ∧
          ∀ words ∈ calls.others, (run words m).result = .error f
      else
        (∃ message, ∀ words ∈ calls.others,
          Ends m (run words m) backendFailed "" (programName ++ ": " ++ message ++ "\n")) ∨
        ∃ file text, (Probe.evidence calls.config path calls.prepared).identity = some file ∧
          Disassembler.Lists calls.config file (run calls.probing m).machine text ∧
          calls.Print text) := by
  have hready : Prints m "" "" calls.prepared := prints_prepare calls.level calls.prepares
  have hidle : calls.prepared.calls = m.calls := calls_prepare calls.level calls.prepares
  rw [calls.run_probing]
  rcases hprobe : (Probe.probe calls.config path).exec calls.prepared with ⟨f | v, m₁⟩
  · have hfails : (perform calls.config (.probe path)).exec calls.prepared = (.error f, m₁) :=
      exec_bind_error hprobe
    rw [Ending.of_exec hfails]
    refine ⟨fun h => ?_, fun h => ?_⟩
    · cases h
    · cases h
  have hfound : Prints m "" "" m₁ := by
    have hkept := Probe.preserves_probe (lasting_prints m "") calls.config path calls.prepared hready
    rwa [hprobe] at hkept
  rw [Ending.of_exec (x := perform calls.config (.probe path)) (exec_probe hprobe)]
  cases haccepted : v.accepted with
  | false =>
    have hnone : v.accepted? = none := by
      rw [Verdict.accepted?, haccepted]
      rfl
    refine ⟨fun _ => ⟨v.reason, ⟨rfl, hfound.printOut _⟩, ?_⟩, fun h => ?_⟩
    · exact calls.forall_others fun x hx => declines_of_probe hprobe hnone hfound hidle hx
    · cases h
  | true =>
    have hok : v.reason = .ok := of_decide_eq_true haccepted
    obtain ⟨file, -, -, hfile, -⟩ := Probe.asked_of_accepted hprobe hok
    have hsome : v.accepted? = some file := by
      rw [Verdict.accepted?, haccepted]
      exact hfile
    refine ⟨fun h => ?_, fun _ hmarker => ⟨⟨rfl, hok ▸ hfound.printOut _⟩, ?_⟩⟩
    · cases h
    have hends := calls.accepted hprobe hsome hfound hmarker
    split at hends
    · rename_i hextra
      rw [if_pos hextra]
      exact hends
    · rename_i hextra
      rw [if_neg hextra]
      have hidentity := (Probe.follows_probe hprobe).1.symm.trans hfile
      refine hends.imp_right ?_
      rintro ⟨text, htext, hprint⟩
      exact ⟨file, text, hidentity, htext, hprint⟩

/-- A machine with a file, a backend that lists one symbol, and settings. -/
def stocked (settings : String) : Machine where
  cwd := "/"
  env := [("PATH", "/")]
  files := { nodes := [(["a"], .file [0] false), (["objdump"], .file [] true),
    (["s"], .file (Utf8.encode settings) false)] }
  rules := [{ stdout := Utf8.encode "10 <f>:\n" }]

/-- The words of a command line that names the settings. -/
def withSettings (words : List String) : List String :=
  ["--config", "/s"] ++ words

/-- A file that is accepted is listed by the other commands. -/
theorem views_agree_stocked :
    let m := stocked "\x7b\x7d"
    (run (withSettings ["probe", "/a"]) m).result = .ok 0 ∧
    ∃ text, Ends m (run (withSettings ["dump", "/a"]) m) 0 text "" ∧
      ∃ entries : List (Int × String), entries.Pairwise SymbolTable.Before ∧
        (∀ address name, (address, name) ∈ entries ↔
          (Listing.index text).address? name = some address) ∧
        Ends m (run (withSettings ["symbols", "/a"]) m) 0 (String.join (entries.map row)) "" := by
  intro m
  let settings := Settings.homePath m
  let options : Invocation := {
    settings := some "/s", backend := none, refuseRemote := false, logLevel := some "warning"
    logFile := none, task := .probe "/a" }
  have hprobing : understand settings.text (withSettings ["probe", "/a"]) = .ok options :=
    ok_of_toOption (by decide +kernel)
  have hdumping : understand settings.text (withSettings ["dump", "/a"]) =
      .ok { options with task := .dump "/a" none } := ok_of_toOption (by decide +kernel)
  have hlisting : understand settings.text (withSettings ["symbols", "/a"]) =
      .ok { options with task := .symbols "/a" none } := ok_of_toOption (by decide +kernel)
  have hnaming : understand settings.text (withSettings ["symbols", "--name", "f", "/a"]) =
      .ok { options with task := .symbols "/a" (some (some "f")) } :=
    ok_of_toOption (by decide +kernel)
  have hsound : (((prepare options).exec m).1.toOption.map fun (_, c) =>
      (Path.isSuffix c.marker.toList, c.arguments.any Script.refused)) = some (true, false) := by
    decide +kernel
  have hprobed : (run (withSettings ["probe", "/a"]) m).result = .ok 0 :=
    ok_of_toOption (by decide +kernel)
  have hdumped : (run (withSettings ["dump", "/a"]) m).result = .ok 0 :=
    ok_of_toOption (by decide +kernel)
  rcases hprepare : (prepare options).exec m with ⟨f | ⟨store, c⟩, m₀⟩
  · rw [hprepare] at hsound
    cases hsound
  · rw [hprepare] at hsound
    obtain ⟨hmarker, hextra⟩ := Prod.mk.inj (Option.some.inj hsound)
    obtain ⟨-, hends⟩ := (views_agree ⟨_, _, _, _, options, settings, store, c, m₀, rfl, hprobing,
      hdumping, hlisting, hnaming, rfl, hprepare⟩).2 hprobed hmarker
    rw [if_neg (by rw [hextra]; decide)] at hends
    rcases hends with ⟨message, hfails⟩ | ⟨file, text, -, -, hprint⟩
    · have hstatus := (hfails _ List.mem_cons_self).result
      rw [hdumped] at hstatus
      cases hstatus
    · exact ⟨hprobed, text, hprint.dump, hprint.symbols⟩

theorem error_of_isNull {α : Type} {r : Except Failure α} (h : Probe.isNull r = true) :
    r = .error .embeddedNull := by
  rw [Probe.isNull.eq_def] at h
  split at h
  · rfl
  · cases h

/-- **An argument with a null character makes the views differ**: the file is
accepted, and neither of the other commands ends with a status. -/
theorem views_differ_for_null :
    let m := stocked "\x7b\"extra_arguments\": [\"\\u0000\"]\x7d"
    (run (withSettings ["probe", "/a"]) m).result = .ok 0 ∧
    (run (withSettings ["dump", "/a"]) m).result = .error .embeddedNull ∧
    (run (withSettings ["symbols", "/a"]) m).result = .error .embeddedNull := by
  intro m
  refine ⟨ok_of_toOption ?_, error_of_isNull ?_, error_of_isNull ?_⟩
  · decide +kernel
  · decide +kernel
  · decide +kernel

end CommandLine

end Disasm
