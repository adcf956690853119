import Disasm.Proofs.Standpoint
import Disasm.View.Request
/-!
# The lifecycle of a view, call by call

What each call to a view does, given what the presenter does when it is
called in the middle: one equation for each way a call can go. A set-up
is turned away by a session that is there; otherwise it makes ready,
which concerns the machine alone, and then shows. A teardown does nothing
unless a listing is on show; otherwise it marks the session, puts the
file back and ends without a session, whether the presenter failed or
not.
-/

namespace Disasm

namespace Stage

variable {P : Type} (s : Stage P)

/-- A stage with another session. -/
def withSession (session : Option Session) : Stage P :=
  { s with view := { s.view with session } }

/-- A stage with another machine. -/
def withMachine (machine : Machine) : Stage P :=
  { s with machine }

/-- A stage whose last probe found something else. -/
def withProbe (verdict : Verdict) : Stage P :=
  { s with view := { s.view with lastProbe := some verdict } }

@[simp] theorem withSession_session (e : Option Session) :
    (s.withSession e).view.session = e := rfl

end Stage

/-- Every call to a presenter keeps an invariant of the stage, however it
ends. -/
structure Presenter.Preserves {P : Type} (p : Presenter P) (I : Stage P → Prop) : Prop where
  showText : ∀ text, (p.showText text).Preserves I
  setIdentity : ∀ name, (p.setIdentity name).Preserves I
  markUnmodified : p.markUnmodified.Preserves I
  restore : ∀ original, (p.restore original).Preserves I

namespace View

open Act

variable {P α : Type} {p : Presenter P} {c : Config} {s t u : Stage P}
variable {path : String} {timeout : Option Number}

theorem exec_onMachine (x : Act Machine α) (s : Stage P) :
    (onMachine x).exec s = ((x.exec s.machine).1, s.withMachine (x.exec s.machine).2) := rfl

theorem exec_putSession (session : Option Session) (s : Stage P) :
    (putSession session).exec s = (.ok (), s.withSession session) := rfl

/-- The machine after a view has logged something. -/
def logged (level : Int) (message : String) (m : Machine) : Machine :=
  ((Machine.log level "controllers.view_lifecycle" message).exec m).2

theorem exec_log (level : Int) (message : String) (s : Stage P) :
    (log level message).exec s = (.ok (), s.withMachine (logged level message s.machine)) := by
  obtain ⟨a, ha⟩ := Machine.total_log level "controllers.view_lifecycle" message s.machine
  rw [log, exec_onMachine, ha]
  rfl

/-- The state of a view is what its session says. -/
theorem state_of_session {v : View} {e : Session} (h : v.session = some e) :
    v.state = e.state := by
  rw [state, h]

/-- A view without a session is inactive. -/
theorem state_of_session_none {v : View} (h : v.session = none) : v.state = .inactive := by
  rw [state, h]

/-- A view in any other state has a session, which is in that state. -/
theorem session_of_state {v : View} {state : ViewState} (h : v.state = state)
    (hstate : state ≠ .inactive) : ∃ e, v.session = some e ∧ e.state = state := by
  rcases hs : v.session with _ | e
  · exact absurd (h.symm.trans (state_of_session_none hs)) hstate
  · exact ⟨e, rfl, (state_of_session hs).symm.trans h⟩

/-- The file that is shown as a listing, and where its session stands. -/
def onShow (v : View) : Option (Identity × ViewState) :=
  v.session.map fun e => (e.original, e.state)

/-- The state is read off what is on show. -/
theorem state_eq_onShow (v : View) : v.state = (v.onShow.map Prod.snd).getD .inactive := by
  rcases hs : v.session with _ | e
  · rw [state_of_session_none hs, onShow, hs]
    rfl
  · rw [state_of_session hs, onShow, hs]
    rfl

/-- Presenting is three calls to the presenter. -/
theorem preserves_present {I : Stage P → Prop} (hp : p.Preserves I) (marker : String)
    (original : Identity) (text : String) : (present p marker original text).Preserves I := by
  refine (hp.showText text).bind fun _ => ?_
  refine (Preserves.ofExcept _).bind fun name => ?_
  exact (hp.setIdentity name).bind fun _ => hp.markUnmodified

/-- Putting a file back is two. -/
theorem preserves_putBack {I : Stage P → Prop} (hp : p.Preserves I) (original : Identity) :
    (putBack p original).Preserves I :=
  (hp.setIdentity _).bind fun _ => hp.restore original

/-! ## Setting up -/

/-- What setting up does before the presenter is called: it probes the file
and, if that is accepted, has it disassembled. -/
def ready (c : Config) (path : String) (timeout : Option Number) :
    Act (Stage P) (Option (Identity × Output)) := do
  let verdict ← onMachine (Probe.probe c path)
  modify (·.withProbe verdict)
  match verdict.accepted? with
  | none => return none
  | some original =>
    let output ← onMachine (Disassembler.disassemble c original timeout false)
    return some (original, output)

/-- **A session that is there turns a set-up away**, and nothing has
happened. -/
theorem exec_setup_occupied (h : s.view.session.isSome) :
    (setup p c path timeout).exec s = (.error (.viewOccupied s.view.state.text), s) := by
  rw [setup, exec_bind_ok (exec_get s)]
  simp only [throw_bind]
  rw [if_pos h]
  rfl

/-- Without a session, setting up is making ready and then showing. -/
theorem exec_setup_free (h : s.view.session = none) :
    (setup p c path timeout).exec s =
      (ready c path timeout >>= fun found => match found with
        | none => pure false
        | some (original, output) => do
          showListing p c original output
          return true).exec s := by
  rw [setup, exec_bind_ok (exec_get s)]
  simp only [throw_bind]
  rw [if_neg (by simp [h]), ready, bind_assoc]
  congr 1
  refine bind_congr fun verdict => ?_
  rw [bind_assoc]
  refine bind_congr fun _ => ?_
  cases verdict.accepted? with
  | none => rfl
  | some original =>
    dsimp only
    rw [bind_assoc]
    rfl

/-- Making ready changes neither the session nor the presenter, however it
ends. -/
theorem ready_untouched (c : Config) (path : String) (timeout : Option Number) (s : Stage P) :
    ((ready c path timeout).exec s).2.view.session = s.view.session ∧
      ((ready c path timeout).exec s).2.presenter = s.presenter := by
  have hsame : (ready c path timeout).Preserves
      fun t : Stage P => t.view.session = s.view.session ∧ t.presenter = s.presenter := by
    refine Preserves.bind (fun _ ht => ht) fun verdict => ?_
    refine Preserves.bind (fun _ ht => ht) fun _ => ?_
    cases verdict.accepted? with
    | none => exact Preserves.pure _
    | some original => exact Preserves.bind (fun _ ht => ht) fun output => Preserves.pure _
  exact hsame s ⟨rfl, rfl⟩

/-- A file that was made ready is one the probe accepted. -/
theorem probe_of_ready {original : Identity} {output : Output}
    (h : (ready c path timeout).exec s = (.ok (some (original, output)), t)) :
    ∃ verdict, ((Probe.probe c path).exec s.machine).1 = .ok verdict ∧
      verdict.accepted? = some original := by
  obtain ⟨verdict, s₁, hprobe, h⟩ := ok_of_exec_bind h
  obtain ⟨_, s₂, -, h⟩ := ok_of_exec_bind h
  rw [exec_onMachine, Prod.mk.injEq] at hprobe
  refine ⟨verdict, hprobe.1, ?_⟩
  cases hv : verdict.accepted? with
  | none =>
    rw [hv] at h
    cases h
  | some found =>
    rw [hv] at h
    obtain ⟨out, s₃, -, h⟩ := ok_of_exec_bind h
    rw [exec_pure, Prod.mk.injEq, Except.ok.injEq, Option.some.injEq, Prod.mk.injEq] at h
    rw [h.1.1]

/-- A listing that was presented is on show. -/
theorem exec_showListing_ok {original : Identity} {output : Output}
    (h : (present p c.marker original output.text).exec s = (.ok (), t)) :
    (showListing p c original output).exec s =
      (.ok (), (t.withSession (some { original, output })).withMachine
        (logged Log.info ("showing disassembly of " ++ original.location.display) t.machine)) := by
  rw [showListing, exec_bind_ok (exec_attempt _ s), h]
  dsimp only
  rw [exec_bind_ok (exec_putSession _ t), exec_log]
  rfl

/-- The stage on which a presenter that failed is asked to put the file
back. -/
def failed (s : Stage P) (original : Identity) : Stage P :=
  s.withMachine (logged Log.error
    ("presenting " ++ original.location.display ++ " failed, putting the original back") s.machine)

/-- A listing that could not be presented is taken back, and the failure is
passed on unless taking it back fails too. -/
theorem exec_showListing_error {original : Identity} {output : Output} {f : Failure}
    (h : (present p c.marker original output.text).exec s = (.error f, t)) :
    (showListing p c original output).exec s =
      (do putBack p original; throw f : Act (Stage P) Unit).exec (failed t original) := by
  rw [showListing, exec_bind_ok (exec_attempt _ s), h]
  dsimp only
  rw [exec_bind_ok (exec_log _ _ t)]
  rfl

/-- A set-up that succeeds has probed the file itself, presented its listing
and opened a session for it. -/
theorem presented_of_setup (h : (setup p c path timeout).exec s = (.ok true, t)) :
    ∃ verdict original output s₁ s₂, ((Probe.probe c path).exec s.machine).1 = .ok verdict ∧
      verdict.accepted? = some original ∧
      (present p c.marker original output.text).exec s₁ = (.ok (), s₂) ∧
      t.presenter = s₂.presenter ∧ t.view.session = some { original, output } := by
  rcases hsession : s.view.session with _ | e
  · rw [exec_setup_free hsession] at h
    obtain ⟨found, s₁, hready, h⟩ := ok_of_exec_bind h
    rcases found with _ | ⟨original, output⟩
    · cases h
    · obtain ⟨verdict, hprobe, hverdict⟩ := probe_of_ready hready
      obtain ⟨_, s₂, hshow, h⟩ := ok_of_exec_bind h
      rcases hpresent : (present p c.marker original output.text).exec s₁ with ⟨f | _, s₃⟩
      · rw [exec_showListing_error hpresent] at hshow
        obtain ⟨_, s₄, -, hthrow⟩ := ok_of_exec_bind hshow
        cases hthrow
      · rw [exec_showListing_ok hpresent] at hshow
        cases hshow
        cases h
        exact ⟨verdict, original, output, s₁, s₃, hprobe, hverdict, hpresent, rfl, rfl⟩
  · rw [exec_setup_occupied (by rw [hsession]; rfl)] at h
    cases h

/-- **A set-up that succeeds leaves a listing on show**, of the file that it
probed itself. -/
theorem shown_of_setup (h : (setup p c path timeout).exec s = (.ok true, t)) :
    ∃ verdict original output, ((Probe.probe c path).exec s.machine).1 = .ok verdict ∧
      verdict.accepted? = some original ∧ t.view.session = some { original, output } := by
  obtain ⟨verdict, original, output, _, _, hprobe, hverdict, -, -, hsession⟩ :=
    presented_of_setup h
  exact ⟨verdict, original, output, hprobe, hverdict, hsession⟩

/-! ## Teardown -/

/-- **A teardown does nothing unless a listing is on show.** -/
theorem exec_teardown_idle (h : s.view.state ≠ .active) : (teardown p).exec s = (.ok (), s) := by
  rw [teardown, exec_bind_ok (exec_get s)]
  rcases hs : s.view.session with _ | e
  · rfl
  · have hstate : e.state ≠ .active := by
      rwa [state_of_session hs] at h
    dsimp only
    rw [if_neg hstate]
    rfl

/-- The stage on which a presenter is asked to put a file back. -/
def leaving (s : Stage P) (e : Session) : Stage P :=
  s.withSession (some { e with state := .tearingDown })

/-- A teardown puts the file back and ends the session. -/
theorem exec_teardown_ok {e : Session} (hs : s.view.session = some e) (he : e.state = .active)
    (h : (putBack p e.original).exec (leaving s e) = (.ok (), t)) :
    (teardown p).exec s = (.ok (), (t.withSession none).withMachine
      (logged Log.info ("restored " ++ e.original.location.display) t.machine)) := by
  rw [leaving] at h
  rw [teardown, exec_bind_ok (exec_get s)]
  simp only [hs]
  rw [if_pos he, exec_bind_ok (exec_putSession _ s), exec_bind_ok (exec_attempt _ _), h,
    exec_bind_ok (exec_putSession none t), exec_bind_ok (exec_ofExcept _ _), exec_log]
  rfl

/-- A presenter that fails to put the file back does not keep the session
alive. -/
theorem exec_teardown_error {e : Session} {f : Failure} (hs : s.view.session = some e)
    (he : e.state = .active) (h : (putBack p e.original).exec (leaving s e) = (.error f, t)) :
    (teardown p).exec s = (.error f, t.withSession none) := by
  rw [leaving] at h
  rw [teardown, exec_bind_ok (exec_get s)]
  simp only [hs]
  rw [if_pos he, exec_bind_ok (exec_putSession _ s), exec_bind_ok (exec_attempt _ _), h,
    exec_bind_ok (exec_putSession none t), exec_bind_error (exec_ofExcept _ _)]

/-- **A teardown of a listing on show ends the session**, however it ends. -/
theorem session_of_teardown (h : s.view.state = .active) :
    ((teardown p).exec s).2.view.session = none := by
  obtain ⟨e, hs, he⟩ := session_of_state h (by decide)
  rcases hres : (putBack p e.original).exec (leaving s e) with ⟨f | _, t⟩
  · rw [exec_teardown_error hs he hres]
    rfl
  · rw [exec_teardown_ok hs he hres]
    rfl

/-! ## Invariants of the stage -/

/-- An invariant that what a view has the machine do preserves, and that is
not about the view. -/
structure Lasting (c : Config) (I : Stage P → Prop) : Prop where
  log : ∀ level message, (log level message).Preserves I
  probe : ∀ path, (onMachine (Probe.probe c path)).Preserves I
  disassemble : ∀ original timeout,
    (onMachine (Disassembler.disassemble c original timeout false)).Preserves I
  view : ∀ s view, I s → I { s with view }

section Lasting

variable {I : Stage P → Prop} (hI : Lasting c I) (hp : p.Preserves I)

include hI hp

theorem preserves_showListing (original : Identity) (output : Output) :
    (showListing p c original output).Preserves I := by
  refine (preserves_present hp _ _ _).attempt.bind fun r => ?_
  rcases r with f | _
  · refine (hI.log _ _).bind fun _ => ?_
    exact (preserves_putBack hp _).bind fun _ => Preserves.throw _
  · exact Preserves.bind (fun s hs => hI.view s _ hs) fun _ => hI.log _ _

/-- **What lasts is preserved by a set-up**, however it ends, if the
presenter preserves it. -/
theorem preserves_setup (path : String) (timeout : Option Number) :
    (setup p c path timeout).Preserves I := by
  refine Preserves.get.bind fun s => ?_
  refine Preserves.when (Preserves.throw _) ?_
  refine (hI.probe path).bind fun verdict => ?_
  refine Preserves.bind (fun s hs => hI.view s _ hs) fun _ => ?_
  cases verdict.accepted? with
  | none => exact Preserves.pure _
  | some original =>
    refine (hI.disassemble original timeout).bind fun output => ?_
    exact (preserves_showListing hI hp original output).bind fun _ => Preserves.pure _

/-- **What lasts is preserved by a teardown**, however it ends, if the
presenter preserves it. -/
theorem preserves_teardown : (teardown p).Preserves I := by
  refine Preserves.get.bind fun s => ?_
  cases s.view.session with
  | none => exact Preserves.pure _
  | some e =>
    refine Preserves.ite ?_ (Preserves.pure _)
    refine Preserves.bind (fun s hs => hI.view s _ hs) fun _ => ?_
    refine (preserves_putBack hp _).attempt.bind fun ended => ?_
    refine Preserves.bind (fun s hs => hI.view s _ hs) fun _ => ?_
    exact (Preserves.ofExcept _).bind fun _ => hI.log _ _

end Lasting

/-- What lasts on the machine lasts on the stage. -/
theorem lasting_machine {J : Machine → Prop} (hJ : Machine.Lasting J) (c : Config) :
    Lasting c fun s : Stage P => J s.machine where
  log _ _ s hs := hJ.log _ _ _ s.machine hs
  probe path s hs := Probe.preserves_probe hJ c path s.machine hs
  disassemble original timeout s hs :=
    Disassembler.preserves_disassemble hJ c original timeout false s.machine hs
  view _ _ hs := hs

/-- What is about the presenter alone lasts. -/
theorem lasting_presenter (Q : P → Prop) (c : Config) :
    Lasting c fun s : Stage P => Q s.presenter where
  log _ _ _ hs := hs
  probe _ _ hs := hs
  disassemble _ _ _ hs := hs
  view _ _ hs := hs

/-! ## Navigation -/

/-- **Whoever asks about a listing that is not on show is turned away**, and
nothing has happened. -/
theorem exec_activeSession_idle (h : s.view.state ≠ .active) :
    (activeSession : Act (Stage P) Session).exec s = (.error .viewInactive, s) := by
  rw [activeSession, exec_bind_ok (exec_get s)]
  rcases hs : s.view.session with _ | e
  · rfl
  · have hstate : e.state ≠ .active := by
      rwa [state_of_session hs] at h
    dsimp only
    rw [if_neg hstate]
    rfl

/-- The session of a listing on show is there for whoever asks. -/
theorem exec_activeSession {e : Session} (he : s.view.session = some e)
    (hactive : e.state = .active) :
    (activeSession : Act (Stage P) Session).exec s = (.ok e, s) := by
  rw [activeSession, exec_bind_ok (exec_get s), he]
  dsimp only
  rw [if_pos hactive]
  rfl

/-- The symbols of a listing that is not on show are refused. -/
theorem exec_symbols_idle (h : s.view.state ≠ .active) :
    (symbols : Act (Stage P) SymbolTable).exec s = (.error .viewInactive, s) := by
  rw [symbols, exec_bind_error (exec_activeSession_idle h)]

/-- Whether a call only asks about the listing on show. -/
def Request.isQuestion : Request → Bool
  | .setup _ _ | .teardown => false
  | .text | .symbols | .byAddress | .addressOf _ | .lineOf _ | .symbolAt _ | .lastProbe => true

/-- A stage without the symbols that were worked out on it. -/
def bare (s : Stage P) : Stage P :=
  s.withSession (s.view.session.map fun e => { e with symbols := none })

theorem keeps_activeSession : (activeSession : Act (Stage P) Session).Keeps bare := by
  intro v
  refine Preserves.get.bind fun s => ?_
  cases s.view.session with
  | none => exact Preserves.throw _
  | some e => exact Preserves.ite (Preserves.pure _) (Preserves.throw _)

theorem keeps_keepSymbols (table : SymbolTable) :
    (keepSymbols table : Act (Stage P) Unit).Keeps bare := by
  intro v s hs
  rw [← hs]
  rcases he : s.view.session with _ | e
  · simp [keepSymbols, bare, Stage.withSession, he]
  · simp [keepSymbols, bare, Stage.withSession, he]

theorem keeps_symbols : (symbols : Act (Stage P) SymbolTable).Keeps bare := by
  intro v s hs
  by_cases hact : s.view.state = .active
  · obtain ⟨e, he, hstate⟩ := session_of_state hact (by decide)
    rw [symbols, exec_bind_ok (exec_activeSession he hstate), ← hs]
    cases e.symbols with
    | some table => rfl
    | none => simp [exec_putSession, bare, Stage.withSession, he]
  · rw [exec_symbols_idle hact]
    exact hs

/-- **A question changes nothing but which symbols are worked out.** -/
theorem keeps_question {r : Request} (h : r.isQuestion) : (ask p c r).Keeps bare := by
  intro v
  cases r with
  | setup path timeout => cases h
  | teardown => cases h
  | text => exact ((keeps_activeSession v).bind fun _ => Preserves.pure _).map _
  | symbols => exact (keeps_symbols v).bind fun _ => Preserves.pure _
  | byAddress =>
    refine ((keeps_symbols v).bind fun table => ?_).map _
    exact (keeps_keepSymbols _ v).bind fun _ => Preserves.pure _
  | addressOf name => exact ((keeps_symbols v).bind fun _ => Preserves.pure _).map _
  | lineOf name => exact ((keeps_symbols v).bind fun _ => Preserves.pure _).map _
  | symbolAt address =>
    refine ((keeps_symbols v).bind fun table => ?_).map _
    exact (keeps_keepSymbols _ v).bind fun _ => Preserves.pure _
  | lastProbe => exact Preserves.get.bind fun _ => Preserves.pure _

/-- A question leaves what is on show. -/
theorem onShow_question {r : Request} (h : r.isQuestion) (s : Stage P) :
    ((ask p c r).exec s).2.view.onShow = s.view.onShow := by
  have hbare : bare ((ask p c r).exec s).2 = bare s := keeps_question h (bare s) s rfl
  have hshow : ∀ t : Stage P, (bare t).view.onShow = t.view.onShow := by
    intro t
    rw [onShow, bare, Stage.withSession_session, Option.map_map]
    rfl
  rw [← hshow, hbare, hshow]

/-- How a call ends that comes while a teardown is under way. -/
def turnedAway (v : View) : Request → Except Failure Reply
  | .setup _ _ => .error (.viewOccupied ViewState.tearingDown.text)
  | .teardown => .ok .done
  | .lastProbe => .ok (.verdict v.lastProbe)
  | .text | .symbols | .byAddress | .addressOf _ | .lineOf _ | .symbolAt _ => .error .viewInactive

/-- **Questions about a listing that is not on show are turned away**, and
change nothing at all. -/
theorem exec_ask_idle (h : s.view.state ≠ .active) {r : Request} (hr : r.isQuestion) :
    (ask p c r).exec s = (turnedAway s.view r, s) := by
  cases r with
  | setup path timeout => cases hr
  | teardown => cases hr
  | text =>
    rw [ask, exec_map, text, exec_bind_error (exec_activeSession_idle h)]
    rfl
  | symbols =>
    rw [ask, exec_bind_error (exec_symbols_idle h)]
    rfl
  | byAddress =>
    rw [ask, exec_map, byAddress, exec_bind_error (exec_symbols_idle h)]
    rfl
  | addressOf name =>
    rw [ask, exec_map, addressOf, exec_bind_error (exec_symbols_idle h)]
    rfl
  | lineOf name =>
    rw [ask, exec_map, lineOf, exec_bind_error (exec_symbols_idle h)]
    rfl
  | symbolAt address =>
    rw [ask, exec_map, symbolAt, exec_bind_error (exec_symbols_idle h)]
    rfl
  | lastProbe => rfl

/-- **While a teardown is under way every call is turned away**, and changes
nothing at all. -/
theorem exec_ask_tearingDown (h : s.view.state = .tearingDown) (r : Request) :
    (ask p c r).exec s = (turnedAway s.view r, s) := by
  have hidle : s.view.state ≠ .active := by
    rw [h]
    exact ViewState.noConfusion
  cases r with
  | setup path timeout =>
    obtain ⟨e, hs, -⟩ := session_of_state h (by decide)
    rw [ask, exec_map, exec_setup_occupied (by rw [hs]; rfl), h]
    rfl
  | teardown =>
    rw [ask, exec_bind_ok (exec_teardown_idle hidle)]
    rfl
  | _ => exact exec_ask_idle hidle rfl

end View

end Disasm
