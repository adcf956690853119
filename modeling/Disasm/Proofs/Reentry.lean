import Disasm.Proofs.Lifecycle
/-!
# Re-entry — a view whose presenter calls it back

A presenter is called in the middle of a set-up and of a teardown, and
may call the view again from there, any number of times and to any
depth, before it returns or raises. A `Play` is what somebody who holds
the view does, as a finite tree of steps: the body of a presenter's
method, or the program around all of them. `performer` is the presenter
whose methods are plays, calls nested up to a depth.

A run keeps a record of every moment at which a play is at work, with the
calls that are under way, and of every call to the view with what it
found and left. The main statement, `reentrant_calls_lawful`, is about
that record: the view is being torn down at exactly those moments at which
a teardown is under way.
-/

namespace Disasm

namespace Reentry

open Act View

variable {P : Type}

/-! ## Plays -/

/-- A call that a view makes to its presenter. -/
inductive Errand where
  | showText (text : String)
  | setIdentity (name : String)
  | markUnmodified
  | restore (original : Identity)

/-- What somebody who holds a view does. All that is seen on the way may
decide how it goes on. -/
inductive Play (P : Type) where
  /-- To return. -/
  | finish
  /-- To raise. -/
  | raise (f : Failure)
  /-- To do anything to the machine and the presenter, and go on. -/
  | act (deed : Stage P → Machine × P) (next : Stage P → Play P)
  /-- To call the view and go on, whether the call returned or raised. -/
  | call (request : Request) (next : Except Failure Reply → Play P)

/-- A moment at which a play is at work: the calls to the view that are
under way, the innermost first, and the stage. A call is under way once it
has called the presenter, so it is past the check of its state. -/
structure Moment (P : Type) where
  stack : List Request
  stage : Stage P

/-- A call to the view: the calls under way around it, what it found, how it
ended and what it left. -/
structure Exchange (P : Type) where
  stack : List Request
  request : Request
  before : Stage P
  result : Except Failure Reply
  after : Stage P

/-- A presenter with the record of a run. -/
structure Recorded (P : Type) where
  presenter : P
  moments : List (Moment P) := []
  exchanges : List (Exchange P) := []

/-- A stage without its record. -/
def plain (s : Stage (Recorded P)) : Stage P where
  machine := s.machine
  view := s.view
  presenter := s.presenter.presenter

/-- Records a moment. -/
def note (stack : List Request) : Act (Stage (Recorded P)) Unit :=
  modify fun s => { s with
    presenter := { s.presenter with moments := s.presenter.moments ++ [⟨stack, plain s⟩] } }

/-- Records a call that has ended. -/
def noteExchange (stack : List Request) (request : Request) (before : Stage P)
    (result : Except Failure Reply) : Act (Stage (Recorded P)) Unit :=
  modify fun s => { s with
    presenter := { s.presenter with
      exchanges := s.presenter.exchanges ++ [⟨stack, request, before, result, plain s⟩] } }

/-- Does something to the machine and the presenter. -/
def change (deed : Stage P → Machine × P) : Act (Stage (Recorded P)) Unit :=
  modify fun s => { s with
    machine := (deed (plain s)).1
    presenter := { s.presenter with presenter := (deed (plain s)).2 } }

/-- Performs a play while the calls of `stack` are under way. The calls it
makes are presented by `present`, which is told the calls that are then
under way. -/
def Play.perform (present : List Request → Presenter (Recorded P)) (c : Config)
    (stack : List Request) : Play P → Act (Stage (Recorded P)) Unit
  | .finish => note stack
  | .raise f => do
    note stack
    throw f
  | .act deed next => do
    note stack
    change deed
    (next (plain (← get))).perform present c stack
  | .call request next => do
    note stack
    let before ← get
    let result ← (View.ask (present (request :: stack)) c request).attempt
    noteExchange stack request (plain before) result
    (next result).perform present c stack

/-- The presenter whose methods are plays. At depth zero no method can be
called any more. -/
def performer (c : Config) (manner : Errand → Play P) :
    (depth : Nat) → (stack : List Request) → Presenter (Recorded P)
  | 0, _ => {
    showText := fun _ => throw .nestedTooDeep
    setIdentity := fun _ => throw .nestedTooDeep
    markUnmodified := throw .nestedTooDeep
    restore := fun _ => throw .nestedTooDeep }
  | depth + 1, stack => {
    showText := fun text => (manner (.showText text)).perform (performer c manner depth) c stack
    setIdentity := fun name =>
      (manner (.setIdentity name)).perform (performer c manner depth) c stack
    markUnmodified := (manner .markUnmodified).perform (performer c manner depth) c stack
    restore := fun i => (manner (.restore i)).perform (performer c manner depth) c stack }

/-- A run on a new view: the stage it ends on, with its record. -/
def run (c : Config) (manner : Errand → Play P) (depth : Nat) (play : Play P) (machine : Machine)
    (presenter : P) : Stage (Recorded P) :=
  ((play.perform (performer c manner depth) c []).exec
    { machine, presenter := { presenter } }).2

/-! ## Invariants of a run -/

/-- The stage after a call was made and went on record. -/
def afterCall (p : Presenter (Recorded P)) (c : Config) (stack : List Request) (r : Request)
    (s : Stage (Recorded P)) : Stage (Recorded P) :=
  ((noteExchange stack r (plain s) ((ask p c r).exec s).1).exec ((ask p c r).exec s).2).2

/-- An invariant of runs, given the calls that are under way: what a play
does by itself keeps it, and so does a call and its record, if the presenter
keeps it while the call is under way. -/
structure Steady (c : Config) (I : List Request → Stage (Recorded P) → Prop) : Prop where
  note : ∀ stack, (note stack).Preserves (I stack)
  change : ∀ stack deed, (change deed).Preserves (I stack)
  call : ∀ stack r (p : Presenter (Recorded P)), p.Preserves (I (r :: stack)) →
    ∀ s, I stack s → I stack (afterCall p c stack r s)

namespace Steady

variable {c : Config} {I : List Request → Stage (Recorded P) → Prop}

/-- **A play keeps the invariant**, step by step, if the presenters of its
calls do. -/
theorem perform (hI : Steady c I) {stack : List Request}
    {present : List Request → Presenter (Recorded P)}
    (hpresent : ∀ r, (present (r :: stack)).Preserves (I (r :: stack))) (play : Play P) :
    (play.perform present c stack).Preserves (I stack) := by
  induction play with
  | finish => exact hI.note stack
  | raise f => exact (hI.note stack).bind fun _ => Preserves.throw f
  | act deed next ih =>
    refine (hI.note stack).bind fun _ => ?_
    refine (hI.change stack deed).bind fun _ => ?_
    exact Preserves.get.bind fun s => ih (plain s)
  | call r next ih =>
    refine (hI.note stack).bind fun _ => ?_
    intro s hs
    rw [exec_bind_ok (exec_get s), exec_bind_ok (exec_attempt _ s)]
    exact Preserves.after (hI.call stack r _ (hpresent r) s hs) fun _ => ih _

/-- **A presenter that calls back keeps the invariant** of the calls that
are under way, to whatever depth its calls may nest. -/
theorem performer (hI : Steady c I) (manner : Errand → Play P) (depth : Nat)
    (stack : List Request) : (Reentry.performer c manner depth stack).Preserves (I stack) := by
  induction depth generalizing stack with
  | zero =>
    exact ⟨fun _ => Preserves.throw _, fun _ => Preserves.throw _, Preserves.throw _,
      fun _ => Preserves.throw _⟩
  | succ depth ih =>
    have hplay : ∀ errand, ((manner errand).perform (Reentry.performer c manner depth) c
        stack).Preserves (I stack) :=
      fun errand => hI.perform (fun r => ih (r :: stack)) _
    exact ⟨fun _ => hplay _, fun _ => hplay _, hplay _, fun _ => hplay _⟩

/-- **A run ends with the invariant**, if it holds of the new view. -/
theorem run (hI : Steady c I) (manner : Errand → Play P) (depth : Nat) (play : Play P)
    (machine : Machine) (presenter : P) (hnew : I [] { machine, presenter := { presenter } }) :
    I [] (Reentry.run c manner depth play machine presenter) :=
  hI.perform (fun r => hI.performer manner depth [r]) play _ hnew

end Steady

/-! ## The laws of a record -/

/-- The view is being torn down exactly if a teardown is under way. -/
def Moment.Lawful (x : Moment P) : Prop :=
  x.stage.view.state = .tearingDown ↔ Request.teardown ∈ x.stack

/-- A call was turned away and changed nothing. -/
def Exchange.TurnedAway (e : Exchange P) : Prop :=
  e.result = turnedAway e.before.view e.request ∧ e.after = e.before

/-- A set-up that succeeded left its listing on show, for the file that it
probed itself; a teardown left no session. -/
def Exchange.Settled (c : Config) (e : Exchange P) : Prop :=
  match e.request with
  | .setup path _ => e.result = .ok (.shown true) →
    e.after.view.state = .active ∧
      ∃ verdict original, ((Probe.probe c path).exec e.before.machine).1 = .ok verdict ∧
        verdict.accepted? = some original ∧ e.after.view.original? = some original
  | .teardown => e.after.view.state = .inactive ∧ e.after.view.session = none
  | _ => True

/-- A call is turned away if it comes while a teardown is under way, and
otherwise keeps its promise. -/
def Exchange.Lawful (c : Config) (e : Exchange P) : Prop :=
  (Request.teardown ∈ e.stack → e.TurnedAway) ∧ (Request.teardown ∉ e.stack → e.Settled c)

/-- The invariant of a run while the calls of `stack` are under way. -/
structure Lawful (c : Config) (stack : List Request) (s : Stage (Recorded P)) : Prop where
  state : s.view.state = .tearingDown ↔ Request.teardown ∈ stack
  session : s.view.state = .inactive → s.view.session = none
  moments : ∀ x ∈ s.presenter.moments, x.Lawful
  exchanges : ∀ e ∈ s.presenter.exchanges, e.Lawful c

variable {c : Config} {stack : List Request} {s t : Stage (Recorded P)}

/-- The invariant reads what is on show and the record, no more. -/
theorem Lawful.congr (h : Lawful c stack s) (hshow : t.view.onShow = s.view.onShow)
    (hp : t.presenter = s.presenter) : Lawful c stack t := by
  have hstate : t.view.state = s.view.state := by
    rw [state_eq_onShow, hshow, ← state_eq_onShow]
  refine ⟨?_, ?_, ?_, ?_⟩
  · rw [hstate]
    exact h.state
  · intro ht
    rw [hstate] at ht
    rw [onShow, onShow, h.session ht, Option.map_none, Option.map_eq_none_iff] at hshow
    exact hshow
  · rw [hp]
    exact h.moments
  · rw [hp]
    exact h.exchanges

/-- Among the calls under way only teardowns count. -/
theorem Lawful.cons_setup {path : String} {timeout : Option Number} :
    Lawful c (.setup path timeout :: stack) s ↔ Lawful c stack s := by
  have hmem : Request.teardown ∈ Request.setup path timeout :: stack ↔
      Request.teardown ∈ stack := by
    simp
  constructor
  · intro h
    exact ⟨h.state.trans hmem, h.session, h.moments, h.exchanges⟩
  · intro h
    exact ⟨h.state.trans hmem.symm, h.session, h.moments, h.exchanges⟩

/-! ## What one call keeps -/

variable {p : Presenter (Recorded P)}

/-- Showing a listing keeps the invariant of the set-up it belongs to. -/
theorem Lawful.showListing (hp : p.Preserves (Lawful c stack)) (hstack : Request.teardown ∉ stack)
    (original : Identity) (output : Output) :
    (showListing p c original output).Preserves (Lawful c stack) := by
  intro s hs
  have hpresent := preserves_present hp c.marker original output.text s hs
  rcases hres : (present p c.marker original output.text).exec s with ⟨f | _, t⟩
  · rw [hres] at hpresent
    rw [exec_showListing_error hres]
    have hfailed : Lawful c stack (failed t original) := hpresent.congr rfl rfl
    exact ((preserves_putBack hp original).bind fun _ => Preserves.throw f) _ hfailed
  · rw [hres] at hpresent
    rw [exec_showListing_ok hres]
    exact ⟨iff_of_false ViewState.noConfusion hstack, ViewState.noConfusion, hpresent.moments,
      hpresent.exchanges⟩

/-- **A set-up keeps the invariant**, if its presenter does while the set-up
is under way. -/
theorem Lawful.setup {path : String} {timeout : Option Number}
    (hp : p.Preserves (Lawful c (.setup path timeout :: stack))) :
    (setup p c path timeout).Preserves (Lawful c stack) := by
  intro s hs
  rcases hsession : s.view.session with _ | e
  · have hidle : s.view.state = .inactive := state_of_session_none hsession
    have hstack : Request.teardown ∉ stack := by
      rw [← hs.state, hidle]
      exact ViewState.noConfusion
    have hready := ready_untouched c path timeout s
    rw [exec_setup_free hsession, exec_bind]
    rcases hres : (ready c path timeout).exec s with ⟨f | found, t⟩
    · rw [hres] at hready
      exact hs.congr (by rw [onShow, hready.1, onShow]) hready.2
    · rw [hres] at hready
      have ht : Lawful c stack t := hs.congr (by rw [onShow, hready.1, onShow]) hready.2
      rcases found with _ | ⟨original, output⟩
      · exact ht
      · have hshow := (Lawful.showListing hp (by simpa using hstack) original output).bind
          (fun _ => Preserves.pure true)
        exact Lawful.cons_setup.1 (hshow t (Lawful.cons_setup.2 ht))
  · rw [exec_setup_occupied (by rw [hsession]; rfl)]
    exact hs

/-- **A teardown keeps the invariant**, if its presenter does while the
teardown is under way. -/
theorem Lawful.teardown (hp : p.Preserves (Lawful c (.teardown :: stack))) :
    (teardown p).Preserves (Lawful c stack) := by
  intro s hs
  by_cases hact : s.view.state = .active
  · have hstack : Request.teardown ∉ stack := by
      rw [← hs.state, hact]
      exact ViewState.noConfusion
    obtain ⟨e, hsession, hstate⟩ := session_of_state hact (by decide)
    have hleave : Lawful c (.teardown :: stack) (leaving s e) :=
      ⟨iff_of_true rfl (List.mem_cons_self ..), ViewState.noConfusion, hs.moments, hs.exchanges⟩
    have hback := preserves_putBack hp e.original _ hleave
    -- whatever the presenter did, the session is dropped after it
    have hdrop : ∀ t : Stage (Recorded P), Lawful c (.teardown :: stack) t →
        Lawful c stack (t.withSession none) :=
      fun t ht => ⟨iff_of_false ViewState.noConfusion hstack, fun _ => rfl, ht.moments,
        ht.exchanges⟩
    rcases hres : (putBack p e.original).exec (leaving s e) with ⟨f | _, t⟩
    · rw [hres] at hback
      rw [exec_teardown_error hsession hstate hres]
      exact hdrop t hback
    · rw [hres] at hback
      rw [exec_teardown_ok hsession hstate hres]
      exact (hdrop t hback).congr rfl rfl
  · rw [exec_teardown_idle hact]
    exact hs

/-- A question keeps the invariant. -/
theorem Lawful.question {r : Request} (hr : r.isQuestion) :
    (ask p c r).Preserves (Lawful c stack) := by
  intro s hs
  have hbare : bare ((ask p c r).exec s).2 = bare s := keeps_question hr (bare s) s rfl
  exact hs.congr (onShow_question hr s)
    (show (bare _).presenter = (bare s).presenter by rw [hbare])

/-- **Every call keeps the invariant**, if its presenter does while the call
is under way. -/
theorem Lawful.ask {r : Request} (hp : p.Preserves (Lawful c (r :: stack))) :
    (ask p c r).Preserves (Lawful c stack) := by
  cases r with
  | setup path timeout => exact (Lawful.setup hp).map _
  | teardown => exact (Lawful.teardown hp).bind fun _ => Preserves.pure _
  | _ => exact Lawful.question rfl

/-- **Every call keeps the laws of calls.** -/
theorem exchange_lawful (hs : Lawful c stack s) (r : Request) :
    (⟨stack, r, plain s, ((ask p c r).exec s).1, plain ((ask p c r).exec s).2⟩ :
      Exchange P).Lawful c := by
  refine ⟨fun hmem => ?_, fun hmem => ?_⟩
  · rw [exec_ask_tearingDown (hs.state.2 hmem)]
    exact ⟨rfl, rfl⟩
  · cases r with
    | setup path timeout =>
      intro hshown
      rcases hres : (setup p c path timeout).exec s with ⟨f | shown, t⟩
      · rw [ask, exec_map, hres] at hshown
        cases hshown
      · rw [ask, exec_map, hres] at hshown
        cases hshown
        obtain ⟨verdict, original, output, hprobe, hverdict, hsession⟩ := shown_of_setup hres
        have hafter : plain ((ask p c (.setup path timeout)).exec s).2 = plain t := by
          rw [ask, exec_map, hres]
        dsimp only
        rw [hafter]
        refine ⟨state_of_session hsession, verdict, original, hprobe, hverdict, ?_⟩
        change t.view.session.map (·.original) = some original
        rw [hsession]
        rfl
    | teardown =>
      have hnone : ((ask p c .teardown).exec s).2.view.session = none := by
        have hsnd : ((ask p c .teardown).exec s).2 = ((teardown p).exec s).2 := by
          rw [ask, exec_bind]
          rcases (teardown p).exec s with ⟨f | _, t⟩
          · rfl
          · rfl
        rw [hsnd]
        by_cases hact : s.view.state = .active
        · exact session_of_teardown hact
        · rw [exec_teardown_idle hact]
          refine hs.session ?_
          cases hstate : s.view.state with
          | inactive => rfl
          | active => exact absurd hstate hact
          | tearingDown => exact absurd (hs.state.1 hstate) hmem
      exact ⟨state_of_session_none hnone, hnone⟩
    | _ => trivial

/-! ## What a whole run keeps -/

theorem Lawful.note : (note stack).Preserves (Lawful (P := P) c stack) := by
  intro s hs
  refine ⟨hs.state, hs.session, fun x hx => ?_, hs.exchanges⟩
  rcases List.mem_append.1 hx with hx | hx
  · exact hs.moments x hx
  · rw [List.mem_singleton.1 hx]
    exact hs.state

theorem Lawful.change (deed : Stage P → Machine × P) :
    (change deed).Preserves (Lawful c stack) :=
  fun _ hs => ⟨hs.state, hs.session, hs.moments, hs.exchanges⟩

theorem Lawful.steady (c : Config) : Steady c (Lawful (P := P) c) where
  note _ := Lawful.note
  change _ deed := Lawful.change deed
  call stack r p hp s hs := by
    have hafter := Lawful.ask hp s hs
    have hexchange := exchange_lawful (p := p) hs r
    refine ⟨hafter.state, hafter.session, hafter.moments, fun e he => ?_⟩
    rcases List.mem_append.1 he with he | he
    · exact hafter.exchanges e he
    · rw [List.mem_singleton.1 he]
      exact hexchange

/-- A run ends with the invariant. -/
theorem Lawful.run (manner : Errand → Play P) (depth : Nat) (play : Play P) (machine : Machine)
    (presenter : P) : Lawful c [] (Reentry.run c manner depth play machine presenter) := by
  refine (Lawful.steady c).run manner depth play machine presenter ⟨?_, ?_, ?_, ?_⟩
  · exact iff_of_false ViewState.noConfusion List.not_mem_nil
  · exact fun _ => rfl
  · exact fun _ hx => absurd hx List.not_mem_nil
  · exact fun _ he => absurd he List.not_mem_nil

/-- **Re-entrant safety.** On a new view, whatever its presenter and the
program around it do, and however deeply their calls nest: at every moment
the view is being torn down exactly if a teardown is under way; a call that
comes while one is under way is turned away and changes nothing; a set-up
that succeeds leaves a listing of the file it probed itself, and any other
teardown leaves no session; and whenever no call is under way the view is
inactive or active. -/
theorem reentrant_calls_lawful (c : Config) (manner : Errand → Play P) (depth : Nat)
    (play : Play P) (machine : Machine) (presenter : P) :
    let final := run c manner depth play machine presenter
    (∀ x ∈ final.presenter.moments,
      (x.stage.view.state = .tearingDown ↔ Request.teardown ∈ x.stack)) ∧
    (∀ e ∈ final.presenter.exchanges, Request.teardown ∈ e.stack → e.TurnedAway) ∧
    (∀ e ∈ final.presenter.exchanges, Request.teardown ∉ e.stack → e.Settled c) ∧
    (∀ x ∈ final.presenter.moments, x.stack = [] →
      x.stage.view.state = .inactive ∨ x.stage.view.state = .active) ∧
    (final.view.state = .inactive ∨ final.view.state = .active) := by
  have hrun := Lawful.run (c := c) manner depth play machine presenter
  have hquiet : ∀ v : View, v.state ≠ .tearingDown → v.state = .inactive ∨ v.state = .active := by
    intro v hv
    cases hstate : v.state with
    | inactive => exact Or.inl rfl
    | active => exact Or.inr rfl
    | tearingDown => exact absurd hstate hv
  refine ⟨hrun.moments, fun e he => (hrun.exchanges e he).1, fun e he => (hrun.exchanges e he).2,
    fun x hx hstack => hquiet _ fun hdown => ?_, hquiet _ fun hdown => ?_⟩
  · have hmem := (hrun.moments x hx).1 hdown
    rw [hstack] at hmem
    exact List.not_mem_nil hmem
  · exact List.not_mem_nil (hrun.state.1 hdown)

end Reentry

end Disasm
