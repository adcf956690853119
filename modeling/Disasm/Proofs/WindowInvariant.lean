import Disasm.Proofs.HandlerList
import Disasm.Proofs.Lifecycle
import Disasm.Proofs.Restoring
import Disasm.Proofs.SavedSettings
import Disasm.Window.Navigation
/-!
# The window — what holds after every operation

Between two operations the window is in order: the view it holds is of a
listing on show, the menu offers what can be done with it and nothing
else, the pane shows the listing and cannot be edited, the colouring and
the title follow the name of what is shown. Every operation keeps this,
whether it returns or fails, and whatever happens to the machine between
two operations (`window_consistent`). The one operation that could leave
the menu behind is restoring, if it failed for something other than a
report of the system; a file that was accepted does not let that happen.
-/

namespace Disasm

open Act

/-! ## The screen -/

namespace Screen

/-- The title and the colouring go with the name of what is shown. -/
structure Coherent (marker : String) (s : Screen) : Prop where
  title : s.title = titleOf s.editor.identity
  highlighted : s.editor.highlighted = Text.endsWith s.editor.identity marker

/-- A text is shown that cannot be edited and was not. -/
structure Shows (s : Screen) (text : String) : Prop where
  readOnly : s.editor.readOnly = true
  unmodified : s.editor.modified = false
  text : s.editor.text = text

variable {c : Config} {s : Screen} {marker : String}

theorem coherent_setIdentity (marker : String) (s : Screen) (name : String) :
    (s.setIdentity marker name).Coherent marker :=
  ⟨rfl, rfl⟩

theorem preserves_showFile (c : Config) (l : Location) :
    (showFile c l).Preserves fun s => s.presenter.Coherent c.marker := by
  refine Preserves.bind (fun _ hs => hs) fun raw => ?_
  refine Preserves.bind (fun _ hs => ⟨hs.title, hs.highlighted⟩) fun _ => ?_
  exact fun s _ => coherent_setIdentity c.marker s.presenter l.display

theorem preserves_load (c : Config) (path : String) :
    (load c path).Preserves fun s => s.presenter.Coherent c.marker :=
  Preserves.bind (fun _ hs => hs) fun l => preserves_showFile c l

/-- Whatever a view has the screen do, the title and the colouring follow. -/
theorem preserves_coherent (c : Config) :
    (presenter c).Preserves fun s => s.presenter.Coherent c.marker where
  showText _ _ hs := ⟨hs.title, hs.highlighted⟩
  setIdentity name s _ := coherent_setIdentity c.marker s.presenter name
  markUnmodified _ hs := ⟨hs.title, hs.highlighted⟩
  restore original := preserves_showFile c original.location

/-- A listing that was presented is shown. -/
theorem shows_of_present {original : Identity} {text : String} {s t : Stage Screen}
    (h : (View.present (presenter c) marker original text).exec s = (.ok (), t)) :
    t.presenter.Shows text := by
  obtain ⟨⟨⟩, s₁, hshow, h⟩ := ok_of_exec_bind h
  obtain ⟨name, s₂, hname, h⟩ := ok_of_exec_bind h
  obtain ⟨⟨⟩, s₃, hnamed, h⟩ := ok_of_exec_bind h
  cases hshow
  cases congrArg Prod.snd hname
  cases hnamed
  cases h
  exact ⟨rfl, rfl, rfl⟩

end Screen

namespace Settings

/-- A configuration that was loaded has a suffix of listings with a dot. -/
theorem startsWith_load (store : Path) :
    (load store).Yields fun c => Text.startsWith c.marker "." = true := by
  have hdefaults : (saveDefaults store).Yields fun c => Text.startsWith c.marker "." = true :=
    Yields.bind fun _ => Yields.pure rfl
  have hnormal : ∀ s : Settings, (Act.ofExcept s.normalize : Act Machine Config).Yields
      fun c => Text.startsWith c.marker "." = true := by
    intro s m c m' hc
    have hnormalize : s.normalize = .ok c := congrArg Prod.fst hc
    rw [normalize] at hnormalize
    obtain ⟨marker, hmarker, h⟩ := ok_of_bind hnormalize
    obtain ⟨args, -, h⟩ := ok_of_bind h
    cases h
    exact startsWith_normalMarker hmarker
  rw [load_eq]
  refine Yields.bind fun found => Yields.ite hdefaults (Yields.bind fun text => ?_)
  refine Yields.bind fun m => ?_
  rcases Json.read text m.depth with (_ | _ | _) | v
  · exact Yields.bind fun _ => hdefaults
  · exact Yields.throw _
  · exact Yields.throw _
  · rcases hfields : v.fields? with _ | members
    · rw [adopt_bare hfields]
      exact hdefaults
    · rw [adopt_object hfields]
      exact hnormal _

end Settings

/-! ## Questions about the listing on show -/

namespace View

variable {P α : Type}

/-- An operation that answers while a listing is on show, and changes at
most which symbols are worked out. -/
structure Question (x : Act (Stage P) α) : Prop where
  keeps : x.Keeps bare
  returns : ∀ s : Stage P, s.view.state = .active → x.Returns s

theorem question_symbols : Question (symbols : Act (Stage P) SymbolTable) := by
  refine ⟨keeps_symbols, fun s hactive => ?_⟩
  obtain ⟨e, he, hstate⟩ := session_of_state hactive (by decide)
  refine Returns.bind_ok (exec_activeSession he hstate) ?_
  cases e.symbols with
  | some table => exact ⟨table, rfl⟩
  | none => exact ⟨Listing.index e.output.text, rfl⟩

/-- What is worked out from the symbols is a question too. -/
theorem Question.of_symbols {f : SymbolTable → Act (Stage P) α} (hkeeps : ∀ t, (f t).Keeps bare)
    (htotal : ∀ t, (f t).Total) : Question (symbols >>= f) := by
  refine ⟨fun v => (keeps_symbols v).bind fun t => hkeeps t v, fun s hactive => ?_⟩
  obtain ⟨table, htable⟩ := question_symbols.returns s hactive
  exact Returns.bind_ok (Prod.ext htable rfl) (htotal table _)

theorem question_byAddress : Question (byAddress : Act (Stage P) (List (Int × String))) :=
  .of_symbols (fun _ v => (keeps_keepSymbols _ v).bind fun _ => Preserves.pure _)
    fun _ => (Total.modify _).bind fun _ => Total.pure _

theorem question_addressOf (name : String) :
    Question (addressOf name : Act (Stage P) (Option Int)) :=
  .of_symbols (fun _ _ => Preserves.pure _) fun _ => Total.pure _

theorem question_lineOf (name : String) : Question (lineOf name : Act (Stage P) (Option Int)) :=
  .of_symbols (fun _ _ => Preserves.pure _) fun _ => Total.pure _

theorem question_symbolAt (address : Int) :
    Question (symbolAt address : Act (Stage P) (Option String)) :=
  .of_symbols (fun _ v => (keeps_keepSymbols _ v).bind fun _ => Preserves.pure _)
    fun _ => (Total.modify _).bind fun _ => Total.pure _

end View

namespace Window

/-! ## The invariant -/

/-- A view is of a listing that the screen shows, and whose file can be
asked for again. -/
def Presented (ssh : Json) (screen : Screen) (v : View) : Prop :=
  ∃ e, v.session = some e ∧ e.state = .active ∧ screen.Shows e.output.text ∧
    Restorable ssh e.original.location

/-- What holds of a window that was started with a configuration, whichever
view it holds. -/
structure Furnished (c : Config) (w : Window) : Prop where
  /-- Of the configuration only the path opened last has changed. -/
  config : ∃ last, w.config = { c with lastOpened := last }
  registry : w.registry = ({} : Registry Config).register Opening.handlerName c
  coherent : w.screen.Coherent c.marker

/-- A window that was started with a configuration is in order. -/
structure Invariant (c : Config) (w : Window) : Prop extends Furnished c w where
  actions : w.actions.restore = w.view.isSome ∧ w.actions.goToSymbol = w.view.isSome ∧
    w.actions.goToAddress = w.view.isSome
  presented : ∀ v, w.view = some v → Presented c.ssh w.screen v

/-- A window in order that holds no view. -/
def Idle (c : Config) (w : Window) : Prop :=
  Invariant c w ∧ w.view = none

/-- A window in order that holds a view. -/
def Busy (c : Config) (w : Window) : Prop :=
  Invariant c w ∧ w.view.isSome = true

variable {c : Config} {w w' : Window} {α : Type}

/-- The part of a window that the invariant is about. -/
def essence (w : Window) : Config × Registry Config × Screen × Option View × Actions :=
  (w.config, w.registry, w.screen, w.view, w.actions)

theorem Invariant.congr (h : Invariant c w) (hsame : w'.essence = w.essence) :
    Invariant c w' := by
  simp only [essence, Prod.mk.injEq] at hsame
  obtain ⟨hconfig, hregistry, hscreen, hview, hactions⟩ := hsame
  refine ⟨⟨?_, ?_, ?_⟩, ?_, ?_⟩
  · rw [hconfig]
    exact h.config
  · rw [hregistry]
    exact h.registry
  · rw [hscreen]
    exact h.coherent
  · rw [hactions, hview]
    exact h.actions
  · rw [hscreen, hview]
    exact h.presented

theorem Busy.congr (h : Busy c w) (hsame : w'.essence = w.essence) : Busy c w' := by
  refine ⟨h.1.congr hsame, ?_⟩
  have hview : w'.view = w.view := congrArg (fun e => e.2.2.2.1) hsame
  rw [hview]
  exact h.2

/-- The stage that the screen of a window is for a view. -/
def stage (w : Window) (v : View) : Stage Screen where
  machine := w.machine
  view := v
  presenter := w.screen

theorem exec_onStage (v : View) (x : Act (Stage Screen) α) (w : Window) :
    (onStage v x).exec w = ((x.exec (w.stage v)).1, { w with
      machine := (x.exec (w.stage v)).2.machine
      screen := (x.exec (w.stage v)).2.presenter }) := rfl

theorem exec_onView (x : Act (Stage Screen) α) {v : View} (hv : w.view = some v) :
    (onView x).exec w = ((x.exec (w.stage v)).1, { w with
      machine := (x.exec (w.stage v)).2.machine
      screen := (x.exec (w.stage v)).2.presenter
      view := some (x.exec (w.stage v)).2.view }) := by
  have hexec : (onView x).exec w = ((x.exec (w.stage (w.view.getD {}))).1, { w with
      machine := (x.exec (w.stage (w.view.getD {}))).2.machine
      screen := (x.exec (w.stage (w.view.getD {}))).2.presenter
      view := w.view.map fun _ => (x.exec (w.stage (w.view.getD {}))).2.view }) := rfl
  simp only [hexec, hv, Option.getD_some, Option.map_some]

/-! ## Dialogs and messages -/

theorem exec_tell (d : Dialog) (w : Window) :
    (tell d).exec w = (.ok (), { w with dialogs := w.dialogs ++ [d] }) := rfl

theorem exec_setStatus (status : String) (w : Window) :
    (setStatus status).exec w = (.ok (), { w with status }) := rfl

theorem exec_ask (d : Dialog) (w : Window) :
    ∃ a w', (ask d).exec w = (.ok a, w') ∧ w'.essence = w.essence := by
  rw [ask, exec_bind_ok (exec_tell d w), exec_bind_ok (exec_get _)]
  cases w.answers with
  | nil => exact ⟨none, _, rfl, rfl⟩
  | cons a rest => exact ⟨a, _, rfl, rfl⟩

/-! ## Going somewhere in the listing -/

theorem sustains_tell (d : Dialog) : (tell d).Sustains (Busy c) :=
  fun w hw => ⟨(), _, exec_tell d w, hw.congr rfl⟩

theorem sustains_setStatus (status : String) : (setStatus status).Sustains (Busy c) :=
  fun w hw => ⟨(), _, exec_setStatus status w, hw.congr rfl⟩

theorem sustains_ask (d : Dialog) : (ask d).Sustains (Busy c) := by
  intro w hw
  obtain ⟨a, w', hask, hsame⟩ := exec_ask d w
  exact ⟨a, w', hask, hw.congr hsame⟩

/-- A view with the same session but for the symbols is presented as well. -/
theorem Presented.of_bare {ssh : Json} {s t : Stage Screen}
    (h : Presented ssh s.presenter s.view) (hbare : View.bare t = View.bare s) :
    Presented ssh t.presenter t.view := by
  obtain ⟨e, he, hactive, hshows, hrestorable⟩ := h
  have hscreen := congrArg (fun u : Stage Screen => u.presenter) hbare
  change t.presenter = s.presenter at hscreen
  have hsession : t.view.session.map (fun e => { e with symbols := none }) =
      some { e with symbols := none } := by
    have hsame := congrArg (fun u : Stage Screen => u.view.session) hbare
    rw [View.bare, View.bare, Stage.withSession_session, Stage.withSession_session, he] at hsame
    exact hsame
  obtain ⟨e', he', hfields⟩ := Option.map_eq_some_iff.1 hsession
  rw [Session.mk.injEq] at hfields
  obtain ⟨horiginal, houtput, hstate, -⟩ := hfields
  refine ⟨e', he', hstate.trans hactive, ?_, ?_⟩
  · rw [hscreen, houtput]
    exact hshows
  · rw [horiginal]
    exact hrestorable

/-- What is done on the view of a window that leaves the pane as it was, but
for the cursor, keeps the window in order. -/
theorem Busy.onView {x : Act (Stage Screen) α} {v : View} (hw : Invariant c w)
    (hv : w.view = some v) {a : α} {t : Stage Screen} (hx : x.exec (w.stage v) = (.ok a, t))
    (hcoherent : t.presenter.Coherent c.marker) (hpresented : Presented c.ssh t.presenter t.view) :
    ∃ b w', (onView x).exec w = (.ok b, w') ∧ Busy c w' := by
  have hend := exec_onView x hv
  rw [hx] at hend
  refine ⟨a, _, hend, ⟨⟨hw.config, hw.registry, hcoherent⟩, ?_, ?_⟩, rfl⟩
  · have hactions := hw.actions
    rw [hv] at hactions
    exact hactions
  · intro other hother
    cases hother
    exact hpresented

/-- A question about the listing on show is answered. -/
theorem sustains_onView {x : Act (Stage Screen) α} (hx : View.Question x) :
    (onView x).Sustains (Busy c) := by
  rintro w ⟨hw, hview⟩
  obtain ⟨v, hv⟩ := Option.isSome_iff_exists.1 hview
  have hpresented : Presented c.ssh (w.stage v).presenter (w.stage v).view := hw.presented v hv
  obtain ⟨e, he, hactive, -⟩ := hpresented
  obtain ⟨a, ha⟩ := hx.returns (w.stage v) ((View.state_of_session he).trans hactive)
  have hbare : View.bare (x.exec (w.stage v)).2 = View.bare (w.stage v) :=
    hx.keeps _ (w.stage v) rfl
  have hscreen : (x.exec (w.stage v)).2.presenter = w.screen :=
    congrArg (fun u : Stage Screen => u.presenter) hbare
  refine Busy.onView hw hv (Prod.ext ha rfl) ?_ ((hw.presented v hv).of_bare hbare)
  rw [hscreen]
  exact hw.coherent

/-- The cursor moves and nothing else does. -/
theorem sustains_goToLine (line : Int) :
    (onView (Screen.updateEditor (·.goToLine line))).Sustains (Busy c) := by
  rintro w ⟨hw, hview⟩
  obtain ⟨v, hv⟩ := Option.isSome_iff_exists.1 hview
  obtain ⟨e, he, hactive, hshows, hrestorable⟩ := hw.presented v hv
  have hsame : ∃ n, w.screen.editor.goToLine line = { w.screen.editor with line := n } := by
    rw [Editor.goToLine]
    split
    · exact ⟨line, rfl⟩
    · exact ⟨w.screen.editor.line, rfl⟩
  obtain ⟨n, hn⟩ := hsame
  have hmove : (Screen.updateEditor (·.goToLine line)).exec (w.stage v) = (.ok (),
      { w.stage v with presenter :=
        { w.screen with editor := { w.screen.editor with line := n } } }) := by
    rw [← hn]
    rfl
  refine Busy.onView hw hv hmove ⟨hw.coherent.title, hw.coherent.highlighted⟩ ?_
  exact ⟨e, he, hactive, ⟨hshows.readOnly, hshows.unmodified, hshows.text⟩, hrestorable⟩

/-- What is done only with a view in hand keeps every window in order, and a
view in hand if there was one. -/
theorem Busy.guarded {x : Act Window α} {a : α} (hx : x.Sustains (Busy c)) :
    (do
      if (← get).view.isNone then return a
      x : Act Window α).Sustains (Invariant c) ∧
    (do
      if (← get).view.isNone then return a
      x : Act Window α).Sustains (Busy c) := by
  constructor
  · intro w hw
    rw [exec_bind_ok (exec_get w)]
    by_cases hview : w.view.isNone = true
    · rw [if_pos hview]
      exact ⟨a, w, rfl, hw⟩
    · rw [if_neg hview]
      have hbusy : Busy c w := ⟨hw, by simpa [Option.isSome_iff_ne_none] using hview⟩
      obtain ⟨b, w', hend, hw'⟩ := hx w hbusy
      exact ⟨b, w', hend, hw'.1⟩
  · intro w hw
    have hview : ¬w.view.isNone = true := by
      simpa [Option.isSome_iff_ne_none] using hw.2
    rw [exec_bind_ok (exec_get w), if_neg hview]
    exact hx w hw

/-- **Jumping to a symbol returns**, and the window stays in order. -/
theorem sustains_jumpTo (name : String) :
    (jumpTo name).Sustains (Invariant c) ∧ (jumpTo name).Sustains (Busy c) := by
  refine Busy.guarded ?_
  refine (sustains_onView (View.question_lineOf name)).bind fun found => ?_
  cases found with
  | none => exact (sustains_setStatus _).bind fun _ => Sustains.pure _
  | some line =>
    refine (sustains_goToLine line).bind fun _ => ?_
    refine (sustains_onView (View.question_addressOf name)).bind fun address => ?_
    exact (sustains_setStatus _).bind fun _ => Sustains.pure _

/-- **Going to a symbol returns**, and the window stays in order. -/
theorem sustains_goToSymbol : goToSymbol.Sustains (Invariant c) := by
  refine (Busy.guarded ?_).1
  refine (sustains_onView View.question_byAddress).bind fun pairs => ?_
  refine Sustains.ite (sustains_setStatus _) ?_
  refine (sustains_ask _).bind fun answer => ?_
  exact Sustains.ite ((sustains_jumpTo _).2.map _) (Sustains.pure _)

/-- **Going to an address returns**, and the window stays in order. -/
theorem sustains_goToAddress : goToAddress.Sustains (Invariant c) := by
  refine (Busy.guarded ?_).1
  refine (sustains_ask _).bind fun answer => ?_
  refine Sustains.ite (Sustains.pure _) ?_
  split
  · refine (sustains_onView (View.question_symbolAt _)).bind fun found => ?_
    cases found with
    | some name => exact (sustains_jumpTo name).2.map _
    | none => exact sustains_setStatus _
  · exact sustains_tell _

/-! ## Restoring -/

end Window

namespace Screen

variable {c : Config} {l : Location} {s : Stage Screen}

theorem halts_showFile (h : Restorable c.ssh l) : (showFile c l).Halts false s := by
  have hread : (View.onMachine (readOriginal c l) : Act (Stage Screen) Bytes).Halts false s :=
    ⟨(h s.machine).refusal, (h s.machine).report⟩
  exact hread.bind fun raw t _ => .bind_ok rfl (Returns.halts ⟨(), rfl⟩)

/-- Putting a file back fails only as the system reports. -/
theorem halts_teardown {e : Session} (hs : s.view.session = some e) (he : e.state = .active)
    (h : Restorable c.ssh e.original.location) : (View.teardown (presenter c)).Halts false s := by
  have hback : (View.putBack (presenter c) e.original).Halts false (View.leaving s e) :=
    .bind_ok rfl (halts_showFile h)
  refine ⟨fun hblocked => (Bool.false_ne_true hblocked).elim, fun _ f hf => ?_⟩
  rcases hend : (View.putBack (presenter c) e.original).exec (View.leaving s e) with ⟨g | _, t⟩
  · rw [View.exec_teardown_error hs he hend] at hf
    cases hf
    exact hback.report rfl _ (congrArg Prod.fst hend)
  · rw [View.exec_teardown_ok hs he hend] at hf
    cases hf

end Screen

namespace Window

variable {c : Config} {w w' : Window} {α : Type}

/-- **Once the actions follow the view, the window is in order**, if the view
is of a listing on show. -/
theorem Furnished.sync (hw : Furnished c w)
    (h : ∀ v, w.view = some v → Presented c.ssh w.screen v) :
    Invariant c (syncActions.exec w).2 := by
  have hshown : w.view.any (·.isActive) = w.view.isSome := by
    rcases hv : w.view with _ | v
    · rfl
    · obtain ⟨e, he, hactive, -⟩ := h v hv
      have hstate : v.state = .active := (View.state_of_session he).trans hactive
      simp [View.isActive, hstate]
  exact ⟨⟨hw.config, hw.registry, hw.coherent⟩, ⟨hshown, hshown, hshown⟩, h⟩

/-- A window without a view is in order once the actions follow. -/
theorem Furnished.sync_none (hw : Furnished c w) (hview : w.view = none) :
    Idle c (syncActions.exec w).2 := by
  refine ⟨hw.sync fun v hv => ?_, hview⟩
  rw [hview] at hv
  cases hv

/-- **Restoring returns**, and the window is in order without a view. -/
theorem idle_restoreOriginal (hw : Invariant c w) :
    ∃ w', restoreOriginal.exec w = (.ok (), w') ∧ Idle c w' := by
  rw [restoreOriginal, exec_bind_ok (exec_get w)]
  rcases hv : w.view with _ | v
  · exact ⟨w, rfl, hw, hv⟩
  obtain ⟨e, hs, he, -, hrestorable⟩ := hw.presented v hv
  obtain ⟨last, hconfig⟩ := hw.config
  have hssh : w.config.ssh = c.ssh := by rw [hconfig]
  have hmarker : w.config.marker = c.marker := by
    rw [hconfig]
    rfl
  -- The screen stays coherent while the file is put back, and what fails is a report.
  have hcoherent : Screen.Coherent c.marker
      ((View.teardown (Screen.presenter w.config)).exec (w.stage v)).2.presenter := by
    have hlasts := View.preserves_teardown
      (View.lasting_presenter (fun screen : Screen => screen.Coherent w.config.marker) w.config)
      (Screen.preserves_coherent w.config) (w.stage v)
    rw [hmarker] at hlasts
    exact hlasts hw.coherent
  have hreport := (Screen.halts_teardown (c := w.config) (s := w.stage v) hs he
    (hssh ▸ hrestorable)).report rfl
  have hstage := exec_onStage v (View.teardown (Screen.presenter w.config)) { w with view := none }
  have hsame : ({ w with view := none } : Window).stage v = w.stage v := rfl
  rw [hsame] at hstage
  dsimp only
  rw [exec_bind_ok (exec_set w _)]
  rcases hend : (View.teardown (Screen.presenter w.config)).exec (w.stage v) with ⟨f | _, t⟩
  · rw [hend] at hstage hcoherent
    have hsystem := hreport f (congrArg Prod.fst hend)
    have htold := exec_recover (onStage v (View.teardown (Screen.presenter w.config)))
      Failure.isSystem (fun f => tell (.critical "Unable to restore original" f.message))
      { w with view := none }
    rw [hstage] at htold
    dsimp only at htold
    rw [if_pos hsystem, exec_tell] at htold
    rw [exec_bind_ok htold]
    exact ⟨_, rfl, Furnished.sync_none ⟨hw.config, hw.registry, hcoherent⟩ rfl⟩
  · rw [hend] at hstage hcoherent
    have hdone := exec_recover (onStage v (View.teardown (Screen.presenter w.config)))
      Failure.isSystem (fun f => tell (.critical "Unable to restore original" f.message))
      { w with view := none }
    rw [hstage] at hdone
    rw [exec_bind_ok hdone]
    exact ⟨_, rfl, Furnished.sync_none ⟨hw.config, hw.registry, hcoherent⟩ rfl⟩

/-! ## Opening -/

theorem Idle.congr (h : Idle c w) (hsame : w'.essence = w.essence) : Idle c w' := by
  refine ⟨h.1.congr hsame, ?_⟩
  have hview : w'.view = w.view := congrArg (fun e => e.2.2.2.1) hsame
  rw [hview]
  exact h.2

theorem idle_onMachine (x : Act Machine α) : (onMachine x).Preserves (Idle c) :=
  fun _ hw => hw.congr rfl

/-- What leaves the title and the colouring in order on the screen of an idle
window leaves the window in order. -/
theorem idle_onStage {x : Act (Stage Screen) α}
    (hx : x.Preserves fun s => s.presenter.Coherent c.marker) (v : View) :
    (onStage v x).Preserves (Idle c) := by
  rintro w ⟨hw, hview⟩
  rw [exec_onStage]
  refine ⟨⟨⟨hw.config, hw.registry, hx (w.stage v) hw.coherent⟩, hw.actions, fun u hu => ?_⟩, hview⟩
  change w.view = some u at hu
  rw [hview] at hu
  cases hu

theorem idle_remember (path : String) : (remember path).Preserves (Idle c) := by
  refine Preserves.bind ?_ fun _ => Preserves.get.bind fun w => idle_onMachine _
  rintro w ⟨hw, hview⟩
  obtain ⟨last, hconfig⟩ := hw.config
  refine ⟨⟨⟨⟨.str path, ?_⟩, hw.registry, hw.coherent⟩, hw.actions, hw.presented⟩, hview⟩
  change { w.config with lastOpened := Json.str path } = _
  rw [hconfig]

/-- A listing that was opened is presented. -/
theorem presented_of_openListing {path : String} {s t : Stage Screen} {v : View}
    (h : (Opening.openListing (Screen.presenter c) c path).exec s = (.ok (some v), t)) :
    Presented c.ssh t.presenter v := by
  rw [Opening.openListing, exec_bind_ok (exec_modify _ s)] at h
  obtain ⟨shown, s₁, hsetup, h⟩ := ok_of_exec_bind h
  cases shown with
  | false => cases h
  | true =>
    cases h
    obtain ⟨verdict, original, output, s₂, s₃, hprobe, hverdict, hpresent, hscreen, hsession⟩ :=
      View.presented_of_setup hsetup
    refine ⟨{ original, output }, hsession, rfl, ?_, Probe.restorable_of_accepted hprobe hverdict⟩
    rw [hscreen]
    exact Screen.shows_of_present hpresent

theorem preserves_openListing (c : Config) (path : String) :
    (Opening.openListing (Screen.presenter c) c path).Preserves
      fun s => s.presenter.Coherent c.marker := by
  refine Preserves.bind (fun _ hs => hs) fun _ => ?_
  refine Preserves.bind ?_ fun shown => ?_
  · exact View.preserves_setup (View.lasting_presenter (fun s : Screen => s.Coherent c.marker) c)
      (Screen.preserves_coherent c) path none
  · exact Preserves.ite (Preserves.get.bind fun _ => Preserves.pure _) (Preserves.pure _)

/-- A window has one handler to ask, and opens the listing if that takes the
file. -/
theorem exec_dispatch (hw : w.registry = ({} : Registry Config).register Opening.handlerName c)
    (path : String) :
    (dispatch path).exec w = (do
      if ← onMachine (Opening.looksDisassemblable c path) then
        onMachine (Registry.announce path Opening.handlerName)
        onStage {} (Opening.openListing (Screen.presenter c) c path)
      else return none : Act Window (Option View)).exec w := by
  have hentries : w.registry.entries = [⟨Opening.handlerName, c⟩] := by
    rw [hw]
    rfl
  have hask : ∀ h, ((behave h).accepts path).Keeps Window.registry := fun _ _ _ hw => hw
  rw [dispatch, exec_bind, Registry.exec_dispatch_of_keeps hask, ← exec_bind, hentries,
    Registry.openWith, bind_assoc]
  refine congrArg (fun x : Act Window (Option View) => x.exec w) (bind_congr fun taken => ?_)
  cases taken with
  | false => rfl
  | true =>
    dsimp only
    rw [if_pos rfl, if_pos rfl, bind_assoc]
    refine bind_congr fun _ => ?_
    rw [bind_assoc]
    exact bind_pure _

/-- What dispatching a file can do to an idle window, and what it returns. -/
theorem idle_dispatch (hw : Idle c w) (path : String) :
    Idle c ((dispatch path).exec w).2 ∧
      ∀ v, ((dispatch path).exec w).1 = .ok (some v) →
        Presented c.ssh ((dispatch path).exec w).2.screen v := by
  have hdispatch := exec_dispatch hw.1.registry path
  have hopen := idle_onStage (preserves_openListing c path) {}
  constructor
  · rw [hdispatch]
    refine Preserves.bind (idle_onMachine _) (fun taken => ?_) w hw
    exact Preserves.ite ((idle_onMachine _).bind fun _ => hopen) (Preserves.pure _)
  · intro v hv
    have hend : (dispatch path).exec w = (.ok (some v), ((dispatch path).exec w).2) :=
      Prod.ext hv rfl
    rw [hdispatch] at hend ⊢
    obtain ⟨taken, w₁, -, hrest⟩ := ok_of_exec_bind hend
    cases taken with
    | false => cases hrest
    | true =>
      obtain ⟨_, w₂, -, hlisting⟩ := ok_of_exec_bind hrest
      rw [exec_onStage, Prod.mk.injEq] at hlisting
      rw [← hlisting.2]
      exact presented_of_openListing (Prod.ext hlisting.1 rfl)

/-- A view that was made by opening a file is adopted. -/
theorem invariant_adopt (hw : Idle c w) (path : String) {view : Option View}
    (h : ∀ v, view = some v → Presented c.ssh w.screen v) :
    Invariant c ((adopt path view).exec w).2 := by
  have hview : Furnished c { w with view } := ⟨hw.1.config, hw.1.registry, hw.1.coherent⟩
  have hsync := hview.sync h
  rw [adopt, exec_bind_ok (exec_modify _ w)]
  refine Preserves.after hsync fun _ => ?_
  refine Preserves.ite ?_ ?_
  · exact Preserves.bind (fun _ hw => hw.congr rfl) fun _ => Preserves.pure _
  · exact Preserves.bind (fun _ hw => hw.congr rfl) fun _ => Preserves.pure _

/-- What becomes of a file that was read and remembered. -/
def exhibit (path : String) : Act Window Bool := do
  match ← (dispatch path).attempt with
  | .ok view => adopt path view
  | .error f =>
    if !f.isBackend then throw f
    tell (.critical "Disassembly failed" f.message)
    return false

/-- How opening a file goes on once the original was put back. -/
theorem exec_openPath {path : String} {w₁ : Window}
    (hrestore : restoreOriginal.exec w = (.ok (), w₁)) :
    (openPath path).exec w =
      match (onStage {} (Screen.load w₁.config path)).exec w₁ with
      | (.ok _, w₂) => (do remember path; exhibit path : Act Window Bool).exec w₂
      | (.error f, w₂) =>
        if f.isSystem || f.isValue then
          (.ok false,
            { w₂ with dialogs := w₂.dialogs ++ [.critical "Unable to open file" f.message] })
        else (.error f, w₂) := by
  rw [openPath, exec_bind_ok hrestore, exec_bind_ok (exec_get w₁), exec_bind_ok (exec_attempt _ w₁)]
  rcases (onStage {} (Screen.load w₁.config path)).exec w₁ with ⟨f | _, w₂⟩
  · dsimp only
    rcases f.isSystem || f.isValue with _ | _
    · rfl
    · rfl
  · rfl

theorem preserves_exhibit {path : String} (hw : Idle c w) :
    Invariant c ((exhibit path).exec w).2 := by
  obtain ⟨hdispatched, hpresented⟩ := idle_dispatch hw path
  rw [exhibit, exec_bind_ok (exec_attempt _ w)]
  rcases hdispatch : (dispatch path).exec w with ⟨f | view, w'⟩
  · rw [hdispatch] at hdispatched
    have htold : ∀ d, (do tell d; return false : Act Window Bool).Preserves (Idle c) :=
      fun d => Preserves.bind (fun _ hw => hw.congr rfl) fun _ => Preserves.pure _
    exact (Preserves.ite ((Preserves.throw f).bind fun _ => htold _) (htold _) w' hdispatched).1
  · rw [hdispatch] at hdispatched hpresented
    exact invariant_adopt hdispatched path fun v hv => hpresented v (congrArg Except.ok hv)

/-- **Opening a file keeps the window in order**, however it ends. -/
theorem preserves_openPath (path : String) : (openPath path).Preserves (Invariant c) := by
  intro w hw
  obtain ⟨w₁, hrestore, hidle⟩ := idle_restoreOriginal hw
  obtain ⟨last, hconfig⟩ := hidle.1.config
  have hmarker : w₁.config.marker = c.marker := by
    rw [hconfig]
    rfl
  have hload : (onStage {} (Screen.load w₁.config path)).Preserves (Idle c) :=
    idle_onStage (hmarker ▸ Screen.preserves_load w₁.config path) {}
  have hloaded := hload w₁ hidle
  rw [exec_openPath hrestore]
  rcases hend : (onStage {} (Screen.load w₁.config path)).exec w₁ with ⟨f | _, w₂⟩
  · rw [hend] at hloaded
    dsimp only
    split
    · exact hloaded.1.congr rfl
    · exact hloaded.1
  · rw [hend] at hloaded
    have hremembered := idle_remember path w₂ hloaded
    dsimp only
    rcases hremember : (remember path).exec w₂ with ⟨f | _, w₃⟩
    · rw [hremember] at hremembered
      rw [exec_bind_error hremember]
      exact hremembered.1
    · rw [hremember] at hremembered
      rw [exec_bind_ok hremember]
      exact preserves_exhibit hremembered

/-! ## Runs -/

/-- What can be asked of a window. -/
inductive Operation where
  | openPath (path : String)
  | restoreOriginal
  | goToSymbol
  | goToAddress
  | jumpTo (name : String)
  | close
  deriving Repr, DecidableEq

/-- Whether an operation only goes somewhere in the listing on show. -/
def Operation.isNavigation : Operation → Bool
  | .goToSymbol | .goToAddress | .jumpTo _ => true
  | .openPath _ | .restoreOriginal | .close => false

/-- Does what is asked. -/
def Operation.run : Operation → Act Window Unit
  | .openPath path => discard (Window.openPath path)
  | .restoreOriginal => Window.restoreOriginal
  | .goToSymbol => Window.goToSymbol
  | .goToAddress => Window.goToAddress
  | .jumpTo name => discard (Window.jumpTo name)
  | .close => Window.close

/-- What a window can come to: operations are asked of it, each of which
returns or fails, and between them the machine changes in any way and the
user makes up his mind anew. -/
inductive Reached (first : Window) : Window → Prop
  | start : Reached first first
  | operate {w : Window} (op : Operation) : Reached first w → Reached first (op.run.exec w).2
  | elsewhere {w : Window} (machine : Machine) (answers : List (Option String)) :
      Reached first w → Reached first { w with machine, answers }

/-- Going somewhere in the listing returns. -/
theorem sustains_navigation {op : Operation} (h : op.isNavigation = true) :
    op.run.Sustains (Invariant c) := by
  cases op with
  | goToSymbol => exact sustains_goToSymbol
  | goToAddress => exact sustains_goToAddress
  | jumpTo name => exact (sustains_jumpTo name).1.map _
  | openPath path => cases h
  | restoreOriginal => cases h
  | close => cases h

/-- **Every operation keeps the window in order**, whether it returns or
fails. -/
theorem preserves_operation (op : Operation) : op.run.Preserves (Invariant c) := by
  have hrestore : restoreOriginal.Preserves (Invariant c) := by
    intro w hw
    obtain ⟨w', hend, hidle⟩ := idle_restoreOriginal hw
    rw [hend]
    exact hidle.1
  cases op with
  | openPath path => exact (preserves_openPath path).map _
  | restoreOriginal => exact hrestore
  | close => exact hrestore
  | goToSymbol => exact (sustains_navigation rfl).preserves
  | goToAddress => exact (sustains_navigation rfl).preserves
  | jumpTo name =>
    have hnavigation : (Operation.jumpTo name).isNavigation = true := rfl
    exact (sustains_navigation hnavigation).preserves

theorem Reached.invariant {first : Window} (h : Reached first w) (hfirst : Invariant c first) :
    Invariant c w := by
  induction h with
  | start => exact hfirst
  | operate op _ ih => exact preserves_operation op _ ih
  | elsewhere machine answers _ ih => exact ih.congr rfl

/-- A window is started with the configuration given, or with the one that
was loaded. -/
theorem eq_of_start {store : Path} {config : Option Config} {m m' : Machine}
    (h : (start store config).exec m = (.ok w, m')) :
    ∃ c, (config = some c ∨ (Settings.load store).exec m = (.ok c, m')) ∧
      w = { machine := m', store, config := c,
            registry := ({} : Registry Config).register Opening.handlerName c } := by
  cases config with
  | some c =>
    cases h
    exact ⟨c, .inl rfl, rfl⟩
  | none =>
    rw [start] at h
    obtain ⟨c, m₁, hload, hwindow⟩ := ok_of_exec_bind h
    cases hwindow
    exact ⟨c, .inr hload, rfl⟩

/-- A window that was started is in order, if the suffix of listings is not
empty. -/
theorem invariant_start {store : Path} {config : Option Config} {m m' : Machine}
    (h : (start store config).exec m = (.ok w, m'))
    (hgiven : ∀ c, config = some c → c.marker ≠ "") : Invariant w.config w := by
  obtain ⟨c, hconfig, rfl⟩ := eq_of_start h
  have hmarker : c.marker ≠ "" := by
    rcases hconfig with hconfig | hload
    · exact hgiven c hconfig
    · intro hempty
      have hdot : Text.startsWith c.marker "." = true := Settings.startsWith_load store m c m' hload
      rw [hempty] at hdot
      cases hdot
  -- Nothing is shown yet, and that has an empty name.
  have hplain : Text.endsWith "" c.marker = false := by
    rw [Text.endsWith, Bool.eq_false_iff]
    intro hsuffix
    have hempty : c.marker.toList = [] := by
      simpa using List.isSuffixOf_iff_suffix.1 hsuffix
    exact hmarker (String.toList_eq_nil_iff.1 hempty)
  exact ⟨⟨⟨c.lastOpened, rfl⟩, rfl, ⟨rfl, hplain.symm⟩⟩, ⟨rfl, rfl, rfl⟩, fun v hv => by cases hv⟩

/-- A window as the user meets it: the view it holds, if any, is active, the
actions on listings are enabled as long as it holds one, the pane then shows
just the text of the view and cannot be edited, and the colouring and the
title go with the name of what is shown. -/
structure Consistent (w : Window) : Prop where
  active : ∀ v, w.view = some v → v.isActive = true
  actions : w.actions.restore = w.view.isSome ∧ w.actions.goToSymbol = w.view.isSome ∧
    w.actions.goToAddress = w.view.isSome
  pane : w.view.isSome = true →
    w.screen.editor.readOnly = true ∧ w.screen.editor.modified = false ∧
      (onView View.text).exec w = (.ok w.screen.editor.text, w)
  highlighted : w.screen.editor.highlighted =
    Text.endsWith w.screen.editor.identity w.config.marker
  title : w.screen.title = Screen.titleOf w.screen.editor.identity

theorem Invariant.consistent (h : Invariant c w) : Consistent w := by
  obtain ⟨last, hconfig⟩ := h.config
  refine ⟨fun v hv => ?_, h.actions, fun hview => ?_, ?_, h.coherent.title⟩
  · obtain ⟨e, he, hactive, -⟩ := h.presented v hv
    rw [View.isActive, View.state_of_session he, hactive]
    rfl
  · obtain ⟨v, hv⟩ := Option.isSome_iff_exists.1 hview
    obtain ⟨e, he, hactive, hshows, -⟩ := h.presented v hv
    refine ⟨hshows.readOnly, hshows.unmodified, ?_⟩
    have htext : (View.text : Act (Stage Screen) String).exec (w.stage v) =
        (.ok e.output.text, w.stage v) := by
      have hsession : (View.activeSession : Act (Stage Screen) Session).exec (w.stage v) =
          (.ok e, w.stage v) := View.exec_activeSession he hactive
      rw [View.text, exec_bind_ok hsession]
      rfl
    have hsame : { w with view := some v } = w := by
      rw [← hv]
    rw [exec_onView _ hv, htext, hshows.text]
    exact congrArg (Prod.mk _) hsame
  · rw [h.coherent.highlighted, hconfig]
    rfl

/-- **A window is consistent after every operation**, whether that returned
or failed and whatever has become of the machine since, and going somewhere
in the listing never fails. -/
theorem window_consistent {store : Path} {config : Option Config} {m m' : Machine}
    {first : Window} (hgiven : ∀ c, config = some c → c.marker ≠ "")
    (hstart : (start store config).exec m = (.ok first, m')) (h : Reached first w) :
    Consistent w ∧ ∀ op : Operation, op.isNavigation = true → (op.run.exec w).1 = .ok () := by
  have hw := h.invariant (invariant_start hstart hgiven)
  refine ⟨hw.consistent, fun op hop => ?_⟩
  obtain ⟨⟨⟩, w', hend, -⟩ := sustains_navigation hop w hw
  rw [hend]

/-- A window on a machine with a file and a backend that reads it. -/
def furnished : Window where
  machine := Probe.furnished
  store := Path.ofString "/s"
  config := {}
  registry := ({} : Registry Config).register Opening.handlerName {}

/-- The window once the file is read. -/
def loaded : Window :=
  ((onStage {} (Screen.load {} "/a")).exec furnished).2

/-- The window once the path of the file is remembered, here and in the
settings file. -/
def remembering : Window :=
  { loaded with
    config := { lastOpened := .str "/a" }
    machine := { Probe.furnished with files := { nodes := [(["a"], .file [0] false),
      (["objdump"], .file [] true),
      (["s"], .file (Settings.stored
        { Settings.defaults with lastOpened := .str "/a" }) false)] } } }

theorem exec_openPath_furnished :
    (openPath "/a").exec furnished = (exhibit "/a").exec remembering := by
  have hrestore : restoreOriginal.exec furnished = (.ok (), furnished) := rfl
  have hload : (onStage {} (Screen.load furnished.config "/a")).exec furnished =
      (.ok (), loaded) := rfl
  have hremember : (remember "/a").exec loaded = (.ok (), remembering) := rfl
  rw [exec_openPath hrestore, hload]
  exact exec_bind_ok hremember

/-- A listing is on show after its file was opened, also when the file and
the backend are gone. -/
theorem window_consistent_furnished :
    ∃ w, Reached furnished w ∧ w.machine = .bare ∧ w.view.isSome = true ∧ Consistent w ∧
      (goToSymbol.exec w).1 = .ok () := by
  have hview : ((openPath "/a").exec furnished).2.view.isSome = true := by
    rw [exec_openPath_furnished]
    decide +kernel
  have hrun := congrArg Prod.snd (exec_map (fun _ => ()) (openPath "/a") furnished)
  generalize ((openPath "/a").exec furnished).2 = w at hview hrun
  have hreached : Reached furnished { w with machine := .bare, answers := [] } := by
    rw [← hrun]
    exact .elsewhere _ _ (.operate (.openPath "/a") .start)
  have hstart : (start (Path.ofString "/s") (some {})).exec Probe.furnished =
      (.ok furnished, Probe.furnished) := rfl
  have hends := window_consistent (fun c hc => by cases hc; decide) hstart hreached
  exact ⟨_, hreached, rfl, hview, hends.1, hends.2 .goToSymbol rfl⟩

end Window

end Disasm
