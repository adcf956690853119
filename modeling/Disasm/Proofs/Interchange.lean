import Disasm.Proofs.LocalFile
import Disasm.Proofs.Rollback
import Disasm.Window.Editor
/-!
# Interchange — the same calls on two presenters

What a view does depends on its presenter only through how the presenter's
calls end. So two presenters that present alike and put back alike, as far
as a relation between what they show can tell, are told apart by no call
to the view (`tallies_ask`). A buffer and the screen are such a pair, the
relation being that they go by the same name and agree on whether the text
may be edited, as long as both read the original through the same ssh
program (`presenters_interchange`).
-/

namespace Disasm

open Act

variable {P Q α β : Type}

/-! ## Stages side by side -/

/-- Two stages are alike: they have the same machine and the same view, what
the presenters show is related, and a file that is shown as a listing is of
a kind. -/
structure Alike (R : P → Q → Prop) (Fits : Identity → Prop) (s : Stage P) (t : Stage Q) :
    Prop where
  machine : s.machine = t.machine
  view : s.view = t.view
  presenter : R s.presenter t.presenter
  fits : ∀ e, s.view.session = some e → Fits e.original

/-- Two operations tally: from stages that are alike they end in the same
way, on stages that are alike. -/
def Tallies (R : P → Q → Prop) (Fits : Identity → Prop) (x : Act (Stage P) α)
    (y : Act (Stage Q) α) : Prop :=
  ∀ s t, Alike R Fits s t →
    (x.exec s).1 = (y.exec t).1 ∧ Alike R Fits (x.exec s).2 (y.exec t).2

/-- Two presenters tally in what a view has them do. -/
structure Presenter.Tallies (R : P → Q → Prop) (Fits : Identity → Prop) (p : Presenter P)
    (q : Presenter Q) : Prop where
  present : ∀ marker original text,
    Disasm.Tallies R Fits (View.present p marker original text) (View.present q marker original text)
  putBack : ∀ original, Fits original →
    Disasm.Tallies R Fits (View.putBack p original) (View.putBack q original)

variable {R : P → Q → Prop} {Fits : Identity → Prop} {s : Stage P} {t : Stage Q}

theorem Alike.withMachine (h : Alike R Fits s t) (m : Machine) :
    Alike R Fits (s.withMachine m) (t.withMachine m) :=
  ⟨rfl, h.view, h.presenter, h.fits⟩

theorem Alike.withSession (h : Alike R Fits s t) {session : Option Session}
    (hfits : ∀ e, session = some e → Fits e.original) :
    Alike R Fits (s.withSession session) (t.withSession session) := by
  refine ⟨h.machine, ?_, h.presenter, hfits⟩
  rw [Stage.withSession, Stage.withSession, h.view]

namespace Tallies

theorem pure (a : α) : Tallies R Fits (Pure.pure a) (Pure.pure a) :=
  fun _ _ h => ⟨rfl, h⟩

theorem throw (f : Failure) :
    Tallies R Fits (MonadExcept.throw f : Act (Stage P) α) (MonadExcept.throw f) :=
  fun _ _ h => ⟨rfl, h⟩

theorem ofExcept (r : Except Failure α) : Tallies R Fits (Act.ofExcept r) (Act.ofExcept r) :=
  fun _ _ h => ⟨rfl, h⟩

/-- Sequences tally if their parts do, the second for what the first can
return. -/
theorem bind {x : Act (Stage P) α} {y : Act (Stage Q) α} {f : α → Act (Stage P) β}
    {g : α → Act (Stage Q) β} (hx : Tallies R Fits x y)
    (hf : ∀ a, (∃ s, (x.exec s).1 = .ok a) → Tallies R Fits (f a) (g a)) :
    Tallies R Fits (x >>= f) (y >>= g) := by
  intro s t h
  obtain ⟨hend, hafter⟩ := hx s t h
  rw [exec_bind, exec_bind]
  rcases hxs : x.exec s with ⟨r, s'⟩
  rcases hyt : y.exec t with ⟨r', t'⟩
  rw [hxs, hyt] at hend hafter
  dsimp only at hend hafter
  subst hend
  rcases r with e | a
  · exact ⟨rfl, hafter⟩
  · exact hf a ⟨s, by rw [hxs]⟩ s' t' hafter

theorem attempt {x : Act (Stage P) α} {y : Act (Stage Q) α} (hx : Tallies R Fits x y) :
    Tallies R Fits x.attempt y.attempt := by
  intro s t h
  obtain ⟨hend, hafter⟩ := hx s t h
  rw [exec_attempt, exec_attempt, hend]
  exact ⟨rfl, hafter⟩

theorem map {x : Act (Stage P) α} {y : Act (Stage Q) α} (hx : Tallies R Fits x y) (g : α → β) :
    Tallies R Fits (g <$> x) (g <$> y) := by
  intro s t h
  obtain ⟨hend, hafter⟩ := hx s t h
  rw [exec_map, exec_map, hend]
  exact ⟨rfl, hafter⟩

/-- What is done on the machine alone tallies. -/
theorem onMachine (x : Act Machine α) :
    Tallies R Fits (View.onMachine x) (View.onMachine x) := by
  intro s t h
  rw [View.exec_onMachine, View.exec_onMachine, h.machine]
  exact ⟨rfl, h.withMachine _⟩

theorem putSession {session : Option Session}
    (hfits : ∀ e, session = some e → Fits e.original) :
    Tallies R Fits (View.putSession session) (View.putSession session) :=
  fun _ _ h => ⟨rfl, h.withSession hfits⟩

end Tallies

/-! ## Calls to a view -/

namespace View

variable {p : Presenter P} {q : Presenter Q} {c : Config} {path : String}
variable {timeout : Option Number}

/-- Presenting tallies if the three calls to the presenter do. -/
theorem tallies_present (hshow : ∀ text, Tallies R Fits (p.showText text) (q.showText text))
    (hname : ∀ name, Tallies R Fits (p.setIdentity name) (q.setIdentity name))
    (hmark : Tallies R Fits p.markUnmodified q.markUnmodified) (marker : String)
    (original : Identity) (text : String) :
    Tallies R Fits (present p marker original text) (present q marker original text) := by
  refine (hshow text).bind fun _ _ => ?_
  refine (Tallies.ofExcept _).bind fun name _ => ?_
  exact (hname name).bind fun _ _ => hmark

/-- Making ready does not involve the presenter. -/
theorem tallies_ready (c : Config) (path : String) (timeout : Option Number) :
    Tallies R Fits (ready c path timeout) (ready c path timeout) := by
  refine (Tallies.onMachine _).bind fun verdict _ => ?_
  refine Tallies.bind ?_ fun _ _ => ?_
  · intro s t h
    refine ⟨rfl, h.machine, ?_, h.presenter, h.fits⟩
    rw [exec_modify, exec_modify, Stage.withProbe, Stage.withProbe, h.view]
  · cases verdict.accepted? with
    | none => exact Tallies.pure _
    | some original => exact (Tallies.onMachine _).bind fun output _ => Tallies.pure _

theorem tallies_showListing (hpq : p.Tallies R Fits q) {original : Identity} {output : Output}
    (hfits : Fits original) :
    Tallies R Fits (showListing p c original output) (showListing q c original output) := by
  refine (hpq.present c.marker original output.text).attempt.bind fun r _ => ?_
  rcases r with f | _
  · refine (Tallies.onMachine _).bind fun _ _ => ?_
    exact (hpq.putBack original hfits).bind fun _ _ => Tallies.throw f
  · refine Tallies.bind (Tallies.putSession ?_) fun _ _ => Tallies.onMachine _
    intro e he
    cases he
    exact hfits

/-- **Set-ups tally** if the probe lets through only files of the kind. -/
theorem tallies_setup (hpq : p.Tallies R Fits q)
    (hfits : ∀ m verdict original, ((Probe.probe c path).exec m).1 = .ok verdict →
      verdict.accepted? = some original → Fits original) :
    Tallies R Fits (setup p c path timeout) (setup q c path timeout) := by
  intro s t h
  rcases hs : s.view.session with _ | e
  · have ht : t.view.session = none := by rw [← h.view, hs]
    rw [exec_setup_free hs, exec_setup_free ht]
    refine Tallies.bind (tallies_ready c path timeout) (fun found hfound => ?_) s t h
    rcases found with _ | ⟨original, output⟩
    · exact Tallies.pure _
    · obtain ⟨s₀, hready⟩ := hfound
      obtain ⟨verdict, hprobe, haccepted⟩ := probe_of_ready (Prod.ext hready rfl)
      have hshow : Tallies R Fits (showListing p c original output)
          (showListing q c original output) :=
        tallies_showListing hpq (hfits _ _ _ hprobe haccepted)
      exact hshow.bind fun _ _ => Tallies.pure true
  · have hoccupied : s.view.session.isSome := by rw [hs]; rfl
    have hoccupied' : t.view.session.isSome := by rw [← h.view, hs]; rfl
    rw [exec_setup_occupied hoccupied, exec_setup_occupied hoccupied', h.view]
    exact ⟨rfl, h⟩

/-- **Teardowns tally.** -/
theorem tallies_teardown (hpq : p.Tallies R Fits q) :
    Tallies R Fits (teardown p) (teardown q) := by
  intro s t h
  by_cases hactive : s.view.state = .active
  · obtain ⟨e, hs, he⟩ := session_of_state hactive (by decide)
    have ht : t.view.session = some e := by rw [← h.view, hs]
    have hfits := h.fits e hs
    have hleaving : Alike R Fits (leaving s e) (leaving t e) := by
      refine h.withSession fun e' he' => ?_
      cases he'
      exact hfits
    obtain ⟨hend, hafter⟩ := hpq.putBack e.original hfits _ _ hleaving
    rcases hps : (putBack p e.original).exec (leaving s e) with ⟨r, s'⟩
    rcases hqt : (putBack q e.original).exec (leaving t e) with ⟨r', t'⟩
    rw [hps, hqt] at hend hafter
    dsimp only at hend hafter
    subst hend
    have hended : Alike R Fits (s'.withSession none) (t'.withSession none) :=
      hafter.withSession (by simp)
    rcases r with f | _
    · rw [exec_teardown_error hs he hps, exec_teardown_error ht he hqt]
      exact ⟨rfl, hended⟩
    · rw [exec_teardown_ok hs he hps, exec_teardown_ok ht he hqt, hafter.machine]
      exact ⟨rfl, hended.withMachine _⟩
  · have hidle : t.view.state ≠ .active := by rwa [← h.view]
    rw [exec_teardown_idle hactive, exec_teardown_idle hidle]
    exact ⟨rfl, h⟩

theorem tallies_activeSession :
    Tallies R Fits (activeSession : Act (Stage P) Session) activeSession := by
  intro s t h
  rw [activeSession, activeSession, exec_bind_ok (exec_get s), exec_bind_ok (exec_get t), ← h.view]
  cases s.view.session with
  | none => exact ⟨rfl, h⟩
  | some e =>
    dsimp only
    split
    · exact ⟨rfl, h⟩
    · exact ⟨rfl, h⟩

theorem tallies_keepSymbols (table : SymbolTable) :
    Tallies R Fits (keepSymbols table : Act (Stage P) Unit) (keepSymbols table) := by
  intro s t h
  refine ⟨rfl, h.machine, ?_, h.presenter, ?_⟩
  · rw [keepSymbols, keepSymbols, exec_modify, exec_modify, h.view]
  · intro e he
    obtain ⟨e', he', rfl⟩ := Option.map_eq_some_iff.1 he
    exact h.fits e' he'

theorem tallies_symbols : Tallies R Fits (symbols : Act (Stage P) SymbolTable) symbols := by
  intro s t h
  by_cases hactive : s.view.state = .active
  · obtain ⟨e, hs, he⟩ := session_of_state hactive (by decide)
    have ht : t.view.session = some e := by rw [← h.view, hs]
    rw [symbols, symbols, exec_bind_ok (exec_activeSession hs he),
      exec_bind_ok (exec_activeSession ht he)]
    cases e.symbols with
    | some table => exact ⟨rfl, h⟩
    | none =>
      refine ⟨rfl, h.withSession fun e' he' => ?_⟩
      cases he'
      exact h.fits e hs
  · have hidle : t.view.state ≠ .active := by rwa [← h.view]
    rw [exec_symbols_idle hactive, exec_symbols_idle hidle]
    exact ⟨rfl, h⟩

/-- **Every call to a view tallies.** -/
theorem tallies_ask (hpq : p.Tallies R Fits q) {r : Request}
    (hfits : ∀ path timeout, r = .setup path timeout → ∀ m verdict original,
      ((Probe.probe c path).exec m).1 = .ok verdict → verdict.accepted? = some original →
      Fits original) :
    Tallies R Fits (ask p c r) (ask q c r) := by
  cases r with
  | setup path timeout => exact (tallies_setup hpq (hfits path timeout rfl)).map _
  | teardown => exact (tallies_teardown hpq).bind fun _ _ => Tallies.pure _
  | text => exact (tallies_activeSession.bind fun _ _ => Tallies.pure _).map _
  | symbols => exact tallies_symbols.bind fun _ _ => Tallies.pure _
  | byAddress =>
    exact (tallies_symbols.bind fun _ _ =>
      (tallies_keepSymbols _).bind fun _ _ => Tallies.pure _).map _
  | addressOf name => exact (tallies_symbols.bind fun _ _ => Tallies.pure _).map _
  | lineOf name => exact (tallies_symbols.bind fun _ _ => Tallies.pure _).map _
  | symbolAt address =>
    exact (tallies_symbols.bind fun _ _ =>
      (tallies_keepSymbols _).bind fun _ _ => Tallies.pure _).map _
  | lastProbe =>
    intro s t h
    exact ⟨by rw [ask, ask, exec_bind_ok (exec_get s), exec_bind_ok (exec_get t), h.view]; rfl, h⟩

end View

/-! ## A buffer and the screen -/

/-- How putting a file back ends on a buffer. The name is that of the file,
even if it could not be read. -/
theorem Buffer.exec_putBack (read : Location → Act Machine Bytes) (original : Identity)
    (s : Stage Buffer) :
    (View.putBack (presenter read) original).exec s =
      match (read original.location).exec s.machine with
      | (.ok content, m) => (.ok (), { s with
          machine := m
          presenter := { identity := original.location.display, content } })
      | (.error f, m) => (.error f, { s with
          machine := m
          presenter := { s.presenter with identity := original.location.display } }) := by
  let named : Stage Buffer :=
    { s with presenter := { s.presenter with identity := original.location.display } }
  have hname : ((presenter read).setIdentity original.location.display).exec s = (.ok (), named) :=
    rfl
  have hagain : (update fun b => { b with identity := original.location.display }).exec named =
      (.ok (), named) := rfl
  rw [View.putBack, exec_bind_ok hname]
  refine (exec_bind_ok hagain).trans ?_
  rw [exec_bind, View.exec_onMachine]
  rcases (read original.location).exec s.machine with ⟨f | content, m⟩
  · rfl
  · rfl

/-- How it ends on the screen. -/
theorem Screen.exec_putBack (c : Config) (original : Identity) (t : Stage Screen) :
    (View.putBack (presenter c) original).exec t =
      match (readOriginal c original.location).exec t.machine with
      | (.ok raw, m) => (.ok (), { t with
          machine := m
          presenter := setIdentity c.marker
            { t.presenter with editor := t.presenter.editor.showRaw raw }
            original.location.display })
      | (.error f, m) => (.error f, { t with
          machine := m
          presenter := t.presenter.setIdentity c.marker original.location.display }) := by
  have hname : ((presenter c).setIdentity original.location.display).exec t =
    (.ok (), { t with
      presenter := t.presenter.setIdentity c.marker original.location.display }) := rfl
  have hshow : (presenter c).restore original = showFile c original.location := rfl
  rw [View.putBack, exec_bind_ok hname, hshow, showFile, exec_bind, View.exec_onMachine]
  rcases (readOriginal c original.location).exec t.machine with ⟨f | raw, m⟩
  · rfl
  · rfl

namespace Interchange

open View

variable {c : Config} {s : Stage Buffer} {t : Stage Screen} {original : Identity}

/-- A buffer and the screen go by the same name and agree on whether the
text may be edited. -/
def Agree (b : Buffer) (k : Screen) : Prop :=
  b.identity = k.editor.identity ∧ b.readOnly = k.editor.readOnly

/-- A file that a buffer and the screen read in the same way: a local one, or
any if the configured ssh program is the default one. -/
def Shared (c : Config) (original : Identity) : Prop :=
  original.location.isRemote = true → c.ssh = Host.defaultProgram

theorem readOriginal_eq (h : Shared c original) :
    Screen.readOriginal c original.location = Buffer.readOriginal original.location := by
  rw [Screen.readOriginal, Buffer.readOriginal, Host.of, Host.of]
  by_cases hremote : original.location.isRemote = true
  · rw [h hremote]
  · rw [if_neg hremote, if_neg hremote]

/-- **A file is put back alike**, with the same bytes if it could be read. -/
theorem putBack_alike (hshared : Shared c original) (h : Alike Agree (Shared c) s t) :
    ((putBack buffer original).exec s).1 = ((putBack (Screen.presenter c) original).exec t).1 ∧
    Alike Agree (Shared c) ((putBack buffer original).exec s).2
      ((putBack (Screen.presenter c) original).exec t).2 ∧
    (((putBack buffer original).exec s).1 = .ok () →
      ((putBack buffer original).exec s).2.presenter.content =
        ((putBack (Screen.presenter c) original).exec t).2.presenter.editor.raw) := by
  obtain ⟨hidentity, hreadOnly⟩ := h.presenter
  rw [Buffer.exec_putBack, Screen.exec_putBack, readOriginal_eq hshared, h.machine]
  rcases (Buffer.readOriginal original.location).exec t.machine with ⟨f | content, m⟩
  · refine ⟨rfl, ⟨rfl, h.view, ⟨rfl, hreadOnly⟩, h.fits⟩, fun hok => ?_⟩
    cases hok
  · exact ⟨rfl, ⟨rfl, h.view, ⟨rfl, rfl⟩, h.fits⟩, fun _ => rfl⟩

theorem presenters_tally (c : Config) :
    buffer.Tallies Agree (Shared c) (Screen.presenter c) where
  present := by
    refine tallies_present (fun text s t h => ?_) (fun name s t h => ?_) (fun s t h => ?_)
    · exact ⟨rfl, h.machine, h.view, ⟨h.presenter.1, rfl⟩, h.fits⟩
    · exact ⟨rfl, h.machine, h.view, ⟨rfl, h.presenter.2⟩, h.fits⟩
    · exact ⟨rfl, h.machine, h.view, h.presenter, h.fits⟩
  putBack original hshared s t h := by
    obtain ⟨hend, hafter, -⟩ := putBack_alike hshared h
    exact ⟨hend, hafter⟩

/-! ## Runs -/

/-- What happens to a stage: the view is called, or the machine changes for
reasons of its own. -/
inductive Turn where
  | call (r : Request)
  | change (f : Machine → Machine)

/-- A stage after a turn. -/
def Turn.take {P : Type} (p : Presenter P) (c : Config) (s : Stage P) : Turn → Stage P
  | .call r => ((ask p c r).exec s).2
  | .change f => s.withMachine (f s.machine)

/-- A stage after some turns. -/
def after {P : Type} (p : Presenter P) (c : Config) (s : Stage P) (turns : List Turn) : Stage P :=
  turns.foldl (Turn.take p c) s

/-- A call that has no file read through another program than the default
ssh: a set-up names a local file, unless that is the program configured. -/
def Plain (c : Config) : Request → Prop
  | .setup path _ => c.ssh = Host.defaultProgram ∨ Location.cutScheme? path = none
  | _ => True

/-- A call puts the original back: a teardown that returns, of a listing on
show, or a set-up whose listing cannot be presented, after which putting
back succeeds. -/
def Restores {P : Type} (p : Presenter P) (c : Config) (s : Stage P) : Request → Prop
  | .teardown => s.view.state = .active ∧ ((teardown p).exec s).1 = .ok ()
  | .setup path timeout => s.view.session = none ∧ ∃ original output s₁ s₂ f,
      (ready c path timeout).exec s = (.ok (some (original, output)), s₁) ∧
      (present p c.marker original output.text).exec s₁ = (.error f, s₂) ∧
      ((putBack p original).exec (failed s₂ original)).1 = .ok ()
  | _ => False

/-- The probe finds a local file where a local one was named. -/
theorem shared_of_plain {path : String} {timeout : Option Number}
    (hplain : Plain c (.setup path timeout)) {m : Machine} {verdict : Verdict}
    (hprobe : ((Probe.probe c path).exec m).1 = .ok verdict)
    (haccepted : verdict.accepted? = some original) : Shared c original := by
  rcases hplain with hssh | hlocal
  · exact fun _ => hssh
  · obtain ⟨e, m₁, -, rfl, -⟩ := Probe.entry_of_accepted hlocal (Prod.ext hprobe rfl) haccepted
    intro hremote
    cases hremote

theorem tallies_plain {r : Request} (hplain : Plain c r) :
    Tallies Agree (Shared c) (ask buffer c r) (ask (Screen.presenter c) c r) := by
  refine tallies_ask (presenters_tally c) ?_
  rintro path timeout rfl m verdict original hprobe haccepted
  exact shared_of_plain hplain hprobe haccepted

/-- A teardown that puts the original back leaves the same bytes. -/
theorem same_bytes_teardown (h : Alike Agree (Shared c) s t) (hactive : s.view.state = .active)
    (hend : ((teardown buffer).exec s).1 = .ok ()) :
    ((teardown buffer).exec s).2.presenter.content =
      ((teardown (Screen.presenter c)).exec t).2.presenter.editor.raw := by
  obtain ⟨e, hs, he⟩ := session_of_state hactive (by decide)
  have ht : t.view.session = some e := by rw [← h.view, hs]
  have hshared := h.fits e hs
  have hleaving : Alike Agree (Shared c) (leaving s e) (leaving t e) := by
    refine h.withSession fun e' he' => ?_
    cases he'
    exact hshared
  obtain ⟨hsame, -, hbytes⟩ := putBack_alike hshared hleaving
  rcases hps : (putBack buffer e.original).exec (leaving s e) with ⟨f | _, s'⟩
  · rw [exec_teardown_error hs he hps] at hend
    cases hend
  · rw [hps] at hsame hbytes
    have hqt : (putBack (Screen.presenter c) e.original).exec (leaving t e) =
        (.ok (), ((putBack (Screen.presenter c) e.original).exec (leaving t e)).2) :=
      Prod.ext hsame.symm rfl
    rw [exec_teardown_ok hs he hps, exec_teardown_ok ht he hqt]
    exact hbytes rfl

/-- So does a set-up that has to. -/
theorem same_bytes_setup {path : String} {timeout : Option Number} {output : Output}
    {s₁ s₂ : Stage Buffer} {f : Failure} (h : Alike Agree (Shared c) s t)
    (hshared : Shared c original) (hs : s.view.session = none)
    (hready : (ready c path timeout).exec s = (.ok (some (original, output)), s₁))
    (hpresent : (present buffer c.marker original output.text).exec s₁ = (.error f, s₂))
    (hback : ((putBack buffer original).exec (failed s₂ original)).1 = .ok ()) :
    ((setup buffer c path timeout).exec s).2.presenter.content =
      ((setup (Screen.presenter c) c path timeout).exec t).2.presenter.editor.raw := by
  have ht : t.view.session = none := by rw [← h.view, hs]
  obtain ⟨hready', h₁⟩ := tallies_ready c path timeout s t h
  rw [hready] at hready' h₁
  obtain ⟨hpresent', h₂⟩ := (presenters_tally c).present c.marker original output.text _ _ h₁
  rw [hpresent] at hpresent' h₂
  dsimp only at hready' hpresent' h₁ h₂
  set t₁ := ((ready c path timeout).exec t).2
  set t₂ := ((present (Screen.presenter c) c.marker original output.text).exec t₁).2
  have h₃ : Alike Agree (Shared c) (failed s₂ original) (failed t₂ original) := by
    rw [failed, failed, h₂.machine]
    exact h₂.withMachine _
  obtain ⟨hback', -, hbytes⟩ := putBack_alike hshared h₃
  rw [exec_setup_failed hs hready hpresent (Prod.ext hback rfl),
    exec_setup_failed ht (Prod.ext hready'.symm rfl) (Prod.ext hpresent'.symm rfl)
      (Prod.ext (hback'.symm.trans hback) rfl)]
  exact hbytes hback

/-- **A call that puts the original back leaves the same bytes.** -/
theorem same_bytes {r : Request} (h : Alike Agree (Shared c) s t) (hplain : Plain c r)
    (hrestores : Restores buffer c s r) :
    ((ask buffer c r).exec s).2.presenter.content =
      ((ask (Screen.presenter c) c r).exec t).2.presenter.editor.raw := by
  cases r with
  | setup path timeout =>
    obtain ⟨hs, original, output, s₁, s₂, f, hready, hpresent, hback⟩ := hrestores
    obtain ⟨verdict, hprobe, haccepted⟩ := probe_of_ready hready
    rw [ask, ask, exec_map, exec_map]
    exact same_bytes_setup h (shared_of_plain hplain hprobe haccepted) hs hready hpresent hback
  | teardown =>
    have hafter : ∀ {P : Type} (p : Presenter P) (s : Stage P),
        ((ask p c .teardown).exec s).2 = ((teardown p).exec s).2 := by
      intro P p s
      rw [ask, exec_bind]
      rcases (teardown p).exec s with ⟨f | _, s'⟩
      · rfl
      · rfl
    rw [hafter, hafter]
    exact same_bytes_teardown h hrestores.1 hrestores.2
  | _ => exact hrestores.elim

/-- Stages stay alike. -/
theorem alike_after (h : Alike Agree (Shared c) s t) {turns : List Turn}
    (hplain : ∀ r, Turn.call r ∈ turns → Plain c r) :
    Alike Agree (Shared c) (after buffer c s turns) (after (Screen.presenter c) c t turns) := by
  induction turns generalizing s t with
  | nil => exact h
  | cons turn turns ih =>
    refine ih ?_ fun r hr => hplain r (List.mem_cons_of_mem _ hr)
    cases turn with
    | call r => exact (tallies_plain (hplain r List.mem_cons_self) s t h).2
    | change f =>
      rw [Turn.take, Turn.take, h.machine]
      exact h.withMachine _

/-- **A buffer and the screen are interchangeable.** A view that is driven
over the one and a view that is driven over the other, through the same
calls and the same changes of the machine, stay the same, leave the same
machine with the same commands started, go by the same name and agree on
whether the text may be edited. The next call ends in the same way, and
leaves the same bytes if it puts the original back. -/
theorem presenters_interchange (c : Config) (m : Machine) (b : Buffer) (k : Screen)
    (turns : List Turn) (hname : b.identity = k.editor.identity) (hb : b.readOnly = false)
    (hk : k.editor.readOnly = false) (hplain : ∀ r, Turn.call r ∈ turns → Plain c r) :
    let s := after buffer c { machine := m, presenter := b } turns
    let t := after (Screen.presenter c) c { machine := m, presenter := k } turns
    s.view = t.view ∧ s.machine = t.machine ∧
    s.presenter.identity = t.presenter.editor.identity ∧
    s.presenter.readOnly = t.presenter.editor.readOnly ∧
    ∀ r, Plain c r →
      ((ask buffer c r).exec s).1 = ((ask (Screen.presenter c) c r).exec t).1 ∧
      (Restores buffer c s r →
        ((ask buffer c r).exec s).2.presenter.content =
          ((ask (Screen.presenter c) c r).exec t).2.presenter.editor.raw) := by
  intro s t
  have hstart : Alike Agree (Shared c) ({ machine := m, presenter := b } : Stage Buffer)
      { machine := m, presenter := k } :=
    ⟨rfl, rfl, ⟨hname, hb.trans hk.symm⟩, by simp⟩
  have h := alike_after hstart hplain
  refine ⟨h.view, h.machine, h.presenter.1, h.presenter.2, fun r hr => ?_⟩
  exact ⟨(tallies_plain hr s t h).1, same_bytes h hr⟩

/-- A listing is set up over both and torn down again. -/
theorem presenters_interchange_linked :
    let c : Config := { backend := .str "o" }
    let turns := [Turn.call (.setup "/l" none)]
    let s := after buffer c { machine := .linked, presenter := {} } turns
    let t := after (Screen.presenter c) c { machine := .linked, presenter := {} } turns
    s.view.state = .active ∧ s.view = t.view ∧ s.machine = t.machine ∧
    ((ask buffer c .teardown).exec s).2.presenter.content = [0, 1] ∧
    ((ask (Screen.presenter c) c .teardown).exec t).2.presenter.editor.raw = [0, 1] := by
  intro c turns s t
  obtain ⟨hview, hmachine, -, -, hcalls⟩ := presenters_interchange c .linked {} {} turns rfl rfl rfl
    (fun r hr => by
      cases List.mem_singleton.1 hr
      exact .inl rfl)
  have hactive : s.view.state = .active := by decide +kernel
  have hcontent : ((ask buffer c .teardown).exec s).2.presenter.content = [0, 1] := by
    decide +kernel
  have hend : ((teardown buffer).exec s).1 = .ok () := ok_of_toOption (by decide +kernel)
  have hbytes := (hcalls .teardown trivial).2 ⟨hactive, hend⟩
  exact ⟨hactive, hview, hmachine, hcontent, hbytes.symm.trans hcontent⟩

/-- A machine on which every command prints the same: an entry that is a file
of two bytes, and a null byte. -/
def echoing : Machine where
  cwd := "/"
  env := []
  files := {}
  rules := [{ stdout := Text.Utf8.encode "/a\nfile\n2\n\x00" }]

/-- With another ssh program configured a remote file comes back to the
buffer through the default one. -/
theorem buffer_takes_default_program :
    let c : Config := { ssh := .str "tunnel" }
    let turns := [Turn.call (.setup "ssh://h/a" none), Turn.call .teardown]
    let s := after buffer c { machine := echoing, presenter := {} } turns
    let t := after (Screen.presenter c) c { machine := echoing, presenter := {} } turns
    s.machine.calls.map (·.command.head?) =
        List.replicate 5 (some "tunnel") ++ [some "ssh"] ∧
      t.machine.calls.map (·.command.head?) = List.replicate 6 (some "tunnel") := by
  decide +kernel

end Interchange

end Disasm
