import Disasm.Proofs.Lifecycle
import Disasm.View.Buffer
/-!
# Rollback — a set-up that does not succeed

A set-up can be turned away, can be declined by the probe, can fail before
the presenter is called, and can fail because the presenter does. None of
these leaves a session behind. Up to the point where the presenter is
called it is untouched; from there on the file is put back, and the
failure that is passed on is the presenter's, or that of putting back.
-/

namespace Disasm

open Act

/-- A presenter that does not call its view. -/
def Presenter.Aloof {P : Type} (p : Presenter P) : Prop :=
  ∀ v, p.Preserves (·.view = v)

namespace Buffer

/-- A buffer does not call its view. -/
theorem aloof_presenter (read : Location → Act Machine Bytes) : (presenter read).Aloof := by
  intro v
  refine ⟨fun _ _ hs => hs, fun _ _ hs => hs, fun _ hs => hs, fun i => ?_⟩
  refine Preserves.bind (fun _ hs => hs) fun _ => ?_
  exact Preserves.bind (fun _ hs => hs) fun _ => fun _ hs => hs

/-- **What a buffer holds once it has restored a file**: what was read, under
the name of the file, and as new. -/
theorem restored (read : Location → Act Machine Bytes) {original : Identity} {s t : Stage Buffer}
    (h : ((presenter read).restore original).exec s = (.ok (), t)) :
    ∃ content, (read original.location).exec s.machine = (.ok content, t.machine) ∧
      t.presenter = { identity := original.location.display, content } := by
  obtain ⟨_, s₁, h₁, h⟩ := ok_of_exec_bind h
  obtain ⟨content, s₂, h₂, h⟩ := ok_of_exec_bind h
  rw [update, exec_modify, Prod.mk.injEq] at h₁ h
  rw [View.exec_onMachine, Prod.mk.injEq] at h₂
  obtain ⟨-, rfl⟩ := h₁
  obtain ⟨hread, rfl⟩ := h₂
  obtain ⟨-, rfl⟩ := h
  exact ⟨content, Prod.ext hread rfl, rfl⟩

/-- A buffer restores every file it can read. -/
theorem exec_restore (read : Location → Act Machine Bytes) (original : Identity)
    {s : Stage Buffer} {content : Bytes}
    (h : ((read original.location).exec s.machine).1 = .ok content) :
    ((presenter read).restore original).exec s =
      (.ok (), { s with
        machine := ((read original.location).exec s.machine).2
        presenter := { identity := original.location.display, content } }) := by
  have hread (b : Buffer) :
      (View.onMachine (read original.location)).exec { s with presenter := b } =
        (.ok content, { s with
          machine := ((read original.location).exec s.machine).2, presenter := b }) := by
    rw [View.exec_onMachine, h]
    rfl
  exact (exec_bind_ok (exec_modify _ s)).trans (exec_bind_ok (hread _))

/-- A buffer that takes no name but one. -/
def named (name : String) (read : Location → Act Machine Bytes) : Presenter Buffer :=
  { presenter read with
    setIdentity := fun identity =>
      if identity = name then (presenter read).setIdentity identity
      else throw (.refused "set_identity") }

theorem aloof_named (name : String) (read : Location → Act Machine Bytes) :
    (named name read).Aloof := by
  intro v
  have h := aloof_presenter read v
  exact ⟨h.showText, fun identity => (h.setIdentity identity).ite (Preserves.throw _),
    h.markUnmodified, h.restore⟩

end Buffer

/-- A machine with a file, a link to it and a backend that lists a letter. -/
def Machine.linked : Machine where
  cwd := "/"
  env := [("PATH", "/")]
  files := { nodes := [(["o"], .file [] true), (["a"], .file [0, 1] false), (["l"], .link "a")] }
  rules := [{ stdout := [65] }]

namespace View

/-- The presenter that a buffer is. -/
abbrev buffer : Presenter Buffer :=
  Buffer.presenter Buffer.readOriginal

variable {P : Type} {p : Presenter P} {c : Config} {s t u v : Stage P}
variable {path : String} {timeout : Option Number} {original : Identity} {output : Output}

/-! ## The ways a set-up can go -/

/-- A set-up that cannot make ready fails as that fails. -/
theorem exec_setup_unready {f : Failure} (hs : s.view.session = none)
    (h : (ready c path timeout).exec s = (.error f, t)) :
    (setup p c path timeout).exec s = (.error f, t) := by
  rw [exec_setup_free hs, exec_bind_error h]

/-- A file that the probe declines is not shown. -/
theorem exec_setup_declined (hs : s.view.session = none)
    (h : (ready c path timeout).exec s = (.ok none, t)) :
    (setup p c path timeout).exec s = (.ok false, t) := by
  rw [exec_setup_free hs, exec_bind_ok h]
  rfl

/-- A listing that the presenter takes is shown. -/
theorem exec_setup_presented (hs : s.view.session = none)
    (h : (ready c path timeout).exec s = (.ok (some (original, output)), t))
    (hpresent : (present p c.marker original output.text).exec t = (.ok (), u)) :
    ∃ w, (setup p c path timeout).exec s = (.ok true, w) := by
  rw [exec_setup_free hs, exec_bind_ok h]
  exact ⟨_, exec_bind_ok (exec_showListing_ok hpresent)⟩

/-- A listing that the presenter fails to take is taken back, and the
failure passed on. -/
theorem exec_setup_failed {f : Failure} (hs : s.view.session = none)
    (h : (ready c path timeout).exec s = (.ok (some (original, output)), t))
    (hpresent : (present p c.marker original output.text).exec t = (.error f, u))
    (hback : (putBack p original).exec (failed u original) = (.ok (), v)) :
    (setup p c path timeout).exec s = (.error f, v) := by
  have hshow : (showListing p c original output).exec t = (.error f, v) := by
    rw [exec_showListing_error hpresent, exec_bind_ok hback]
    rfl
  rw [exec_setup_free hs, exec_bind_ok h]
  exact exec_bind_error hshow

/-- A listing that cannot be taken back leaves that failure. -/
theorem exec_setup_stranded {f g : Failure} (hs : s.view.session = none)
    (h : (ready c path timeout).exec s = (.ok (some (original, output)), t))
    (hpresent : (present p c.marker original output.text).exec t = (.error f, u))
    (hback : (putBack p original).exec (failed u original) = (.error g, v)) :
    (setup p c path timeout).exec s = (.error g, v) := by
  have hshow : (showListing p c original output).exec t = (.error g, v) := by
    rw [exec_showListing_error hpresent, exec_bind_error hback]
  rw [exec_setup_free hs, exec_bind_ok h]
  exact exec_bind_error hshow

/-! ## What is left behind -/

theorem session_of_ready {r : Except Failure (Option (Identity × Output))}
    (hs : s.view.session = none) (h : (ready c path timeout).exec s = (r, t)) :
    t.view.session = none := by
  have huntouched := (ready_untouched c path timeout s).1
  rw [h, hs] at huntouched
  exact huntouched

/-- An aloof presenter that fails leaves the session as it was, and so does
putting the file back. -/
theorem session_of_putBack (hp : p.Aloof) (ht : t.view.session = none)
    {e r : Except Failure Unit} {marker text : String}
    (hpresent : (present p marker original text).exec t = (e, u))
    (hback : (putBack p original).exec (failed u original) = (r, v)) : v.view.session = none := by
  have hu : u.view = t.view := by
    have := preserves_present (hp t.view) marker original text t rfl
    rwa [hpresent] at this
  have hv : v.view = u.view := by
    have := preserves_putBack (hp u.view) original (failed u original) rfl
    rwa [hback] at this
  rw [hv, hu, ht]

/-- **Without success there is no session.** -/
theorem session_of_setup (hp : p.Aloof) (hs : s.view.session = none) {r : Except Failure Bool}
    (h : (setup p c path timeout).exec s = (r, t)) (hr : r ≠ .ok true) :
    t.view.session = none := by
  rcases hready : (ready c path timeout).exec s with ⟨f | found, s₁⟩
  · rw [exec_setup_unready hs hready] at h
    cases h
    exact session_of_ready hs hready
  rcases found with _ | ⟨original, output⟩
  · rw [exec_setup_declined hs hready] at h
    cases h
    exact session_of_ready hs hready
  -- The presenter was called, so from here on it matters that it does not call the view.
  rcases hpresent : (present p c.marker original output.text).exec s₁ with ⟨f | _, s₂⟩
  · rcases hback : (putBack p original).exec (failed s₂ original) with ⟨g | _, s₃⟩
    · rw [exec_setup_stranded hs hready hpresent hback] at h
      cases h
      exact session_of_putBack hp (session_of_ready hs hready) hpresent hback
    · rw [exec_setup_failed hs hready hpresent hback] at h
      cases h
      exact session_of_putBack hp (session_of_ready hs hready) hpresent hback
  · obtain ⟨w, hw⟩ := exec_setup_presented hs hready hpresent
    rw [hw] at h
    cases h
    exact absurd rfl hr

/-- A file that the probe declined was not made ready. -/
theorem ready_of_declined (hs : s.view.session = none)
    (h : (setup p c path timeout).exec s = (.ok false, t)) :
    (ready c path timeout).exec s = (.ok none, t) := by
  rw [exec_setup_free hs] at h
  obtain ⟨found, s₁, hready, h⟩ := ok_of_exec_bind h
  rcases found with _ | ⟨original, output⟩
  · rw [exec_pure, Prod.mk.injEq] at h
    rw [hready, h.2]
  · obtain ⟨_, s₂, -, h⟩ := ok_of_exec_bind h
    cases h

/-- A view that shows nothing and stands for no file. -/
def Vacant (v : View) : Prop :=
  v.state = .inactive ∧ v.original? = none

theorem vacant_of_session_none {v : View} (h : v.session = none) : v.Vacant :=
  ⟨state_of_session_none h, by rw [original?, h]; rfl⟩

/-- **A set-up that does not succeed leaves nothing half done.** The five
parts are the session that is there, what comes before the presenter, the
buffer that fails and is put back, the putting back that fails, and what
they have in common. -/
theorem failed_setup_leaves_nothing (c : Config) (path : String) (timeout : Option Number) :
    (∀ (P : Type) (p : Presenter P) (s : Stage P), s.view.session.isSome →
      (setup p c path timeout).exec s = (.error (.viewOccupied s.view.state.text), s)) ∧
    -- No presenter method is called: the outcome is the same for any other presenter.
    (∀ (P : Type) (p : Presenter P) (s t : Stage P) (r : Except Failure Bool),
      s.view.session = none →
      (setup p c path timeout).exec s = (r, t) →
      (r = .ok false ∨ ∃ f, (ready c path timeout).exec s = (.error f, t)) →
      (∀ q : Presenter P, (setup q c path timeout).exec s = (r, t)) ∧
        t.presenter = s.presenter ∧ t.view.Vacant) ∧
    (∀ (p : Presenter Buffer) (read : Location → Act Machine Bytes) (s t u v w : Stage Buffer)
        (original : Identity) (output : Output) (f : Failure),
      p.Aloof → p.restore = (Buffer.presenter read).restore →
      s.view.session = none →
      (ready c path timeout).exec s = (.ok (some (original, output)), t) →
      (present p c.marker original output.text).exec t = (.error f, u) →
      (p.setIdentity original.location.display).exec (failed u original) = (.ok (), v) →
      (p.restore original).exec v = (.ok (), w) →
      (setup p c path timeout).exec s = (.error f, w) ∧ w.view.Vacant ∧
        ∃ content, (read original.location).exec v.machine = (.ok content, w.machine) ∧
          w.presenter = { identity := original.location.display, content,
                          modified := false, readOnly := false }) ∧
    (∀ (P : Type) (p : Presenter P) (s t u w : Stage P) (original : Identity) (output : Output)
        (f g : Failure),
      p.Aloof → s.view.session = none →
      (ready c path timeout).exec s = (.ok (some (original, output)), t) →
      (present p c.marker original output.text).exec t = (.error f, u) →
      (putBack p original).exec (failed u original) = (.error g, w) →
      (setup p c path timeout).exec s = (.error g, w) ∧ w.view.Vacant) ∧
    (∀ (P : Type) (p : Presenter P) (s t : Stage P) (r : Except Failure Bool),
      p.Aloof → s.view.session = none →
      (setup p c path timeout).exec s = (r, t) → r ≠ .ok true → t.view.Vacant) := by
  refine ⟨fun P p s hs => exec_setup_occupied hs, ?_, ?_, ?_, ?_⟩
  · -- Up to there a set-up is only the making ready, which knows of no presenter.
    rintro P p s t r hs hsetup hearly
    rcases hearly with rfl | ⟨f, hready⟩
    · have hready := ready_of_declined hs hsetup
      have huntouched := (ready_untouched c path timeout s).2
      rw [hready] at huntouched
      exact ⟨fun q => exec_setup_declined hs hready, huntouched,
        vacant_of_session_none (session_of_ready hs hready)⟩
    · have huntouched := (ready_untouched c path timeout s).2
      rw [hready] at huntouched
      rw [exec_setup_unready hs hready] at hsetup
      cases hsetup
      exact ⟨fun q => exec_setup_unready hs hready, huntouched,
        vacant_of_session_none (session_of_ready hs hready)⟩
  · intro p read s t u v w original output f hp hrestore hs hready hpresent hname hback
    have hputBack : (putBack p original).exec (failed u original) = (.ok (), w) := by
      rw [putBack, exec_bind_ok hname, hback]
    have hsession := session_of_putBack hp (session_of_ready hs hready) hpresent hputBack
    rw [hrestore] at hback
    exact ⟨exec_setup_failed hs hready hpresent hputBack, vacant_of_session_none hsession,
      Buffer.restored read hback⟩
  · intro P p s t u w original output f g hp hs hready hpresent hback
    have hsession := session_of_putBack hp (session_of_ready hs hready) hpresent hback
    exact ⟨exec_setup_stranded hs hready hpresent hback, vacant_of_session_none hsession⟩
  · intro P p s t r hp hs hsetup hr
    exact vacant_of_session_none (session_of_setup hp hs hsetup hr)

/-- A buffer that refuses the name of the listing gets its file back. -/
theorem failed_setup_leaves_nothing_refused :
    ∃ w, (setup (Buffer.named "/a" Buffer.readOriginal) { backend := .str "o" } "/l" none).exec
        { machine := .linked, presenter := {} } = (.error (.refused "set_identity"), w) ∧
      w.view.Vacant ∧ w.presenter = { identity := "/a", content := [0, 1] } := by
  let c : Config := { backend := .str "o" }
  let p := Buffer.named "/a" Buffer.readOriginal
  let s : Stage Buffer := { machine := .linked, presenter := {} }
  let file : Identity := { location := { path := "/a" }, size := 2 }
  let output : Output := { text := "A", identity := file, command := ["o", "-d", "--", "a"] }
  have hready : ((ready c "/l" none).exec s).1 = .ok (some (file, output)) :=
    ok_of_toOption (by decide +kernel)
  have hread : ((Buffer.readOriginal file.location).exec
      (failed ((ready c "/l" none).exec s).2 file).machine).1 = .ok [0, 1] :=
    ok_of_toOption (by decide +kernel)
  rcases hrun : (ready c "/l" none).exec s with ⟨r, t⟩
  rw [hrun] at hready hread
  subst hready
  let u : Stage Buffer := { t with presenter :=
    { t.presenter with content := Text.Utf8.encode "A", readOnly := true, modified := true } }
  have hpresent : (present p c.marker file output.text).exec t =
      (.error (.refused "set_identity"), u) := by
    have hname : file.location.viewName c.marker = .ok "/a.objdump" :=
      ok_of_toOption (by decide +kernel)
    have hshow : (p.showText output.text).exec t = (.ok (), u) := rfl
    rw [present, exec_bind_ok hshow, hname]
    rfl
  let v : Stage Buffer := { failed u file with presenter := { u.presenter with identity := "/a" } }
  have hname : (p.setIdentity "/a").exec (failed u file) = (.ok (), v) := rfl
  have hsame : v.machine = (failed t file).machine := rfl
  dsimp only at hread
  rw [← hsame] at hread
  have hback := Buffer.exec_restore Buffer.readOriginal file hread
  have hnothing := (failed_setup_leaves_nothing c "/l" none).2.2.1 p Buffer.readOriginal s t u v
  obtain ⟨hsetup, hvacant, -⟩ := hnothing _ file output _ (Buffer.aloof_named _ _) rfl rfl
    hrun hpresent hname hback
  exact ⟨_, hsetup, hvacant, rfl⟩

end View

end Disasm
