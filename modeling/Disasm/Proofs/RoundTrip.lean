import Disasm.Proofs.LocalFile
import Disasm.Proofs.Rollback
/-!
# Round trips — a file, its listing, and the file again

A buffer opens a local file and a view shows its listing in the buffer.
Whatever is asked of the view and done to the buffer meanwhile, a teardown
brings the bytes back that were opened, under the canonical path of the
file, as often as the listing is shown. All that is asked is that the file
tree is the same when a listing is set up and when it is torn down.
-/

namespace Disasm

open Act

namespace View

variable {P α : Type} {p : Presenter P} {c : Config}

/-! ## The standpoint of the machine -/

/-- The standpoint of the machine that a view runs on. -/
def standpoint (s : Stage P) : Machine.Standpoint :=
  s.machine.standpoint

theorem keeps_onMachine {x : Act Machine α} (h : x.Keeps Machine.standpoint) :
    (onMachine x : Act (Stage P) α).Keeps standpoint :=
  fun v s hs => h v s.machine hs

theorem keeps_setup (hp : ∀ v, p.Preserves (standpoint · = v)) (path : String)
    (timeout : Option Number) : (setup p c path timeout).Keeps standpoint :=
  fun v => preserves_setup (lasting_machine (Machine.lasting_standpoint v) c) (hp v) path timeout

theorem keeps_teardown (hp : ∀ v, p.Preserves (standpoint · = v)) :
    (teardown p).Keeps standpoint :=
  fun v => preserves_teardown (lasting_machine (Machine.lasting_standpoint v) {}) (hp v)

end View

/-- A buffer leaves the standpoint of the machine alone. -/
theorem Buffer.preserves_standpoint
    (v : Machine.Standpoint) :
    (presenter readOriginal).Preserves (View.standpoint · = v) := by
  refine ⟨fun _ _ hs => hs, fun _ _ hs => hs, fun _ hs => hs, fun i => ?_⟩
  refine Preserves.bind (fun _ hs => hs) fun _ => ?_
  refine Preserves.bind ?_ fun _ _ hs => hs
  exact View.keeps_onMachine (Host.keeps_readBytes _ _) v

theorem Buffer.keeps_openAt (raw : String) : (openAt raw).Keeps Machine.standpoint := by
  intro v
  refine Preserves.bind (fun _ hm => hm) fun l => ?_
  exact (Host.keeps_readBytes _ _ v).bind fun _ => Preserves.pure _

namespace RoundTrip

open View (buffer)

/-- What can happen while nothing is set up or torn down. -/
inductive Meanwhile (c : Config) (s : Stage Buffer) : Stage Buffer → Prop
  | nothing : Meanwhile c s s
  | question {t : Stage Buffer} {r : View.Request} :
      Meanwhile c s t → r.isQuestion → Meanwhile c s ((View.ask buffer c r).exec t).2
  /-- The buffer is given another name, content or mark. -/
  | assign {t : Stage Buffer} (b : Buffer) :
      Meanwhile c s t → Meanwhile c s { t with presenter := b }
  /-- Something else happens on the machine. -/
  | elsewhere {t : Stage Buffer} (m : Machine) :
      Meanwhile c s t → m.standpoint = t.machine.standpoint → Meanwhile c s (t.withMachine m)

/-- What a view and its buffer can come to while a file tree is the same
whenever a listing is set up. -/
inductive Reached (c : Config) (path : String) (files : FileTree) (start : Stage Buffer) :
    Stage Buffer → Prop
  | start : Reached c path files start start
  | setup {s : Stage Buffer} (timeout : Option Number) :
      Reached c path files start s → s.machine.files = files →
      Reached c path files start ((View.setup buffer c path timeout).exec s).2
  | teardown {s : Stage Buffer} :
      Reached c path files start s → Reached c path files start ((View.teardown buffer).exec s).2
  | meanwhile {s t : Stage Buffer} :
      Reached c path files start s → Meanwhile c s t → Reached c path files start t

variable {c : Config} {path : String} {m m' : Machine} {b : Buffer} {content : Bytes}
variable {s t : Stage Buffer}

/-- **Meanwhile what is on show stays**, and so does the standpoint. -/
theorem Meanwhile.keeps (h : Meanwhile c s t) :
    t.view.onShow = s.view.onShow ∧ View.standpoint t = View.standpoint s := by
  induction h with
  | nothing => exact ⟨rfl, rfl⟩
  | @question t r _ hr ih =>
    have hbare : View.bare ((View.ask buffer c r).exec t).2 = View.bare t :=
      View.keeps_question hr (View.bare t) t rfl
    have hstandpoint := congrArg (fun u : Stage Buffer => View.standpoint u) hbare
    exact ⟨(View.onShow_question hr t).trans ih.1, hstandpoint.trans ih.2⟩
  | assign b _ ih => exact ih
  | elsewhere m _ hm ih => exact ⟨ih.1, hm.trans ih.2⟩

/-- A view that shows nothing, or the listing of a file that stands for the
bytes that were opened. -/
structure Holds (m : Machine) (path : String) (content : Bytes) (s : Stage Buffer) : Prop where
  standpoint : View.standpoint s = m.standpoint
  onShow : ∀ original state, s.view.onShow = some (original, state) →
    state = .active ∧ StandsFor m path content original

/-- A stage without a session holds, seen from the same standpoint. -/
theorem Holds.of_session_none (hstandpoint : View.standpoint s = m.standpoint)
    (h : s.view.session = none) : Holds m path content s where
  standpoint := hstandpoint
  onShow original state hshow := by
    rw [View.onShow, h] at hshow
    cases hshow

theorem Holds.meanwhile (h : Holds m path content s) (hst : Meanwhile c s t) :
    Holds m path content t where
  standpoint := hst.keeps.2.trans h.standpoint
  onShow original state hshow := h.onShow original state (hst.keeps.1.symm.trans hshow)

/-- A teardown leaves nothing on show. -/
theorem Holds.teardown (h : Holds m path content s) :
    Holds m path content ((View.teardown buffer).exec s).2 := by
  have hstandpoint : View.standpoint ((View.teardown buffer).exec s).2 = m.standpoint :=
    View.keeps_teardown Buffer.preserves_standpoint _ s h.standpoint
  by_cases hactive : s.view.state = .active
  · exact .of_session_none hstandpoint (View.session_of_teardown hactive)
  · rw [View.exec_teardown_idle hactive]
    exact h

/-- **A set-up shows the file that was opened**, if it shows anything. -/
theorem Holds.setup (hcwd : Text.startsWith m.cwd "/" = true)
    (hlocal : Location.cutScheme? path = none) (hopen : (Buffer.openAt path).exec m = (.ok b, m'))
    (h : Holds m path b.content s) (hfiles : s.machine.files = m.files)
    (timeout : Option Number) :
    Holds m path b.content ((View.setup buffer c path timeout).exec s).2 := by
  have hstandpoint : View.standpoint ((View.setup buffer c path timeout).exec s).2 =
      m.standpoint :=
    View.keeps_setup Buffer.preserves_standpoint path timeout _ s h.standpoint
  rcases hsession : s.view.session with _ | e
  · rcases hresult : (View.setup buffer c path timeout).exec s with ⟨r, t⟩
    rw [hresult] at hstandpoint
    by_cases hr : r = .ok true
    · subst hr
      obtain ⟨verdict, original, output, hprobe, haccepted, hshown⟩ := View.shown_of_setup hresult
      refine ⟨hstandpoint, fun other state hshow => ?_⟩
      rw [View.onShow, hshown] at hshow
      cases hshow
      exact ⟨rfl, standsFor_of_accepted hcwd hlocal hopen hfiles h.standpoint
        (Prod.ext hprobe rfl) haccepted⟩
    · exact .of_session_none hstandpoint
        (View.session_of_setup (Buffer.aloof_presenter _) hsession hresult hr)
  · rw [View.exec_setup_occupied (by rw [hsession]; rfl)]
    exact h

/-- **Whatever is reached holds.** -/
theorem Reached.holds (hcwd : Text.startsWith m.cwd "/" = true)
    (hlocal : Location.cutScheme? path = none) (hopen : (Buffer.openAt path).exec m = (.ok b, m'))
    (h : Reached c path m.files { machine := m', presenter := b } s) :
    Holds m path b.content s := by
  induction h with
  | start =>
    have hkeeps := Buffer.keeps_openAt path m.standpoint m rfl
    rw [hopen] at hkeeps
    exact .of_session_none hkeeps rfl
  | setup timeout _ hfiles ih => exact ih.setup hcwd hlocal hopen hfiles timeout
  | teardown _ ih => exact ih.teardown
  | meanwhile _ hst ih => exact ih.meanwhile hst

/-- **A teardown gives the opened bytes back.** -/
theorem Holds.exec_teardown (h : Holds m path content s) (hfiles : s.machine.files = m.files)
    (hactive : s.view.state = .active) :
    ∃ place original t,
      m.files.canonical m.here (Path.ofString (m.localPath path)).text = .ok place ∧
      s.view.original? = some original ∧ original.location.display = place.text ∧
      (View.teardown buffer).exec s = (.ok (), t) ∧
      t.presenter = { identity := place.text, content, modified := false, readOnly := false } ∧
      t.view.Vacant := by
  obtain ⟨e, hsession, hstate⟩ := View.session_of_state hactive (by decide)
  obtain ⟨-, place, hplace, hlocation, hread⟩ :=
    h.onShow e.original e.state (by rw [View.onShow, hsession]; rfl)
  have hdisplay : e.original.location.display = place.text := by
    rw [hlocation]
    rfl
  -- The buffer takes the name of the file first, and reads it then.
  let named : Stage Buffer := { View.leaving s e with
    presenter := { s.presenter with identity := e.original.location.display } }
  have hname : (buffer.setIdentity e.original.location.display).exec (View.leaving s e) =
      (.ok (), named) := rfl
  have hrestore := Buffer.exec_restore Buffer.readOriginal e.original (s := named)
    (hread named.machine hfiles h.standpoint)
  obtain ⟨t, hback, hpresenter⟩ : ∃ t,
      (View.putBack buffer e.original).exec (View.leaving s e) = (.ok (), t) ∧
      t.presenter = { identity := e.original.location.display, content } :=
    ⟨_, by rw [View.putBack, exec_bind_ok hname, hrestore], rfl⟩
  rw [hdisplay] at hpresenter
  exact ⟨place, e.original, _, hplace, by rw [View.original?, hsession]; rfl, hdisplay,
    View.exec_teardown_ok hsession hstate hback, hpresenter,
    View.vacant_of_session_none rfl⟩

/-- **A round trip brings the opened bytes back.** A local file was opened,
and at some stage that was reached from there a set-up succeeded. Whatever
has happened since, a teardown does not fail and leaves the bytes that
were opened under the canonical path of the file, provided the file tree
is the one it was opened in. Stages are reached through any number of
set-ups and teardowns, so this is so again each time. The working
directory is rooted, as that of every machine is. -/
theorem round_trip (c : Config) (path : String) (m m' : Machine) (l : Location) (b : Buffer)
    (hcwd : Text.startsWith m.cwd "/" = true)
    (hread : ((Machine.readLocation path).exec m).1 = .ok l) (hlocal : l.isRemote = false)
    (hopen : (Buffer.openAt path).exec m = (.ok b, m'))
    (s t u : Stage Buffer) (timeout : Option Number)
    (hreached : Reached c path m.files { machine := m', presenter := b } s)
    (hfiles : s.machine.files = m.files)
    (hsetup : (View.setup buffer c path timeout).exec s = (.ok true, t))
    (hmeanwhile : Meanwhile c t u) (hunchanged : u.machine.files = m.files) :
    ∃ place original v,
      m.files.canonical m.here (Path.ofString (m.localPath path)).text = .ok place ∧
      u.view.original? = some original ∧ original.location.display = place.text ∧
      (View.teardown buffer).exec u = (.ok (), v) ∧
      v.presenter = { identity := place.text, content := b.content,
                      modified := false, readOnly := false } ∧
      v.view.Vacant := by
  have hu : Reached c path m.files { machine := m', presenter := b } u := by
    have ht := hreached.setup timeout hfiles
    rw [hsetup] at ht
    exact ht.meanwhile hmeanwhile
  -- Nothing that happened since the set-up has taken the listing away.
  have hactive : u.view.state = .active := by
    obtain ⟨verdict, original, output, -, -, hshown⟩ := View.shown_of_setup hsetup
    rw [View.state_eq_onShow, hmeanwhile.keeps.1, ← View.state_eq_onShow,
      View.state_of_session hshown]
  have hholds := hu.holds hcwd (Machine.cutScheme?_of_local hread hlocal) hopen
  exact hholds.exec_teardown hunchanged hactive

/-- A file behind a link is shown, spoilt and brought back under its own
name. -/
theorem round_trip_link :
    ∃ t v, (View.setup buffer { backend := .str "o" } "/l" none).exec
        { machine := .linked, presenter := { identity := "/l", content := [0, 1] } } =
        (.ok true, t) ∧
      (View.teardown buffer).exec { t with presenter := { content := [7], modified := true } } =
        (.ok (), v) ∧
      v.presenter = { identity := "/a", content := [0, 1] } ∧ v.view.Vacant := by
  let c : Config := { backend := .str "o" }
  let opened : Buffer := { identity := "/l", content := [0, 1] }
  let s : Stage Buffer := { machine := .linked, presenter := opened }
  have hopen : (Buffer.openAt "/l").exec .linked = (.ok opened, .linked) :=
    Prod.ext (ok_of_toOption (by decide +kernel)) rfl
  have hsetup : ((View.setup buffer c "/l" none).exec s).1 = .ok true :=
    ok_of_toOption (by decide +kernel)
  have hfiles : ((View.setup buffer c "/l" none).exec s).2.machine.files =
      Machine.linked.files := by
    decide +kernel
  rcases hrun : (View.setup buffer c "/l" none).exec s with ⟨r, t⟩
  rw [hrun] at hsetup hfiles
  subst hsetup
  let u : Stage Buffer := { t with presenter := { content := [7], modified := true } }
  obtain ⟨place, original, v, hplace, -, -, hdown, hback, hvacant⟩ :=
    round_trip c "/l" .linked .linked { path := "/l" } opened (by decide)
      (ok_of_toOption (by decide +kernel)) rfl hopen s t u none .start rfl hrun
      (.assign _ .nothing) hfiles
  have hname : FileTree.canonical Machine.linked.files Machine.linked.here
      (Path.ofString (Machine.linked.localPath "/l")).text = .ok ["a"] :=
    ok_of_toOption (by decide +kernel)
  rw [hname] at hplace
  cases hplace
  exact ⟨t, v, rfl, hdown, hback, hvacant⟩

end RoundTrip

end Disasm
