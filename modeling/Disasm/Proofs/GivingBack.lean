import Disasm.Proofs.Interchange
import Disasm.Proofs.Reentry
/-!
# Giving back — whether the original is asked to be restored

A teardown of a listing on show, and a set-up whose listing could not be
presented, are due to give the original back. They ask the presenter for
the original's name first and for the original then, so a presenter that
refuses the name is never asked for the file: `restore_asked_iff` says
that this is the only way for it to be missed, and what is left then.

What a presenter is asked is seen by sending it on its errands with a
record of them. The record changes nothing (`tallies_attended`).
-/

namespace Disasm

open Act

namespace GivingBack

open View Reentry

variable {P : Type}

/-! ## Errands on record -/

deriving instance DecidableEq for Reentry.Errand

/-- A presenter with the errands it was sent on. -/
structure Attended (P : Type) where
  presenter : P
  errands : List Errand := []

/-- A stage on which nothing was asked yet. -/
def unasked (s : Stage P) : Stage (Attended P) where
  machine := s.machine
  view := s.view
  presenter := { presenter := s.presenter }

/-- A stage without the record. -/
def bared (s : Stage (Attended P)) : Stage P where
  machine := s.machine
  view := s.view
  presenter := s.presenter.presenter

/-- Runs an errand and puts it on record. -/
def attend (errand : Errand) (x : Act (Stage P) Unit) : Act (Stage (Attended P)) Unit :=
  x.within bared fun s t =>
    { machine := t.machine
      view := t.view
      presenter := { presenter := t.presenter, errands := s.presenter.errands ++ [errand] } }

/-- The presenter whose errands go on record. -/
def attended (p : Presenter P) : Presenter (Attended P) where
  showText text := attend (.showText text) (p.showText text)
  setIdentity name := attend (.setIdentity name) (p.setIdentity name)
  markUnmodified := attend .markUnmodified p.markUnmodified
  restore original := attend (.restore original) (p.restore original)

/-- What a call to a view asks of the presenter. -/
def asked (p : Presenter P) (c : Config) (r : Request) (s : Stage P) : List Errand :=
  ((ask (attended p) c r).exec (unasked s)).2.presenter.errands

variable {p : Presenter P} {c : Config} {r : Request} {s t : Stage P} {original : Identity}

theorem exec_attend (errand : Errand) (x : Act (Stage P) Unit) (s : Stage (Attended P)) :
    ((attend errand x).exec s).1 = (x.exec (bared s)).1 ∧
      bared ((attend errand x).exec s).2 = (x.exec (bared s)).2 ∧
      ((attend errand x).exec s).2.presenter.errands = s.presenter.errands ++ [errand] :=
  ⟨rfl, rfl, rfl⟩

/-- A presenter and the same without its record. -/
def Same (a : Attended P) (b : P) : Prop :=
  a.presenter = b

theorem alike_bared (s : Stage (Attended P)) : Alike Same (fun _ => True) s (bared s) :=
  ⟨rfl, rfl, rfl, fun _ _ => trivial⟩

theorem bared_of_alike {s : Stage (Attended P)} (h : Alike Same (fun _ => True) s t) :
    bared s = t := by
  obtain ⟨machine, view, presenter⟩ := t
  obtain ⟨hmachine, hview, hpresenter, -⟩ := h
  dsimp only at hmachine hview hpresenter
  subst hmachine hview hpresenter
  rfl

theorem tallies_attend (errand : Errand) (x : Act (Stage P) Unit) :
    Tallies Same (fun _ => True) (attend errand x) x := by
  intro s t h
  rw [← bared_of_alike h]
  exact ⟨rfl, alike_bared _⟩

/-- **The record changes nothing.** -/
theorem tallies_attended (p : Presenter P) :
    (attended p).Tallies Same (fun _ => True) p where
  present :=
    tallies_present (fun _ => tallies_attend _ _) (fun _ => tallies_attend _ _)
      (tallies_attend _ _)
  putBack _ _ := (tallies_attend _ _).bind fun _ _ => tallies_attend _ _

/-- A call over a presenter on record is the call over the presenter. -/
theorem exec_ask_attended (p : Presenter P) (c : Config) (r : Request) (s : Stage P) :
    ((ask (attended p) c r).exec (unasked s)).1 = ((ask p c r).exec s).1 ∧
      bared ((ask (attended p) c r).exec (unasked s)).2 = ((ask p c r).exec s).2 := by
  have htally := tallies_ask (c := c) (r := r) (tallies_attended p)
    (fun _ _ _ _ _ _ _ _ => trivial) (unasked s) s (alike_bared _)
  exact ⟨htally.1, bared_of_alike htally.2⟩

/-- Putting a file back asks for its name, and for the file if the name was
taken. -/
theorem errands_putBack (p : Presenter P) (original : Identity) (s : Stage (Attended P)) :
    ((putBack (attended p) original).exec s).2.presenter.errands =
      s.presenter.errands ++ .setIdentity original.location.display ::
        match ((p.setIdentity original.location.display).exec (bared s)).1 with
        | .ok () => [.restore original]
        | .error _ => [] := by
  obtain ⟨hend, -, herrands⟩ := exec_attend (.setIdentity original.location.display)
    (p.setIdentity original.location.display) s
  rw [← hend]
  rcases hname : (attend (.setIdentity original.location.display)
    (p.setIdentity original.location.display)).exec s with ⟨f | _, t⟩
  · rw [hname] at herrands
    have hback : (putBack (attended p) original).exec s = (.error f, t) := exec_bind_error hname
    rw [hback]
    exact herrands
  · rw [hname] at herrands
    have hback : (putBack (attended p) original).exec s =
        (attend (.restore original) (p.restore original)).exec t := exec_bind_ok hname
    rw [hback, (exec_attend _ _ t).2.2, herrands, List.append_assoc]
    rfl

/-- Nothing was asked to be restored. -/
def Unrestored (s : Stage (Attended P)) : Prop :=
  ∀ original, Errand.restore original ∉ s.presenter.errands

theorem preserves_attend {errand : Errand} (h : ∀ original, errand ≠ .restore original)
    (x : Act (Stage P) Unit) : (attend errand x).Preserves Unrestored := by
  intro s hs original hmem
  rw [(exec_attend errand x s).2.2, List.mem_append, List.mem_singleton] at hmem
  rcases hmem with hmem | hmem
  · exact hs original hmem
  · exact h original hmem.symm

theorem preserves_present_attended (p : Presenter P) (marker : String) (original : Identity)
    (text : String) : (present (attended p) marker original text).Preserves Unrestored := by
  refine (preserves_attend (by simp) _).bind fun _ => ?_
  refine (Preserves.ofExcept _).bind fun name => ?_
  exact (preserves_attend (by simp) _).bind fun _ => preserves_attend (by simp) _

/-! ## When the original is due -/

/-- A call to a view comes to a stage on which it is to give a file back. -/
inductive Due (p : Presenter P) (c : Config) (s : Stage P) :
    Request → Stage P → Identity → Prop
  /-- A teardown of a listing on show. -/
  | teardown {e : Session} : s.view.session = some e → e.state = .active →
      Due p c s .teardown (leaving s e) e.original
  /-- A set-up whose listing could not be presented. -/
  | setup {path : String} {timeout : Option Number} {output : Output} {t u : Stage P}
      {original : Identity} {f : Failure} : s.view.session = none →
      (ready c path timeout).exec s = (.ok (some (original, output)), t) →
      (present p c.marker original output.text).exec t = (.error f, u) →
      Due p c s (.setup path timeout) (failed u original) original

theorem exec_ask_teardown (p : Presenter P) (c : Config) (s : Stage P) :
    (ask p c .teardown).exec s = (((teardown p).exec s).1.map fun _ => .done,
      ((teardown p).exec s).2) := by
  rw [ask, exec_bind]
  rcases (teardown p).exec s with ⟨f | _, t⟩
  · rfl
  · rfl

/-- What the presenter holds after the call is what putting back left. -/
theorem Due.presenter (h : Due p c s r t original) :
    ((ask p c r).exec s).2.presenter = ((putBack p original).exec t).2.presenter := by
  cases h with
  | @teardown e hs he =>
    rw [exec_ask_teardown]
    rcases hback : (putBack p e.original).exec (leaving s e) with ⟨f | _, v⟩
    · rw [exec_teardown_error hs he hback]
      rfl
    · rw [exec_teardown_ok hs he hback]
      rfl
  | @setup path timeout output t u original f hs hready hpresent =>
    rw [ask, exec_map]
    rcases hback : (putBack p original).exec (failed u original) with ⟨g | _, v⟩
    · rw [exec_setup_stranded hs hready hpresent hback]
    · rw [exec_setup_failed hs hready hpresent hback]

/-- A call that fails to put back fails as that does. -/
theorem Due.error (h : Due p c s r t original) {g : Failure}
    (hback : ((putBack p original).exec t).1 = .error g) :
    ((ask p c r).exec s).1 = .error g := by
  have hrun : (putBack p original).exec t = (.error g, ((putBack p original).exec t).2) :=
    Prod.ext hback rfl
  cases h with
  | teardown hs he =>
    rw [exec_ask_teardown, exec_teardown_error hs he hrun]
    rfl
  | setup hs hready hpresent =>
    rw [ask, exec_map, exec_setup_stranded hs hready hpresent hrun]
    rfl

/-- **No session is left**, if the presenter does not call its view. -/
theorem Due.session (h : Due p c s r t original) (hp : p.Aloof) :
    ((ask p c r).exec s).2.view.session = none := by
  cases h with
  | teardown hs he =>
    rw [exec_ask_teardown]
    exact session_of_teardown ((state_of_session hs).trans he)
  | @setup path timeout output t u original f hs hready hpresent =>
    have ht := session_of_ready hs hready
    rw [ask, exec_map]
    rcases hback : (putBack p original).exec (failed u original) with ⟨g | _, v⟩
    · rw [exec_setup_stranded hs hready hpresent hback]
      exact session_of_putBack hp ht hpresent hback
    · rw [exec_setup_failed hs hready hpresent hback]
      exact session_of_putBack hp ht hpresent hback

/-- What is due is due with a record, on which nothing is restored yet. -/
theorem Due.attended (h : Due p c s r t original) :
    ∃ t', Due (attended p) c (unasked s) r t' original ∧ bared t' = t ∧ Unrestored t' := by
  cases h with
  | teardown hs he => exact ⟨_, .teardown hs he, rfl, fun _ => List.not_mem_nil⟩
  | @setup path timeout output t u original f hs hready hpresent =>
    have halike : Alike Same (fun _ => True) (unasked s) s := alike_bared _
    obtain ⟨hready', ht⟩ := tallies_ready c path timeout _ _ halike
    have huntouched := (ready_untouched c path timeout (unasked s)).2
    rcases hrun : (ready c path timeout).exec (unasked s) with ⟨found, t'⟩
    rw [hrun, hready] at hready' ht
    rw [hrun] at huntouched
    dsimp only at hready' ht huntouched
    subst hready'
    have hnone : Unrestored t' := by
      intro i
      rw [huntouched]
      exact List.not_mem_nil
    obtain ⟨hpresent', hu⟩ :=
      (tallies_attended p).present c.marker original output.text _ _ ht
    have hlate := preserves_present_attended p c.marker original output.text t' hnone
    rcases hshow : (present (GivingBack.attended p) c.marker original output.text).exec t' with
      ⟨e, u'⟩
    rw [hshow, hpresent] at hpresent' hu
    rw [hshow] at hlate
    dsimp only at hpresent' hu hlate
    subst hpresent'
    refine ⟨_, .setup hs hrun hshow, ?_, hlate⟩
    rw [← bared_of_alike hu]
    rfl

theorem Due.restore_mem_asked_iff (h : Due p c s r t original) :
    Errand.restore original ∈ asked p c r s ↔
      ((p.setIdentity original.location.display).exec t).1 = .ok () := by
  obtain ⟨t', hdue, rfl, hnone⟩ := h.attended
  have herrands : asked p c r s = _ :=
    (congrArg Attended.errands hdue.presenter).trans (errands_putBack p original t')
  rw [herrands, List.mem_append, List.mem_cons]
  rcases ((p.setIdentity original.location.display).exec (bared t')).1 with f | _
  · simp [hnone original]
  · simp

/-- **Whether the original is asked to be restored**, by a teardown of a
listing on show and by a set-up whose listing could not be presented: if
and only if the presenter takes the name of the original back. One that
does not is left as it then is, without a session. A buffer that does, and
that can be read into again, holds the original afterwards. -/
theorem restore_asked_iff (c : Config) :
    (∀ (P : Type) (p : Presenter P) (r : Request) (s : Stage P),
      ((ask (attended p) c r).exec (unasked s)).1 = ((ask p c r).exec s).1 ∧
        bared ((ask (attended p) c r).exec (unasked s)).2 = ((ask p c r).exec s).2) ∧
    (∀ (P : Type) (p : Presenter P) (r : Request) (s t : Stage P) (original : Identity),
      Due p c s r t original →
      (Errand.restore original ∈ asked p c r s ↔
        ((p.setIdentity original.location.display).exec t).1 = .ok ()) ∧
      ∀ g v, (p.setIdentity original.location.display).exec t = (.error g, v) →
        ((ask p c r).exec s).1 = .error g ∧
          ((ask p c r).exec s).2.presenter = v.presenter) ∧
    (∀ (P : Type) (p : Presenter P) (r : Request) (s t : Stage P) (original : Identity),
      p.Aloof → Due p c s r t original → ((ask p c r).exec s).2.view.session = none) ∧
    ∀ (p : Presenter Buffer) (read : Location → Act Machine Bytes) (r : Request)
        (s t v w : Stage Buffer) (original : Identity),
      p.restore = (Buffer.presenter read).restore → Due p c s r t original →
      (p.setIdentity original.location.display).exec t = (.ok (), v) →
      (p.restore original).exec v = (.ok (), w) →
      ∃ content, (read original.location).exec v.machine = (.ok content, w.machine) ∧
        ((ask p c r).exec s).2.presenter = { identity := original.location.display, content,
                                             modified := false, readOnly := false } := by
  refine ⟨fun P p r s => exec_ask_attended p c r s, fun P p r s t original h => ?_,
    fun P p r s t original hp h => h.session hp, ?_⟩
  · refine ⟨h.restore_mem_asked_iff, fun g v hname => ?_⟩
    have hback : (putBack p original).exec t = (.error g, v) := exec_bind_error hname
    refine ⟨h.error (congrArg Prod.fst hback), ?_⟩
    rw [h.presenter, hback]
  · intro p read r s t v w original hrestore h hname hback
    have hputBack : (putBack p original).exec t = (.ok (), w) := by
      rw [putBack, exec_bind_ok hname, hback]
    rw [hrestore] at hback
    obtain ⟨content, hread, hbuffer⟩ := Buffer.restored read hback
    refine ⟨content, hread, ?_⟩
    rw [h.presenter, hputBack, hbuffer]

/-- A view that was set up for the linked file, over a buffer. -/
def onShowOver (p : Presenter Buffer) : Stage Buffer :=
  ((View.setup p { backend := .str "o" } "/l" none).exec
    { machine := .linked, presenter := {} }).2

/-- A buffer that takes every name gets its file back. -/
theorem restore_asked_iff_buffer :
    let buffer := Buffer.presenter Buffer.readOriginal
    let s := onShowOver buffer
    Errand.restore { location := { path := "/a" }, size := 2 } ∈ asked buffer {} .teardown s ∧
      ((ask buffer {} .teardown).exec s).2.presenter =
        { identity := "/a", content := [0, 1], modified := false, readOnly := false } := by
  intro buffer s
  let file : Identity := { location := { path := "/a" }, size := 2 }
  have hactive : s.view.state = .active := by decide +kernel
  have horiginal : s.view.original? = some file := by decide +kernel
  have hread : ((Buffer.readOriginal file.location).exec s.machine).1 = .ok [0, 1] :=
    ok_of_toOption (by decide +kernel)
  obtain ⟨e, hs, he⟩ := session_of_state hactive (by decide)
  rw [original?, hs, Option.map_some, Option.some.injEq] at horiginal
  have hdue : Due buffer {} s .teardown (leaving s e) file := horiginal ▸ .teardown hs he
  let v : Stage Buffer :=
    { leaving s e with presenter := { s.presenter with identity := "/a" } }
  have hname : (buffer.setIdentity file.location.display).exec (leaving s e) = (.ok (), v) := rfl
  have hback := Buffer.exec_restore Buffer.readOriginal file (s := v) hread
  obtain ⟨-, hasked, -, hbuffer⟩ := restore_asked_iff {}
  refine ⟨((hasked _ buffer .teardown s _ file hdue).1).2 (congrArg Prod.fst hname), ?_⟩
  obtain ⟨content, hcontent, hholds⟩ :=
    hbuffer buffer Buffer.readOriginal .teardown s _ v _ file rfl hdue hname hback
  have hsame : content = [0, 1] := by
    have hboth := (congrArg Prod.fst hcontent).symm.trans hread
    exact Except.ok.inj hboth
  rw [hholds, hsame]
  rfl

/-- A buffer that does not take the name of the file keeps the listing: if a
teardown ought to have given the file back, and if a set-up ought to. -/
theorem listing_left_by_refusal :
    let c : Config := { backend := .str "o" }
    let p := Buffer.named "/a.objdump" Buffer.readOriginal
    let q := Buffer.named "" Buffer.readOriginal
    let start : Stage Buffer := { machine := .linked, presenter := {} }
    (onShowOver p).view.state = .active ∧
    asked p c .teardown (onShowOver p) = [.setIdentity "/a"] ∧
    ((ask p c .teardown).exec (onShowOver p)).2.view.session = none ∧
    ((ask p c .teardown).exec (onShowOver p)).2.presenter =
      { identity := "/a.objdump", content := [65], readOnly := true } ∧
    asked q c (.setup "/l" none) start =
      [.showText "A", .setIdentity "/a.objdump", .setIdentity "/a"] ∧
    ((ask q c (.setup "/l" none)).exec start).2.view.session = none ∧
    ((ask q c (.setup "/l" none)).exec start).2.presenter =
      { content := [65], readOnly := true, modified := true } := by
  decide +kernel

end GivingBack

end Disasm
