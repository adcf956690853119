import Disasm.Opening.Desk
import Disasm.Proofs.HandlerList
import Disasm.Proofs.Interchange
import Disasm.Proofs.Restoring
import Mathlib.Algebra.Group.Nat.Defs
/-!
# Dispatch — all or nothing

A file that is handed to the handler for listings is looked at up to three
times: its first bytes are read, it is probed, and it is probed again and
disassembled when the view is set up. Whatever the machine answers in
between, the buffer ends up in one of two ways unless the listing could
not be presented: it shows the listing of an active view, or it is as it
was. A backend that fails is never the reason for anything else
(`dispatch_all_or_nothing`).
-/

namespace Disasm

open Act Text

/-! ## Opening a listing in a buffer -/

namespace Buffer

variable {read : Location → Act Machine Bytes} {c : Config} {path : String}

/-- A reader whose failures are not those of the backend. -/
def Sober (read : Location → Act Machine Bytes) : Prop :=
  ∀ l m f, ((read l).exec m).1 = .error f → f.isBackend = false

theorem isBackend_of_halts {α : Type} {x : Act Machine α} {m : Machine} {blocked : Bool}
    {f : Failure} (hx : x.Halts blocked m) (hf : (x.exec m).1 = .error f) : f.isBackend = false := by
  cases blocked with
  | true =>
    obtain ⟨g, hg, hrefusal⟩ := hx.refusal rfl
    cases hf.symm.trans hg
    cases f with
    | backend fault command => cases hrefusal
    | _ => rfl
  | false =>
    have hsystem := hx.report rfl f hf
    cases f with
    | backend fault command => cases hsystem
    | _ => rfl

theorem sober_readOriginal : Sober readOriginal := by
  intro l m f hf
  rw [readOriginal, Host.of] at hf
  by_cases hremote : l.isRemote = true
  · rw [if_pos hremote] at hf
    obtain ⟨host, hhost⟩ := Option.isSome_iff_exists.1 hremote
    have htarget : l.sshTarget = .ok (Location.destination l.user host) := by
      rw [Location.sshTarget, hhost]
    exact isBackend_of_halts (Host.halts_readRemote rfl htarget ["cat", "--", l.path] m) hf
  · rw [if_neg hremote] at hf
    exact isBackend_of_halts (Machine.halts_contentOf _ m) hf

/-- How presenting a listing ends in a buffer: only its name can be at
fault. -/
theorem exec_present (read : Location → Act Machine Bytes) (marker : String) (original : Identity)
    (text : String) (s : Stage Buffer) :
    (View.present (presenter read) marker original text).exec s =
      match original.location.viewName marker with
      | .ok name => (.ok (), { s with presenter :=
          { identity := name, content := Text.Utf8.encode text, modified := false,
            readOnly := true } })
      | .error f => (.error f, { s with presenter :=
          { s.presenter with
            content := Text.Utf8.encode text, modified := true, readOnly := true } }) := by
  have hshow : ((presenter read).showText text).exec s = (.ok (), { s with presenter :=
      { s.presenter with
        content := Text.Utf8.encode text, modified := true, readOnly := true } }) := rfl
  rw [View.present, exec_bind_ok hshow]
  rcases hname : original.location.viewName marker with f | name
  · rfl
  · rfl

theorem isBackend_of_viewName {l : Location} {marker : String} {f : Failure}
    (h : l.viewName marker = .error f) : f.isBackend = false := by
  rw [Location.viewName, Location.withSuffix] at h
  split at h
  · cases h
  · split at h
    · cases h
    · cases h
      rfl

/-- Putting a file back fails only as its reader does. -/
theorem isBackend_of_putBack (hread : Sober read) {original : Identity} {s t : Stage Buffer}
    {f : Failure} (h : (View.putBack (presenter read) original).exec s = (.error f, t)) :
    f.isBackend = false := by
  rw [exec_putBack] at h
  rcases hend : (read original.location).exec s.machine with ⟨g | content, m⟩
  · rw [hend] at h
    cases h
    exact hread _ _ _ (congrArg Prod.fst hend)
  · rw [hend] at h
    cases h

/-- A set-up that the backend makes fail leaves the buffer as it was. -/
theorem untouched_of_backend (hread : Sober read) {s t : Stage Buffer} {f : Failure}
    (hs : s.view.session = none)
    (h : (View.setup (presenter read) c path none).exec s = (.error f, t))
    (hf : f.isBackend = true) : t.presenter = s.presenter := by
  rcases hready : (View.ready c path none).exec s with ⟨g | found, s₁⟩
  · rw [View.exec_setup_unready hs hready] at h
    cases h
    have huntouched := (View.ready_untouched c path none s).2
    rwa [hready] at huntouched
  rcases found with _ | ⟨original, output⟩
  · rw [View.exec_setup_declined hs hready] at h
    cases h
  -- From here on a failure is that of the name or of the reader.
  rcases hpresent : (View.present (presenter read) c.marker original output.text).exec s₁ with
    ⟨g | _, s₂⟩
  · rcases hback : (View.putBack (presenter read) original).exec (View.failed s₂ original) with
      ⟨g' | _, s₃⟩
    · rw [View.exec_setup_stranded hs hready hpresent hback] at h
      cases h
      rw [isBackend_of_putBack hread hback] at hf
      cases hf
    · rw [View.exec_setup_failed hs hready hpresent hback] at h
      cases h
      rw [exec_present] at hpresent
      rcases hname : original.location.viewName c.marker with g | name
      · rw [hname] at hpresent
        cases hpresent
        rw [isBackend_of_viewName hname] at hf
        cases hf
      · rw [hname] at hpresent
        cases hpresent
  · obtain ⟨w, hw⟩ := View.exec_setup_presented hs hready hpresent
    rw [hw] at h
    cases h

/-- How opening a file can end, for the buffer it is opened in: it shows the
listing of an active view, under its name and read-only; or nothing is
opened and the buffer is as it was; or it fails, and the buffer is as it was
if the backend made it fail. -/
inductive Outcome (marker : String) (before after : Buffer) :
    Except Failure (Option Opened) → Prop
  | shown {v : View} {e : Session} {name : String} :
      v.state = .active → v.session = some e → e.original.location.viewName marker = .ok name →
      after = { identity := name, content := Text.Utf8.encode e.output.text, modified := false,
                readOnly := true } →
      Outcome marker before after (.ok (some (.view (some v))))
  | nothing {found : Option Opened} :
      found = none ∨ found = some (.view none) → after = before →
      Outcome marker before after (.ok found)
  | failed {f : Failure} :
      (f.isBackend = true → after = before) → Outcome marker before after (.error f)

/-- **A listing is opened in a buffer, or nothing is.** -/
theorem outcome_openListing (hread : Sober read) (c : Config) (path : String) (s : Stage Buffer) :
    Outcome c.marker s.presenter
      ((Opening.openListing (presenter read) c path).exec s).2.presenter
      (((Opening.openListing (presenter read) c path).exec s).1.map fun v => some (.view v)) := by
  rw [Opening.openListing, exec_bind_ok (exec_modify _ s)]
  generalize hfresh : ({ s with view := {} } : Stage Buffer) = s₁
  have hs : s₁.view.session = none := by
    rw [← hfresh]
  have hpresenter : s₁.presenter = s.presenter := by
    rw [← hfresh]
  rw [← hpresenter]
  rcases hsetup : (View.setup (presenter read) c path none).exec s₁ with ⟨f | shown, t⟩
  · rw [exec_bind_error hsetup]
    exact .failed (untouched_of_backend hread hs hsetup)
  · rw [exec_bind_ok hsetup]
    cases shown with
    | false =>
      have huntouched := (View.ready_untouched c path none s₁).2
      rw [View.ready_of_declined hs hsetup] at huntouched
      exact .nothing (.inr rfl) huntouched
    | true =>
      obtain ⟨verdict, original, output, s₂, s₃, -, -, hpresent, hafter, hsession⟩ :=
        View.presented_of_setup hsetup
      rw [exec_present] at hpresent
      rcases hname : original.location.viewName c.marker with f | name
      · rw [hname] at hpresent
        cases hpresent
      · rw [hname] at hpresent
        cases hpresent
        exact .shown (View.state_of_session hsession) hsession hname hafter

end Buffer

/-! ## A rehearsal without a script -/

namespace Rehearsal

variable {read : Location → Act Machine Bytes} {c : Config}

/-- A rehearsal without a script is a buffer. -/
def Unscripted (a : Rehearsal) (b : Buffer) : Prop :=
  a.script = [] ∧ a.buffer = b

/-- A call that nothing is scripted for goes to the buffer. -/
theorem tallies_react (p : Presenter Rehearsal) (call : PresenterCall) (argument : Option String)
    (x : Act (Stage Buffer) Unit) :
    Tallies Unscripted (fun _ => True) (do react p c call argument; onBuffer x) x := by
  intro s t h
  obtain ⟨hscript, hbuffer⟩ := h.presenter
  let noted : Stage Rehearsal := { s with presenter := { s.presenter with
    events := s.presenter.events ++ [.called call argument s.view.state] } }
  have hreact : (react p c call argument).exec s = (.ok (), noted) := by
    have hnote : (note (.called call argument)).exec s = (.ok (), noted) := rfl
    have hcues : noted.presenter.script = [] := hscript
    rw [react, exec_bind_ok hnote, exec_bind_ok (exec_get noted), hcues]
    rfl
  have hstage : ({ machine := s.machine, view := s.view, presenter := s.presenter.buffer } :
      Stage Buffer) = t := by
    rw [h.machine, h.view, hbuffer]
  have hbuffered : (onBuffer x).exec noted = ((x.exec t).1,
      { machine := (x.exec t).2.machine, view := (x.exec t).2.view,
        presenter := { noted.presenter with buffer := (x.exec t).2.presenter } }) := by
    rw [← hstage]
    rfl
  rw [exec_bind_ok hreact, hbuffered]
  exact ⟨rfl, rfl, rfl, ⟨hscript, rfl⟩, fun _ _ => trivial⟩

theorem tallies_presenter (read : Location → Act Machine Bytes) (c : Config) {depth : Nat}
    (hdepth : 0 < depth) :
    (presenter read c depth).Tallies Unscripted (fun _ => True) (Buffer.presenter read) := by
  cases depth with
  | zero => omega
  | succ depth =>
    refine ⟨?_, fun original _ => ?_⟩
    · exact View.tallies_present (fun _ => tallies_react _ _ _ _) (fun _ => tallies_react _ _ _ _)
        (tallies_react _ _ _ _)
    · exact (tallies_react _ _ _ _).bind fun _ _ => tallies_react _ _ _ _

end Rehearsal

/-- Opening a listing tallies if what the view has the presenters do does. -/
theorem Opening.tallies_openListing {P Q : Type} {R : P → Q → Prop} {p : Presenter P}
    {q : Presenter Q} (hpq : p.Tallies R (fun _ => True) q) (c : Config) (path : String) :
    Tallies R (fun _ => True) (openListing p c path) (openListing q c path) := by
  refine Tallies.bind (fun s t h => ⟨rfl, h.machine, rfl, h.presenter, fun _ _ => trivial⟩)
    fun _ _ => ?_
  refine (View.tallies_setup hpq fun _ _ _ _ _ => trivial).bind fun shown _ => ?_
  cases shown with
  | false => exact Tallies.pure none
  | true =>
    intro s t h
    exact ⟨congrArg (fun v => Except.ok (some v)) h.view, h⟩

/-! ## Local files that do not look binary -/

namespace Opening

variable {c : Config} {l : Location} {m : Machine} {path : String}

/-- Looking for a null byte in a file is reading it. -/
theorem exec_isBinary_file {limit : Nat} (hpos : 0 < limit) (hlimit : limit ≤ 2 ^ 31) (path : String)
    (m : Machine) :
    (Sniff.isBinary (.file path) limit).exec m =
      (((Machine.contentOf path).exec m).1.map fun content =>
        ((Sniff.nulOffset? (content.take limit)).isSome, []), m) := by
  have hsample : (Sniff.Source.file path).sample limit =
      (do return ⟨← Machine.readStart path limit, []⟩) := by
    rw [Sniff.Source.sample, if_neg (by omega)]
  have hsame : m = ((Machine.contentOf path).exec m).2 := Machine.preserves_contentOf path m rfl
  rw [Sniff.isBinary, Sniff.firstNul, hsample, Machine.readStart]
  simp only [bind_assoc]
  rcases hcontent : (Machine.contentOf path).exec m with ⟨f | content, m'⟩
  · rw [hcontent] at hsame
    cases hsame
    rw [exec_bind_error hcontent]
    rfl
  · rw [hcontent] at hsame
    cases hsame
    have hfits : ¬Machine.maxRead < (limit : Int) := by
      rw [Machine.maxRead]
      omega
    rw [exec_bind_ok hcontent, if_neg hfits]
    rfl

/-- How sniffing at a file ends that cannot be read, or has no null byte
where one is looked for: the answer is no, unless the path cannot even be
handed to the system. -/
theorem exec_sniffs (hlimit : c.sniffLimit ≤ 2 ^ 31)
    (hplain : ∀ content, ((Machine.contentOf l.path).exec m).1 = .ok content →
      0 ∉ content.take c.sniffLimit) :
    (sniffs c l).exec m =
      (if 0 < c.sniffLimit ∧ hasNull l.path = true then .error .embeddedNull else .ok false,
        m) := by
  rcases Nat.eq_zero_or_pos c.sniffLimit with hzero | hpos
  · have hnothing : (Sniff.isBinary (.file l.path) c.sniffLimit).exec m = (.ok (false, []), m) := by
      rw [hzero]
      rfl
    rw [if_neg (by omega), sniffs, exec_recover, exec_map, hnothing]
    rfl
  have hhalts := Machine.halts_contentOf l.path m
  rw [sniffs, exec_recover, exec_map, exec_isBinary_file hpos hlimit]
  rcases hcontent : ((Machine.contentOf l.path).exec m).1 with f | content
  · by_cases hnull : hasNull l.path = true
    · cases hcontent.symm.trans (Machine.contentOf_of_hasNull hnull m)
      rw [if_pos ⟨hpos, hnull⟩]
      rfl
    · have hsystem : f.isSystem = true := hhalts.report (by simpa using hnull) f hcontent
      rw [if_neg (fun h => hnull h.2)]
      exact if_pos hsystem
  · have hnull : ¬hasNull l.path = true := by
      intro hnull
      cases hcontent.symm.trans (Machine.contentOf_of_hasNull hnull m)
    have hnone : Sniff.nulOffset? (content.take c.sniffLimit) = none := by
      rw [Sniff.nulOffset?, List.findIdx?_eq_none_iff]
      intro b hb
      have hne : b ≠ 0 := fun hzero => hplain content hcontent (hzero ▸ hb)
      simpa using hne
    rw [if_neg (fun h => hnull h.2)]
    simp only [Except.map, hnone]
    rfl

/-- A local file that cannot be read or has no null byte at its start is
turned down at once. -/
theorem exec_looksDisassemblable (hl : ((Machine.readLocation path).exec m).1 = .ok l)
    (hlocal : l.isRemote = false) (hlimit : c.sniffLimit ≤ 2 ^ 31)
    (hplain : ∀ content, ((Machine.contentOf l.path).exec m).1 = .ok content →
      0 ∉ content.take c.sniffLimit) :
    (looksDisassemblable c path).exec m =
      (if 0 < c.sniffLimit ∧ hasNull l.path = true then .error .embeddedNull else .ok false,
        m) := by
  have hread : (Machine.readLocation path).exec m = (.ok l, m) := Prod.ext hl rfl
  rw [looksDisassemblable, exec_bind_ok hread, hlocal]
  dsimp only
  rw [if_neg (by simp)]
  have hsniffs := exec_sniffs hlimit hplain
  by_cases hbarred : 0 < c.sniffLimit ∧ hasNull l.path = true
  · rw [if_pos hbarred] at hsniffs ⊢
    rw [exec_bind_error hsniffs]
  · rw [if_neg hbarred] at hsniffs ⊢
    rw [exec_bind_ok hsniffs]
    rfl

end Opening

/-! ## Dispatching -/

namespace Desk

variable {read : Location → Act Machine Bytes} {c : Config} {path : String} {d : Desk}

/-- What a handler does if buffers read files in a way of their own. -/
def behaveWith (read : Location → Act Machine Bytes) (h : Handler) : Behaviour Desk Opened :=
  { behave h with
    activate := fun path => match h with
      | .listing c =>
        .view <$> onStage (Opening.openListing (Rehearsal.presenter read c Rehearsal.maxDepth) c path)
      | .constant _ _ value => pure (.value value) }

/-- Opens a file with the first handler that accepts it, buffers reading
files in a way of their own. -/
def dispatchWith (read : Location → Act Machine Bytes) (path : String) :
    Act Desk (Option Opened) :=
  Registry.dispatch Desk.registry onMachine (behaveWith read) path

theorem dispatch_eq : dispatch path = dispatchWith Buffer.readOriginal path := by
  have hbehave : behave = behaveWith Buffer.readOriginal := by
    funext h
    cases h with
    | constant name accept value => rfl
    | listing c => rfl
  rw [dispatch, hbehave, dispatchWith]

/-- A desk that has one handler, that for listings, and a buffer. -/
def fresh (c : Config) (m : Machine) (b : Buffer) : Desk :=
  install { machine := m, presenter := { buffer := b } } c

/-- To answer, a handler works on the machine only. -/
theorem keeps_registry (read : Location → Act Machine Bytes) (path : String) (h : Handler) :
    ((behaveWith read h).accepts path).Keeps Desk.registry := by
  cases h with
  | constant name accept value =>
    cases accept with
    | fixed yes => exact fun _ _ hd => hd
    | suffix tail => exact fun _ _ hd => hd
    | failing => exact fun _ _ hd => hd
  | listing c => exact fun _ _ hd => hd

/-- Such a desk asks the one handler it has. -/
theorem exec_dispatchWith (read : Location → Act Machine Bytes) (c : Config) (m : Machine)
    (b : Buffer) (path : String) :
    (dispatchWith read path).exec (fresh c m b) = (do
      if ← onMachine (Opening.looksDisassemblable c path) then
        onMachine (Registry.announce path Opening.handlerName)
        return some (.view (← onStage
          (Opening.openListing (Rehearsal.presenter read c Rehearsal.maxDepth) c path)))
      else return none : Act Desk (Option Opened)).exec (fresh c m b) := by
  have hentries : (fresh c m b).registry.entries = [⟨Opening.handlerName, .listing c⟩] := rfl
  rw [dispatchWith, Registry.exec_dispatch_of_keeps (keeps_registry read path), hentries,
    Registry.openWith]
  refine congrArg (fun x : Act Desk (Option Opened) => x.exec (fresh c m b))
    (bind_congr fun taken => ?_)
  cases taken with
  | false => rfl
  | true =>
    dsimp only
    rw [if_pos rfl, if_pos rfl]
    refine bind_congr fun _ => ?_
    rw [behaveWith]
    dsimp only
    rw [map_eq_pure_bind, bind_assoc]
    rfl

/-- **Whatever the machine answers, a dispatch is all or nothing.** -/
theorem outcome_dispatchWith (hread : Buffer.Sober read) (c : Config) (m : Machine) (b : Buffer)
    (path : String) :
    Buffer.Outcome c.marker b ((dispatchWith read path).exec (fresh c m b)).2.presenter.buffer
      ((dispatchWith read path).exec (fresh c m b)).1 := by
  rw [exec_dispatchWith]
  rcases hlook : (onMachine (Opening.looksDisassemblable c path)).exec (fresh c m b) with ⟨r, d⟩
  have hd : d.presenter = { buffer := b } := by
    have hkeeps : (onMachine (Opening.looksDisassemblable c path)).Keeps Desk.presenter :=
      fun _ _ hd => hd
    exact hkeeps.eq hlook
  rcases r with f | taken
  · rw [exec_bind_error hlook, hd]
    exact .failed fun _ => rfl
  rw [exec_bind_ok hlook]
  cases taken with
  | false =>
    rw [if_neg (by simp), exec_pure, hd]
    exact .nothing (.inl rfl) rfl
  | true =>
    have hannounce : (onMachine (Registry.announce path Opening.handlerName)).exec d =
        (.ok (), { d with
          machine := ((Registry.announce path Opening.handlerName).exec d.machine).2 }) := by
      obtain ⟨_, hlog⟩ := Machine.total_log Log.debug "controllers.file_hooks"
        (Opening.handlerName ++ " handles " ++ path) d.machine
      exact Prod.ext hlog rfl
    rw [if_pos rfl, exec_bind_ok hannounce]
    generalize ((Registry.announce path Opening.handlerName).exec d.machine).2 = m₁
    -- The rehearsal has no script, so what it does is what its buffer does.
    have halike : Alike Rehearsal.Unscripted (fun _ => True)
        ({ machine := m₁, presenter := d.presenter } : Stage Rehearsal)
        { machine := m₁, presenter := b } :=
      ⟨rfl, rfl, by rw [hd]; exact ⟨rfl, rfl⟩, fun _ _ => trivial⟩
    have hdepth : 0 < Rehearsal.maxDepth := by decide
    obtain ⟨hend, hafter⟩ := Opening.tallies_openListing
      (Rehearsal.tallies_presenter read c hdepth) c path _ _ halike
    have houtcome := Buffer.outcome_openListing hread c path { machine := m₁, presenter := b }
    rw [← hend, ← hafter.presenter.2] at houtcome
    rcases hopen : (Opening.openListing (Rehearsal.presenter read c Rehearsal.maxDepth) c path).exec
        { machine := m₁, presenter := d.presenter } with ⟨r, s⟩
    rw [hopen] at houtcome
    have hstage : (onStage (Opening.openListing (Rehearsal.presenter read c Rehearsal.maxDepth) c
        path)).exec { d with machine := m₁ } =
          (r, { d with machine := s.machine, presenter := s.presenter }) :=
      congrArg (fun e : Except Failure (Option View) × Stage Rehearsal =>
        (e.1, ({ d with machine := e.2.machine, presenter := e.2.presenter } : Desk))) hopen
    rcases r with f | v
    · rw [exec_bind_error hstage]
      exact houtcome
    · rw [exec_bind_ok hstage]
      exact houtcome

/-- A local file that cannot be read or has no null byte where one is looked
for is turned down, and nothing has happened. -/
theorem exec_dispatch_plain {l : Location} {m : Machine}
    (hl : ((Machine.readLocation path).exec m).1 = .ok l) (hlocal : l.isRemote = false)
    (hlimit : c.sniffLimit ≤ 2 ^ 31)
    (hplain : ∀ content, ((Machine.contentOf l.path).exec m).1 = .ok content →
      0 ∉ content.take c.sniffLimit) (b : Buffer) :
    (dispatch path).exec (fresh c m b) =
      (if 0 < c.sniffLimit ∧ hasNull l.path = true then .error .embeddedNull else .ok none,
        fresh c m b) := by
  have hdesk : (onMachine (Opening.looksDisassemblable c path)).exec (fresh c m b) =
      (if 0 < c.sniffLimit ∧ hasNull l.path = true then .error .embeddedNull else .ok false,
        fresh c m b) :=
    congrArg (fun e : Except Failure Bool × Machine =>
      (e.1, ({ fresh c m b with machine := e.2 } : Desk)))
      (Opening.exec_looksDisassemblable hl hlocal hlimit hplain)
  rw [dispatch_eq, exec_dispatchWith]
  by_cases hbarred : 0 < c.sniffLimit ∧ hasNull l.path = true
  · rw [if_pos hbarred] at hdesk ⊢
    rw [exec_bind_error hdesk]
  · rw [if_neg hbarred] at hdesk ⊢
    rw [exec_bind_ok hdesk]
    rfl

/-- **Dispatching a file is all or nothing.** Whatever the machine is like
and answers, the buffer shows the listing of an active view, or is as it
was, or the dispatch failed, and not because of the backend if the buffer
was touched; so it is for every reader that does not fail like the backend.
A local file that cannot be read, or has no null byte where one is looked
for, is turned down without any trace, unless its path holds a null
character. -/
theorem dispatch_all_or_nothing (c : Config) (m : Machine) (b : Buffer) (path : String) :
    Buffer.Outcome c.marker b ((dispatch path).exec (fresh c m b)).2.presenter.buffer
      ((dispatch path).exec (fresh c m b)).1 ∧
    (∀ read, Buffer.Sober read →
      Buffer.Outcome c.marker b ((dispatchWith read path).exec (fresh c m b)).2.presenter.buffer
        ((dispatchWith read path).exec (fresh c m b)).1) ∧
    ∀ l, ((Machine.readLocation path).exec m).1 = .ok l → l.isRemote = false →
      c.sniffLimit ≤ 2 ^ 31 →
      (∀ content, ((Machine.contentOf l.path).exec m).1 = .ok content →
        0 ∉ content.take c.sniffLimit) →
      (dispatch path).exec (fresh c m b) =
        (if 0 < c.sniffLimit ∧ hasNull l.path = true then .error .embeddedNull else .ok none,
          fresh c m b) := by
  refine ⟨?_, fun read hread => outcome_dispatchWith hread c m b path, ?_⟩
  · rw [dispatch_eq]
    exact outcome_dispatchWith Buffer.sober_readOriginal c m b path
  · intro l hl hlocal hlimit hplain
    exact exec_dispatch_plain hl hlocal hlimit hplain b

/-- A file that is there but empty is turned down. -/
theorem dispatch_all_or_nothing_empty :
    (dispatch "/o").exec (fresh { backend := .str "o" } .linked {}) =
      (.ok none, fresh { backend := .str "o" } .linked {}) := by
  have hl : ((Machine.readLocation "/o").exec Machine.linked).1 = .ok { path := "/o" } :=
    ok_of_toOption (by decide +kernel)
  have hcontent : ((Machine.contentOf "/o").exec Machine.linked).1 = .ok [] :=
    ok_of_toOption (by decide +kernel)
  have hend := (dispatch_all_or_nothing { backend := .str "o" } .linked {} "/o").2.2 _ hl rfl
    (by decide) (fun content h => by cases hcontent.symm.trans h; simp)
  rwa [if_neg (by decide)] at hend

/-- **A path with a null character makes a dispatch fail.** It is read as
that of a local file, which cannot be opened. -/
theorem dispatch_fails_for_null :
    ((Machine.readLocation "a\x00b").exec .bare).1 = .ok { path := "/a\x00b" } ∧
    (∀ content, ((Machine.contentOf "/a\x00b").exec .bare).1 ≠ .ok content) ∧
    ((dispatch "a\x00b").exec (fresh {} .bare {})).1 = .error .embeddedNull := by
  have hl : ((Machine.readLocation "a\x00b").exec .bare).1 = .ok { path := "/a\x00b" } :=
    ok_of_toOption (by decide +kernel)
  have hnull : hasNull "/a\x00b" = true := by decide
  have hcontent : ∀ content, ((Machine.contentOf "/a\x00b").exec .bare).1 ≠ .ok content := by
    intro content h
    rw [Machine.contentOf_of_hasNull hnull] at h
    cases h
  refine ⟨hl, hcontent, ?_⟩
  rw [exec_dispatch_plain hl rfl (by decide) (fun content h => absurd h (hcontent content)),
    if_pos ⟨by decide, hnull⟩]

end Desk

end Disasm
