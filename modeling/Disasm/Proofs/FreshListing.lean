import Disasm.Proofs.BackendOutcome
import Disasm.Proofs.Dispatch
import Disasm.Proofs.HeaderLines
import Disasm.Proofs.Reentry
import Disasm.Proofs.TableAnswers
import Disasm.Proofs.Utf8
/-!
# Fresh listings — what a view answers is of what it shows

A view keeps the listing of its session and works the symbols out when
they are first asked for. Sessions come and go, and a presenter that calls
back may open one in the middle of another. `Fresh` is the invariant
that makes this harmless: the listing of a session is what the backend
printed for the last set-up on record that succeeded, and symbols that are
kept are those of this listing. It follows that every question in the
record of a run is answered as the index of that listing would, whatever
was asked before. A buffer, which a view alone writes to, holds the same
text (`navigation_fresh`).
-/

namespace Disasm

open Act

/-! ## Tables of one text -/

namespace SymbolTable

variable {t : SymbolTable} {ss : List Symbol}

theorem kept_addAll (ss : List Symbol) : Kept ss (addAll ss) := by
  refine ⟨rfl, .inl ?_⟩
  induction ss using List.reverseRecOn with
  | nil => rfl
  | append_singleton ss s _ => rw [addAll_concat]; rfl

/-- A table that was asked before answers like one that was not. -/
theorem Kept.answers (h : Kept ss t) :
    t.symbols = (addAll ss).symbols ∧ t.byAddress.1 = (addAll ss).byAddress.1 ∧
      (∀ name, t.address? name = (addAll ss).address? name) ∧
      (∀ name, t.line? name = (addAll ss).line? name) ∧
      ∀ address, (t.symbolAt address).1 = ((addAll ss).symbolAt address).1 := by
  have hfind : ∀ name, t.find? name = (addAll ss).find? name := by
    intro name
    rw [find?, find?, h.symbols]
  have hsorted : t.sorted = (addAll ss).sorted := by
    rw [sorted, sorted, h.symbols]
  have hpairs : t.byAddress.1 = (addAll ss).byAddress.1 := by
    rw [h.byAddress.1, (kept_addAll ss).byAddress.1, hsorted]
  refine ⟨h.symbols, hpairs, fun name => ?_, fun name => ?_, fun address => ?_⟩
  · rw [address?, address?, hfind]
  · rw [line?, line?, hfind]
  · rw [symbolAt, symbolAt]
    dsimp only
    rw [hpairs]

end SymbolTable

namespace View

open SymbolTable

variable {P : Type} {p : Presenter P} {c : Config} {s t : Stage P} {e : Session}

/-! ## Questions -/

/-- The reply to a question about a listing, read off its text. -/
def reading (text : String) : Request → Option Reply
  | .text => some (.text text)
  | .symbols => some (.symbols ((Listing.index text).symbols.map fun s => (s.name, s.address)))
  | .byAddress => some (.byAddress (Listing.index text).byAddress.1)
  | .addressOf name => some (.address ((Listing.index text).address? name))
  | .lineOf name => some (.line ((Listing.index text).line? name))
  | .symbolAt address => some (.symbol ((Listing.index text).symbolAt address).1)
  | .setup _ _ | .teardown | .lastProbe => none

/-- The symbols that a session keeps are those of its listing. -/
def Indexed (e : Session) : Prop :=
  ∀ table, e.symbols = some table → Kept (Listing.announced e.output.text) table

theorem exec_symbols_kept (he : s.view.session = some e) (hactive : e.state = .active)
    (hindexed : Indexed e) :
    ∃ table, Kept (Listing.announced e.output.text) table ∧
      (symbols : Act (Stage P) SymbolTable).exec s =
        (.ok table, s.withSession (some { e with symbols := some table })) := by
  rw [symbols, exec_bind_ok (exec_activeSession he hactive)]
  cases hsymbols : e.symbols with
  | some table =>
    refine ⟨table, hindexed table hsymbols, ?_⟩
    have hsame : s.withSession (some { e with symbols := some table }) = s := by
      rw [← hsymbols, Stage.withSession, ← he]
    rw [hsame]
    rfl
  | none =>
    refine ⟨Listing.index e.output.text, ?_, rfl⟩
    rw [Listing.index_eq]
    exact kept_addAll _

/-- **A question about a listing on show is answered from its text**, and
leaves symbols of that text. -/
theorem exec_ask_reading (he : s.view.session = some e) (hactive : e.state = .active)
    (hindexed : Indexed e) {r : Request} {reply : Reply}
    (hreply : reading e.output.text r = some reply) :
    ∃ kept, Indexed { e with symbols := kept } ∧
      (ask p c r).exec s = (.ok reply, s.withSession (some { e with symbols := kept })) := by
  obtain ⟨table, hkept, hsymbols⟩ := exec_symbols_kept (P := P) he hactive hindexed
  obtain ⟨hsame, hpairs, haddress, hline, hclosest⟩ := hkept.answers
  rw [← Listing.index_eq] at hsame hpairs haddress hline hclosest
  have htable : Indexed { e with symbols := some table } := by
    intro t ht
    cases ht
    exact hkept
  have hordered : Indexed { e with symbols := some table.byAddress.2 } := by
    intro t ht
    cases ht
    exact hkept.byAddress.2
  cases r with
  | setup path timeout => cases hreply
  | teardown => cases hreply
  | lastProbe => cases hreply
  | text =>
    cases hreply
    refine ⟨e.symbols, hindexed, ?_⟩
    have hstay : s.withSession (some e) = s := by
      rw [Stage.withSession, ← he]
    rw [ask, exec_map, text, exec_bind_ok (exec_activeSession he hactive), hstay]
    rfl
  | symbols =>
    cases hreply
    refine ⟨some table, htable, ?_⟩
    rw [ask, exec_bind_ok hsymbols, ← hsame]
    rfl
  | byAddress =>
    cases hreply
    refine ⟨some table.byAddress.2, hordered, ?_⟩
    rw [ask, exec_map, byAddress, exec_bind_ok hsymbols, ← hpairs]
    rfl
  | addressOf name =>
    cases hreply
    refine ⟨some table, htable, ?_⟩
    rw [ask, exec_map, addressOf, exec_bind_ok hsymbols, ← haddress]
    rfl
  | lineOf name =>
    cases hreply
    refine ⟨some table, htable, ?_⟩
    rw [ask, exec_map, lineOf, exec_bind_ok hsymbols, ← hline]
    rfl
  | symbolAt address =>
    cases hreply
    refine ⟨some table.byAddress.2, hordered, ?_⟩
    rw [ask, exec_map, symbolAt, exec_bind_ok hsymbols, ← hclosest]
    rfl

/-! ## What a set-up fetches -/

variable {path : String} {timeout : Option Number}

/-- A set-up that is called on a machine obtains a text: the probe accepts
the file, and the backend that is then run over it prints the text. -/
def Obtains (c : Config) (path : String) (timeout : Option Number) (m : Machine)
    (text : String) : Prop :=
  ∃ verdict original m₁ output m₂, (Probe.probe c path).exec m = (.ok verdict, m₁) ∧
    verdict.accepted? = some original ∧
    (Disassembler.disassemble c original timeout false).exec m₁ = (.ok output, m₂) ∧
    output.text = text ∧ Disassembler.Lists c original m₁ text

theorem obtains_of_ready {original : Identity} {output : Output}
    (h : (ready c path timeout).exec s = (.ok (some (original, output)), t)) :
    Obtains c path timeout s.machine output.text := by
  obtain ⟨verdict, s₁, hprobe, h⟩ := ok_of_exec_bind h
  rw [exec_onMachine, Prod.mk.injEq] at hprobe
  obtain ⟨hverdict, rfl⟩ := hprobe
  obtain ⟨_, s₂, hmodify, h⟩ := ok_of_exec_bind h
  cases hmodify
  cases haccepted : verdict.accepted? with
  | none =>
    rw [haccepted] at h
    cases h
  | some found =>
    rw [haccepted] at h
    obtain ⟨listed, s₃, hlisted, h⟩ := ok_of_exec_bind h
    rw [exec_onMachine, Prod.mk.injEq] at hlisted
    cases h
    let m₁ := ((Probe.probe c path).exec s.machine).2
    let m₂ := ((Disassembler.disassemble c original timeout false).exec m₁).2
    have hrun : (Disassembler.disassemble c original timeout false).exec m₁ = (.ok output, m₂) :=
      Prod.ext hlisted.1 rfl
    exact ⟨verdict, original, m₁, output, m₂, Prod.ext hverdict rfl, haccepted, hrun, rfl,
      Disassembler.lists_of_disassemble hrun⟩

end View

namespace Reentry

open View SymbolTable

variable {P : Type} {c : Config} {s t : Stage (Recorded P)}
variable {xs : List (Exchange P)} {x : Exchange P}

/-! ## The record of set-ups -/

/-- Whether a call was a set-up that showed a listing. -/
def Exchange.shows (x : Exchange P) : Bool :=
  match x.request, x.result with
  | .setup _ _, .ok (.shown true) => true
  | _, _ => false

/-- The set-up that was the last to show a listing. -/
def lastShown (xs : List (Exchange P)) : Option (Exchange P) :=
  (xs.filter Exchange.shows).getLast?

theorem lastShown_concat (xs : List (Exchange P)) (x : Exchange P) :
    lastShown (xs ++ [x]) = if x.shows then some x else lastShown xs := by
  unfold lastShown
  rw [List.filter_append]
  split
  · rename_i hshows
    simp [hshows]
  · rename_i hshows
    simp [hshows]

/-- A call was a set-up that showed a text, and obtained it on the machine it
was called on. -/
def Exchange.Obtained (c : Config) (x : Exchange P) (text : String) : Prop :=
  ∃ path timeout, x.request = .setup path timeout ∧ x.result = .ok (.shown true) ∧
    Obtains c path timeout x.before.machine text

/-- A question about a listing on show was answered from the text that the
set-up obtained which was the last to show one. -/
def Exchange.Faithful (c : Config) (front : List (Exchange P)) (x : Exchange P) : Prop :=
  x.request.isQuestion → x.before.view.state = .active →
    ∃ y text, lastShown front = some y ∧ y.Obtained c text ∧
      ∀ reply, reading text x.request = some reply → x.result = .ok reply

/-- All questions of a record were answered so. -/
def Chronicle (c : Config) (xs : List (Exchange P)) : Prop :=
  ∀ front x back, xs = front ++ x :: back → x.Faithful c front

theorem Chronicle.concat (h : Chronicle c xs) (hx : x.Faithful c xs) :
    Chronicle c (xs ++ [x]) := by
  intro front y back hsplit
  rcases List.eq_nil_or_concat back with rfl | ⟨others, last, rfl⟩
  · obtain ⟨rfl, hlast⟩ := List.append_inj' hsplit rfl
    cases hlast
    exact hx
  · rw [List.concat_eq_append, ← List.cons_append, ← List.append_assoc] at hsplit
    exact h front y others (List.append_inj' hsplit rfl).1

/-- The invariant of a run: the listing of a session is that of the last
set-up on record that showed one, and what was asked before was answered
from the listings of its time. -/
structure Fresh (c : Config) (s : Stage (Recorded P)) : Prop where
  listing : ∀ e, s.view.session = some e → Indexed e ∧
    ∃ y, lastShown s.presenter.exchanges = some y ∧ y.Obtained c e.output.text
  chronicle : Chronicle c s.presenter.exchanges

theorem Fresh.congr (h : Fresh c s) (hsession : t.view.session = s.view.session)
    (hp : t.presenter.exchanges = s.presenter.exchanges) : Fresh c t := by
  refine ⟨fun e he => ?_, ?_⟩
  · rw [hp]
    exact h.listing e (hsession ▸ he)
  · rw [hp]
    exact h.chronicle

/-- Without a session only the record counts. -/
theorem Fresh.of_none (h : Chronicle c s.presenter.exchanges) (hsession : s.view.session = none) :
    Fresh c s := by
  refine ⟨fun e he => ?_, h⟩
  rw [hsession] at he
  cases he

/-! ## What one call keeps -/

variable {p : Presenter (Recorded P)}

/-- Showing a listing keeps the invariant if it fails. If it succeeds, a
session for the listing is there, which is not on record yet. -/
theorem Fresh.showListing (hp : p.Preserves (Fresh c)) (hs : Fresh c s) (original : Identity)
    (output : Output) :
    (∃ f t, (showListing p c original output).exec s = (.error f, t) ∧ Fresh c t) ∨
      ∃ t, (showListing p c original output).exec s = (.ok (), t) ∧
        Chronicle c t.presenter.exchanges ∧ t.view.session = some { original, output } := by
  have hpresent := preserves_present hp c.marker original output.text s hs
  rcases hres : (present p c.marker original output.text).exec s with ⟨f | _, t⟩
  · rw [hres] at hpresent
    have hfailed : Fresh c (failed t original) := hpresent.congr rfl rfl
    have hback := preserves_putBack hp original _ hfailed
    rw [exec_showListing_error hres]
    rcases hend : (putBack p original).exec (failed t original) with ⟨g | _, u⟩
    · rw [hend] at hback
      exact .inl ⟨g, u, exec_bind_error hend, hback⟩
    · rw [hend] at hback
      exact .inl ⟨f, u, exec_bind_ok hend, hback⟩
  · rw [hres] at hpresent
    exact .inr ⟨_, exec_showListing_ok hres, hpresent.chronicle, rfl⟩

/-- **A set-up keeps the invariant unless it succeeds.** If it does, it has
obtained the listing of the session that is there now. -/
theorem Fresh.setup (hp : p.Preserves (Fresh c)) (hs : Fresh c s) (path : String)
    (timeout : Option Number) :
    (∃ r t, (setup p c path timeout).exec s = (r, t) ∧ r ≠ .ok true ∧ Fresh c t) ∨
      ∃ t e, (setup p c path timeout).exec s = (.ok true, t) ∧
        Chronicle c t.presenter.exchanges ∧ t.view.session = some e ∧ Indexed e ∧
        Obtains c path timeout s.machine e.output.text := by
  rcases hsession : s.view.session with _ | e
  · have hready := ready_untouched c path timeout s
    rw [exec_setup_free hsession]
    rcases hres : (ready c path timeout).exec s with ⟨f | found, t⟩
    · rw [hres] at hready
      have ht : Fresh c t := hs.congr hready.1 (congrArg Recorded.exchanges hready.2)
      exact .inl ⟨_, t, exec_bind_error hres, by simp, ht⟩
    · rw [hres] at hready
      have ht : Fresh c t := hs.congr hready.1 (congrArg Recorded.exchanges hready.2)
      rw [exec_bind_ok hres]
      rcases found with _ | ⟨original, output⟩
      · exact .inl ⟨_, t, rfl, by simp, ht⟩
      · rcases Fresh.showListing hp ht original output with
          ⟨f, u, hshow, hu⟩ | ⟨u, hshow, hchronicle, hu⟩
        · exact .inl ⟨_, u, exec_bind_error hshow, by simp, hu⟩
        · refine .inr ⟨u, _, exec_bind_ok hshow, hchronicle, hu, ?_, obtains_of_ready hres⟩
          exact fun _ hnone => by cases hnone
  · rw [exec_setup_occupied (by rw [hsession]; rfl)]
    exact .inl ⟨_, s, rfl, by simp, hs⟩

/-- **A teardown keeps the invariant**, if its presenter does. -/
theorem Fresh.teardown (hp : p.Preserves (Fresh c)) : (teardown p).Preserves (Fresh c) := by
  intro s hs
  by_cases hact : s.view.state = .active
  · obtain ⟨e, hsession, hstate⟩ := session_of_state hact (by decide)
    have hleave : Fresh c (leaving s e) := by
      refine ⟨fun f hf => ?_, hs.chronicle⟩
      cases hf
      exact hs.listing e hsession
    have hback := preserves_putBack hp e.original _ hleave
    rcases hres : (putBack p e.original).exec (leaving s e) with ⟨f | _, t⟩
    · rw [hres] at hback
      rw [exec_teardown_error hsession hstate hres]
      exact .of_none hback.chronicle rfl
    · rw [hres] at hback
      rw [exec_teardown_ok hsession hstate hres]
      exact .of_none hback.chronicle rfl
  · rw [exec_teardown_idle hact]
    exact hs

/-- **A question keeps the invariant, and is answered faithfully.** -/
theorem Fresh.question {r : Request} (hr : r.isQuestion) (hs : Fresh c s)
    (stack : List Request) :
    Fresh c ((ask p c r).exec s).2 ∧
      ((ask p c r).exec s).2.presenter = s.presenter ∧
      (⟨stack, r, plain s, ((ask p c r).exec s).1, plain ((ask p c r).exec s).2⟩ :
        Exchange P).Faithful c s.presenter.exchanges := by
  by_cases hact : s.view.state = .active
  · obtain ⟨e, hsession, hstate⟩ := session_of_state hact (by decide)
    obtain ⟨hindexed, y, hlast, hobtained⟩ := hs.listing e hsession
    cases hreply : reading e.output.text r with
    | none =>
      have hprobe : r = .lastProbe := by
        cases r with
        | lastProbe => rfl
        | setup path timeout => cases hr
        | teardown => cases hr
        | _ => cases hreply
      subst hprobe
      refine ⟨hs, rfl, fun _ _ => ⟨y, _, hlast, hobtained, fun reply h => ?_⟩⟩
      cases h
    | some reply =>
      obtain ⟨kept, hkept, hask⟩ :=
        exec_ask_reading (p := p) (c := c) hsession hstate hindexed hreply
      rw [hask]
      refine ⟨⟨fun f hf => ?_, hs.chronicle⟩, rfl, fun _ _ => ⟨y, _, hlast, hobtained, ?_⟩⟩
      · cases hf
        exact ⟨hkept, y, hlast, hobtained⟩
      · intro other hother
        cases hreply.symm.trans hother
        rfl
  · rw [exec_ask_idle hact hr]
    exact ⟨hs, rfl, fun _ hon => absurd hon hact⟩

/-! ## What a whole run keeps -/

/-- A call that showed no listing goes on record. -/
theorem Fresh.noted {r : Request} {before : Stage P} {result : Except Failure Reply}
    (ht : Fresh c t) (stack : List Request)
    (hx : (⟨stack, r, before, result, plain t⟩ : Exchange P).shows = false)
    (hfaithful : (⟨stack, r, before, result, plain t⟩ : Exchange P).Faithful c
      t.presenter.exchanges) :
    Fresh c ((noteExchange stack r before result).exec t).2 := by
  refine ⟨fun e he => ?_, ht.chronicle.concat hfaithful⟩
  change Indexed e ∧ ∃ y, lastShown (t.presenter.exchanges ++ [_]) = some y ∧ _
  rw [lastShown_concat, if_neg (by rw [hx]; decide)]
  exact ht.listing e he

/-- **A set-up that went on record keeps the invariant.** If it showed a
listing, it is now the last one to have done so. -/
theorem Fresh.call_setup (hp : p.Preserves (Fresh c)) (hs : Fresh c s) (stack : List Request)
    (path : String) (timeout : Option Number) :
    Fresh c (afterCall p c stack (.setup path timeout) s) := by
  unfold afterCall
  rcases Fresh.setup hp hs path timeout with
    ⟨result, t, hend, hresult, ht⟩ | ⟨t, e, hend, hchronicle, hsession, hindexed, hobtains⟩
  · rw [ask, exec_map, hend]
    refine ht.noted stack ?_ fun hr => by cases hr
    rcases result with f | shown
    · rfl
    · cases shown with
      | false => rfl
      | true => exact absurd rfl hresult
  · rw [ask, exec_map, hend]
    refine ⟨fun other hother => ?_, hchronicle.concat fun hr => by cases hr⟩
    cases hsession.symm.trans hother
    refine ⟨hindexed, _, (lastShown_concat _ _).trans (if_pos rfl), ?_⟩
    exact ⟨path, timeout, rfl, rfl, hobtains⟩

theorem Fresh.call_teardown (hp : p.Preserves (Fresh c)) (hs : Fresh c s) (stack : List Request) :
    Fresh c (afterCall p c stack .teardown s) := by
  have hafter : Fresh c ((ask p c .teardown).exec s).2 :=
    Preserves.after (Fresh.teardown hp s hs) fun _ => Preserves.pure _
  exact hafter.noted stack rfl fun hr => by cases hr

theorem Fresh.call_question {r : Request} (hr : r.isQuestion) (hs : Fresh c s)
    (stack : List Request) : Fresh c (afterCall p c stack r s) := by
  obtain ⟨hafter, hsame, hfaithful⟩ := Fresh.question (p := p) hr hs stack
  rw [← hsame] at hfaithful
  refine hafter.noted stack ?_ hfaithful
  cases r with
  | setup path timeout => cases hr
  | _ => rfl

theorem Fresh.steady (c : Config) : Steady c fun _ => Fresh (P := P) c where
  note _ _ hs := hs.congr rfl rfl
  change _ _ _ hs := hs.congr rfl rfl
  call stack r p hp s hs := by
    cases r with
    | setup path timeout => exact Fresh.call_setup hp hs stack path timeout
    | teardown => exact Fresh.call_teardown hp hs stack
    | _ => exact Fresh.call_question rfl hs stack

theorem Fresh.run (c : Config) (manner : Errand → Play P) (depth : Nat) (play : Play P)
    (machine : Machine) (presenter : P) :
    Fresh c (Reentry.run c manner depth play machine presenter) :=
  (Fresh.steady c).run manner depth play machine presenter
    (.of_none (fun front x back h => by simp at h) rfl)

end Reentry

/-! ## A buffer that nobody else writes to -/

namespace Buffer

open View

variable {read : Location → Act Machine Bytes} {c : Config} {s : Stage Buffer}

/-- What is done around a view that a buffer presents: the view is called, or
the machine becomes another one. -/
inductive Step where
  | call (r : Request)
  | become (machine : Machine)

/-- The stage after a step. -/
def Step.apply (read : Location → Act Machine Bytes) (c : Config) (s : Stage Buffer) :
    Step → Stage Buffer
  | .call r => ((ask (presenter read) c r).exec s).2
  | .become machine => s.withMachine machine

/-- A buffer that is shown a text holds it: nothing is lost in its bytes. -/
def Mirrors (s : Stage Buffer) : Prop :=
  ∀ e, s.view.session = some e → e.state = .active → s.presenter.text = e.output.text

theorem Mirrors.of_none (h : s.view.session = none) : Mirrors s := by
  intro e he
  rw [h] at he
  cases he

theorem Mirrors.setup (hs : Mirrors s) (path : String) (timeout : Option Number) :
    Mirrors ((View.setup (presenter read) c path timeout).exec s).2 := by
  rcases hsession : s.view.session with _ | e
  · rcases hend : (View.setup (presenter read) c path timeout).exec s with ⟨r, t⟩
    by_cases hr : r = .ok true
    · subst hr
      obtain ⟨verdict, original, output, s₁, s₂, -, -, hpresent, hbuffer, ht⟩ :=
        presented_of_setup hend
      intro e he _
      cases ht.symm.trans he
      rw [exec_present] at hpresent
      cases hname : original.location.viewName c.marker with
      | error f =>
        rw [hname] at hpresent
        cases hpresent
      | ok name =>
        rw [hname] at hpresent
        cases hpresent
        rw [hbuffer]
        exact Text.Utf8.decodeLenient_encode output.text
    · exact .of_none (session_of_setup (aloof_presenter read) hsession hend hr)
  · rw [exec_setup_occupied (by rw [hsession]; rfl)]
    exact hs

theorem Mirrors.teardown (hs : Mirrors s) :
    Mirrors ((View.teardown (presenter read)).exec s).2 := by
  by_cases hact : s.view.state = .active
  · exact .of_none (session_of_teardown hact)
  · rw [exec_teardown_idle hact]
    exact hs

/-- Which symbols are kept is not seen in a buffer. -/
theorem mirrors_bare : Mirrors (bare s) ↔ Mirrors s := by
  rcases hsession : s.view.session with _ | e
  · simp [Mirrors, bare, Stage.withSession, hsession]
  · simp [Mirrors, bare, Stage.withSession, hsession]

/-- A question leaves the buffer and the listing alone. -/
theorem Mirrors.question {r : Request} (hr : r.isQuestion) (hs : Mirrors s) :
    Mirrors ((ask (presenter read) c r).exec s).2 := by
  have hbare : bare ((ask (presenter read) c r).exec s).2 = bare s :=
    keeps_question hr (bare s) s rfl
  rw [← mirrors_bare, hbare, mirrors_bare]
  exact hs

/-- **Every step keeps the buffer and the listing on show the same.** -/
theorem Mirrors.step (hs : Mirrors s) (step : Step) : Mirrors (step.apply read c s) := by
  cases step with
  | become machine => exact hs
  | call r =>
    cases r with
    | setup path timeout =>
      have hask : ((ask (presenter read) c (.setup path timeout)).exec s).2 =
          ((View.setup (presenter read) c path timeout).exec s).2 := by
        rw [ask, exec_map]
      rw [Step.apply, hask]
      exact hs.setup path timeout
    | teardown => exact Preserves.after hs.teardown fun _ => Preserves.pure _
    | _ => exact hs.question rfl

/-- **After any steps they are the same.** -/
theorem Mirrors.steps (read : Location → Act Machine Bytes) (c : Config) (steps : List Step)
    (hs : Mirrors s) : Mirrors (steps.foldl (Step.apply read c) s) := by
  induction steps generalizing s with
  | nil => exact hs
  | cons step steps ih => exact ih (hs.step step)

end Buffer

/-! ## The law -/

namespace Reentry

open View

/-- **Navigation never answers from a stale listing.** Whatever the presenter
and the program around the view do, however deeply their calls nest and
whatever becomes of the machine: a question that comes while a listing is on
show is answered from the text that was obtained by the set-up which was the
last to show one, as its index answers; and a buffer that nobody else writes
to holds the text that the view gives. -/
theorem navigation_fresh (c : Config) :
    (∀ {P : Type} (manner : Errand → Play P) (depth : Nat) (play : Play P) (machine : Machine)
      (presenter : P) (front : List (Exchange P)) (x : Exchange P) (back : List (Exchange P)),
      (run c manner depth play machine presenter).presenter.exchanges = front ++ x :: back →
      x.request.isQuestion → x.before.view.state = .active →
      ∃ y text, lastShown front = some y ∧ y.Obtained c text ∧
        ∀ reply, reading text x.request = some reply → x.result = .ok reply) ∧
    ∀ (read : Location → Act Machine Bytes) (steps : List Buffer.Step) (machine : Machine)
      (buffer : Buffer),
      let s := steps.foldl (Buffer.Step.apply read c) { machine, presenter := buffer }
      s.view.state = .active → (View.text : Act (Stage Buffer) String).exec s =
        (.ok s.presenter.text, s) := by
  refine ⟨fun manner depth play machine presenter front x back hsplit hquestion hactive => ?_,
    fun read steps machine buffer => ?_⟩
  · exact (Fresh.run c manner depth play machine presenter).chronicle front x back hsplit
      hquestion hactive
  · intro s hactive
    have hnew : Buffer.Mirrors { machine, presenter := buffer } := .of_none rfl
    obtain ⟨e, hsession, hstate⟩ := session_of_state hactive (by decide)
    have hsame : s.presenter.text = e.output.text :=
      Buffer.Mirrors.steps read c steps hnew e hsession hstate
    rw [View.text, exec_bind_ok (exec_activeSession hsession hstate), hsame]
    rfl

/-- A machine with a file and a backend that prints a header of a name. -/
def listing (name : String) : Machine where
  cwd := "/"
  env := [("PATH", "/")]
  files := { nodes := [(["objdump"], .file [] true), (["a"], .file [0, 1] false)] }
  rules := [{ stdout := Text.Utf8.encode ("0 <" ++ name ++ ">:") }]

/-- To set up, to ask for the symbols around a change of the machine, and to
do the same on the new machine. -/
def revisit : Play Unit :=
  .call (.setup "/a" none) fun _ => .call .symbols fun _ =>
    .act (fun _ => (listing "g", ())) fun _ => .call .symbols fun _ =>
      .call .teardown fun _ => .call (.setup "/a" none) fun _ => .call .symbols fun _ => .finish

/-- The symbols stay those of the listing on show until the next set-up: the
third call comes after the machine has changed, and the last one shows that
it has. -/
theorem navigation_fresh_revisit :
    let xs := (run {} (fun _ => .finish) 1 revisit (listing "f") ()).presenter.exchanges
    xs.getLast?.map (·.result.toOption) = some (some (.symbols [("g", 0)])) ∧
    ∃ front x back, xs = front ++ x :: back ∧ x.request.isQuestion ∧
      x.before.view.state = .active ∧ x.result.toOption = some (.symbols [("f", 0)]) ∧
      ∃ y text, lastShown front = some y ∧ y.Obtained {} text ∧
        ∀ reply, reading text x.request = some reply → x.result = .ok reply := by
  intro xs
  have hcalls : xs.map (fun x =>
        (x.request.isQuestion, x.before.view.state, x.result.toOption)) =
      [(false, .inactive, some (.shown true)), (true, .active, some (.symbols [("f", 0)])),
        (true, .active, some (.symbols [("f", 0)])), (false, .active, some .done),
        (false, .inactive, some (.shown true)), (true, .active, some (.symbols [("g", 0)]))] := by
    decide +kernel
  obtain ⟨x₀, xs₁, hxs, -, hcalls⟩ := List.map_eq_cons_iff.1 hcalls
  obtain ⟨x₁, xs₂, rfl, -, hcalls⟩ := List.map_eq_cons_iff.1 hcalls
  obtain ⟨x₂, xs₃, rfl, hx₂, -⟩ := List.map_eq_cons_iff.1 hcalls
  simp only [Prod.mk.injEq] at hx₂
  obtain ⟨hquestion, hactive, hresult⟩ := hx₂
  refine ⟨by decide +kernel, [x₀, x₁], x₂, xs₃, hxs, hquestion, hactive, hresult, ?_⟩
  exact (navigation_fresh {}).1 _ _ _ _ _ [x₀, x₁] x₂ xs₃ hxs hquestion hactive

end Reentry

end Disasm
