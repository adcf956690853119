import Disasm.Proofs.HandlerList
import Disasm.Proofs.Standpoint
import Mathlib.Data.List.Induction
import Mathlib.Data.List.Nodup
/-!
# The registry in use — handlers that change it while they are asked

A handler is asked in the middle of a dispatch, and may register and
unregister handlers there, ask for the names in use and dispatch again, to
any depth, before it answers or raises. A `Play` is what a handler does
when it is asked or activated, or what the program around does, as a
finite tree of steps.

A run keeps a record of all operations on the registry, of all answers to
the question for the names, and of every dispatch with the handlers that
were asked and activated in it. The main statement, `registry_law`, is
about that record. It rests on two facts: a registry is what its
operations make of it (`entries_after`), and the list that a dispatch
goes through is the same at its end as it was at its beginning, whatever
operations there were between (`list_after`).
-/

namespace Disasm

open Act

namespace Registry

variable {H : Type}

/-! ## What stands after some operations -/

/-- An operation on a registry. -/
inductive Operation (H : Type) where
  | register (name : String) (handler : H)
  | unregister (name : String)

namespace Operation

/-- The name that an operation is about. -/
def name : Operation H → String
  | .register name _ => name
  | .unregister name => name

/-- What an operation puts on a registry. -/
def added : Operation H → List (Registered H)
  | .register name handler => [⟨name, handler⟩]
  | .unregister _ => []

/-- Does an operation. -/
def apply (r : Registry H) : Operation H → Registry H
  | .register name handler => r.register name handler
  | .unregister name => r.unregister name

theorem entries_apply (r : Registry H) (o : Operation H) :
    (o.apply r).entries = r.entries.filter (·.name ≠ o.name) ++ o.added := by
  cases o with
  | register name handler => rfl
  | unregister name => exact (List.append_nil _).symm

theorem current_apply (r : Registry H) (o : Operation H) :
    (o.apply r).current = r.current + 1 := by
  cases o with
  | register name handler => exact current_register r name handler
  | unregister name => exact current_unregister r name

/-- **No operation changes a list that there was before it.** -/
theorem list_apply {r : Registry H} {n : Nat} (o : Operation H) (hn : n ≤ r.current) :
    (o.apply r).list n = r.list n := by
  cases o with
  | register name handler => exact list_register name handler hn
  | unregister name => exact list_unregister name hn

end Operation

/-- The registry after some operations. -/
def after (history : List (Operation H)) : Registry H :=
  history.foldl Operation.apply {}

theorem after_concat (history : List (Operation H)) (o : Operation H) :
    after (history ++ [o]) = o.apply (after history) := by
  rw [after, List.foldl_append]
  rfl

/-- **The list in use is never changed again.** Whatever is done after some
operations, the list that was in use then has the same handlers on it. -/
theorem list_after (history later : List (Operation H)) :
    (after history).current ≤ (after (history ++ later)).current ∧
      (after (history ++ later)).list (after history).current = (after history).entries := by
  induction later using List.reverseRecOn with
  | nil => simp [list_current]
  | append_singleton later o ih =>
    obtain ⟨hle, hlist⟩ := ih
    rw [← List.append_assoc, after_concat, Operation.current_apply, Operation.list_apply o hle]
    exact ⟨by omega, hlist⟩

/-- The handlers whose registration was the last operation on their name, in
the order of these registrations. -/
def standing : List (Operation H) → List (Registered H)
  | [] => []
  | o :: later =>
    if later.any (·.name = o.name) then standing later else o.added ++ standing later

theorem standing_concat (history : List (Operation H)) (o : Operation H) :
    standing (history ++ [o]) = (standing history).filter (·.name ≠ o.name) ++ o.added := by
  induction history with
  | nil => simp [standing]
  | cons first later ih =>
    have hadded : ∀ e ∈ first.added, e.name = first.name := by
      cases first with
      | register name handler => simp [Operation.added, Operation.name]
      | unregister name => simp [Operation.added]
    rw [List.cons_append, standing, standing, ih, List.any_append]
    by_cases hlater : later.any (·.name = first.name) = true
    · rw [if_pos hlater, if_pos (by rw [hlater, Bool.true_or])]
    · rw [if_neg hlater]
      by_cases hname : o.name = first.name
      · -- The last operation is on the name of the first one and undoes it.
        have hgone : first.added.filter (·.name ≠ o.name) = [] := by
          rw [List.filter_eq_nil_iff]
          intro e he
          simp [hadded e he, hname]
        rw [if_pos (by simp [hname]), List.filter_append, hgone, List.nil_append]
      · have hkept : first.added.filter (·.name ≠ o.name) = first.added := by
          rw [List.filter_eq_self]
          intro e he
          simpa [hadded e he] using Ne.symm hname
        rw [if_neg (by simpa [hname] using hlater), List.filter_append, hkept, List.append_assoc]

/-- **A registry is what its operations make of it.** -/
theorem entries_after (history : List (Operation H)) :
    (after history).entries = standing history := by
  induction history using List.reverseRecOn with
  | nil => rfl
  | append_singleton history o ih =>
    rw [after_concat, Operation.entries_apply, standing_concat, ih]

theorem mem_added_iff {o : Operation H} {e : Registered H} :
    e ∈ o.added ↔ o = .register e.name e.handler := by
  obtain ⟨name, handler⟩ := e
  cases o with
  | register other h => simp [Operation.added, eq_comm]
  | unregister other => simp [Operation.added]

/-- What stands is what was registered with no later operation on the
name. -/
theorem mem_standing_iff {history : List (Operation H)} {e : Registered H} :
    e ∈ standing history ↔ ∃ front back, history = front ++ .register e.name e.handler :: back ∧
      ∀ o ∈ back, o.name ≠ e.name := by
  induction history with
  | nil => simp [standing]
  | cons first later ih =>
    have hcases : (∃ front back, first :: later = front ++ .register e.name e.handler :: back ∧
        ∀ o ∈ back, o.name ≠ e.name) ↔
        (e ∈ first.added ∧ ∀ o ∈ later, o.name ≠ e.name) ∨ e ∈ standing later := by
      rw [mem_added_iff, ih]
      constructor
      · rintro ⟨_ | ⟨head, front⟩, back, hsplit, hback⟩
        · cases hsplit
          exact .inl ⟨rfl, hback⟩
        · cases hsplit
          exact .inr ⟨front, back, rfl, hback⟩
      · rintro (⟨rfl, hlater⟩ | ⟨front, back, rfl, hback⟩)
        · exact ⟨[], later, rfl, hlater⟩
        · exact ⟨first :: front, back, rfl, hback⟩
    rw [hcases, standing]
    split
    · rename_i hany
      obtain ⟨o, ho, hname⟩ := List.any_eq_true.1 hany
      have hnot : ¬(e ∈ first.added ∧ ∀ o ∈ later, o.name ≠ e.name) := by
        rintro ⟨hfirst, hlater⟩
        rw [mem_added_iff] at hfirst
        subst hfirst
        exact hlater o ho (of_decide_eq_true hname)
      simp [hnot]
    · rename_i hany
      have hlater : e ∈ first.added → ∀ o ∈ later, o.name ≠ e.name := by
        intro hfirst o ho hname
        rw [mem_added_iff] at hfirst
        subst hfirst
        exact hany (List.any_eq_true.2 ⟨o, ho, decide_eq_true hname⟩)
      rw [List.mem_append, and_iff_left_of_imp hlater]

/-- **No name stands twice.** -/
theorem nodup_standing (history : List (Operation H)) :
    ((standing history).map (·.name)).Nodup := by
  induction history with
  | nil => exact List.nodup_nil
  | cons first later ih =>
    rw [standing]
    split
    · exact ih
    · rename_i hany
      rw [List.map_append, List.nodup_append]
      refine ⟨?_, ih, ?_⟩
      · cases first with
        | register name handler => exact List.nodup_singleton name
        | unregister name => exact List.nodup_nil
      · intro name hname other hother hsame
        obtain ⟨e, he, rfl⟩ := List.mem_map.1 hname
        obtain ⟨f, hf, rfl⟩ := List.mem_map.1 hother
        obtain ⟨front, back, hsplit, -⟩ := mem_standing_iff.1 hf
        rw [mem_added_iff] at he
        subst he
        refine hany (List.any_eq_true.2 ⟨.register f.name f.handler, ?_, ?_⟩)
        · rw [hsplit]
          simp
        · exact decide_eq_true hsame.symm

end Registry

namespace Interplay

open Registry

variable {H R X A : Type}

/-! ## Plays -/

/-- A dispatch that is under way: its path, the operations before it, and the
handlers that were asked and activated so far, with what came of it. -/
structure Draft (H R : Type) where
  path : String
  began : List (Operation H)
  asked : List (H × Except Failure Bool) := []
  activated : List (H × Except Failure R) := []

/-- A dispatch that has ended. -/
structure Round (H R : Type) extends Draft H R where
  result : Except Failure (Option R)

/-- The names that were in use after some operations, as they were told. -/
structure Look (H : Type) where
  history : List (Operation H)
  names : List String

/-- A registry in use, with the machine, what else handlers work on, and the
record. The dispatches that are under way stand with the innermost first. -/
structure Hall (H R X : Type) where
  machine : Machine
  own : X
  registry : Registry H := {}
  history : List (Operation H) := []
  looks : List (Look H) := []
  drafts : List (Draft H R) := []
  rounds : List (Round H R) := []

/-- What a handler or the program around does. All that is seen on the way
may decide how it goes on. -/
inductive Play (H R X A : Type) where
  /-- To return. -/
  | finish (a : A)
  /-- To raise. -/
  | raise (f : Failure)
  /-- To do anything to the machine and what else there is, and go on. -/
  | act (deed : Machine × X → Machine × X) (next : Machine × X → Play H R X A)
  /-- To register or unregister. -/
  | operate (o : Operation H) (next : Play H R X A)
  /-- To ask for the names in use. -/
  | look (next : List String → Play H R X A)
  /-- To dispatch and go on, whether that returned or raised. -/
  | dispatch (path : String) (next : Except Failure (Option R) → Play H R X A)

/-- What a handler does when it is asked and when it is activated. -/
structure Manner (H R X : Type) where
  accepts : String → Play H R X Bool
  activate : String → Play H R X R

/-- Does an operation and records it. -/
def operate (o : Operation H) : Act (Hall H R X) Unit :=
  modify fun s => { s with registry := o.apply s.registry, history := s.history ++ [o] }

/-- Tells the names in use and records that. -/
def look : Act (Hall H R X) (List String) := do
  modify fun s => { s with looks := s.looks ++ [⟨s.history, s.registry.names⟩] }
  return (← get).registry.names

/-- Runs an operation of the machine. -/
def onMachine (x : Act Machine A) : Act (Hall H R X) A :=
  x.within Hall.machine fun s machine => { s with machine }

/-- Does something, and amends the record of the innermost dispatch by what
came of it. -/
def noting (amend : Except Failure A → Draft H R → Draft H R) (x : Act (Hall H R X) A) :
    Act (Hall H R X) A := do
  let r ← x.attempt
  modify fun s => { s with drafts := s.drafts.modifyHead (amend r) }
  Act.ofExcept r

/-- Has a handler answer. -/
def asking (h : H) (x : Act (Hall H R X) Bool) : Act (Hall H R X) Bool :=
  noting (fun answer d => { d with asked := d.asked ++ [(h, answer)] }) x

/-- Has a handler open a file. -/
def activating (h : H) (x : Act (Hall H R X) R) : Act (Hall H R X) R :=
  noting (fun value d => { d with activated := d.activated ++ [(h, value)] }) x

/-- Ends the record of the innermost dispatch. -/
def close (result : Except Failure (Option R)) : Act (Hall H R X) Unit :=
  modify fun s => match s.drafts with
    | [] => s
    | d :: outer => { s with drafts := outer, rounds := s.rounds ++ [{ d with result }] }

/-- Dispatches and records it. -/
def conduct (behave : H → Behaviour (Hall H R X) R) (path : String) :
    Act (Hall H R X) (Option R) := do
  modify fun s => { s with drafts := { path, began := s.history } :: s.drafts }
  let result ← (Registry.dispatch Hall.registry onMachine behave path).attempt
  close result
  Act.ofExcept result

/-- Performs a play, given how to dispatch. -/
def Play.perform (dispatch : String → Act (Hall H R X) (Option R)) :
    Play H R X A → Act (Hall H R X) A
  | .finish a => pure a
  | .raise f => throw f
  | .act deed next => do
    modify fun s => { s with
      machine := (deed (s.machine, s.own)).1, own := (deed (s.machine, s.own)).2 }
    let s ← get
    (next (s.machine, s.own)).perform dispatch
  | .operate o next => do
    Interplay.operate o
    next.perform dispatch
  | .look next => do
    (next (← Interplay.look)).perform dispatch
  | .dispatch path next => do
    (next (← (dispatch path).attempt)).perform dispatch

/-- The handlers whose behaviour are plays, dispatches nested up to a
depth. -/
def host (manner : H → Manner H R X) : (depth : Nat) → H → Behaviour (Hall H R X) R
  | 0, h => {
    accepts := fun _ => asking h (throw .nestedTooDeep)
    activate := fun _ => activating h (throw .nestedTooDeep) }
  | depth + 1, h => {
    accepts := fun path =>
      asking h (((manner h).accepts path).perform (conduct (host manner depth)))
    activate := fun path =>
      activating h (((manner h).activate path).perform (conduct (host manner depth))) }

/-- A run on a new registry: what it ends with, and its record. -/
def run (manner : H → Manner H R X) (depth : Nat) (play : Play H R X Unit) (machine : Machine)
    (own : X) : Hall H R X :=
  ((play.perform (conduct (host manner depth))).exec { machine, own }).2

/-! ## The law of a dispatch -/

/-- How a dispatch goes through some handlers. All decline, and nothing is
activated; or one accepts after others declined, is activated, and what it
returns is returned; or one raises when it is asked. -/
def Runs (handlers : List H) (asked : List (H × Except Failure Bool))
    (activated : List (H × Except Failure R)) (result : Except Failure (Option R)) : Prop :=
  (asked = handlers.map (·, .ok false) ∧ activated = [] ∧ result = .ok none) ∨
  ∃ declined h rest, handlers = declined ++ h :: rest ∧
    ((∃ value, asked = declined.map (·, .ok false) ++ [(h, .ok true)] ∧
        activated = [(h, value)] ∧ result = value.map some) ∨
      ∃ f, asked = declined.map (·, .ok false) ++ [(h, .error f)] ∧ activated = [] ∧
        result = .error f)

section Runs

variable {handlers : List H} {asked : List (H × Except Failure Bool)}
variable {activated : List (H × Except Failure R)} {result : Except Failure (Option R)}

theorem Runs.nil : Runs ([] : List H) [] ([] : List (H × Except Failure R)) (.ok none) :=
  .inl ⟨rfl, rfl, rfl⟩

theorem Runs.declined (h : H) (hruns : Runs handlers asked activated result) :
    Runs (h :: handlers) ((h, .ok false) :: asked) activated result := by
  rcases hruns with ⟨rfl, hnone⟩ | ⟨others, first, rest, rfl, hends⟩
  · exact .inl ⟨rfl, hnone⟩
  · refine .inr ⟨h :: others, first, rest, rfl, ?_⟩
    rcases hends with ⟨value, rfl, hvalue⟩ | ⟨f, rfl, hf⟩
    · exact .inl ⟨value, rfl, hvalue⟩
    · exact .inr ⟨f, rfl, hf⟩

theorem Runs.accepted (h : H) (handlers : List H) (value : Except Failure R) :
    Runs (h :: handlers) [(h, .ok true)] [(h, value)] (value.map some) :=
  .inr ⟨[], h, handlers, rfl, .inl ⟨value, rfl, rfl, rfl⟩⟩

theorem Runs.raised (h : H) (handlers : List H) (f : Failure) :
    Runs (h :: handlers) [(h, .error f)] ([] : List (H × Except Failure R)) (.error f) :=
  .inr ⟨[], h, handlers, rfl, .inr ⟨f, rfl, rfl, rfl⟩⟩

end Runs

/-- The invariant of a run: the registry is what the operations on record
make of it, names were told as they were, what is under way began after
some of these operations, and every dispatch went through the handlers
that were registered when it began. -/
structure Sound (s : Hall H R X) : Prop where
  registry : s.registry = after s.history
  drafts : ∀ d ∈ s.drafts, d.began <+: s.history
  looks : ∀ l ∈ s.looks, l.names = (after l.history).names
  rounds : ∀ r ∈ s.rounds,
    Runs ((after r.began).entries.map (·.handler)) r.asked r.activated r.result

/-- The invariant while some dispatches are under way. -/
def Within (drafts : List (Draft H R)) (s : Hall H R X) : Prop :=
  Sound s ∧ s.drafts = drafts

theorem within_operate (drafts : List (Draft H R)) (o : Operation H) :
    (operate (X := X) o).Preserves (Within drafts) := by
  rintro s ⟨hs, hdrafts⟩
  refine ⟨⟨?_, fun d hd => ?_, hs.looks, hs.rounds⟩, hdrafts⟩
  · change o.apply s.registry = after (s.history ++ [o])
    rw [hs.registry, after_concat]
  · exact (hs.drafts d hd).trans (List.prefix_append _ _)

theorem within_look (drafts : List (Draft H R)) :
    (look : Act (Hall H R X) (List String)).Preserves (Within drafts) := by
  rintro s ⟨hs, hdrafts⟩
  refine ⟨⟨hs.registry, hs.drafts, fun l hl => ?_, hs.rounds⟩, hdrafts⟩
  rcases List.mem_append.1 hl with hl | hl
  · exact hs.looks l hl
  · rw [List.mem_singleton.1 hl, hs.registry]

/-- **A play keeps the invariant and the dispatches that are under way**, step
by step, if its own dispatches do. -/
theorem within_perform {dispatch : String → Act (Hall H R X) (Option R)}
    (drafts : List (Draft H R)) (hdispatch : ∀ path, (dispatch path).Preserves (Within drafts))
    (play : Play H R X A) : (play.perform dispatch).Preserves (Within drafts) := by
  induction play with
  | finish a => exact Preserves.pure a
  | raise f => exact Preserves.throw f
  | act deed next ih =>
    refine Preserves.bind (fun s hs => ?_) fun _ => ?_
    · exact ⟨⟨hs.1.registry, hs.1.drafts, hs.1.looks, hs.1.rounds⟩, hs.2⟩
    · exact Preserves.get.bind fun s => ih (s.machine, s.own)
  | operate o next ih => exact (within_operate drafts o).bind fun _ => ih
  | look next ih => exact (within_look drafts).bind fun names => ih names
  | dispatch path next ih => exact (hdispatch path).attempt.bind fun r => ih r

/-! ## What one dispatch does -/

/-- Handlers keep the invariant, and what they answer and return goes on
record in the dispatch that they are asked in. -/
structure Attends (behave : H → Behaviour (Hall H R X) R) : Prop where
  accepts : ∀ h path d outer s, Within (d :: outer) s →
    Within ({ d with asked := d.asked ++ [(h, (((behave h).accepts path).exec s).1)] } :: outer)
      (((behave h).accepts path).exec s).2
  activate : ∀ h path d outer s, Within (d :: outer) s →
    Within ({ d with
      activated := d.activated ++ [(h, (((behave h).activate path).exec s).1)] } :: outer)
      (((behave h).activate path).exec s).2

variable {behave : H → Behaviour (Hall H R X) R} {s : Hall H R X} {d : Draft H R}
variable {outer : List (Draft H R)}

theorem exec_announce (path name : String) (s : Hall H R X) :
    ∃ machine, (onMachine (announce path name)).exec s = (.ok (), { s with machine }) := by
  obtain ⟨_, hlog⟩ := Machine.total_log Log.debug "controllers.file_hooks"
    (name ++ " handles " ++ path) s.machine
  exact ⟨_, Prod.ext hlog rfl⟩

/-- **A dispatch goes through the handlers it is given**, whatever they do to
the registry meanwhile. -/
theorem within_openWith (hb : Attends behave) (path : String) (entries : List (Registered H))
    (hs : Within (d :: outer) s) :
    ∃ asked activated,
      Within ({ d with asked := d.asked ++ asked, activated := d.activated ++ activated } :: outer)
        ((openWith (fun name => onMachine (announce path name)) behave path entries).exec s).2 ∧
      Runs (entries.map (·.handler)) asked activated
        ((openWith (fun name => onMachine (announce path name)) behave path entries).exec s).1 := by
  induction entries generalizing s d with
  | nil =>
    refine ⟨[], [], ?_, .nil⟩
    rw [List.append_nil, List.append_nil]
    exact hs
  | cons e entries ih =>
    have hasked := hb.accepts e.handler path d outer s hs
    rw [openWith, List.map_cons]
    rcases hanswer : ((behave e.handler).accepts path).exec s with ⟨f | accepted, t⟩
    · rw [hanswer] at hasked
      rw [exec_bind_error hanswer]
      refine ⟨[(e.handler, .error f)], [], ?_, .raised e.handler _ f⟩
      rw [List.append_nil]
      exact hasked
    rw [hanswer] at hasked
    rw [exec_bind_ok hanswer]
    cases accepted with
    | false =>
      obtain ⟨asked, activated, hend, hruns⟩ := ih hasked
      refine ⟨(e.handler, .ok false) :: asked, activated, ?_, hruns.declined e.handler⟩
      rw [List.append_assoc] at hend
      exact hend
    | true =>
      obtain ⟨m, hannounce⟩ := exec_announce path e.name t
      have ht : Within ({ d with asked := d.asked ++ [(e.handler, .ok true)] } :: outer)
          { t with machine := m } :=
        ⟨⟨hasked.1.registry, hasked.1.drafts, hasked.1.looks, hasked.1.rounds⟩, hasked.2⟩
      have hactivated := hb.activate e.handler path _ outer _ ht
      have hreturn : ∀ x : Act (Hall H R X) R,
          (do return some (← x) : Act (Hall H R X) (Option R)) = some <$> x :=
        fun x => (map_eq_pure_bind _ _).symm
      rw [if_pos rfl, exec_bind_ok hannounce, hreturn, exec_map]
      exact ⟨[(e.handler, .ok true)], [(e.handler, _)], hactivated, .accepted e.handler _ _⟩

/-- A dispatch that is under way asks what was registered when it began,
whatever its handlers do to the registry. -/
theorem exec_dispatch_within (hb : Attends behave) (path : String) (hs : Within (d :: outer) s)
    (hbegan : d.began = s.history) :
    (Registry.dispatch Hall.registry onMachine behave path).exec s =
      (openWith (fun name => onMachine (announce path name)) behave path
        s.registry.entries).exec s := by
  refine exec_dispatch_of_list
    (I := fun t => ∃ draft : Draft H R, draft.began = s.history ∧ Within (draft :: outer) t)
    ⟨d, hbegan, hs⟩ ?_ ?_
  · -- What was done since then stands behind the operations the dispatch began after.
    rintro t ⟨draft, hdraft, ht⟩
    obtain ⟨later, hlater⟩ := ht.1.drafts draft (ht.2 ▸ List.mem_cons_self)
    rw [ht.1.registry, hs.1.registry, ← hlater, hdraft]
    exact (list_after s.history later).2
  · -- An answer goes on the record of the dispatch, but not where it began.
    rintro h t ⟨draft, hdraft, ht⟩
    refine ⟨_, ?_, hb.accepts h path draft outer t ht⟩
    exact hdraft

/-- **A dispatch that went on record keeps the invariant**, and leaves the
dispatches around it under way. -/
theorem within_conduct (hb : Attends behave) (path : String) (drafts : List (Draft H R)) :
    (conduct behave path).Preserves (Within drafts) := by
  rintro s ⟨hs, hdrafts⟩
  let t : Hall H R X := { s with drafts := { path, began := s.history } :: s.drafts }
  have ht : Within ({ path, began := s.history } :: drafts) t :=
    ⟨⟨hs.registry, List.forall_mem_cons.2 ⟨List.prefix_rfl, hs.drafts⟩, hs.looks, hs.rounds⟩,
      by rw [← hdrafts]⟩
  obtain ⟨asked, activated, hend, hruns⟩ := within_openWith hb path s.registry.entries ht
  rcases hopen : (openWith (fun name => onMachine (announce path name)) behave path
    s.registry.entries).exec t with ⟨result, u⟩
  rw [hopen] at hend hruns
  obtain ⟨hu, hopened⟩ := hend
  have hdispatch : (Registry.dispatch Hall.registry onMachine behave path).exec t =
      (result, u) :=
    (exec_dispatch_within hb path ht rfl).trans hopen
  have hclose : (close result).exec u = (.ok (), { u with
      drafts, rounds := u.rounds ++ [⟨⟨path, s.history, asked, activated⟩, result⟩] }) := by
    rw [close, exec_modify, hopened]
    rfl
  rw [conduct, exec_bind_ok (exec_modify _ s), exec_bind_ok (exec_attempt _ t), hdispatch,
    exec_bind_ok hclose]
  have houter : ∀ d ∈ drafts, d.began <+: u.history := fun d hd =>
    hu.drafts d (hopened ▸ List.mem_cons_of_mem _ hd)
  refine ⟨⟨hu.registry, houter, hu.looks, fun r hr => ?_⟩, rfl⟩
  rcases List.mem_append.1 hr with hr | hr
  · exact hu.rounds r hr
  · rw [List.mem_singleton.1 hr]
    rw [hs.registry] at hruns
    exact hruns

/-! ## What a whole run keeps -/

theorem within_noting {amend : Except Failure A → Draft H R → Draft H R}
    {x : Act (Hall H R X) A} (hamend : ∀ r d, (amend r d).began = d.began)
    (hx : x.Preserves (Within (d :: outer))) (hs : Within (d :: outer) s) :
    Within (amend ((noting amend x).exec s).1 d :: outer) ((noting amend x).exec s).2 := by
  obtain ⟨hafter, hdrafts⟩ := hx s hs
  rw [noting, exec_bind_ok (exec_attempt x s), exec_bind_ok (exec_modify _ _), exec_ofExcept,
    hdrafts]
  have hbegan := hafter.drafts
  rw [hdrafts] at hbegan
  obtain ⟨hfirst, houter⟩ := List.forall_mem_cons.1 hbegan
  refine ⟨⟨hafter.registry, ?_, hafter.looks, hafter.rounds⟩, rfl⟩
  exact List.forall_mem_cons.2 ⟨by rw [hamend]; exact hfirst, houter⟩

theorem attends_noting {x : H → String → Act (Hall H R X) Bool}
    {y : H → String → Act (Hall H R X) R}
    (hx : ∀ h path drafts, (x h path).Preserves (Within drafts))
    (hy : ∀ h path drafts, (y h path).Preserves (Within drafts)) :
    Attends fun h => ⟨fun path => asking h (x h path), fun path => activating h (y h path)⟩ where
  accepts h path d outer _ hs := within_noting (fun _ _ => rfl) (hx h path (d :: outer)) hs
  activate h path d outer _ hs := within_noting (fun _ _ => rfl) (hy h path (d :: outer)) hs

/-- **Handlers that call back attend to their dispatches**, to whatever depth
these may nest. -/
theorem attends_host (manner : H → Manner H R X) (depth : Nat) : Attends (host manner depth) := by
  induction depth with
  | zero => exact attends_noting (fun _ _ _ => Preserves.throw _) fun _ _ _ => Preserves.throw _
  | succ depth ih =>
    have hplay : ∀ {A : Type} (play : Play H R X A) (drafts : List (Draft H R)),
        (play.perform (conduct (host manner depth))).Preserves (Within drafts) :=
      fun play drafts => within_perform drafts (fun path => within_conduct ih path drafts) play
    exact attends_noting (fun h path drafts => hplay ((manner h).accepts path) drafts)
      fun h path drafts => hplay ((manner h).activate path) drafts

/-- A run ends with the invariant. -/
theorem sound_run (manner : H → Manner H R X) (depth : Nat) (play : Play H R X Unit)
    (machine : Machine) (own : X) : Sound (run manner depth play machine own) := by
  have hnew : Within [] ({ machine, own } : Hall H R X) :=
    ⟨⟨rfl, fun d hd => absurd hd List.not_mem_nil, fun l hl => absurd hl List.not_mem_nil,
      fun r hr => absurd hr List.not_mem_nil⟩, rfl⟩
  exact (within_perform [] (fun path => within_conduct (attends_host manner depth) path []) play
    _ hnew).1

/-- **The law of the registry.** Whatever handlers and the program around
them do, however deeply dispatches nest: the names in use are told without
repetition, and are exactly those whose last operation was a registration,
in the order of these registrations; and every dispatch asks the handlers
that were registered when it began, in that order, up to the first that
accepts, activates that one once and returns what it returns, or nothing if
none accepts. -/
theorem registry_law (manner : H → Manner H R X) (depth : Nat) (play : Play H R X Unit)
    (machine : Machine) (own : X) :
    let final := run manner depth play machine own
    (∀ l ∈ final.looks, l.names.Nodup ∧ l.names = (standing l.history).map (·.name) ∧
      ∀ name, name ∈ l.names ↔ ∃ front handler back,
        l.history = front ++ .register name handler :: back ∧ ∀ o ∈ back, o.name ≠ name) ∧
    (∀ r ∈ final.rounds,
      Runs ((standing r.began).map (·.handler)) r.asked r.activated r.result) ∧
    final.registry.entries = standing final.history := by
  intro final
  have hsound : Sound final := sound_run manner depth play machine own
  refine ⟨fun l hl => ?_, fun r hr => ?_, ?_⟩
  · have hnames : l.names = (standing l.history).map (·.name) := by
      rw [hsound.looks l hl, names, entries_after]
    refine ⟨by rw [hnames]; exact nodup_standing _, hnames, fun name => ?_⟩
    rw [hnames, List.mem_map]
    constructor
    · rintro ⟨e, he, rfl⟩
      obtain ⟨front, back, hhistory, hback⟩ := mem_standing_iff.1 he
      exact ⟨front, e.handler, back, hhistory, hback⟩
    · rintro ⟨front, handler, back, hhistory, hback⟩
      exact ⟨⟨name, handler⟩, mem_standing_iff.2 ⟨front, back, hhistory, hback⟩, rfl⟩
  · rw [← entries_after]
    exact hsound.rounds r hr
  · rw [hsound.registry, entries_after]

/-- A handler that takes the next one off while it is asked, and another that
accepts. -/
def meddling (name : String) : Manner String Nat Unit where
  accepts _ :=
    if name = "a" then .operate (.unregister "b") (.operate (.register "c" "c") (.finish false))
    else .finish true
  activate _ := .finish name.length

/-- Two registrations, a dispatch and a look at the names. -/
def meddled : Play String Nat Unit Unit :=
  .operate (.register "a" "a")
    (.operate (.register "b" "b") (.dispatch "f" fun _ => .look fun _ => .finish ()))

/-- A handler that was taken off during a dispatch is still asked in it, and
one that was added is not, though its name is told afterwards. -/
theorem registry_law_meddled :
    let final := run meddling 1 meddled .bare ()
    (∃ r ∈ final.rounds, r.result.toOption = some (some 1) ∧
      r.asked.map (fun (h, b) => (h, b.toOption)) = [("a", some false), ("b", some true)] ∧
      Runs ((standing r.began).map (·.handler)) r.asked r.activated r.result) ∧
    ∃ l ∈ final.looks, l.names = ["a", "c"] ∧ l.names = (standing l.history).map (·.name) := by
  intro final
  have hrounds : final.rounds.map (fun r => (r.result.toOption,
      r.asked.map fun (h, b) => (h, b.toOption))) =
      [(some (some 1), [("a", some false), ("b", some true)])] := by decide +kernel
  have hlooks : final.looks.map (·.names) = [["a", "c"]] := by decide +kernel
  obtain ⟨r, hr, hround⟩ := List.map_eq_singleton_iff.1 hrounds
  obtain ⟨l, hl, hnames⟩ := List.map_eq_singleton_iff.1 hlooks
  obtain ⟨htold, hasked, -⟩ :=
    registry_law meddling 1 meddled .bare ()
  have hmem : r ∈ final.rounds := hr ▸ List.mem_singleton_self r
  have hlook : l ∈ final.looks := hl ▸ List.mem_singleton_self l
  rw [Prod.mk.injEq] at hround
  exact ⟨⟨r, hmem, hround.1, hround.2, hasked r hmem⟩, l, hlook, hnames, (htold l hlook).2.1⟩

end Interplay

end Disasm
