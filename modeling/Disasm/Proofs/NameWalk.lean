import Disasm.Proofs.NullCharacter
import Disasm.Proofs.SettledPlace
import Mathlib.Logic.Relation
/-!
# Walks along names — how far they get

A path is resolved by walking along its names: down into what stands
there, back at double dots, and through the target of a link in place of
its name. `Step` is one step of that walk, with nothing in it about how it
is carried out or what it may cost. A walk has one way to go, so that it
is lost once it is at a name that is not there or at a link that leads
back to itself (`not_lost_of_ends`). Resolving names is such a walk to its
end (`walks_of_resolve`).
-/

namespace Disasm.FileTree

open Relation

variable {t : FileTree} {here p q place : Place} {name path target : String} {node : Node}
variable {names rest : List String}

/-! ## Steps -/

/-- Where a walk stands: a place, and the names ahead of it. -/
abbrev Standing := Place × List String

/-- Where a name leads from a place, and what names it puts ahead. What is
no link is walked into, be it a directory or not; a link is left for its
target. -/
def turn? (t : FileTree) (here : Place) (name : String) : Option Standing :=
  if name = "." then some (here, [])
  else if name = ".." then some (here.dropLast, [])
  else match t.node? (here ++ [name]) with
    | none => none
    | some (.link target) => some (startOf here target, pathNames target)
    | some _ => some (here ++ [name], [])

/-- Where a walk stands next. -/
def next? (t : FileTree) : Standing → Option Standing
  | (_, []) => none
  | (here, name :: rest) => (t.turn? here name).map fun turned => (turned.1, turned.2 ++ rest)

/-- A walk takes a step. -/
def Step (t : FileTree) (s next : Standing) : Prop :=
  t.next? s = some next

variable {s u next : Standing}

theorem step_of_turn? {turned : Standing} (h : t.turn? here name = some turned)
    (rest : List String) : t.Step (here, name :: rest) (turned.1, turned.2 ++ rest) := by
  rw [Step, next?, h]
  rfl

theorem step_enter (hname : IsPlain name) (hnode : t.node? (here ++ [name]) = some node)
    (hplain : ∀ target, node ≠ .link target) (rest : List String) :
    t.Step (here, name :: rest) (here ++ [name], rest) := by
  have hturn : t.turn? here name = some (here ++ [name], []) := by
    rw [turn?, if_neg hname.ne_dot, if_neg hname.ne_dots, hnode]
    cases node with
    | directory => rfl
    | file content executable => rfl
    | link target => exact absurd rfl (hplain target)
  exact step_of_turn? hturn rest

theorem step_follow (hname : IsPlain name) (hlink : t.node? (here ++ [name]) = some (.link target))
    (rest : List String) :
    t.Step (here, name :: rest) (startOf here target, pathNames target ++ rest) := by
  have hturn : t.turn? here name = some (startOf here target, pathNames target) := by
    rw [turn?, if_neg hname.ne_dot, if_neg hname.ne_dots, hlink]
  exact step_of_turn? hturn rest

/-- **A walk has one way to go.** -/
theorem Step.deterministic (h : t.Step s next) (hu : t.Step s u) : next = u :=
  Option.some.inj (h.symm.trans hu)

/-- What comes after the names ahead does not change a step. -/
theorem Step.append (h : t.Step s next) (rest : List String) :
    t.Step (s.1, s.2 ++ rest) (next.1, next.2 ++ rest) := by
  obtain ⟨here, _ | ⟨name, ahead⟩⟩ := s
  · cases h
  · obtain ⟨turned, hturn, rfl⟩ := Option.map_eq_some_iff.1 h
    dsimp only
    rw [List.append_assoc]
    exact step_of_turn? hturn (ahead ++ rest)

/-- A walk takes some steps, or none. -/
abbrev Walks (t : FileTree) : Standing → Standing → Prop :=
  ReflTransGen t.Step

theorem Walks.append (h : t.Walks s u) (rest : List String) :
    t.Walks (s.1, s.2 ++ rest) (u.1, u.2 ++ rest) :=
  h.lift (fun s : Standing => (s.1, s.2 ++ rest)) fun _ _ hstep => hstep.append rest

/-! ## Walks that are lost -/

/-- A walk is at a name that is not there. -/
def AtMissing (t : FileTree) (s : Standing) : Prop :=
  ∃ name rest, s.2 = name :: rest ∧ name ≠ "." ∧ name ≠ ".." ∧ t.node? (s.1 ++ [name]) = none

/-- A walk is at a link that leads back to itself: following it alone comes
to it again. -/
def AtCycle (t : FileTree) (s : Standing) : Prop :=
  ∃ name rest more, s.2 = name :: rest ∧ TransGen t.Step (s.1, [name]) (s.1, name :: more)

/-- From wherever a walk has come to, it goes on to its end. -/
theorem ends_of_walks (h : t.Walks s (p, [])) (hu : t.Walks s u) : t.Walks u (p, []) := by
  induction hu with
  | refl => exact h
  | tail _ hstep ih =>
    rcases ih.cases_head with rfl | ⟨next, hnext, hrest⟩
    · cases hstep
    · rwa [hstep.deterministic hnext]

/-- A walk that comes to its end does not go on forever. -/
theorem acc_of_ends (h : t.Walks s (p, [])) : Acc (Function.swap t.Step) s := by
  induction h using ReflTransGen.head_induction_on with
  | refl => exact ⟨_, fun next hnext => by cases hnext⟩
  | head hstep _ ih =>
    refine ⟨_, fun next hnext => ?_⟩
    rw [Step.deterministic hnext hstep]
    exact ih

/-- Whereas one at a link that leads back to itself does. -/
theorem not_atCycle_of_acc (h : Acc (TransGen (Function.swap t.Step)) s) : ¬t.AtCycle s := by
  induction h with
  | intro s _ ih =>
    rintro ⟨name, rest, more, hahead, hback⟩
    -- Each time around, the walk is at the link again with what its target left behind it.
    have hagain : TransGen t.Step (s.1, [name] ++ rest) (s.1, name :: more ++ rest) :=
      hback.lift (fun u : Standing => (u.1, u.2 ++ rest)) fun _ _ hstep => hstep.append rest
    have hs : s = (s.1, [name] ++ rest) := Prod.ext rfl hahead
    rw [← hs] at hagain
    exact ih _ (transGen_swap.2 hagain) ⟨name, more ++ rest, more, rfl, hback⟩

/-- **A walk that comes to its end was never lost.** -/
theorem not_lost_of_ends (h : t.Walks s (p, [])) (hu : t.Walks s u) :
    ¬(t.AtMissing u ∨ t.AtCycle u) := by
  have hend := ends_of_walks h hu
  rintro (⟨name, rest, hahead, hdot, hdots, hnode⟩ | hcycle)
  · have hstuck : t.next? u = none := by
      obtain ⟨here, ahead⟩ := u
      dsimp only at hahead hnode
      rw [hahead, next?, turn?, if_neg hdot, if_neg hdots, hnode]
      rfl
    rcases hend.cases_head with rfl | ⟨next, hnext, -⟩
    · cases hahead
    · cases hstuck.symm.trans hnext
  · exact not_atCycle_of_acc (acc_of_ends hend).transGen hcycle

/-! ## Resolving is a walk -/

/-- At every depth names are resolved one by one. -/
theorem exists_resolveBy (t : FileTree) (depth : Nat) :
    ∃ through, t.resolve depth = t.resolveBy through := by
  cases depth with
  | zero => exact ⟨_, rfl⟩
  | succ depth => exact ⟨_, rfl⟩

/-- Single dots are nothing to resolve. -/
theorem resolveBy_undotted (through : Place → String → Except Failure Place) (here : Place)
    (names : List String) :
    t.resolveBy through here (names.filter (· ≠ ".")) = t.resolveBy through here names := by
  induction names generalizing here with
  | nil => rfl
  | cons name rest ih =>
    by_cases hdot : name = "."
    · have hskip : t.resolveBy through here (name :: rest) = t.resolveBy through here rest := by
        rw [resolveBy, if_pos hdot]
      rw [List.filter_cons_of_neg (by simpa using hdot), ih, hskip]
    rw [List.filter_cons_of_pos (by simpa using hdot)]
    by_cases hdots : name = ".."
    · rw [resolveBy, if_neg hdot, if_pos hdots, resolveBy, if_neg hdot, if_pos hdots, ih]
    rw [resolveBy_cons hdot hdots, resolveBy_cons hdot hdots]
    refine bind_congr fun found => ?_
    obtain ⟨place, node⟩ := found
    cases node with
    | directory => exact ih _
    | file content executable => exact ih _
    | link target => exact bind_congr fun q => ih q

/-- A rooted path that is read and written again has the same canonical
place. -/
theorem canonical_ofString {cwd : Place} (hroot : Text.startsWith path "/" = true) :
    t.canonical cwd (Path.ofString path).text = t.canonical cwd path := by
  obtain ⟨through, hby⟩ := exists_resolveBy t t.depthBound
  rw [canonical, canonical, startOf, startOf, if_pos hroot, if_pos (Path.startsWith_ofString hroot),
    Path.pathNames_ofString hroot, Path.namesOf_eq, hby]
  exact resolveBy_undotted through [] (pathNames path)

/-- Resolving names from a settled place walks along them to the end, if
following a link walks along its target. -/
theorem walks_of_resolveBy {through : Place → String → Except Failure Place}
    (hthrough : ∀ {here q : Place} {name target : String}, t.Directory here →
      through (here ++ [name]) target = .ok q →
      t.Settled q ∧ t.Walks (startOf here target, pathNames target) (q, []))
    (hhere : t.Settled here) (hnames : ∀ name ∈ names, IsName name)
    (h : t.resolveBy through here names = .ok p) : t.Walks (here, names) (p, []) := by
  induction names generalizing here with
  | nil =>
    cases h
    exact .refl
  | cons name names ih =>
    rw [List.forall_mem_cons] at hnames
    by_cases hdot : name = "."
    · rw [resolveBy, if_pos hdot] at h
      exact .head (step_of_turn? (if_pos hdot) names) (ih hhere hnames.2 h)
    by_cases hdots : name = ".."
    · rw [resolveBy, if_neg hdot, if_pos hdots] at h
      have hturn : t.turn? here name = some (here.dropLast, []) :=
        (if_neg hdot).trans (if_pos hdots)
      exact .head (step_of_turn? hturn names) (ih hhere.dropLast hnames.2 h)
    have hname : IsPlain name := ⟨hnames.1, hdot, hdots⟩
    have hdir := hhere.directory_of_resolveBy hname h
    obtain ⟨node, hnode, hrest⟩ := resolveBy_plain hdir hname h
    cases node with
    | directory =>
      have hnext := ih (.directory (hdir.concat hname hnode)) hnames.2 hrest
      exact .head (step_enter hname hnode (fun _ => Node.noConfusion) names) hnext
    | file content executable =>
      have hnext := ih (.file hdir hname hnode) hnames.2 hrest
      exact .head (step_enter hname hnode (fun _ => Node.noConfusion) names) hnext
    | link target =>
      obtain ⟨q, hq, hrest⟩ := hrest
      obtain ⟨hsettled, hwalks⟩ := hthrough hdir hq
      -- Along the target first, with the names behind the link still ahead.
      have htarget := hwalks.append names
      rw [List.nil_append] at htarget
      exact .head (step_follow hname hnode names) (htarget.trans (ih hsettled hnames.2 hrest))

/-- **Resolving names walks along them to the end.** -/
theorem walks_of_resolve {budget : Nat} (hhere : t.Settled here)
    (hnames : ∀ name ∈ names, IsName name) (h : t.resolve budget here names = .ok p) :
    t.Walks (here, names) (p, []) := by
  induction budget generalizing here p names with
  | zero => exact walks_of_resolveBy (fun _ hthrough => by cases hthrough) hhere hnames h
  | succ budget ih =>
    refine walks_of_resolveBy (fun {here q name target} hdir hthrough => ?_) hhere hnames h
    rw [List.dropLast_concat] at hthrough
    have hstart : t.Settled (startOf here target) := .directory (hdir.startOf target)
    have htarget : ∀ name ∈ pathNames target, IsName name := fun _ => isName_of_mem_pathNames
    exact ⟨settled_of_resolve hstart htarget hthrough, ih hstart htarget hthrough⟩

end Disasm.FileTree
